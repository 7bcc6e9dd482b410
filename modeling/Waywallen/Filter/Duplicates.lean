import Mathlib.Data.Prod.Lex
import Mathlib.Data.String.Basic
import Waywallen.Library.Best
import Waywallen.Library.Evolves
import Waywallen.Filter.Ordered

/-!
# The sweep of duplicate rows

At startup the rows of one file are reduced to one: of those with the longest library root, the one
with the lowest id. The listing of entries picks a row for each file by itself, on a tie the first
one by library and path.
-/

namespace Waywallen

/-- The file of a row, with the library of the row. -/
def resourceOf (it : Item) (lib : Library) : String :=
  String.ofList (UnixPath.joinPath lib.path.toList it.path.toList)

/-- All items, by library and path. -/
def listItemsAll (db : Db) : List Item :=
  db.items.rows.mergeSort fun a b =>
    a.libraryId < b.libraryId || a.libraryId = b.libraryId && a.path ≤ b.path

section

variable (files : Files)

/-- A resource without a key is a file of its own. -/
def fileKey (resource : String) : String :=
  (files.dedupKey resource).getD ("raw:" ++ resource)

/-- The rows of each file, each as its id and the path of its library. -/
def groupByFile (libraries : List Library) (items : List Item) :
    HashMap String (List (ℕ × String)) :=
  items.foldl (fun groups it =>
    match libraries.find? fun l => l.id = it.libraryId with
    | none => groups
    | some lib =>
      let key := fileKey files (resourceOf it lib)
      groups.insert key ((groups.lookup key).getD [] ++ [(it.id, lib.path)])) ∅

/-- The longest root first, then the lowest id. -/
def winsOver (a b : ℕ × String) : Bool :=
  b.2.utf8ByteSize < a.2.utf8ByteSize || b.2.utf8ByteSize = a.2.utf8ByteSize && a.1 ≤ b.1

def duplicateIds (groups : HashMap String (List (ℕ × String))) : List ℕ :=
  groups.values.flatMap fun members =>
    if members.length ≤ 1 then [] else (members.mergeSort winsOver).tail.map Prod.fst

def deduplicateDbItems (o : Outside) : SessionM ℕ := do
  let libraries ← listLibraries o
  let items ← select o "select all items" listItemsAll
  let toDelete := duplicateIds (groupByFile files libraries items)
  if toDelete = [] then
    return 0
  call o "delete duplicate items" fun db =>
    some (db.items.rows.countP fun i => i.id ∈ toDelete, db.deleteItems fun i => i.id ∈ toDelete)

end

/-! ## Groups of rows -/

/-- The items with their libraries, as they are listed. -/
def Db.located (db : Db) : List (Item × Library) :=
  (listItemsAll db).filterMap fun it => (db.libraryOf it).map (it, ·)

def Db.fileOf (files : Files) (db : Db) (i : Item) : Option String :=
  (db.libraryOf i).map fun lib => fileKey files (resourceOf i lib)

def Db.rootLength (db : Db) (i : Item) : ℕ :=
  (db.libraryOf i).elim 0 fun lib => lib.path.utf8ByteSize

def Db.entryOf (db : Db) (i : Item) : Option LoadedEntry :=
  (db.libraryOf i).map fun lib => entryFromItem i lib.path

/-- Among the rows of its file, the row has the longest root, and is first of these. -/
def Db.Wins (files : Files) (db : Db) (first : Item → Item → Prop) (i : Item) : Prop :=
  ∀ j ∈ db.items, db.fileOf files j = db.fileOf files i → j ≠ i →
    db.rootLength j < db.rootLength i ∨ db.rootLength j = db.rootLength i ∧ first i j

/-- The row stands before another one in the listing of all items. -/
def Item.Before (i j : Item) : Prop :=
  i.libraryId < j.libraryId ∨ i.libraryId = j.libraryId ∧ i.path < j.path

def Item.Older (i j : Item) : Prop := i.id < j.id

instance : DecidableRel Item.Before := fun i j =>
  inferInstanceAs (Decidable (i.libraryId < j.libraryId ∨ i.libraryId = j.libraryId ∧ i.path < j.path))

instance : DecidableRel Item.Older := fun i j => inferInstanceAs (Decidable (i.id < j.id))

instance (files : Files) (db : Db) (first : Item → Item → Prop) [DecidableRel first] :
    DecidablePred (db.Wins files first) := fun i =>
  inferInstanceAs (Decidable (∀ j ∈ db.items.rows, db.fileOf files j = db.fileOf files i → j ≠ i →
    db.rootLength j < db.rootLength i ∨ db.rootLength j = db.rootLength i ∧ first i j))

section

variable {files : Files} {db : Db} {i j : Item} {lib : Library}

theorem Db.exists_libraryOf (hi : i ∈ db.items) : ∃ lib, db.libraryOf i = some lib := by
  obtain ⟨l, hl, hid⟩ := db.item_library i hi
  exact ⟨l, by rw [libraryOf, ← hid]; exact Table.find?_id hl⟩

theorem Db.fileOf_eq (h : db.libraryOf i = some lib) :
    db.fileOf files i = some (fileKey files (resourceOf i lib)) := by
  rw [fileOf, h, Option.map_some]

theorem Db.rootLength_eq (h : db.libraryOf i = some lib) :
    db.rootLength i = lib.path.utf8ByteSize := by
  rw [rootLength, h, Option.elim_some]

theorem mem_listItemsAll : i ∈ listItemsAll db ↔ i ∈ db.items :=
  (List.mergeSort_perm _ _).mem_iff

theorem Db.mem_located {p : Item × Library} :
    p ∈ db.located ↔ p.1 ∈ db.items ∧ db.libraryOf p.1 = some p.2 := by
  unfold located
  rw [List.mem_filterMap]
  constructor
  · rintro ⟨i, hi, h⟩
    obtain ⟨lib, hlib, rfl⟩ := Option.map_eq_some_iff.1 h
    exact ⟨mem_listItemsAll.1 hi, hlib⟩
  · rintro ⟨hi, hlib⟩
    exact ⟨p.1, mem_listItemsAll.2 hi, by rw [hlib, Option.map_some]⟩

theorem Item.Before.asymm (h : i.Before j) : ¬ j.Before i := by
  rintro (h' | ⟨heq', h'⟩) <;> rcases h with h | ⟨heq, h⟩
  · omega
  · omega
  · omega
  · exact lt_asymm h h'

/-- The listing is in the order of libraries and paths. -/
theorem pairwise_listItemsAll : (listItemsAll db).Pairwise Item.Before := by
  have hsorted : (listItemsAll db).Pairwise fun a b => (decide (a.libraryId < b.libraryId) ||
      decide (a.libraryId = b.libraryId) && decide (a.path ≤ b.path)) = true := by
    refine List.pairwise_mergeSort (fun a b c => ?_) (fun a b => ?_) db.items.rows
    · simp only [Bool.or_eq_true, Bool.and_eq_true, decide_eq_true_eq]
      rintro (h | ⟨h, hp⟩) (h' | ⟨h', hp'⟩)
      · exact .inl (h.trans h')
      · exact .inl (h' ▸ h)
      · exact .inl (h ▸ h')
      · exact .inr ⟨h.trans h', hp.trans hp'⟩
    · simp only [Bool.or_eq_true, Bool.and_eq_true, decide_eq_true_eq]
      have := le_total a.path b.path
      rcases Nat.lt_trichotomy a.libraryId b.libraryId with h | h | h
      · exact .inl (.inl h)
      · exact this.imp (fun hp => .inr ⟨h, hp⟩) fun hp => .inr ⟨h.symm, hp⟩
      · exact .inr (.inl h)
  have hkeys : (listItemsAll db).Pairwise fun a b => Item.schema.key a ≠ Item.schema.key b :=
    List.pairwise_map.1 (((List.mergeSort_perm _ _).map _).nodup_iff.2 db.items.distinct)
  refine (hsorted.and hkeys).imp fun {a b} h => ?_
  obtain ⟨h, hne⟩ := h
  simp only [Bool.or_eq_true, Bool.and_eq_true, decide_eq_true_eq] at h
  obtain h | ⟨h, hp⟩ := h
  · exact .inl h
  · exact .inr ⟨h, lt_of_le_of_ne hp fun heq => hne (Prod.ext h heq)⟩

theorem pairwise_located : db.located.Pairwise fun p q => p.1.Before q.1 := by
  refine pairwise_listItemsAll.filterMap _ fun a a' h b hb b' hb' => ?_
  obtain ⟨-, -, rfl⟩ := Option.map_eq_some_iff.1 hb
  obtain ⟨-, -, rfl⟩ := Option.map_eq_some_iff.1 hb'
  exact h

/-! ## The entries that are listed -/

theorem loadEntries_eq : loadEntries files db =
    dedupEntriesByCanonical files (db.located.map fun p => entryFromItem p.1 p.2.path) := by
  have hentries : db.located.map (fun p => entryFromItem p.1 p.2.path) =
      (listItemsAll db).filterMap fun it => (db.libraryOf it).map fun lib =>
        entryFromItem it lib.path := by
    rw [Db.located, List.map_filterMap]
    refine List.filterMap_congr fun it _ => ?_
    rw [Option.map_map]
    rfl
  rw [hentries]
  rfl

theorem takeEntry_eq : takeEntry files = Best.keepBest (fun e => fileKey files e.resource)
    fun e => e.libraryRoot.utf8ByteSize := by
  funext byFile entry
  unfold takeEntry Best.keepBest
  dsimp only [fileKey]
  cases byFile.lookup ((files.dedupKey entry.resource).getD ("raw:" ++ entry.resource)) <;> rfl

/-- The rows that win are the best of the rows with their key. -/
theorem mem_argmax_located {k : String} {p : Item × Library} :
    p ∈ (db.located.filter fun q => fileKey files (resourceOf q.1 q.2) = k).argmax
      (fun q => q.2.path.utf8ByteSize) ↔
    p ∈ db.located ∧ fileKey files (resourceOf p.1 p.2) = k ∧ db.Wins files Item.Before p.1 := by
  rw [Best.mem_argmax_of_pairwise (R := fun p q => p.1.Before q.1) (pairwise_located.filter _)
    fun _ _ => Item.Before.asymm, List.mem_filter, and_assoc, decide_eq_true_eq]
  refine and_congr_right fun hp => and_congr_right fun hk => ?_
  obtain ⟨hi, hlib⟩ := Db.mem_located.1 hp
  constructor
  · intro h j hj hfile hne
    obtain ⟨lib', hlib'⟩ := Db.exists_libraryOf hj
    rw [Db.fileOf_eq hlib, Db.fileOf_eq hlib', hk, Option.some_inj] at hfile
    have hmem : (j, lib') ∈ db.located.filter fun q => fileKey files (resourceOf q.1 q.2) = k :=
      List.mem_filter.2 ⟨Db.mem_located.2 ⟨hj, hlib'⟩, decide_eq_true hfile⟩
    have hbest := h _ hmem fun heq => hne (congrArg Prod.fst heq)
    rwa [Db.rootLength_eq hlib, Db.rootLength_eq hlib']
  · intro h q hq hne
    obtain ⟨hq, hqk⟩ := List.mem_filter.1 hq
    obtain ⟨hj, hlib'⟩ := Db.mem_located.1 hq
    have hfile : db.fileOf files q.1 = db.fileOf files p.1 := by
      rw [Db.fileOf_eq hlib, Db.fileOf_eq hlib', hk, of_decide_eq_true hqk]
    have hne : q.1 ≠ p.1 := fun heq => hne (Prod.ext heq (Option.some_inj.1
      (hlib'.symm.trans (heq ▸ hlib))))
    have hbest := h q.1 hj hfile hne
    rwa [Db.rootLength_eq hlib, Db.rootLength_eq hlib'] at hbest

theorem mem_loadEntries {e : LoadedEntry} : e ∈ loadEntries files db ↔
    ∃ i ∈ db.items, db.Wins files Item.Before i ∧ db.entryOf i = some e := by
  rw [loadEntries_eq, dedupEntriesByCanonical, (List.mergeSort_perm _ _).mem_iff,
    HashMap.mem_values_iff, takeEntry_eq]
  have hlookup (k : String) : ((db.located.map fun p => entryFromItem p.1 p.2.path).foldl
      (Best.keepBest (fun e => fileKey files e.resource) fun e => e.libraryRoot.utf8ByteSize)
      ∅).lookup k = ((db.located.filter fun q => fileKey files (resourceOf q.1 q.2) = k).argmax
        fun q => q.2.path.utf8ByteSize).map fun p => entryFromItem p.1 p.2.path := by
    rw [Best.lookup_foldl_keepBest, List.filter_map, Best.argmax_map]
    rfl
  simp only [hlookup, Option.map_eq_some_iff]
  constructor
  · rintro ⟨k, p, hp, rfl⟩
    obtain ⟨hp, -, hwins⟩ := mem_argmax_located.1 hp
    obtain ⟨hi, hlib⟩ := Db.mem_located.1 hp
    exact ⟨p.1, hi, hwins, by rw [Db.entryOf, hlib, Option.map_some]⟩
  · rintro ⟨i, hi, hwins, he⟩
    obtain ⟨lib, hlib, rfl⟩ := Option.map_eq_some_iff.1 he
    exact ⟨_, (i, lib), mem_argmax_located.2 ⟨Db.mem_located.2 ⟨hi, hlib⟩, rfl, hwins⟩, rfl⟩

theorem nodup_loadEntries : (loadEntries files db).Nodup := by
  rw [loadEntries_eq, dedupEntriesByCanonical, (List.mergeSort_perm _ _).nodup_iff, takeEntry_eq]
  exact Best.nodup_values_keepBest _ _ _

theorem pairwise_loadEntries :
    (loadEntries files db).Pairwise fun a b => decide (a.itemId ≤ b.itemId) = true := by
  rw [loadEntries_eq, dedupEntriesByCanonical]
  refine List.pairwise_mergeSort (fun a b c => ?_) (fun a b => ?_) _
  · simp only [decide_eq_true_eq]
    exact le_trans
  · simp only [Bool.or_eq_true, decide_eq_true_eq]
    exact le_total ..

theorem entryOf_itemId {e : LoadedEntry} (h : db.entryOf i = some e) : e.itemId = i.id := by
  obtain ⟨lib, -, rfl⟩ := Option.map_eq_some_iff.1 h
  rfl

/-- Two databases list the same entries in the same order when they list the same. -/
theorem loadEntries_congr {db' : Db} (h : ∀ e, e ∈ loadEntries files db' ↔ e ∈ loadEntries files db) :
    loadEntries files db' = loadEntries files db := by
  refine List.Perm.eq_of_pairwise (fun a b ha hb hab hba => ?_) pairwise_loadEntries
    pairwise_loadEntries ((List.perm_ext_iff_of_nodup nodup_loadEntries nodup_loadEntries).2 h)
  exact eq_of_itemId_eq ((h a).1 ha) hb
    (le_antisymm (of_decide_eq_true hab) (of_decide_eq_true hba))

/-! ## The rows that are deleted -/

/-- A row with its library, as it is among the rows of its file. -/
def member (p : Item × Library) : ℕ × String := (p.1.id, p.2.path)

theorem groupByFile_eq : groupByFile files db.libraries.rows (listItemsAll db) =
    db.located.foldl (Best.push (fun p => fileKey files (resourceOf p.1 p.2)) member) ∅ := by
  rw [Db.located, List.foldl_filterMap, groupByFile]
  congr 1
  funext groups it
  rw [Db.libraryOf]
  cases db.libraries.rows.find? fun l => l.id = it.libraryId <;> rfl

theorem mem_duplicateIds {groups : HashMap String (List (ℕ × String))} {n : ℕ} :
    n ∈ duplicateIds groups ↔
      ∃ k, ∃ a ∈ (((groups.lookup k).getD []).mergeSort winsOver).tail, a.1 = n := by
  have htail (members : List (ℕ × String)) :
      (n ∈ if members.length ≤ 1 then [] else (members.mergeSort winsOver).tail.map Prod.fst) ↔
        ∃ a ∈ (members.mergeSort winsOver).tail, a.1 = n := by
    split
    · have hnil : (members.mergeSort winsOver).tail = [] :=
        List.eq_nil_of_length_eq_zero (by
          rw [List.length_tail, List.length_mergeSort]
          omega)
      simp [hnil]
    · exact List.mem_map
  rw [duplicateIds, List.mem_flatMap]
  simp only [htail, HashMap.mem_values_iff]
  constructor
  · rintro ⟨members, ⟨k, hk⟩, h⟩
    exact ⟨k, by rwa [hk, Option.getD_some]⟩
  · rintro ⟨k, h⟩
    cases hk : groups.lookup k with
    | none =>
      rw [hk] at h
      simp at h
    | some members =>
      rw [hk, Option.getD_some] at h
      exact ⟨members, ⟨k, hk⟩, h⟩

theorem member_injective {p q : Item × Library} (hp : p ∈ db.located) (hq : q ∈ db.located)
    (h : p.1.id = q.1.id) : p = q := by
  obtain ⟨hi, hlib⟩ := Db.mem_located.1 hp
  obtain ⟨hj, hlib'⟩ := Db.mem_located.1 hq
  have hij : p.1 = q.1 := Table.id_injective hi hj h
  exact Prod.ext hij (Option.some_inj.1 (hlib.symm.trans (hij ▸ hlib')))

theorem winsOver_iff {a b : ℕ × String} : winsOver a b = true ↔
    b.2.utf8ByteSize < a.2.utf8ByteSize ∨ b.2.utf8ByteSize = a.2.utf8ByteSize ∧ a.1 ≤ b.1 := by
  simp only [winsOver, Bool.or_eq_true, Bool.and_eq_true, decide_eq_true_eq]

theorem winsOver_trans (a b c : ℕ × String) : winsOver a b → winsOver b c → winsOver a c := by
  simp only [winsOver_iff]
  omega

theorem winsOver_total (a b : ℕ × String) : (winsOver a b || winsOver b a) = true := by
  simp only [winsOver_iff, Bool.or_eq_true]
  omega

section

variable (files : Files) (db : Db) (k : String)

/-- The rows with a key. -/
def members : List (ℕ × String) :=
  (db.located.filter fun p => fileKey files (resourceOf p.1 p.2) = k).map member

variable {files db k}

theorem mem_members {a : ℕ × String} : a ∈ members files db k ↔
    ∃ p ∈ db.located, fileKey files (resourceOf p.1 p.2) = k ∧ member p = a := by
  simp only [members, List.mem_map, List.mem_filter, decide_eq_true_eq, and_assoc]

theorem members_antisymm (a : ℕ × String) (ha : a ∈ members files db k) (b : ℕ × String)
    (hb : b ∈ members files db k) (hab : winsOver a b) (hba : winsOver b a) : a = b := by
  obtain ⟨p, hp, -, rfl⟩ := mem_members.1 ha
  obtain ⟨q, hq, -, rfl⟩ := mem_members.1 hb
  rw [winsOver_iff] at hab hba
  have hid : p.1.id = q.1.id := by
    simp only [member] at hab hba
    omega
  rw [member_injective hp hq hid]

theorem nodup_members : (members files db k).Nodup := by
  have hnd : db.located.Nodup := by
    have hsorted : db.located.Pairwise fun p q => p.1.Before q.1 := pairwise_located
    refine hsorted.imp fun {p q} h heq => ?_
    subst heq
    exact h.asymm h
  refine List.Nodup.map_on (fun p hp q hq h => ?_) (hnd.filter _)
  exact member_injective (List.mem_filter.1 hp).1 (List.mem_filter.1 hq).1 (congrArg Prod.fst h)

end

/-- A row is deleted exactly if another row of its file wins. -/
theorem mem_duplicateIds_iff (hi : i ∈ db.items) :
    i.id ∈ duplicateIds (groupByFile files db.libraries.rows (listItemsAll db)) ↔
      ¬ db.Wins files Item.Older i := by
  have hgroup (k : String) : (((groupByFile files db.libraries.rows (listItemsAll db)).lookup
      k).getD []) = members files db k := by
    rw [groupByFile_eq, Best.lookup_foldl_push]
    rfl
  have htail (k : String) (a : ℕ × String) :
      a ∈ ((members files db k).mergeSort winsOver).tail ↔
        a ∈ members files db k ∧ ∃ b ∈ members files db k, b ≠ a ∧ winsOver b a :=
    Best.mem_tail_mergeSort winsOver_trans winsOver_total members_antisymm nodup_members
  obtain ⟨lib, hlib⟩ := Db.exists_libraryOf hi
  have hlocated : (i, lib) ∈ db.located := Db.mem_located.2 ⟨hi, hlib⟩
  simp only [mem_duplicateIds, hgroup, htail]
  constructor
  · rintro ⟨k, a, ⟨ha, b, hb, hne, hwins⟩, hid⟩ hall
    obtain ⟨p, hp, hpk, rfl⟩ := mem_members.1 ha
    obtain ⟨q, hq, hqk, rfl⟩ := mem_members.1 hb
    obtain rfl := member_injective hp hlocated hid
    obtain ⟨hj, hlib'⟩ := Db.mem_located.1 hq
    have hfile : db.fileOf files q.1 = db.fileOf files i := by
      rw [Db.fileOf_eq hlib', Db.fileOf_eq hlib, hqk, hpk]
    have hne : q.1 ≠ i := fun heq => hne (congrArg member
      (member_injective hq hlocated (congrArg Item.id heq)))
    have hbest := hall q.1 hj hfile hne
    rw [Db.rootLength_eq hlib, Db.rootLength_eq hlib'] at hbest
    rw [winsOver_iff] at hwins
    simp only [Item.Older, member] at hbest hwins
    omega
  · intro hnot
    simp only [Db.Wins, not_forall] at hnot
    obtain ⟨j, hj, hfile, hne, hnot⟩ := hnot
    obtain ⟨lib', hlib'⟩ := Db.exists_libraryOf hj
    have hlocated' : (j, lib') ∈ db.located := Db.mem_located.2 ⟨hj, hlib'⟩
    rw [Db.fileOf_eq hlib', Db.fileOf_eq hlib, Option.some_inj] at hfile
    rw [Db.rootLength_eq hlib, Db.rootLength_eq hlib'] at hnot
    have hid : j.id ≠ i.id := fun h => hne (Table.id_injective hj hi h)
    refine ⟨_, member (i, lib), ⟨mem_members.2 ⟨_, hlocated, rfl, rfl⟩, member (j, lib'),
      mem_members.2 ⟨_, hlocated', hfile, rfl⟩, fun h => hid (congrArg Prod.fst h), ?_⟩, rfl⟩
    rw [winsOver_iff]
    simp only [Item.Older, member] at hnot ⊢
    omega

end

/-! ## What is left -/

/-- What the sweep leaves: the winners, and what refers to no other row. -/
structure Db.Deduplicated (files : Files) (db db' : Db) : Prop where
  items : ∀ i, i ∈ db'.items ↔ i ∈ db.items ∧ db.Wins files Item.Older i
  libraries : db'.libraries = db.libraries
  playlistItems : ∀ e, e ∈ db'.playlistItems ↔
    e ∈ db.playlistItems ∧ ∀ i ∈ db.items, i.id = e.entryId → db.Wins files Item.Older i

section

variable {files : Files} {db db' : Db} {i j : Item}

/-- In a group of rows there is at most one that wins. -/
theorem Db.Wins.unique {first : Item → Item → Prop} (hasymm : ∀ a b, first a b → ¬ first b a)
    (hi : i ∈ db.items) (hj : j ∈ db.items) (hfile : db.fileOf files i = db.fileOf files j)
    (h : db.Wins files first i) (h' : db.Wins files first j) : i = j := by
  by_contra hne
  rcases h j hj hfile.symm (Ne.symm hne) with hlt | ⟨heq, hfirst⟩ <;>
    rcases h' i hi hfile hne with hlt' | ⟨heq', hfirst'⟩
  · omega
  · omega
  · omega
  · exact hasymm _ _ hfirst hfirst'

theorem Item.Older.asymm (a b : Item) (h : a.Older b) : ¬ b.Older a :=
  lt_asymm (a := a.id) h

variable (files) in
/-- The best row of a group: the longest root, then the lowest id. -/
theorem Db.exists_wins_older (hi : i ∈ db.items) :
    ∃ j ∈ db.items, db.fileOf files j = db.fileOf files i ∧ db.Wins files Item.Older j := by
  set group := db.items.rows.filter fun j => db.fileOf files j = db.fileOf files i with hgroup
  have hmem (j : Item) : j ∈ group ↔ j ∈ db.items ∧ db.fileOf files j = db.fileOf files i := by
    rw [hgroup, List.mem_filter, decide_eq_true_eq]
    rfl
  set weight : Item → ℕ ×ₗ ℕᵒᵈ := fun j => toLex (db.rootLength j, OrderDual.toDual j.id)
  have hsome : group.argmax weight ≠ none :=
    mt List.argmax_eq_none.1 (List.ne_nil_of_mem ((hmem i).2 ⟨hi, rfl⟩))
  obtain ⟨j, hj⟩ := Option.ne_none_iff_exists'.1 hsome
  obtain ⟨hjitems, hfile⟩ := (hmem j).1 (List.argmax_mem hj)
  refine ⟨j, hjitems, hfile, fun k hk hkfile hne => ?_⟩
  have hle : weight k ≤ weight j :=
    List.le_of_mem_argmax ((hmem k).2 ⟨hk, hkfile.trans hfile⟩) hj
  have hid : k.id ≠ j.id := fun h => hne (Table.id_injective hk hjitems h)
  rcases Prod.Lex.toLex_le_toLex.1 hle with hlt | ⟨heq, hdual⟩
  · exact .inl hlt
  · exact .inr ⟨heq, Nat.lt_of_le_of_ne (OrderDual.toDual_le_toDual.1 hdual) (Ne.symm hid)⟩

theorem deduplicated_of_ok {o : Outside} {s s' : Session} {n : ℕ}
    (h : deduplicateDbItems files o s = .ok n s') : s.db.Deduplicated files s'.db := by
  set gone := duplicateIds (groupByFile files s.db.libraries.rows (listItemsAll s.db)) with hgone
  have hwins (i : Item) (hi : i ∈ s.db.items) : i.id ∉ gone ↔ s.db.Wins files Item.Older i := by
    rw [hgone, mem_duplicateIds_iff hi, not_not]
  obtain ⟨libraries, t, hlibraries, h⟩ := exists_of_bind_ok h
  rw [listLibraries] at hlibraries
  obtain ⟨rfl, rfl⟩ := of_select_ok hlibraries
  obtain ⟨items, u, hitems, h⟩ := exists_of_bind_ok h
  obtain ⟨rfl, rfl⟩ := of_select_ok hitems
  dsimp only at h
  rw [← hgone] at h
  have hdeleted (db' : Db) (h : s.db.deleteItems (fun i => i.id ∈ gone) = db') :
      s.db.Deduplicated files db' := by
    subst h
    refine ⟨fun i => ?_, rfl, fun e => ?_⟩
    · refine Table.mem_delete.trans (and_congr_right fun hi => ?_)
      rw [← hwins i hi, decide_eq_false_iff_not]
    · refine List.mem_filter.trans (and_congr_right fun _ => ?_)
      rw [decide_eq_true_eq]
      simp only [List.mem_map, List.mem_filter, decide_eq_true_eq, not_exists, not_and]
      exact ⟨fun h i hi hid => (hwins i hi).1 fun hmem => h i ⟨hi, hmem⟩ hid,
        fun h i hi hid => (hwins i hi.1).2 (h i hi.1 hid) hi.2⟩
  by_cases hnil : gone = []
  · rw [if_pos hnil] at h
    obtain ⟨-, rfl⟩ := EStateM.Result.ok.inj h
    have hall (i : Item) (hi : i ∈ s.db.items) : s.db.Wins files Item.Older i :=
      (hwins i hi).1 (by rw [hnil]; exact List.not_mem_nil)
    exact ⟨fun i => ⟨fun hi => ⟨hi, hall i hi⟩, And.left⟩, rfl,
      fun e => ⟨fun he => ⟨he, fun i hi _ => hall i hi⟩, And.left⟩⟩
  · rw [if_neg hnil] at h
    obtain ⟨db', heq, rfl⟩ := of_call_ok h
    exact hdeleted db' (Prod.mk.inj (Option.some_inj.1 heq)).2

theorem of_deduplicate_error {o : Outside} {s s' : Session} {e : String}
    (h : deduplicateDbItems files o s = .error e s') :
    s'.db = s.db ∧ ∃ n, o.fails n = true := by
  rw [deduplicateDbItems, listLibraries] at h
  rcases or_of_bind_error h with h | ⟨libraries, t, hlibraries, h⟩
  · exact (fails_of_call_error h (Option.some_ne_none _)).imp id id
  obtain ⟨-, rfl⟩ := of_select_ok hlibraries
  rcases or_of_bind_error h with h | ⟨items, u, hitems, h⟩
  · exact (fails_of_call_error h (Option.some_ne_none _)).imp id id
  obtain ⟨-, rfl⟩ := of_select_ok hitems
  dsimp only at h
  split at h
  · cases h
  · exact (fails_of_call_error h (Option.some_ne_none _)).imp id id

namespace Db.Deduplicated

variable (h : db.Deduplicated files db')

include h

theorem libraryOf : db'.libraryOf i = db.libraryOf i := by
  rw [Db.libraryOf, Db.libraryOf, h.libraries]

theorem fileOf : db'.fileOf files i = db.fileOf files i := by
  rw [Db.fileOf, Db.fileOf, h.libraryOf]

theorem entryOf : db'.entryOf i = db.entryOf i := by
  rw [Db.entryOf, Db.entryOf, h.libraryOf]

/-- Every file has one row. -/
theorem existsUnique (hi : i ∈ db.items) :
    ∃! j, j ∈ db'.items ∧ db.fileOf files j = db.fileOf files i := by
  obtain ⟨j, hj, hfile, hwins⟩ := Db.exists_wins_older files hi
  refine ⟨j, ⟨(h.items j).2 ⟨hj, hwins⟩, hfile⟩, fun k ⟨hk, hkfile⟩ => ?_⟩
  obtain ⟨hk, hkwins⟩ := (h.items k).1 hk
  exact Db.Wins.unique Item.Older.asymm hk hj (hkfile.trans hfile.symm) hkwins hwins

theorem mem_loadEntries {e : LoadedEntry} :
    e ∈ loadEntries files db' ↔ ∃ j ∈ db'.items, db'.entryOf j = some e := by
  rw [Waywallen.mem_loadEntries]
  refine exists_congr fun j => and_congr_right fun hj => and_iff_right fun k hk hfile hne => ?_
  rw [h.fileOf, h.fileOf] at hfile
  obtain ⟨hj, hjwins⟩ := (h.items j).1 hj
  obtain ⟨hk, hkwins⟩ := (h.items k).1 hk
  exact absurd (Db.Wins.unique Item.Older.asymm hk hj hfile hkwins hjwins) hne

/-- A row that is left was listed exactly if it is the first with the longest root. -/
theorem listed_iff {e : LoadedEntry} (hj : j ∈ db'.items) (he : db.entryOf j = some e) :
    e ∈ loadEntries files db ↔ db.Wins files Item.Before j := by
  rw [Waywallen.mem_loadEntries]
  constructor
  · rintro ⟨i, hi, hwins, hie⟩
    have hid : i.id = j.id := (entryOf_itemId hie).symm.trans (entryOf_itemId he)
    rwa [← Table.id_injective hi ((h.items j).1 hj).1 hid]
  · exact fun hwins => ⟨j, ((h.items j).1 hj).1, hwins, he⟩

theorem loadEntries_eq_iff : loadEntries files db' = loadEntries files db ↔
    ∀ j ∈ db'.items, db.Wins files Item.Before j := by
  constructor
  · intro heq j hj
    obtain ⟨lib, hlib⟩ := Db.exists_libraryOf hj
    have he : db'.entryOf j = some (entryFromItem j lib.path) := by
      rw [Db.entryOf, hlib, Option.map_some]
    refine (h.listed_iff hj (h.entryOf.symm.trans he)).1 ?_
    rw [← heq, h.mem_loadEntries]
    exact ⟨j, hj, he⟩
  · refine fun hfirst => loadEntries_congr fun e => ?_
    rw [h.mem_loadEntries]
    constructor
    · rintro ⟨j, hj, he⟩
      rw [h.entryOf] at he
      exact (h.listed_iff hj he).2 (hfirst j hj)
    · intro he
      obtain ⟨i, hi, hwins, hie⟩ := Waywallen.mem_loadEntries.1 he
      obtain ⟨j, ⟨hj, hfile⟩, -⟩ := h.existsUnique hi
      obtain rfl : j = i := Db.Wins.unique (fun _ _ => Item.Before.asymm) ((h.items j).1 hj).1 hi
        hfile (hfirst j hj) hwins
      exact ⟨j, hj, h.entryOf.trans hie⟩

end Db.Deduplicated

/-- One row of every file is left: the one with the longest root and, of these, with the lowest id.
The listing shows these rows. It is the same as before exactly if each of them was the one that was
shown, the first by library and path with the longest root. -/
structure Db.LeavesOne (files : Files) (db db' : Db) : Prop where
  existsUnique : ∀ i ∈ db.items, ∃! j, j ∈ db'.items ∧ db.fileOf files j = db.fileOf files i
  wins : ∀ j ∈ db'.items, j ∈ db.items ∧ db.Wins files Item.Older j
  listed : ∀ e, e ∈ loadEntries files db' ↔ ∃ j ∈ db'.items, db.entryOf j = some e
  shown : ∀ j ∈ db'.items, ∀ e ∈ db.entryOf j,
    (e ∈ loadEntries files db ↔ db.Wins files Item.Before j)
  same : loadEntries files db' = loadEntries files db ↔
    ∀ j ∈ db'.items, db.Wins files Item.Before j

/-- The sweep leaves one row of every file, or a database call fails and nothing is deleted. -/
theorem deduplicateDbItems_leavesOne (files : Files) (o : Outside) (s : Session) :
    match deduplicateDbItems files o s with
    | .ok _ s' => s.db.LeavesOne files s'.db
    | .error _ s' => s'.db = s.db ∧ ∃ n, o.fails n = true := by
  cases h : deduplicateDbItems files o s with
  | error e s' => exact of_deduplicate_error h
  | ok n s' =>
    have hleft := deduplicated_of_ok h
    refine ⟨fun i hi => hleft.existsUnique hi, fun j hj => (hleft.items j).1 hj, fun e => ?_,
      fun j hj e he => hleft.listed_iff hj he, hleft.loadEntries_eq_iff⟩
    rw [hleft.mem_loadEntries]
    simp only [hleft.entryOf]

end

/-! ## A file with two names -/

/-- A library with a picture, and a second name of it that was found later. -/
def linkedDb : Db :=
  let args (path : String) (plugin : SourcePlugin) (library : Library) : ItemUpsertArgs :=
    { pluginId := plugin.id, libraryId := library.id, path, ty := "image", displayName := path,
      previewPath := none, description := none, externalId := none, size := none, width := none,
      height := none, contentRating := none }
  let made := do
    let (plugin, db) ← Db.empty.insertPlugin "folder" "1"
    let (library, db) ← db.insertLibrary plugin.id "/pictures"
    let db ← db.upsertItem "image" 5 (args "sea.png" plugin library)
    db.upsertItem "image" 6 (args "lake.png" plugin library)
  made.getD .empty

/-- All resources are one file. -/
def oneFile : Files :=
  ⟨fun _ => some "ino:1:2", fun _ _ => false, id⟩

/-- Outside, nothing fails. -/
def nothingFails : Outside :=
  ⟨fun n => n, fun _ => false, id⟩

/-- The first name by the alphabet is shown, and the row that was written first stays. -/
theorem not_same_linked : ¬ ∀ (files : Files) (o : Outside) (s s' : Session) (n : ℕ),
    deduplicateDbItems files o s = .ok n s' → loadEntries files s'.db = loadEntries files s.db := by
  intro h
  cases hrun : deduplicateDbItems oneFile nothingFails ⟨linkedDb, 0, []⟩ with
  | error e s' =>
    obtain ⟨-, n, hn⟩ := of_deduplicate_error hrun
    cases hn
  | ok n s' =>
    have hleft := deduplicated_of_ok hrun
    have hfirst := hleft.loadEntries_eq_iff.1 (h _ _ _ _ _ hrun)
    have hrow : ∃ i ∈ linkedDb.items.rows, linkedDb.Wins oneFile Item.Older i ∧
        ¬ linkedDb.Wins oneFile Item.Before i := by decide
    obtain ⟨i, hi, hwins, hnot⟩ := hrow
    exact hnot (hfirst i ((hleft.items i).2 ⟨hi, hwins⟩))

end Waywallen
