import Waywallen.Store.Sweep

/-!
# What a sync writes to each row

A row is found by the plugin, the root of its library and its path below it. A sync writes the
entries at a place one after the other to one row; the row keeps its id, the time it was created
at, and what the entries leave open.
-/

namespace Waywallen

/-- Plugin, library root and path. -/
abbrev RowKey := ℕ × String × String

def Db.rowAt (db : Db) (k : RowKey) : Option Item :=
  (db.libraries.find (k.1, k.2.1)).bind fun l => db.items.find (l.id, k.2.2)

/-- What an upsert makes of the row `old`. -/
structure Item.Upserted (ty : String) (now : Int) (args : ItemUpsertArgs) (old : Option Item)
    (j : Item) : Prop where
  pluginId : j.pluginId = args.pluginId
  ty : j.ty = ty
  displayName : j.displayName = args.displayName
  previewPath : j.previewPath = args.previewPath
  description : j.description = args.description
  externalId : j.externalId = args.externalId
  size : j.size = args.size.or (old.bind Item.size)
  width : j.width = args.width.or (old.bind Item.width)
  height : j.height = args.height.or (old.bind Item.height)
  contentRating : j.contentRating = args.contentRating.or (old.bind Item.contentRating)
  syncAt : j.syncAt = now
  same : ∀ i ∈ old, j.SameRow i
  createAt : ∀ i ∈ old, j.createAt = i.createAt

namespace Db

variable {db db' : Db} {k : RowKey} {i : Item} {l : Library}

theorem rowAt_eq_some : db.rowAt k = some i ↔ ∃ l ∈ db.libraries,
    (l.pluginId, l.path) = (k.1, k.2.1) ∧ i ∈ db.items ∧ (i.libraryId, i.path) = (l.id, k.2.2) := by
  rw [rowAt, Option.bind_eq_some_iff]
  refine exists_congr fun l => ?_
  rw [Table.find_eq_some, Table.find_eq_some, and_assoc]
  rfl

theorem rowAt_congr (hl : db'.libraries = db.libraries) (hi : db'.items = db.items) :
    db'.rowAt k = db.rowAt k := by
  rw [rowAt, rowAt, hl, hi]

/-- Every row is found. -/
theorem rowAt_of_mem (hl : l ∈ db.libraries) (hi : i ∈ db.items) (hid : l.id = i.libraryId) :
    db.rowAt (l.pluginId, l.path, i.path) = some i :=
  rowAt_eq_some.2 ⟨l, hl, rfl, hi, by rw [hid]⟩

/-- A new library has no rows. -/
theorem rowAt_insertLibrary {pluginId : ℕ} {path : String}
    (h : db.insertLibrary pluginId path = some (l, db')) : db'.rowAt k = db.rowAt k := by
  obtain ⟨hfind, hkey, hmem, -, hitems, -⟩ := of_insertLibrary h
  refine Option.ext fun i => ?_
  rw [rowAt_eq_some, rowAt_eq_some, hitems]
  constructor
  · rintro ⟨m, hm, hmk, hi, hik⟩
    rcases (hmem m).1 hm with hm' | rfl
    · exact ⟨m, hm', hmk, hi, hik⟩
    · obtain ⟨n, hn, hid⟩ := db.item_library i hi
      have hnm : n = m := Table.id_injective ((hmem n).2 (.inl hn)) hm
        (hid.trans (congrArg Prod.fst hik))
      exact absurd hkey (Table.find_eq_none.1 hfind m (hnm ▸ hn))
  · rintro ⟨m, hm, hmk, hi, hik⟩
    exact ⟨m, (hmem m).2 (.inl hm), hmk, hi, hik⟩

theorem find_insertLibrary {pluginId : ℕ} {path : String}
    (h : db.insertLibrary pluginId path = some (l, db')) :
    db'.libraries.find (pluginId, path) = some l := by
  obtain ⟨-, hkey, hmem, -⟩ := of_insertLibrary h
  exact Table.find_eq_some.2 ⟨(hmem l).2 (.inr rfl), hkey⟩

/-- An upsert changes one row. -/
theorem rowAt_upsertItem {ty : String} {now : Int} {args : ItemUpsertArgs} {pluginId : ℕ}
    {root : String} (h : db.upsertItem ty now args = some db')
    (hlib : db.libraries.find (pluginId, root) = some l) (hid : args.libraryId = l.id) :
    db'.libraries = db.libraries ∧
      (∃ j, db'.rowAt (pluginId, root, args.path) = some j ∧
        j.Upserted ty now args (db.rowAt (pluginId, root, args.path))) ∧
      ∀ k, k ≠ (pluginId, root, args.path) → db'.rowAt k = db.rowAt k := by
  unfold upsertItem at h
  split at h
  case isFalse => cases h
  split at h
  case isFalse => cases h
  obtain rfl := Option.some_inj.1 h
  refine ⟨rfl, ?_, fun k hk => ?_⟩
  · rw [rowAt, rowAt]
    dsimp only
    rw [hlib, Option.bind_some, Option.bind_some, ← hid, Table.find_upsert, if_pos rfl]
    refine ⟨_, rfl, ?_⟩
    have hor {α : Type} (a b : Option α) : (a <|> b) = a.or b := by
      cases a <;> rfl
    cases db.items.find (args.libraryId, args.path) with
    | none => exact ⟨rfl, rfl, rfl, rfl, rfl, rfl, Option.or_none.symm, Option.or_none.symm,
        Option.or_none.symm, Option.or_none.symm, rfl, fun i hi => absurd hi (Option.not_mem_none i),
        fun i hi => absurd hi (Option.not_mem_none i)⟩
    | some i =>
      refine ⟨rfl, rfl, rfl, rfl, rfl, rfl, hor _ _, hor _ _, hor _ _, hor _ _, rfl, ?_, ?_⟩
      · intro j hj
        obtain rfl := Option.mem_some_iff.1 hj
        exact ⟨rfl, rfl, rfl, rfl, rfl⟩
      · intro j hj
        obtain rfl := Option.mem_some_iff.1 hj
        rfl
  · rw [rowAt, rowAt]
    dsimp only
    cases hm : db.libraries.find (k.1, k.2.1) with
    | none => rfl
    | some m =>
      rw [Option.bind_some, Option.bind_some, Table.find_upsert, if_neg]
      intro heq
      rw [hid, Prod.mk.injEq] at heq
      obtain ⟨hm, hmk⟩ := Table.find_eq_some.1 hm
      obtain ⟨hl, hlk⟩ := Table.find_eq_some.1 hlib
      have hml := Table.id_injective hm hl heq.1
      have hkeys : (k.1, k.2.1) = (pluginId, root) := by rw [← hmk, ← hlk, hml]
      obtain ⟨hplugin, hroot⟩ := Prod.mk.inj hkeys
      exact hk (Prod.ext hplugin (Prod.ext hroot heq.2))

end Db

/-! ## The entries at one place -/

/-- The last value that is not null. -/
def lastValue {α : Type} (old : Option α) (values : List (Option α)) : Option α :=
  values.foldl (fun value v => v.or value) old

/-- The row has the columns of the entry. -/
structure Item.Shows (o : Outside) (pluginId : ℕ) (root : String) (e : WallpaperEntry)
    (j : Item) : Prop where
  pluginId : j.pluginId = pluginId
  ty : j.ty = o.toLowercase e.wpType
  displayName : j.displayName = e.name
  previewPath : j.previewPath = (e.preview.bind (relativeUnderRoot root)).filter (· ≠ "")
  description : j.description = e.description
  externalId : j.externalId = e.externalId

/-- The entries `es`, written one after the other, have made `j` of the row `old`. -/
structure Item.Follows (o : Outside) (pluginId : ℕ) (root : String) (es : List WallpaperEntry)
    (old : Option Item) (j : Item) : Prop where
  shows : ∀ e ∈ es.getLast?, j.Shows o pluginId root e
  size : j.size = lastValue (old.bind Item.size) (es.map WallpaperEntry.size)
  width : j.width = lastValue (old.bind Item.width) (es.map fun e => e.width.bind toI32)
  height : j.height = lastValue (old.bind Item.height) (es.map fun e => e.height.bind toI32)
  contentRating : j.contentRating =
    lastValue (old.bind Item.contentRating) (es.map WallpaperEntry.contentRating)
  same : ∀ i ∈ old, j.SameRow i
  createAt : ∀ i ∈ old, j.createAt = i.createAt

/-- A row after entries were written to it; the times are those of the steps before `asked`. -/
def RowAfter (o : Outside) (asked : ℕ) (k : RowKey) (es : List WallpaperEntry)
    (old new : Option Item) : Prop :=
  es = [] ∧ new = old ∨
    es ≠ [] ∧ ∃ j, new = some j ∧ j.Follows o k.1 k.2.1 es old ∧ ∃ n < asked, j.syncAt = o.now n

/-- The upsert of an entry. -/
def entryArgs (pluginId : ℕ) (library : Library) (root rel : String) (e : WallpaperEntry) :
    ItemUpsertArgs where
  pluginId := pluginId
  libraryId := library.id
  path := rel
  ty := e.wpType
  displayName := e.name
  previewPath := (e.preview.bind (relativeUnderRoot root)).filter (· ≠ "")
  description := e.description
  externalId := e.externalId
  size := e.size
  width := e.width.bind toI32
  height := e.height.bind toI32
  contentRating := e.contentRating

section

variable {o : Outside} {asked n : ℕ} {k : RowKey} {es : List WallpaperEntry} {e : WallpaperEntry}
  {old mid : Option Item} {j : Item} {library : Library}

theorem lastValue_append {α : Type} (old v : Option α) (values : List (Option α)) :
    lastValue old (values ++ [v]) = v.or (lastValue old values) := by
  rw [lastValue, List.foldl_append]
  rfl

theorem Item.Upserted.shows
    (h : j.Upserted (o.toLowercase e.wpType) (o.now n) (entryArgs k.1 library k.2.1 k.2.2 e) mid) :
    j.Shows o k.1 k.2.1 e :=
  ⟨h.pluginId, h.ty, h.displayName, h.previewPath, h.description, h.externalId⟩

/-- One more entry. -/
theorem RowAfter.snoc (h : RowAfter o asked k es old mid) (hn : n < asked)
    (hj : j.Upserted (o.toLowercase e.wpType) (o.now n) (entryArgs k.1 library k.2.1 k.2.2 e) mid) :
    RowAfter o asked k (es ++ [e]) old (some j) := by
  refine .inr ⟨by simp, j, rfl, ?_, n, hn, hj.syncAt⟩
  have hlast (e' : WallpaperEntry) (he' : e' ∈ (es ++ [e]).getLast?) : j.Shows o k.1 k.2.1 e' := by
    rw [List.getLast?_concat, Option.mem_some_iff] at he'
    exact he' ▸ hj.shows
  rcases h with ⟨rfl, rfl⟩ | ⟨-, i, rfl, hi, -⟩
  · exact ⟨hlast, hj.size, hj.width, hj.height, hj.contentRating, hj.same, hj.createAt⟩
  · refine ⟨hlast, ?_, ?_, ?_, ?_, fun i' hi' => ?_, fun i' hi' => ?_⟩
    · rw [List.map_append, List.map_singleton, lastValue_append, ← hi.size]
      exact hj.size
    · rw [List.map_append, List.map_singleton, lastValue_append, ← hi.width]
      exact hj.width
    · rw [List.map_append, List.map_singleton, lastValue_append, ← hi.height]
      exact hj.height
    · rw [List.map_append, List.map_singleton, lastValue_append, ← hi.contentRating]
      exact hj.contentRating
    · exact (hj.same i rfl).trans (hi.same i' hi')
    · exact (hj.createAt i rfl).trans (hi.createAt i' hi')

theorem RowAfter.mono {m : ℕ} (h : RowAfter o asked k es old mid) (hm : asked ≤ m) :
    RowAfter o m k es old mid := by
  rcases h with h | ⟨hne, j, hj, hfollows, n, hn, hsync⟩
  · exact .inl h
  · exact .inr ⟨hne, j, hj, hfollows, n, hn.trans_le hm, hsync⟩

end

/-! ## Steps that leave the rows alone -/

/-- Libraries and items stay as they are. -/
structure Quiet (s s' : Session) : Prop where
  libraries : s'.db.libraries = s.db.libraries
  items : s'.db.items = s.db.items
  asked : s.asked ≤ s'.asked

instance : Std.Refl Quiet :=
  ⟨fun _ => ⟨rfl, rfl, le_rfl⟩⟩

instance : IsTrans Session Quiet :=
  ⟨fun _ _ _ h h' => ⟨h'.libraries.trans h.libraries, h'.items.trans h.items,
    h.asked.trans h'.asked⟩⟩

abbrev KeepsRows {α : Type} (m : SessionM α) : Prop :=
  Evolves Quiet True (fun _ => True) m fun _ _ => True

section

variable {α : Type} {o : Outside}

theorem keepsRows_call {context : String} {f : Db → Option (α × Db)}
    (h : ∀ db a db', f db = some (a, db') → db'.libraries = db.libraries ∧ db'.items = db.items) :
    KeepsRows (call o context f) := by
  intro s _
  cases hc : call o context f s with
  | ok a s' =>
    obtain ⟨db, hf, rfl⟩ := of_call_ok hc
    obtain ⟨hl, hi⟩ := h _ _ _ hf
    exact ⟨⟨hl, hi, Nat.le_succ _⟩, trivial⟩
  | error e s' =>
    obtain ⟨rfl, -⟩ := of_call_error hc
    exact ⟨⟨rfl, rfl, Nat.le_succ _⟩, trivial⟩

theorem keepsRows_select {context : String} {f : Db → α} : KeepsRows (select o context f) :=
  keepsRows_call fun db a db' h => by
    obtain ⟨-, rfl⟩ := Prod.mk.inj (Option.some_inj.1 h)
    exact ⟨rfl, rfl⟩

theorem keepsRows_execute {context : String} {f : Db → Option Db}
    (h : ∀ db db', f db = some db' → db'.libraries = db.libraries ∧ db'.items = db.items) :
    KeepsRows (execute o context f) :=
  keepsRows_call fun db a db' hf => by
    obtain ⟨db'', hdb, heq⟩ := Option.map_eq_some_iff.1 hf
    obtain ⟨-, rfl⟩ := Prod.mk.inj heq
    exact h db db'' hdb

theorem keepsRows_pure {a : α} : KeepsRows (pure a) :=
  .pure fun _ _ => trivial

theorem keepsRows_bind {β : Type} {m : SessionM α} {f : α → SessionM β} (h : KeepsRows m)
    (hf : ∀ a, KeepsRows (f a)) : KeepsRows (m >>= f) :=
  .bind h fun a => (hf a).mono (fun _ _ => trivial) fun _ _ h => h

theorem keepsRows_mapM {β : Type} {f : α → SessionM β} (h : ∀ a, KeepsRows (f a)) (l : List α) :
    KeepsRows (l.mapM f) := by
  induction l with
  | nil => exact keepsRows_pure
  | cons a l ih =>
    rw [List.mapM_cons]
    exact keepsRows_bind (h a) fun _ => keepsRows_bind ih fun _ => keepsRows_pure

theorem keepsRows_withContext {context : String} {m : SessionM α} (h : KeepsRows m) :
    KeepsRows (withContext context m) :=
  .tryCatch h (fun _ _ _ _ => trivial) fun _ s _ => ⟨Std.Refl.refl s, trivial⟩

theorem keepsRows_upsertPlugin {name version : String} :
    KeepsRows (upsertPlugin o name version) := by
  refine keepsRows_bind keepsRows_select fun found => ?_
  cases found with
  | none =>
    refine keepsRows_call fun _ _ _ h => ?_
    obtain ⟨-, -, hl, hi, -⟩ := Db.of_insertPlugin h
    exact ⟨hl, hi⟩
  | some existing =>
    dsimp only
    split
    · exact keepsRows_pure
    · refine keepsRows_bind (keepsRows_execute fun db db' h => ?_) fun _ => keepsRows_pure
      obtain rfl := Option.some_inj.1 h
      exact ⟨rfl, rfl⟩

theorem keepsRows_upsertTags {names : List String} : KeepsRows (upsertTags o names) := by
  refine keepsRows_mapM (fun name => keepsRows_bind keepsRows_select fun found => ?_) _
  cases found with
  | some tag => exact keepsRows_pure
  | none =>
    refine keepsRows_call fun db a db' h => ?_
    obtain ⟨r, -, heq⟩ := Option.map_eq_some_iff.1 h
    obtain ⟨-, rfl⟩ := Prod.mk.inj heq
    exact ⟨rfl, rfl⟩

theorem keepsRows_replaceItemTags {id : ℕ} {ids : List ℕ} :
    KeepsRows (replaceItemTags o id ids) := by
  have hcommit : KeepsRows (execute o "commit tx" fun db => some (db.replaceItemTags id ids)) := by
    refine keepsRows_execute fun db db' h => ?_
    obtain rfl := Option.some_inj.1 h
    exact ⟨rfl, rfl⟩
  refine keepsRows_bind keepsRows_select fun _ => keepsRows_bind keepsRows_select fun _ => ?_
  split
  · exact keepsRows_bind keepsRows_select fun _ => hcommit
  · exact hcommit

theorem keepsRows_recordUpsert {key : ℕ × String} : KeepsRows (recordUpsert key) :=
  fun _ _ => ⟨⟨rfl, rfl, le_rfl⟩, trivial⟩

end

/-! ## The loop over the entries -/

/-- A root, a path below it and an entry there. -/
abbrev PlacedEntry := String × String × WallpaperEntry

def writesAt (pluginId : ℕ) (ws : List PlacedEntry) (k : RowKey) : List WallpaperEntry :=
  (ws.filter fun w => (pluginId, w.1, w.2.1) = k).map fun w => w.2.2

/-- Every row is as the entries `ws` leave it, written in this order since `s₀`. -/
def Session.Follows (o : Outside) (pluginId : ℕ) (ws : List PlacedEntry) (s₀ s : Session) : Prop :=
  ∀ k, RowAfter o s.asked k (writesAt pluginId ws k) (s₀.db.rowAt k) (s.db.rowAt k)

/-- What holds of the result and of the session when a computation returns. -/
abbrev Ensures {α : Type} (P : Session → Prop) (m : SessionM α) (Q : α → Session → Prop) : Prop :=
  Evolves (fun _ _ => True) True P m Q

instance : Std.Refl fun _ _ : Session => True :=
  ⟨fun _ => trivial⟩

instance : IsTrans Session fun _ _ => True :=
  ⟨fun _ _ _ _ _ => trivial⟩

section

variable {α : Type} {o : Outside} {pluginId : ℕ} {ws : List PlacedEntry} {s₀ s s' : Session}
  {library : Library} {root rel : String} {e : WallpaperEntry}

theorem ensures_call {context : String} {f : Db → Option (α × Db)} {P : Session → Prop}
    {Q : α → Session → Prop}
    (h : ∀ s a db, P s → f s.db = some (a, db) → Q a ⟨db, s.asked + 1, s.upserted⟩) :
    Ensures P (call o context f) Q := by
  intro s hs
  cases hc : call o context f s with
  | ok a s' =>
    obtain ⟨db, hf, rfl⟩ := of_call_ok hc
    exact ⟨trivial, h s a db hs hf⟩
  | error e s' => exact ⟨trivial, trivial⟩

theorem ensures_select {context : String} {f : Db → α} {P : Session → Prop}
    {Q : α → Session → Prop} (h : ∀ s, P s → Q (f s.db) ⟨s.db, s.asked + 1, s.upserted⟩) :
    Ensures P (select o context f) Q :=
  ensures_call fun s a db hs hf => by
    obtain ⟨rfl, rfl⟩ := Prod.mk.inj (Option.some_inj.1 hf)
    exact h s hs

theorem ensures_throw {P : Session → Prop} {Q : α → Session → Prop} (e : String) :
    Ensures P (throw e) Q :=
  fun _ _ => ⟨trivial, trivial⟩

theorem ensures_nowMs {P : Session → Prop} {Q : Int → Session → Prop}
    (h : ∀ s, P s → Q (o.now s.asked) { s with asked := s.asked + 1 }) : Ensures P (nowMs o) Q :=
  fun s hs => ⟨trivial, h s hs⟩

theorem ensures_execute {context : String} {f : Db → Option Db} {P Q : Session → Prop}
    (h : ∀ s db, P s → f s.db = some db → Q ⟨db, s.asked + 1, s.upserted⟩) :
    Ensures P (execute o context f) fun _ => Q :=
  ensures_call fun s a db hs hf => by
    obtain ⟨db', hdb, heq⟩ := Option.map_eq_some_iff.1 hf
    obtain ⟨-, rfl⟩ := Prod.mk.inj heq
    exact h s db' hs hdb

theorem KeepsRows.ensures {m : SessionM α} {F : Session → Prop} (h : KeepsRows m)
    (hF : ∀ s s', Quiet s s' → F s → F s') : Ensures F m fun _ => F :=
  ((h.frame hF).relax (fun _ _ _ => trivial) id).mono (fun _ hs => ⟨trivial, hs⟩) fun _ _ hs => hs.2

/-- The rows follow the entries, and the library at the root is there. -/
structure Session.Ongoing (o : Outside) (pluginId : ℕ) (ws : List PlacedEntry) (s₀ : Session)
    (library : Library) (root : String) (s : Session) : Prop where
  follows : s₀.Follows o pluginId ws s
  library : s.db.libraries.find (pluginId, root) = some library

theorem Session.Follows.refl : s.Follows o pluginId [] s :=
  fun _ => .inl ⟨rfl, rfl⟩

theorem Session.Follows.quiet (h : s₀.Follows o pluginId ws s) (hq : Quiet s s') :
    s₀.Follows o pluginId ws s' := fun k => by
  rw [Db.rowAt_congr hq.libraries hq.items]
  exact (h k).mono hq.asked

theorem Session.Ongoing.quiet (h : s₀.Ongoing o pluginId ws library root s) (hq : Quiet s s') :
    s₀.Ongoing o pluginId ws library root s' :=
  ⟨h.follows.quiet hq, by rw [hq.libraries]; exact h.library⟩

theorem writesAt_concat (k : RowKey) : writesAt pluginId (ws ++ [(root, rel, e)]) k =
    writesAt pluginId ws k ++ if (pluginId, root, rel) = k then [e] else [] := by
  rw [writesAt, List.filter_append, List.map_append, writesAt]
  congr 1
  by_cases hk : (pluginId, root, rel) = k
  · rw [if_pos hk, List.filter_cons_of_pos (by simpa using hk)]
    rfl
  · rw [if_neg hk, List.filter_cons_of_neg (by simpa using hk)]
    rfl

theorem Session.Ongoing.upsert {n : ℕ} {db : Db} (h : s₀.Ongoing o pluginId ws library root s)
    (hn : n < s.asked)
    (hdb : s.db.upsertItem (o.toLowercase e.wpType) (o.now n)
      (entryArgs pluginId library root rel e) = some db) :
    s₀.Ongoing o pluginId (ws ++ [(root, rel, e)]) library root ⟨db, s.asked + 1, s.upserted⟩ := by
  obtain ⟨hl, ⟨j, hrow, hj⟩, hother⟩ := Db.rowAt_upsertItem hdb h.library rfl
  refine ⟨fun k => ?_, by rw [hl]; exact h.library⟩
  have hk := (h.follows k).mono (Nat.le_succ s.asked)
  rw [writesAt_concat]
  by_cases heq : (pluginId, root, rel) = k
  · subst heq
    rw [if_pos rfl]
    have hrow' : db.rowAt (pluginId, root, rel) = some j := hrow
    rw [hrow']
    exact hk.snoc (hn.trans (Nat.lt_succ_self _)) hj
  · rw [if_neg heq, List.append_nil, hother k (Ne.symm heq)]
    exact hk

theorem ensures_upsertItem : Ensures (s₀.Ongoing o pluginId ws library root)
    (upsertItem o (entryArgs pluginId library root rel e))
    fun _ => s₀.Ongoing o pluginId (ws ++ [(root, rel, e)]) library root := by
  refine .bind (Q := fun now s => s₀.Ongoing o pluginId ws library root s ∧
    ∃ n < s.asked, now = o.now n) (ensures_nowMs fun s hs =>
      ⟨hs.quiet ⟨rfl, rfl, Nat.le_succ _⟩, s.asked, Nat.lt_succ_self _, rfl⟩) fun now => ?_
  refine .bind (Q := fun _ s => s₀.Ongoing o pluginId (ws ++ [(root, rel, e)]) library root s)
    (ensures_execute fun s db hs hf => ?_) fun _ => ?_
  · obtain ⟨hs, n, hn, rfl⟩ := hs
    exact hs.upsert hn hf
  refine .bind (keepsRows_recordUpsert.ensures fun _ _ hq hs => hs.quiet hq) fun _ =>
    .bind (keepsRows_select.ensures fun _ _ hq hs => hs.quiet hq) fun found => ?_
  cases found with
  | none => exact ensures_throw _
  | some item => exact .pure fun _ hs => hs

theorem ensures_syncItem {tagIds : HashMap String ℕ} :
    Ensures (s₀.Ongoing o pluginId ws library root) (syncItem o pluginId tagIds library root rel e)
      fun _ => s₀.Ongoing o pluginId (ws ++ [(root, rel, e)]) library root :=
  .bind ensures_upsertItem fun _ => keepsRows_replaceItemTags.ensures fun _ _ hq hs => hs.quiet hq

theorem ensures_syncItems {tagIds : HashMap String ℕ} (items : List (String × WallpaperEntry)) :
    Ensures (s₀.Ongoing o pluginId ws library root) (syncItems o pluginId tagIds library root items)
      fun _ => s₀.Ongoing o pluginId (ws ++ items.map (root, ·)) library root := by
  induction items generalizing ws with
  | nil =>
    rw [List.map_nil, List.append_nil]
    exact .pure fun _ hs => hs
  | cons item items ih =>
    refine .bind ensures_syncItem fun _ => ih.mono (fun _ hs => hs) fun _ s hs => ?_
    rwa [List.append_assoc] at hs

theorem ensures_findOrAddLibrary :
    Ensures (s₀.Follows o pluginId ws) (findOrAddLibrary o pluginId root)
      fun library => s₀.Ongoing o pluginId ws library root := by
  refine .bind (Q := fun found s => s₀.Follows o pluginId ws s ∧
    found = s.db.libraries.find (pluginId, root))
    (ensures_select fun s hs => ⟨hs.quiet ⟨rfl, rfl, Nat.le_succ _⟩, rfl⟩) fun found => ?_
  cases found with
  | some existing => exact .pure fun s hs => ⟨hs.1, hs.2.symm⟩
  | none =>
    refine ensures_call fun s l db hs hf => ⟨fun k => ?_, Db.find_insertLibrary hf⟩
    rw [Db.rowAt_insertLibrary hf]
    exact (hs.1 k).mono (Nat.le_succ _)

/-- The entries of the groups, in the order in which they are written. -/
def placedOf (groups : List (Sigma fun _ : String => List (String × WallpaperEntry))) :
    List PlacedEntry :=
  groups.flatMap fun g => g.2.map (g.1, ·)

theorem ensures_syncGroups {tagIds : HashMap String ℕ}
    (groups : List (Sigma fun _ : String => List (String × WallpaperEntry))) :
    Ensures (s₀.Follows o pluginId ws) (syncGroups o pluginId tagIds groups)
      fun _ => s₀.Follows o pluginId (ws ++ placedOf groups) := by
  induction groups generalizing ws with
  | nil =>
    rw [placedOf, List.flatMap_nil, List.append_nil]
    exact .pure fun _ hs => hs
  | cons g groups ih =>
    obtain ⟨root, items⟩ := g
    refine .bind ensures_findOrAddLibrary fun library => .bind (ensures_syncItems items) fun _ =>
      ih.mono (fun _ hs => hs.follows) fun _ s hs => ?_
    rwa [List.append_assoc] at hs

/-- The rows after the entries of a plugin were written. -/
theorem ensures_writePluginEntries {g : GroupOrder} {name version : String}
    {entries : List WallpaperEntry} :
    Ensures (fun s => s = s₀) (writePluginEntries o g name version entries)
      fun r => s₀.Follows o r.2.id (placedOf (g.order (group entries))) := by
  have hstart (pluginId : ℕ) : Ensures (fun s => s = s₀) (nowMs o)
      fun _ => s₀.Follows o pluginId [] := by
    rintro s rfl
    exact ⟨trivial, Session.Follows.refl.quiet ⟨rfl, rfl, Nat.le_succ _⟩⟩
  refine .bind (Q := fun _ s => ∀ pluginId, s₀.Follows o pluginId [] s) (fun s hs => ?_)
    fun seen => ?_
  · exact ⟨trivial, fun pluginId => (hstart pluginId s hs).2⟩
  refine .bind ((keepsRows_withContext keepsRows_upsertPlugin).ensures
    fun _ _ hq hs pluginId => (hs pluginId).quiet hq) fun plugin => ?_
  refine .bind (keepsRows_upsertTags.ensures fun _ _ hq hs pluginId => (hs pluginId).quiet hq)
    fun tags => ?_
  exact .bind ((ensures_syncGroups _).mono (fun _ hs => hs plugin.id) fun _ _ hs => hs)
    fun _ => .pure fun _ hs => hs

end

end Waywallen
