import Mathlib.Data.List.Sort
import Waywallen.Filter.Queries
import Waywallen.Filter.QueueFilter
import Waywallen.Store.Sync

/-!
# The grid and the sequential queue

The grid and the sequential queue load the entries of the database, filter them and sort them. The
queue folds the quick toggles into the rules; the grid drops hidden types itself and adds the other
toggles one after the other.
-/

namespace Waywallen

open Sql

/-- An entry as it is read back from the database. -/
structure LoadedEntry where
  itemId : ℕ
  name : String
  wpType : String
  resource : String
  size : Option Int
  modifiedAt : Option Int
  libraryRoot : String
  deriving DecidableEq, Repr

/-- What the listing of entries depends on outside the program. -/
structure Files where
  /-- The key under which two resources are the same file. -/
  dedupKey : String → Option String
  /-- What the full-text index finds. -/
  index : String → Item → Bool
  /-- Lower case by the rules of Unicode. -/
  toLowercase : String → String

def entryFromItem (it : Item) (libraryPath : String) : LoadedEntry where
  itemId := it.id
  name := it.displayName
  wpType := it.ty
  resource := String.ofList (UnixPath.joinPath libraryPath.toList it.path.toList)
  size := it.size
  modifiedAt := it.modifiedAt
  libraryRoot := libraryPath

section

variable (files : Files)

def takeEntry (byFile : HashMap String LoadedEntry) (entry : LoadedEntry) :
    HashMap String LoadedEntry :=
  let key := (files.dedupKey entry.resource).getD ("raw:" ++ entry.resource)
  match byFile.lookup key with
  | none => byFile.insert key entry
  | some existing =>
    if entry.libraryRoot.utf8ByteSize > existing.libraryRoot.utf8ByteSize then
      byFile.insert key entry
    else byFile

/-- Of the entries with one file, the one with the longest library root stays, and the first of
these. -/
def dedupEntriesByCanonical (entries : List LoadedEntry) : List LoadedEntry :=
  let byFile := entries.foldl (takeEntry files) ∅
  byFile.values.mergeSort fun a b => a.itemId ≤ b.itemId

/-- All items as entries, one for each file. -/
def loadEntries (db : Db) : List LoadedEntry :=
  let items := db.items.rows.mergeSort fun a b =>
    a.libraryId < b.libraryId || a.libraryId = b.libraryId && a.path ≤ b.path
  dedupEntriesByCanonical files <| items.filterMap fun it =>
    (db.libraryOf it).map fun lib => entryFromItem it lib.path

/-! ## Sorting -/

inductive WallpaperSortKey
  | unspecified
  | name
  | wpType
  | size
  | lastModified
  deriving DecidableEq, Repr

def WallpaperSortKey.tryFrom (n : Int32) : Option WallpaperSortKey :=
  match n.toInt with
  | 0 => some unspecified
  | 1 => some name
  | 2 => some wpType
  | 3 => some size
  | 4 => some lastModified
  | _ => none

def WallpaperSortKey.compare : WallpaperSortKey → LoadedEntry → LoadedEntry → Ordering
  | name, a, b => Ord.compare (files.toLowercase a.name) (files.toLowercase b.name)
  | wpType, a, b => Ord.compare a.wpType b.wpType
  | size, a, b => Ord.compare (a.size.getD 0) (b.size.getD 0)
  | lastModified, a, b => Ord.compare (a.modifiedAt.getD 0) (b.modifiedAt.getD 0)
  | unspecified, _, _ => .eq

/-- Sort by one rule; entries that are equal under it keep their order. -/
def applySortRule (entries : List LoadedEntry) (rule : WallpaperSortRule) : List LoadedEntry :=
  match WallpaperSortKey.tryFrom rule.key with
  | none | some .unspecified => entries
  | some key =>
    let desc := rule.direction.toInt = 2
    entries.mergeSort fun a b =>
      let ord := key.compare files a b
      (if desc then ord.swap else ord).isLE

/-- The rules are applied from the last to the first, so that the first is the primary one. -/
def applyWallpaperSorts (entries : List LoadedEntry) (sorts : List WallpaperSortRule) :
    List LoadedEntry :=
  sorts.reverse.foldl (applySortRule files) entries

/-! ## The two pipelines -/

/-- The library and the path of an entry are among the keys. -/
def LoadedEntry.hasKey (keys : List (String × String)) (e : LoadedEntry) : Bool :=
  (relativeUnderRoot e.libraryRoot e.resource).any fun rel => keys.contains (e.libraryRoot, rel)

/-- The entries that match the rules; without rules, all of them. -/
def filterEntries (db : Db) (entries : List LoadedEntry) (filters : List WallpaperFilterRule)
    (logics : List FilterLogic) : Option (List LoadedEntry) :=
  if filters.isEmpty then some entries
  else (listItemKeysByWallpaperFilters files.index db filters logics).map fun keys =>
    entries.filter (LoadedEntry.hasKey keys)

def orderedEntryIds (db : Db) (filters : List WallpaperFilterRule) (logics : List FilterLogic)
    (sorts : List WallpaperSortRule) : Option (List String) := do
  let filtered ← filterEntries files db (loadEntries files db) filters logics
  let sorted := if sorts.isEmpty then filtered else applyWallpaperSorts files filtered sorts
  return sorted.map fun e => toString e.itemId

structure WallpaperListRequest where
  wpType : String
  page : ℕ
  pageSize : ℕ
  filters : List WallpaperFilterRule
  filterLogics : List FilterLogic
  sorts : List WallpaperSortRule
  searchText : String
  skipTypes : List String
  filterTags : List String
  skipContentRatings : List String
  deriving DecidableEq

/-- Add a rule in the group after the highest one. -/
def pushFresh (filters : List WallpaperFilterRule) (rule : QuickRule) : List WallpaperFilterRule :=
  filters ++ [rule.inGroup (Int32.ofInt (nextGroup filters))]

/-- The search text as a rule on the name. -/
def searchRule (text : String) : QuickRule :=
  ⟨1, .stringFilter text 3⟩

namespace WallpaperListRequest

variable (r : WallpaperListRequest)

/-- The rules with the search text, the tags and the ratings added to them. -/
def filtersWithSearch : List WallpaperFilterRule :=
  let searched :=
    if trim r.searchText = "" then r.filters
    else pushFresh r.filters (searchRule (trim r.searchText))
  let tagged :=
    if r.filterTags.isEmpty then searched else pushFresh searched (filterTagsRule r.filterTags)
  r.skipContentRatings.foldl (fun filters rating => pushFresh filters (skipRatingRule rating)) tagged

def paged (entries : List LoadedEntry) : List LoadedEntry :=
  if r.pageSize = 0 then entries
  else (entries.drop (r.page * r.pageSize)).take r.pageSize

/-- The ids of the wallpapers and their number without paging. -/
def wallpaperList (db : Db) : Option (List String × ℕ) := do
  let rawEntries := (loadEntries files db).filter fun e =>
    (r.wpType = "" || e.wpType = r.wpType) && !r.skipTypes.contains e.wpType
  let filtered ← filterEntries files db rawEntries r.filtersWithSearch r.filterLogics
  let sorted := applyWallpaperSorts files filtered r.sorts
  return ((r.paged sorted).map fun e => toString e.itemId, sorted.length)

end WallpaperListRequest

end

/-- The request of a browser that shows what the settings ask for. -/
def GlobalSettings.listRequest (s : GlobalSettings) : WallpaperListRequest where
  wpType := ""
  page := 0
  pageSize := 0
  filters := s.wallpaperFilter.toPb.1
  filterLogics := s.wallpaperFilter.toPb.2
  sorts := s.wallpaperSorts
  searchText := ""
  skipTypes := s.wallpaperSkipTypes
  filterTags := s.wallpaperFilterTags
  skipContentRatings := s.wallpaperSkipContentRatings

/-- The queue walks the ids that the grid shows, in the same order. -/
def GlobalSettings.SameIds (s : GlobalSettings) (files : Files) (db : Db) : Prop :=
  orderedEntryIds files db s.wallpaperQueueFilter.1 s.wallpaperQueueFilter.2 s.wallpaperSorts =
    (s.listRequest.wallpaperList files db).map Prod.fst

/-! ## Entries and items -/

section Entries

variable {files : Files} {db : Db} {e : LoadedEntry}

theorem mem_values_takeEntry {byFile : HashMap String LoadedEntry} {entry : LoadedEntry}
    (h : e ∈ (takeEntry files byFile entry).values) : e = entry ∨ e ∈ byFile.values := by
  unfold takeEntry at h
  dsimp only at h
  split at h
  · exact HashMap.mem_values_insert h
  · split at h
    · exact HashMap.mem_values_insert h
    · exact .inr h

theorem mem_of_mem_foldl_takeEntry {entries : List LoadedEntry}
    {byFile : HashMap String LoadedEntry}
    (h : e ∈ (entries.foldl (takeEntry files) byFile).values) :
    e ∈ entries ∨ e ∈ byFile.values := by
  induction entries generalizing byFile with
  | nil => exact .inr h
  | cons entry entries ih =>
    rcases ih h with hmem | hmem
    · exact .inl (List.mem_cons_of_mem _ hmem)
    · refine (mem_values_takeEntry hmem).imp (fun he => ?_) id
      exact he ▸ List.mem_cons_self ..

theorem mem_of_mem_dedup {entries : List LoadedEntry}
    (h : e ∈ dedupEntriesByCanonical files entries) : e ∈ entries := by
  refine (mem_of_mem_foldl_takeEntry ((List.mergeSort_perm _ _).mem_iff.1 h)).resolve_right
    fun hmem => ?_
  obtain ⟨k, hk⟩ := (HashMap.mem_values_iff _ _).1 hmem
  cases hk

/-- An entry is made from an item and the library of the item. -/
theorem exists_item_of_mem_loadEntries (h : e ∈ loadEntries files db) :
    ∃ i ∈ db.items.rows, ∃ lib, db.libraryOf i = some lib ∧ e = entryFromItem i lib.path := by
  have hmem := mem_of_mem_dedup h
  obtain ⟨i, hi, hmap⟩ := List.mem_filterMap.1 hmem
  obtain ⟨lib, hlib, rfl⟩ := Option.map_eq_some_iff.1 hmap
  exact ⟨i, (List.mergeSort_perm _ _).mem_iff.1 hi, lib, hlib, rfl⟩

/-- Two entries with one id are the same. -/
theorem eq_of_itemId_eq {e' : LoadedEntry} (h : e ∈ loadEntries files db)
    (h' : e' ∈ loadEntries files db) (hid : e.itemId = e'.itemId) : e = e' := by
  obtain ⟨i, hi, lib, hlib, rfl⟩ := exists_item_of_mem_loadEntries h
  obtain ⟨j, hj, lib', hlib', rfl⟩ := exists_item_of_mem_loadEntries h'
  obtain rfl : i = j := Table.id_injective (t := db.items) hi hj hid
  rw [Option.some_inj.1 (hlib.symm.trans hlib')]

theorem toString_injective {m n : ℕ} (h : toString m = toString n) : m = n := by
  have hdigits : Nat.toDigits 10 m = Nat.toDigits 10 n := by
    rw [← Nat.toList_repr, ← Nat.toList_repr]
    exact congrArg String.toList h
  have hval := congrArg (fun l => Nat.ofDigitChars 10 l 0) hdigits
  simpa using hval

theorem applySortRule_perm (entries : List LoadedEntry) (rule : WallpaperSortRule) :
    (applySortRule files entries rule).Perm entries := by
  unfold applySortRule
  split
  · exact .refl _
  · exact .refl _
  · exact List.mergeSort_perm _ _

theorem applyWallpaperSorts_perm (entries : List LoadedEntry) (sorts : List WallpaperSortRule) :
    (applyWallpaperSorts files entries sorts).Perm entries := by
  unfold applyWallpaperSorts
  induction sorts.reverse generalizing entries with
  | nil => exact .refl _
  | cons rule rules ih => exact (ih _).trans (applySortRule_perm entries rule)

/-- Two selections of entries have the same ids in the same order when they select the same. -/
theorem map_ids_eq_iff (sorts : List WallpaperSortRule) {p q : LoadedEntry → Bool} :
    ((applyWallpaperSorts files ((loadEntries files db).filter p) sorts).map fun e =>
      toString e.itemId) =
      ((applyWallpaperSorts files ((loadEntries files db).filter q) sorts).map fun e =>
        toString e.itemId) ↔ ∀ e ∈ loadEntries files db, p e = q e := by
  constructor
  · intro h e he
    have hids (p q : LoadedEntry → Bool)
        (h : ((applyWallpaperSorts files ((loadEntries files db).filter p) sorts).map fun e =>
          toString e.itemId) =
          ((applyWallpaperSorts files ((loadEntries files db).filter q) sorts).map fun e =>
            toString e.itemId)) (hp : p e = true) : q e = true := by
      have hmem : toString e.itemId ∈
          (applyWallpaperSorts files ((loadEntries files db).filter p) sorts).map fun e =>
            toString e.itemId :=
        List.mem_map_of_mem ((applyWallpaperSorts_perm _ _).mem_iff.2 (List.mem_filter.2 ⟨he, hp⟩))
      rw [h] at hmem
      obtain ⟨e', he', hid⟩ := List.mem_map.1 hmem
      obtain ⟨hload, hq⟩ := List.mem_filter.1 ((applyWallpaperSorts_perm _ _).mem_iff.1 he')
      rwa [← eq_of_itemId_eq hload he (toString_injective hid)]
    exact Bool.eq_iff_iff.2 ⟨hids p q h, hids q p h.symm⟩
  · intro h
    rw [List.filter_congr h]

end Entries

/-! ## Agreement -/

/-- A stored path is found again below its library. -/
def Db.PathsFound (db : Db) : Prop :=
  ∀ i ∈ db.items.rows, ∀ lib ∈ db.libraryOf i,
    relativeUnderRoot lib.path (entryFromItem i lib.path).resource = some i.path

/-- No two items have one path below libraries of one path. -/
def Db.KeysIdentify (db : Db) : Prop :=
  ∀ i ∈ db.items.rows, ∀ j ∈ db.items.rows, ∀ lib ∈ db.libraryOf i, ∀ lib' ∈ db.libraryOf j,
    lib.path = lib'.path → i.path = j.path → i = j

instance (db : Db) : Decidable db.PathsFound :=
  inferInstanceAs (Decidable (∀ i ∈ db.items.rows, ∀ lib ∈ db.libraryOf i, _))

instance (db : Db) : Decidable db.KeysIdentify :=
  inferInstanceAs (Decidable (∀ i ∈ db.items.rows, ∀ j ∈ db.items.rows, ∀ lib ∈ db.libraryOf i,
    ∀ lib' ∈ db.libraryOf j, _))

section Agreement

variable {files : Files} {db : Db} {filters : List WallpaperFilterRule}
  {logics : List FilterLogic} {i : Item} {lib : Library}

/-- The row of an item with its library and its tags. -/
def Db.rowOf (db : Db) (i : Item) : Row :=
  ⟨i, db.libraryOf i, db.tagsOf i⟩

/-- The entries that the rules leave. -/
def passes (files : Files) (db : Db) (filters : List WallpaperFilterRule)
    (logics : List FilterLogic) (e : LoadedEntry) : Bool :=
  filters.isEmpty || (listItemKeysByWallpaperFilters files.index db filters logics).any fun keys =>
    e.hasKey keys

theorem filterEntries_eq (entries : List LoadedEntry) :
    filterEntries files db entries filters logics =
      some (entries.filter (passes files db filters logics)) := by
  obtain ⟨keys, hkeys, -⟩ := listItemKeys_perm files.index db filters logics
  unfold filterEntries passes
  rw [hkeys]
  by_cases h : filters.isEmpty = true
  · simp [h]
  · simp [h]

/-- An entry passes the rules when its item satisfies their condition. -/
theorem passes_iff (hfound : db.PathsFound) (hidentify : db.KeysIdentify) (hi : i ∈ db.items.rows)
    (hlib : db.libraryOf i = some lib) :
    passes files db filters logics (entryFromItem i lib.path) = true ↔
      Query.Accepts (Row.value files.index) (wallpaperFiltersToCondition filters logics)
        (db.rowOf i) := by
  by_cases hempty : filters = []
  · subst hempty
    have hnone : wallpaperFiltersToCondition [] logics = none := rfl
    simp [passes, hnone, Query.Accepts]
  obtain ⟨keys, hkeys, hperm⟩ := listItemKeys_perm files.index db filters logics
  have hmatching : i ∈ db.matching files.index filters logics ↔
      Query.Accepts (Row.value files.index) (wallpaperFiltersToCondition filters logics)
        (db.rowOf i) := by
    simp [Db.matching, hi, Db.rowOf]
  have hrel : relativeUnderRoot (entryFromItem i lib.path).libraryRoot
      (entryFromItem i lib.path).resource = some i.path := hfound i hi lib hlib
  rw [passes, List.isEmpty_eq_false_iff.2 hempty, hkeys, Bool.false_or, Option.any_some,
    LoadedEntry.hasKey, hrel, Option.any_some, List.contains_iff_mem, hperm.mem_iff, ← hmatching,
    List.mem_filterMap]
  constructor
  · rintro ⟨j, hj, hmap⟩
    obtain ⟨lib', hlib', hkey⟩ := Option.map_eq_some_iff.1 hmap
    have hjmem : j ∈ db.items.rows := (List.mem_filter.1 hj).1
    obtain ⟨hpath, hitem⟩ := Prod.mk.inj hkey
    rwa [hidentify i hi j hjmem lib hlib lib' hlib' hpath.symm hitem.symm]
  · exact fun h => ⟨i, h, by rw [hlib]; rfl⟩

end Agreement

/-! ## The toggles of the grid -/

namespace GlobalSettings

variable (s : GlobalSettings)

/-- The toggles that the grid adds to the rules. -/
def gridRules : List QuickRule :=
  (if s.wallpaperFilterTags.isEmpty then [] else [filterTagsRule s.wallpaperFilterTags]) ++
    s.wallpaperSkipContentRatings.map skipRatingRule

/-- The rules that the grid adds, in their groups. -/
def addedRules : List WallpaperFilterRule :=
  s.listRequest.filtersWithSearch.drop s.wallpaperFilter.toPb.1.length

/-- No edge between groups with conditions names a group of a toggle, as the grid numbers them. -/
def GridEdgesApart : Prop :=
  Apart WallpaperFilterRule.group wallpaperFilterToCondition s.wallpaperFilter.toPb.1 s.addedRules
    s.wallpaperFilter.toPb.2

instance : Decidable s.GridEdgesApart :=
  inferInstanceAs (Decidable (Apart _ _ _ _ _))

end GlobalSettings

section Toggles

variable {s : GlobalSettings} {files : Files} {db : Db} {index : String → Item → Bool} {r : Row}

variable (index r) in
/-- What is pushed onto a list of rules, each in a group of its own. -/
theorem foldl_pushFresh (rules : List QuickRule) (filters : List WallpaperFilterRule) :
    ∃ added, rules.foldl pushFresh filters = filters ++ added ∧
      ((∀ f ∈ added, ∀ c ∈ wallpaperFilterToCondition f, c.Holds (r.value index)) ↔
        ∀ rule ∈ rules, rule.Holds index r) := by
  induction rules generalizing filters with
  | nil => exact ⟨[], (List.append_nil _).symm, by simp⟩
  | cons rule rules ih =>
    obtain ⟨added, heq, hholds⟩ := ih (pushFresh filters rule)
    refine ⟨rule.inGroup (Int32.ofInt (nextGroup filters)) :: added, ?_, ?_⟩
    · rw [List.foldl_cons, heq, pushFresh, List.append_assoc, List.singleton_append]
    · rw [List.forall_mem_cons, List.forall_mem_cons, hholds, rule.condition_inGroup,
        QuickRule.Holds]

theorem filtersWithSearch_eq : s.listRequest.filtersWithSearch =
    s.gridRules.foldl pushFresh s.wallpaperFilter.toPb.1 := by
  have hsearch : trim s.listRequest.searchText = "" := by
    show trim "" = ""
    decide
  rw [WallpaperListRequest.filtersWithSearch, if_pos hsearch, GlobalSettings.gridRules,
    List.foldl_append, List.foldl_map]
  by_cases h : s.wallpaperFilterTags.isEmpty = true
  · simp [GlobalSettings.listRequest, h]
  · simp [GlobalSettings.listRequest, h]

/-- The rules of the grid accept what the user's rules and its toggles accept. -/
theorem accepts_grid (h : s.GridEdgesApart) :
    Query.Accepts (Row.value index)
      (wallpaperFiltersToCondition s.listRequest.filtersWithSearch s.wallpaperFilter.toPb.2) r ↔
      Query.Accepts (Row.value index) s.ownCondition r ∧
        ∀ rule ∈ s.gridRules, rule.Holds index r := by
  obtain ⟨added, heq, hholds⟩ := foldl_pushFresh index r s.gridRules
    s.wallpaperFilter.toPb.1
  rw [GlobalSettings.GridEdgesApart, GlobalSettings.addedRules, filtersWithSearch_eq, heq,
    List.drop_left] at h
  rw [filtersWithSearch_eq, heq, ← hholds]
  exact h.accepts_append

theorem passes_grid_iff (hgrid : s.GridEdgesApart) (hfound : db.PathsFound)
    (hidentify : db.KeysIdentify) {i : Item} {lib : Library} (hi : i ∈ db.items.rows)
    (hlib : db.libraryOf i = some lib) :
    passes files db s.listRequest.filtersWithSearch s.wallpaperFilter.toPb.2
      (entryFromItem i lib.path) = true ↔
      Query.Accepts (Row.value files.index) s.ownCondition (db.rowOf i) ∧
        ∀ rule ∈ s.gridRules, rule.Holds files.index (db.rowOf i) := by
  rw [passes_iff hfound hidentify hi hlib, accepts_grid hgrid]

theorem passes_queue_iff (hqueue : s.EdgesApart) (hfound : db.PathsFound)
    (hidentify : db.KeysIdentify) {i : Item} {lib : Library} (hi : i ∈ db.items.rows)
    (hlib : db.libraryOf i = some lib) :
    passes files db s.wallpaperQueueFilter.1 s.wallpaperQueueFilter.2
      (entryFromItem i lib.path) = true ↔
      (Query.Accepts (Row.value files.index) s.ownCondition (db.rowOf i) ∧
        ∀ rule ∈ s.gridRules, rule.Holds files.index (db.rowOf i)) ∧
        ¬ ∃ ty ∈ s.wallpaperSkipTypes, i.ty = ty.toLower := by
  have htypes : (∀ rule ∈ s.wallpaperSkipTypes.map skipTypeRule,
      rule.Holds files.index (db.rowOf i)) ↔
      ¬ ∃ ty ∈ s.wallpaperSkipTypes, i.ty = ty.toLower := by
    simp only [List.forall_mem_map, holds_skipTypeRule, not_exists, not_and]
    rfl
  rw [passes_iff hfound hidentify hi hlib, ← htypes, and_assoc, and_comm (a := ∀ rule ∈ s.gridRules, _),
    ← List.forall_mem_append, GlobalSettings.gridRules, ← List.append_assoc]
  exact GlobalSettings.accepts_queueCondition hqueue

theorem orderedIds_eq {filters : List WallpaperFilterRule} {logics : List FilterLogic}
    {sorts : List WallpaperSortRule} : orderedEntryIds files db filters logics sorts =
      some ((applyWallpaperSorts files
        ((loadEntries files db).filter (passes files db filters logics)) sorts).map fun e =>
          toString e.itemId) := by
  rw [orderedEntryIds, filterEntries_eq]
  cases sorts <;> rfl

theorem gridIds_eq : (s.listRequest.wallpaperList files db).map Prod.fst =
    some ((applyWallpaperSorts files
      (((loadEntries files db).filter fun e => !s.wallpaperSkipTypes.contains e.wpType).filter
        (passes files db s.listRequest.filtersWithSearch s.wallpaperFilter.toPb.2))
        s.wallpaperSorts).map fun e => toString e.itemId) := by
  rw [WallpaperListRequest.wallpaperList]
  dsimp only
  rw [filterEntries_eq]
  simp [GlobalSettings.listRequest, WallpaperListRequest.paged]

/-- A hidden type, read as the queue reads it, is one as the grid reads it, and the other way round,
for the listed items that all other toggles and the user's rules accept. -/
def GlobalSettings.TypesReadAlike (s : GlobalSettings) (files : Files) (db : Db) : Prop :=
  ∀ i ∈ db.items.rows, (∃ e ∈ loadEntries files db, e.itemId = i.id) →
    Query.Accepts (Row.value files.index) s.ownCondition (db.rowOf i) →
    (∀ rule ∈ s.gridRules, rule.Holds files.index (db.rowOf i)) →
    ((∃ ty ∈ s.wallpaperSkipTypes, i.ty = ty.toLower) ↔ i.ty ∈ s.wallpaperSkipTypes)

end Toggles

/-! ## A library with one video -/

/-- A library of one plugin with a video in it. -/
def clipDb : Db :=
  let made := do
    let (plugin, db) ← Db.empty.insertPlugin "folder" "1"
    let (library, db) ← db.insertLibrary plugin.id "/videos"
    db.upsertItem "video" 5
      { pluginId := plugin.id, libraryId := library.id, path := "clip.webm", ty := "video",
        displayName := "Clip", previewPath := none, description := none, externalId := none,
        size := none, width := none, height := none, contentRating := none }
  made.getD .empty

/-- Every file is its own, and nothing is indexed. -/
def plainFiles : Files :=
  ⟨fun resource => some resource, fun _ _ => false, id⟩

end Waywallen
