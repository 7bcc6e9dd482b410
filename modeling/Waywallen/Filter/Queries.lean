import Waywallen.Filter.Grouped

/-!
# The queries behind the queue modes and the grid

Each query splices the same condition into a selection of the items. All but one of them join the
library of the item, and so a rule on the library is an error in that one.
-/

namespace Waywallen

open Sql

/-- The tags of an item, by name. -/
def Db.tagsOf (db : Db) (i : Item) : List String :=
  (db.itemTags.filter fun t => t.1 = i.id).filterMap fun t =>
    (db.tags.rows.find? fun tag => tag.id = t.2).map Tag.name

def Db.libraryOf (db : Db) (i : Item) : Option Library :=
  db.libraries.rows.find? fun l => l.id = i.libraryId

/-- The rows of the items alone. -/
def Db.itemRows (db : Db) : List Row :=
  db.items.rows.map fun i => ⟨i, none, db.tagsOf i⟩

/-- The rows of the items, each with its library. -/
def Db.joinedRows (db : Db) : List Row :=
  db.items.rows.map fun i => ⟨i, db.libraryOf i, db.tagsOf i⟩

/-- The order of the selected rows: by library, then by path. -/
def byLibraryPath (a b : Row) : Bool :=
  a.item.libraryId < b.item.libraryId ||
    a.item.libraryId = b.item.libraryId && a.item.path ≤ b.item.path

structure QueueRow where
  itemId : ℕ
  libraryPath : String
  itemPath : String
  deriving DecidableEq, Repr

section

variable (index : String → Item → Bool) (db : Db)

/-- Select from the items. -/
def selectItems (condition : Option (Cond Atom)) : Option (List Row) :=
  Query.run Atom.tables (Row.value index) db.itemRows ⟨[.item], condition⟩

/-- Select from the items joined with their libraries. -/
def selectJoined (condition : Option (Cond Atom)) : Option (List Row) :=
  Query.run Atom.tables (Row.value index) db.joinedRows ⟨[.item, .library], condition⟩

def listItemKeysByWallpaperFilters (filters : List WallpaperFilterRule)
    (logics : List FilterLogic) : Option (List (String × String)) :=
  (selectJoined index db (wallpaperFiltersToCondition filters logics)).map fun rows =>
    (rows.mergeSort byLibraryPath).filterMap fun r =>
      r.library.map fun lib => (lib.path, r.item.path)

def countItemsByFilter (filters : List WallpaperFilterRule) (logics : List FilterLogic) :
    Option ℕ :=
  (selectJoined index db (wallpaperFiltersToCondition filters logics)).map List.length

def listItemIdsByFilter (filters : List WallpaperFilterRule) (logics : List FilterLogic) :
    Option (List ℕ) :=
  (selectItems index db (wallpaperFiltersToCondition filters logics)).map fun rows =>
    (rows.mergeSort byLibraryPath).map fun r => r.item.id

/-- The rows a random item is taken from. -/
def randomCandidates (filters : List WallpaperFilterRule) (logics : List FilterLogic)
    (excludeId : Option ℕ) : Option (List Row) := do
  let cond := wallpaperFiltersToCondition filters logics
  -- the exclusion must not empty the candidates
  let total ← countItemsByFilter index db filters logics
  let combined := match cond, excludeId.filter fun _ => 1 < total with
    | some c, some eid => some (c.add (.atom (.idNe eid)))
    | some c, none => some c
    | none, some eid => some (.all [.atom (.idNe eid)])
    | none, none => none
  selectJoined index db combined

/-- `RANDOM()` puts the row with number `draw` first. -/
def randomItemByFilter (filters : List WallpaperFilterRule) (logics : List FilterLogic)
    (excludeId : Option ℕ) (draw : ℕ) : Option (Option QueueRow) :=
  (randomCandidates index db filters logics excludeId).map fun rows =>
    rows[draw % rows.length]?.bind fun r =>
      r.library.map fun lib => ⟨r.item.id, lib.path, r.item.path⟩

end

/-! ## Agreement -/

/-- The items that satisfy the built condition. -/
def Db.matching (index : String → Item → Bool) (db : Db) (filters : List WallpaperFilterRule)
    (logics : List FilterLogic) : List Item :=
  db.items.rows.filter fun i => Query.Accepts (Row.value index)
    (wallpaperFiltersToCondition filters logics) ⟨i, db.libraryOf i, db.tagsOf i⟩

/-- All queries are well formed, and each selects the items that satisfy the condition: the keys of
these items, their number, their ids, and any of them at random, but for the excluded one when
there is another. -/
structure Agree (index : String → Item → Bool) (db : Db) (filters : List WallpaperFilterRule)
    (logics : List FilterLogic) : Prop where
  keys : ∃ keys, listItemKeysByWallpaperFilters index db filters logics = some keys ∧
    keys.Perm ((db.matching index filters logics).filterMap fun i =>
      (db.libraryOf i).map fun lib => (lib.path, i.path))
  count : countItemsByFilter index db filters logics =
    some (db.matching index filters logics).length
  ids : ∃ ids, listItemIdsByFilter index db filters logics = some ids ∧
    ids.Perm ((db.matching index filters logics).map Item.id)
  random : ∀ excludeId, ∃ rows, randomCandidates index db filters logics excludeId = some rows ∧
    rows.map Row.item = (db.matching index filters logics).filter fun i =>
      (db.matching index filters logics).length ≤ 1 || excludeId.all fun eid => i.id != eid

/-- No query is well formed. -/
structure Absent (index : String → Item → Bool) (db : Db) (filters : List WallpaperFilterRule)
    (logics : List FilterLogic) : Prop where
  keys : listItemKeysByWallpaperFilters index db filters logics = none
  count : countItemsByFilter index db filters logics = none
  ids : listItemIdsByFilter index db filters logics = none
  random : ∀ excludeId, randomCandidates index db filters logics excludeId = none

/-- The rule is a condition on the path of the library. -/
def WallpaperFilterRule.onLibrary (f : WallpaperFilterRule) : Bool :=
  match WallpaperFilterType.tryFrom f.type, f.payload with
  | some .library, some (.stringFilter _ condition) =>
    (StringCondition.tryFrom condition).getD .unspecified != .unspecified
  | _, _ => false

/-- Some atom of the condition is on the library. -/
def NamesLibrary (condition : Option (Cond Atom)) : Prop :=
  ∃ c ∈ condition, ∃ a ∈ c.atoms, .library ∈ a.tables

theorem namesLibrary_stringCondition {column : TextColumn} {cond : StringCondition}
    {value : String} {b : Bool} :
    NamesLibrary (stringConditionToCondition column cond value b) ↔
      cond ≠ .unspecified ∧ column = .libraryPath := by
  have hcolumn : .library ∈ [column.table] ↔ column = .libraryPath := by cases column <;> decide
  cases cond <;> cases b <;> simp [NamesLibrary, stringConditionToCondition, Atom.tables] <;>
    simpa using hcolumn

theorem not_namesLibrary_intCondition {column : IntColumn} {cond : IntCondition} {value : Int} :
    ¬ NamesLibrary (intConditionToCondition column cond value) := by
  cases cond <;> simp [NamesLibrary, intConditionToCondition, Atom.tables]

theorem not_namesLibrary_tagCondition {tag : String} {cond : StringCondition} :
    ¬ NamesLibrary (tagConditionToCondition tag cond) := by
  cases cond <;> simp [NamesLibrary, tagConditionToCondition, Atom.tables]

theorem not_namesLibrary_tagListCondition {values : List String} {cond : StringCondition} :
    ¬ NamesLibrary (tagListConditionToCondition values cond) := by
  unfold tagListConditionToCondition
  dsimp only
  split
  · simp [NamesLibrary]
  · cases cond <;> simp [NamesLibrary, Atom.tables]

theorem not_namesLibrary_nameCondition {value : String} {condition : Int32} :
    ¬ NamesLibrary (nameConditionToCondition value condition) := by
  unfold nameConditionToCondition
  dsimp only
  split
  · simp [NamesLibrary, Atom.tables]
  · simp [NamesLibrary, Atom.tables]
  · simp [namesLibrary_stringCondition]

/-- The rule builds an atom on the library when it is one on the library. -/
theorem namesLibrary_iff {f : WallpaperFilterRule} :
    NamesLibrary (wallpaperFilterToCondition f) ↔ f.onLibrary = true := by
  unfold wallpaperFilterToCondition WallpaperFilterRule.onLibrary
  dsimp only
  rcases WallpaperFilterType.tryFrom f.type with _ | type
  · simp [NamesLibrary]
  · cases type <;> rcases f.payload with _ | _ | _ | _ <;>
      simp [namesLibrary_stringCondition, not_namesLibrary_intCondition,
        not_namesLibrary_tagCondition, not_namesLibrary_tagListCondition,
        not_namesLibrary_nameCondition] <;> simp [NamesLibrary]

section

variable {index : String → Item → Bool} {db : Db} {filters : List WallpaperFilterRule}
  {logics : List FilterLogic}

theorem selectJoined_eq (condition : Option (Cond Atom)) :
    selectJoined index db condition =
      some (db.joinedRows.filter fun r => Query.Accepts (Row.value index) condition r) :=
  Query.run_of_wellFormed (Query.wellFormed_of_forall fun t => by cases t <;> simp)

theorem namesLibrary_conditions_iff :
    NamesLibrary (wallpaperFiltersToCondition filters logics) ↔
      ∃ f ∈ filters, f.onLibrary = true := by
  have hatoms (a : Atom) : (∃ c ∈ wallpaperFiltersToCondition filters logics, a ∈ c.atoms) ↔
      ∃ f ∈ filters, ∃ c ∈ wallpaperFilterToCondition f, a ∈ c.atoms :=
    mem_atoms_buildGroupedCondition
  simp only [← namesLibrary_iff]
  constructor
  · rintro ⟨c, hc, a, ha, hlib⟩
    obtain ⟨f, hf, c', hc', ha'⟩ := (hatoms a).1 ⟨c, hc, ha⟩
    exact ⟨f, hf, c', hc', a, ha', hlib⟩
  · rintro ⟨f, hf, c, hc, a, ha, hlib⟩
    obtain ⟨c', hc', ha'⟩ := (hatoms a).2 ⟨f, hf, c, hc, ha⟩
    exact ⟨c', hc', a, ha', hlib⟩

/-- The items can be selected without their libraries when no condition names one. -/
theorem wellFormed_items_iff {condition : Option (Cond Atom)} :
    Query.WellFormed Atom.tables ⟨[.item], condition⟩ ↔ ¬ NamesLibrary condition := by
  constructor
  · rintro h ⟨c, hc, a, ha, hlib⟩
    have hmem := h c hc a ha _ hlib
    simp at hmem
  · intro h c hc a ha t ht
    cases t with
    | item => exact List.mem_singleton_self _
    | library => exact absurd ⟨c, hc, a, ha, ht⟩ h

/-- An atom that does not name the library has its value without it. -/
theorem value_of_not_library {a : Atom} (h : .library ∉ a.tables) (i : Item) (l : Option Library)
    (tags : List String) : (Row.mk i none tags).value index a = (Row.mk i l tags).value index a := by
  cases a with
  | like c | notLike c | eq c | ne c | isNull c =>
    cases c <;> first | rfl | exact absurd (List.mem_singleton_self _) h
  | _ => rfl

theorem accepts_of_not_namesLibrary {condition : Option (Cond Atom)}
    (h : ¬ NamesLibrary condition) (i : Item) (l : Option Library) (tags : List String) :
    Query.Accepts (Row.value index) condition ⟨i, none, tags⟩ ↔
      Query.Accepts (Row.value index) condition ⟨i, l, tags⟩ :=
  Query.accepts_congr fun c hc a ha =>
    value_of_not_library (fun hlib => h ⟨c, hc, a, ha, hlib⟩) i l tags

/-- The rows that the joined queries select. -/
theorem selectJoined_filters : selectJoined index db (wallpaperFiltersToCondition filters logics) =
    some ((db.matching index filters logics).map fun i => ⟨i, db.libraryOf i, db.tagsOf i⟩) := by
  rw [selectJoined_eq, Db.joinedRows, List.filter_map, Db.matching]
  rfl

theorem selectItems_filters (h : ∀ f ∈ filters, f.onLibrary = false) :
    selectItems index db (wallpaperFiltersToCondition filters logics) =
      some ((db.matching index filters logics).map fun i => ⟨i, none, db.tagsOf i⟩) := by
  have hnot : ¬ NamesLibrary (wallpaperFiltersToCondition filters logics) := by
    rw [namesLibrary_conditions_iff]
    rintro ⟨f, hf, hlib⟩
    rw [h f hf] at hlib
    cases hlib
  rw [selectItems, Query.run_of_wellFormed (wellFormed_items_iff.2 hnot), Db.itemRows,
    List.filter_map, Db.matching]
  congr 2
  refine List.filter_congr fun i _ => ?_
  exact decide_eq_decide.2 (accepts_of_not_namesLibrary hnot i _ _)

theorem perm_mergeSort (rows : List Row) : (rows.mergeSort byLibraryPath).Perm rows :=
  List.mergeSort_perm rows _

theorem countItemsByFilter_eq : countItemsByFilter index db filters logics =
    some (db.matching index filters logics).length := by
  rw [countItemsByFilter, selectJoined_filters, Option.map_some, List.length_map]

theorem exists_all_of_mem_conditions {c : Cond Atom}
    (h : c ∈ wallpaperFiltersToCondition filters logics) : ∃ cs, c = .all cs := by
  unfold wallpaperFiltersToCondition buildGroupedCondition at h
  dsimp only at h
  split at h
  · cases h
  · exact ⟨_, (Option.mem_some_iff.1 h).symm⟩

variable (index db filters logics) in
/-- Excluding an item adds a condition to the ones of the filters. -/
theorem selectJoined_exclude (eid : ℕ) :
    (selectJoined index db (some ((wallpaperFiltersToCondition filters logics).elim
      (.all [.atom (.idNe eid)]) fun c => c.add (.atom (.idNe eid))))).map (List.map Row.item) =
    some ((db.matching index filters logics).filter fun i => i.id != eid) := by
  rw [selectJoined_eq, Db.joinedRows, List.filter_map, Option.map_some, List.map_map,
    Db.matching, List.filter_filter]
  refine congrArg some (Eq.trans (List.map_id'' (fun _ => rfl) _) (List.filter_congr fun i _ => ?_))
  have hid : (Cond.atom (Atom.idNe eid)).Holds
      (Row.value index ⟨i, db.libraryOf i, db.tagsOf i⟩) ↔ (i.id != eid) = true := by
    rw [Cond.holds_atom, Row.value, Option.some_inj]
  rw [Bool.eq_iff_iff, Bool.and_eq_true, ← hid, Function.comp_apply, decide_eq_true_iff,
    decide_eq_true_iff]
  rcases hcond : wallpaperFiltersToCondition filters logics with _ | c
  · simp [Query.Accepts]
  · obtain ⟨cs, rfl⟩ := exists_all_of_mem_conditions hcond
    simp only [Query.Accepts, Option.mem_def, Option.some_inj, forall_eq', Option.elim_some,
      Cond.holds_add_all]
    exact and_comm

/-- The candidates for a random item are the matching ones, without the excluded one when there is
another. -/
theorem randomCandidates_eq (excludeId : Option ℕ) :
    ∃ rows, randomCandidates index db filters logics excludeId = some rows ∧
      rows.map Row.item = (db.matching index filters logics).filter fun i =>
        (db.matching index filters logics).length ≤ 1 || excludeId.all fun eid => i.id != eid := by
  rw [← Option.map_eq_some_iff, randomCandidates, countItemsByFilter_eq]
  simp only [Option.bind_eq_bind, Option.bind_some]
  have hall : (selectJoined index db (wallpaperFiltersToCondition filters logics)).map
      (List.map Row.item) = some (db.matching index filters logics) := by
    rw [selectJoined_filters, Option.map_some, List.map_map]
    exact congrArg some (List.map_id'' (fun _ => rfl) _)
  rcases excludeId with _ | eid
  · rw [List.filter_eq_self.2 (by simp), ← hall]
    cases wallpaperFiltersToCondition filters logics <;> rfl
  · by_cases hone : 1 < (db.matching index filters logics).length
    · rw [Option.filter_some, if_pos (by simpa using hone)]
      have hexcluded := selectJoined_exclude index db filters logics eid
      simp only [not_le.2 hone, decide_false, Bool.false_or, Option.all_some]
      rw [← hexcluded]
      cases wallpaperFiltersToCondition filters logics <;> rfl
    · rw [Option.filter_some, if_neg (by simpa using hone), List.filter_eq_self.2, ← hall]
      · cases wallpaperFiltersToCondition filters logics <;> rfl
      · intro i _
        simp [not_lt.1 hone]

variable (index db filters logics) in
theorem listItemKeys_perm :
    ∃ keys, listItemKeysByWallpaperFilters index db filters logics = some keys ∧
      keys.Perm ((db.matching index filters logics).filterMap fun i =>
        (db.libraryOf i).map fun lib => (lib.path, i.path)) := by
  rw [listItemKeysByWallpaperFilters, selectJoined_filters]
  refine ⟨_, rfl, ((perm_mergeSort _).filterMap _).trans (List.Perm.of_eq ?_)⟩
  rw [List.filterMap_map]
  rfl

theorem listItemIds_perm (h : ∀ f ∈ filters, f.onLibrary = false) :
    ∃ ids, listItemIdsByFilter index db filters logics = some ids ∧
      ids.Perm ((db.matching index filters logics).map Item.id) := by
  rw [listItemIdsByFilter, selectItems_filters h]
  refine ⟨_, rfl, ((perm_mergeSort _).map _).trans (List.Perm.of_eq ?_)⟩
  rw [List.map_map]
  rfl

/-- The four queries agree exactly when no rule is on the library. -/
theorem agree_or_absent_iff (index : String → Item → Bool) (db : Db)
    (filters : List WallpaperFilterRule) (logics : List FilterLogic) :
    Agree index db filters logics ∨ Absent index db filters logics ↔
      ∀ f ∈ filters, f.onLibrary = false := by
  constructor
  · rintro (hagree | habsent)
    · obtain ⟨ids, hids, -⟩ := hagree.ids
      by_contra hlib
      have hnone : selectItems index db (wallpaperFiltersToCondition filters logics) = none := by
        rw [selectItems, Query.run_eq_none_iff, wellFormed_items_iff, not_not,
          namesLibrary_conditions_iff]
        simpa using hlib
      rw [listItemIdsByFilter, hnone] at hids
      cases hids
    · have hcount := habsent.count
      rw [countItemsByFilter, selectJoined_filters] at hcount
      cases hcount
  · intro h
    exact .inl ⟨listItemKeys_perm .., countItemsByFilter_eq, listItemIds_perm h, randomCandidates_eq⟩

/-- A rule on the path of the library is an error for a shuffled queue alone. -/
theorem not_agree_or_absent : ¬ ∀ (index : String → Item → Bool) (db : Db)
    (filters : List WallpaperFilterRule) (logics : List FilterLogic),
    Agree index db filters logics ∨ Absent index db filters logics := by
  intro h
  let rule : WallpaperFilterRule := ⟨3, 0, some (.stringFilter "/home/u/Pictures" 1)⟩
  rcases h (fun _ _ => false) .empty [rule] [] with hagree | habsent
  · obtain ⟨ids, hids, -⟩ := hagree.ids
    have hnone : listItemIdsByFilter (fun _ _ => false) .empty [rule] [] = none := by
      decide
    rw [hnone] at hids
    cases hids
  · have hcount : countItemsByFilter (fun _ _ => false) .empty [rule] [] = some 0 := by
      decide
    rw [habsent.count] at hcount
    cases hcount

end

end Waywallen
