import Mathlib.Algebra.Ring.Int.Defs
import Mathlib.Data.List.Sort
import Waywallen.Filter.Grouped
import Waywallen.Library.Transition

/-!
# The filter editor

The dialog shows the rules section by section, a section for each group, and between two sections
next to each other whether either of them is enough. The daemon knows no sections: it gets the rules
and the logics that are kept beside them. A logic that names a group whose rules are gone is not
shown, and comes back when the group's number does.
-/

namespace Waywallen

open Sql

structure FilterEditor where
  rows : List WallpaperFilterRule := []
  filterLogics : List FilterLogic := []
  dirty : Bool := false
  /-- What the list of wallpapers is asked with. -/
  query : List WallpaperFilterRule × List FilterLogic := ([], [])
  /-- The settings that were stored, the first ones first. -/
  saves : List (List WallpaperFilterRule × List FilterLogic) := [([], [])]

inductive FilterEdit where
  /-- Settings arrive, the `k`-th that were stored. -/
  | replaceState (k : ℕ)
  | apply
  | appendNewGroup
  | appendRuleInGroup (group : Int32)
  | setRule (row : ℕ) (rule : WallpaperFilterRule)
  | removeRow (row : ℕ)
  | clear
  | deleteGroup (group : Int32)
  | setLogicOpAt (sectionIndex : ℕ) (op : Int32)

/-! ## Sections -/

def addSection (groups : List Int32) (rule : WallpaperFilterRule) : List Int32 :=
  if groups.getLast? = some rule.group then groups else groups ++ [rule.group]

def orderedGroups (rows : List WallpaperFilterRule) : List Int32 := rows.foldl addSection []

def maxGroup (rows : List WallpaperFilterRule) : Int32 :=
  rows.foldl (fun max r => if max < r.group then r.group else max) (-1)

/-- Where a rule of the group goes, looking at rules from the `i`-th on. -/
def findInsertPosition (group : Int32) (i pos : ℕ) (seen : Bool) : List WallpaperFilterRule → ℕ
  | [] => pos
  | r :: rows =>
      if r.group ≤ group then findInsertPosition group (i + 1) (i + 1) true rows
      else if seen then pos
      else findInsertPosition group (i + 1) pos seen rows

def insertRule (group : Int32) (rows : List WallpaperFilterRule) : List WallpaperFilterRule :=
  rows.insertIdx (findInsertPosition group 0 0 false rows) ⟨0, group, none⟩

def sortByGroup (rows : List WallpaperFilterRule) : List WallpaperFilterRule :=
  rows.insertionSort fun r r' => r.group ≤ r'.group

def FilterLogic.pair (l : FilterLogic) : Int32 × Int32 := (l.groupA, l.groupB)

namespace FilterEditor

variable (s : FilterEditor)

/-- The groups of the section and of the one before it. -/
def sectionPair : ℕ → Option (Int32 × Int32)
  | 0 => none
  | i + 1 => (orderedGroups s.rows)[i]?.bind fun a =>
      (orderedGroups s.rows)[i + 1]?.map fun b => (a, b)

/-- The first logic between a section and the one before it. -/
def findLogicAt (sectionIndex : ℕ) : Option ℕ :=
  (s.sectionPair sectionIndex).bind fun p => s.filterLogics.findIdx? (·.pair = p)

def logicOpAt (sectionIndex : ℕ) : Option Int32 :=
  (s.findLogicAt sectionIndex).bind fun i => s.filterLogics[i]?.map FilterLogic.op

/-! ## What the dialog does -/

/-- The list is queried with what the editor holds. -/
def doQuery : FilterEditor := { s with query := (s.rows, s.filterLogics) }

def replaceState (filters : List WallpaperFilterRule) (filterLogics : List FilterLogic) :
    FilterEditor :=
  { s with rows := sortByGroup filters, filterLogics, dirty := false }

def apply : FilterEditor :=
  let s := { s with dirty := false }.doQuery
  { s with saves := s.saves ++ [(s.rows, s.filterLogics)] }

def appendRuleInGroup (group : Int32) : FilterEditor :=
  { s with rows := insertRule group s.rows, dirty := true }

def appendNewGroup : FilterEditor :=
  let newId := maxGroup s.rows + 1
  let previousMax := (s.rows.getLast?.map WallpaperFilterRule.group).getD (-1)
  let s := s.appendRuleInGroup newId
  if 0 ≤ previousMax then { s with filterLogics := s.filterLogics ++ [⟨1, previousMax, newId⟩] }
  else s

/-- The group of a rule is not among what its fields change. -/
def setRule (row : ℕ) (rule : WallpaperFilterRule) : FilterEditor :=
  { s with rows := s.rows.modify row fun r => { rule with group := r.group }, dirty := true }

def removeRow (row : ℕ) : FilterEditor := { s with rows := s.rows.eraseIdx row, dirty := true }

def clear : FilterEditor := if s.rows = [] then s else { s with rows := [], dirty := true }

def deleteGroup (group : Int32) : FilterEditor :=
  let rows := s.rows.filter (·.group ≠ group)
  let filterLogics := s.filterLogics.filter fun l => ¬ (l.groupA = group ∨ l.groupB = group)
  { s with rows, filterLogics, dirty := s.dirty || rows ≠ s.rows || filterLogics ≠ s.filterLogics }

def setLogicOpAt (sectionIndex : ℕ) (op : Int32) : FilterEditor :=
  match s.findLogicAt sectionIndex with
  | none => match s.sectionPair sectionIndex with
    | none => s
    | some p => { s with filterLogics := s.filterLogics ++ [⟨op, p.1, p.2⟩], dirty := true }
  | some i =>
      if s.logicOpAt sectionIndex = some op then s
      else { s with filterLogics := s.filterLogics.modify i ({ · with op }), dirty := true }

/-- Groups are numbered up to the largest number there is, and a rule is added to a section that is
shown. -/
def step : FilterEdit → Option FilterEditor
  | .replaceState k =>
      s.saves[k]?.map fun g => (s.replaceState g.1 g.2).doQuery
  | .apply => if s.dirty then some s.apply else none
  | .appendNewGroup => if maxGroup s.rows = Int32.maxValue then none else some s.appendNewGroup
  | .appendRuleInGroup group =>
      if group ∈ orderedGroups s.rows then some (s.appendRuleInGroup group) else none
  | .setRule row rule => if row < s.rows.length then some (s.setRule row rule) else none
  | .removeRow row => if row < s.rows.length then some (s.removeRow row) else none
  | .clear => some s.clear
  | .deleteGroup group =>
      if group ∈ orderedGroups s.rows then some (s.deleteGroup group) else none
  | .setLogicOpAt sectionIndex op => some (s.setLogicOpAt sectionIndex op)

/-- No logic names a group without rules. -/
def Attached : Prop :=
  ∀ l ∈ s.filterLogics, l.groupA ∈ orderedGroups s.rows ∧ l.groupB ∈ orderedGroups s.rows

instance : Decidable s.Attached := inferInstanceAs (Decidable (∀ l ∈ s.filterLogics, _))

/-- The edit leaves no logic that names a group without rules. -/
def Keeps (l : FilterEdit) : Prop := ∀ t ∈ s.step l, t.Attached

instance (l : FilterEdit) : Decidable (s.Keeps l) :=
  inferInstanceAs (Decidable (∀ t ∈ s.step l, _))

/-! ## What the dialog shows -/

/-- Two sections next to each other that have conditions are joined by a logic. -/
def JoinedAt (i : ℕ) : Prop :=
  ∃ p, s.sectionPair (i + 1) = some p ∧ (s.logicOpAt (i + 1)).isSome = true ∧
    GroupPresent WallpaperFilterRule.group wallpaperFilterToCondition s.rows p.1 ∧
    GroupPresent WallpaperFilterRule.group wallpaperFilterToCondition s.rows p.2

/-- Sections that are joined hold as the button between them says, and every other section holds. -/
structure Shows (value : Atom → Truth) : Prop where
  joined : ∀ i op p, s.sectionPair (i + 1) = some p → s.logicOpAt (i + 1) = some op →
    s.JoinedAt i → FilterLogic.Joins ⟨op, p.1, p.2⟩
      (GroupHolds WallpaperFilterRule.group wallpaperFilterToCondition value s.rows p.1)
      (GroupHolds WallpaperFilterRule.group wallpaperFilterToCondition value s.rows p.2)
  alone : ∀ i g, (orderedGroups s.rows)[i]? = some g →
    GroupPresent WallpaperFilterRule.group wallpaperFilterToCondition s.rows g →
    ¬ s.JoinedAt i → (∀ j, i = j + 1 → ¬ s.JoinedAt j) →
    GroupHolds WallpaperFilterRule.group wallpaperFilterToCondition value s.rows g

end FilterEditor

/-! ## Sections in order -/

section Sections

variable {rows rows' : List WallpaperFilterRule} {group g : Int32} {groups : List Int32}

/-- The rules stand in the order of their groups. -/
def InGroups (rows : List WallpaperFilterRule) : Prop :=
  rows.Pairwise fun r r' => r.group ≤ r'.group

theorem orderedGroups_concat (rows : List WallpaperFilterRule) (r : WallpaperFilterRule) :
    orderedGroups (rows ++ [r]) = addSection (orderedGroups rows) r := List.foldl_concat ..

theorem getLast?_addSection (groups : List Int32) (r : WallpaperFilterRule) :
    (addSection groups r).getLast? = some r.group := by
  rw [addSection]
  split
  · assumption
  · exact List.getLast?_concat

theorem getLast?_orderedGroups (rows : List WallpaperFilterRule) :
    (orderedGroups rows).getLast? = rows.getLast?.map WallpaperFilterRule.group := by
  induction rows using List.reverseRecOn with
  | nil => rfl
  | append_singleton rows r =>
    rw [orderedGroups_concat, getLast?_addSection, List.getLast?_concat, Option.map_some]

theorem mem_addSection {r : WallpaperFilterRule} :
    g ∈ addSection groups r ↔ g ∈ groups ∨ g = r.group := by
  rw [addSection]
  split
  · rename_i hlast
    have hmem : r.group ∈ groups := List.mem_of_getLast? hlast
    constructor
    · exact .inl
    · rintro (h | rfl)
      · exact h
      · exact hmem
  · rw [List.mem_append, List.mem_singleton]

theorem mem_orderedGroups : g ∈ orderedGroups rows ↔ ∃ r ∈ rows, r.group = g := by
  induction rows using List.reverseRecOn with
  | nil => simp [orderedGroups]
  | append_singleton rows r ih =>
    rw [orderedGroups_concat, mem_addSection, ih]
    constructor
    · rintro (⟨r', hr', hg⟩ | rfl)
      · exact ⟨r', List.mem_append_left _ hr', hg⟩
      · exact ⟨r, List.mem_append_right _ (List.mem_singleton_self r), rfl⟩
    · rintro ⟨r', hr', hg⟩
      obtain hr' | hr' := List.mem_append.1 hr'
      · exact .inl ⟨r', hr', hg⟩
      · exact .inr (by rw [← hg, List.mem_singleton.1 hr'])

/-- Every section is shown once, in the order of the groups. -/
theorem InGroups.ascending (h : InGroups rows) : (orderedGroups rows).Pairwise (· < ·) := by
  induction rows using List.reverseRecOn with
  | nil => exact .nil
  | append_singleton rows r ih =>
    obtain ⟨hrows, -, hle⟩ := List.pairwise_append.1 h
    have hasc := ih hrows
    have hbelow : ∀ g ∈ orderedGroups rows, g ≤ r.group := by
      intro g hg
      obtain ⟨r', hr', rfl⟩ := mem_orderedGroups.1 hg
      exact hle r' hr' r (List.mem_singleton_self r)
    rw [orderedGroups_concat, addSection]
    split
    · exact hasc
    · rename_i hlast
      refine List.pairwise_append.2 ⟨hasc, List.pairwise_singleton _ _, fun g hg g' hg' => ?_⟩
      rw [List.mem_singleton.1 hg']
      refine Int32.lt_of_le_of_ne (hbelow g hg) fun heq => hlast ?_
      -- the group is the last one, as it is the largest there is
      obtain ⟨gs, z, hgs⟩ : ∃ gs z, orderedGroups rows = gs ++ [z] :=
        ⟨_, _, (List.dropLast_append_getLast (List.ne_nil_of_mem hg)).symm⟩
      rw [hgs, List.getLast?_concat]
      have hz : z ≤ r.group := hbelow z (hgs ▸ List.mem_append_right _ (List.mem_singleton_self z))
      rw [hgs] at hasc hg
      obtain hg | hg := List.mem_append.1 hg
      · have hlt := (List.pairwise_append.1 hasc).2.2 g hg z (List.mem_singleton_self z)
        rw [heq] at hlt
        exact absurd (Int32.lt_of_lt_of_le hlt hz) Int32.lt_irrefl
      · rw [← heq, List.mem_singleton.1 hg]

theorem InGroups.orderedGroups_eq (h : InGroups rows) (hgroups : groups.Pairwise (· < ·))
    (hmem : ∀ g, g ∈ groups ↔ ∃ r ∈ rows, r.group = g) : orderedGroups rows = groups := by
  have hirrefl : Std.Irrefl (α := Int32) (· < ·) := ⟨fun _ => Int32.lt_irrefl⟩
  have hantisymm : Std.Antisymm (α := Int32) (· < ·) :=
    ⟨fun _ _ hlt hlt' => absurd hlt' (Int32.lt_asymm hlt)⟩
  exact h.ascending.eq_of_mem_iff hgroups fun g => mem_orderedGroups.trans (hmem g).symm

/-- Rules that are left are shown in the sections they were in. -/
theorem InGroups.orderedGroups_sublist (h : InGroups rows) (hsub : rows'.Sublist rows) :
    orderedGroups rows' = (orderedGroups rows).filter (· ∈ orderedGroups rows') := by
  refine InGroups.orderedGroups_eq (h.sublist hsub) (h.ascending.sublist List.filter_sublist) ?_
  intro g
  rw [List.mem_filter, decide_eq_true_eq, mem_orderedGroups, mem_orderedGroups]
  constructor
  · exact And.right
  · rintro ⟨r, hr, rfl⟩
    exact ⟨⟨r, hsub.subset hr, rfl⟩, r, hr, rfl⟩

theorem findInsertPosition_spec (h : InGroups rows) (group : Int32) (i pos : ℕ) (seen : Bool) :
    ∃ before after, rows = before ++ after ∧
      findInsertPosition group i pos seen rows =
        (if before = [] then pos else i + before.length) ∧
      (∀ r ∈ before, r.group ≤ group) ∧ ∀ r ∈ after, group < r.group := by
  induction rows generalizing i pos seen with
  | nil => exact ⟨[], [], rfl, rfl, by simp, by simp⟩
  | cons r rows ih =>
    obtain ⟨hle, hrows⟩ := List.pairwise_cons.1 h
    by_cases hr : r.group ≤ group
    · obtain ⟨before, after, rfl, hpos, hbefore, hafter⟩ := ih hrows (i + 1) (i + 1) true
      refine ⟨r :: before, after, rfl, ?_, List.forall_mem_cons.2 ⟨hr, hbefore⟩, hafter⟩
      rw [findInsertPosition, if_pos hr, hpos, if_neg (List.cons_ne_nil _ _), List.length_cons]
      cases before with
      | nil => rfl
      | cons r' before =>
        rw [if_neg (List.cons_ne_nil _ _)]
        omega
    · have hlt : ∀ r' ∈ r :: rows, group < r'.group := by
        refine List.forall_mem_cons.2 ⟨Int32.not_le.1 hr, fun r' hr' => ?_⟩
        exact Int32.lt_of_lt_of_le (Int32.not_le.1 hr) (hle r' hr')
      refine ⟨[], r :: rows, rfl, ?_, by simp, hlt⟩
      rw [findInsertPosition, if_neg hr, if_pos rfl]
      split
      · rfl
      · obtain ⟨before, after, rfl, hpos, hbefore, -⟩ := ih hrows (i + 1) pos seen
        rw [hpos]
        cases before with
        | nil => rfl
        | cons r' before =>
          have hr' : r' ∈ r :: (r' :: before ++ after) := by simp
          exact absurd (hbefore r' List.mem_cons_self) (Int32.not_le.2 (hlt r' hr'))

theorem insertIdx_append {α : Type} (before after : List α) (a : α) :
    (before ++ after).insertIdx before.length a = before ++ a :: after := by
  induction before with
  | nil => rfl
  | cons b before ih => rw [List.cons_append, List.length_cons, List.insertIdx_succ_cons, ih,
      List.cons_append]

/-- A new rule goes behind the rules of its group. -/
theorem InGroups.insertRule_spec (h : InGroups rows) (group : Int32) :
    ∃ before after, rows = before ++ after ∧
    insertRule group rows = before ++ ⟨0, group, none⟩ :: after ∧
    (∀ r ∈ before, r.group ≤ group) ∧ ∀ r ∈ after, group < r.group := by
  obtain ⟨before, after, rfl, hpos, hbefore, hafter⟩ :=
    findInsertPosition_spec h group 0 0 false
  refine ⟨before, after, rfl, ?_, hbefore, hafter⟩
  have hpos : findInsertPosition group 0 0 false (before ++ after) = before.length := by
    rw [hpos]
    cases before with
    | nil => rfl
    | cons r before => rw [if_neg (List.cons_ne_nil _ _), Nat.zero_add]
  rw [insertRule, hpos]
  exact insertIdx_append before after _

theorem InGroups.mem_insertRule (h : InGroups rows) {r : WallpaperFilterRule} :
    r ∈ insertRule group rows ↔ r = ⟨0, group, none⟩ ∨ r ∈ rows := by
  obtain ⟨before, after, rfl, hinsert, -, -⟩ := h.insertRule_spec group
  rw [hinsert, List.mem_append, List.mem_cons, List.mem_append]
  exact or_left_comm

theorem InGroups.insertRule (h : InGroups rows) (group : Int32) :
    InGroups (insertRule group rows) := by
  obtain ⟨before, after, rfl, hinsert, hbefore, hafter⟩ := h.insertRule_spec group
  obtain ⟨hb, ha, hba⟩ := List.pairwise_append.1 h
  rw [hinsert]
  refine List.pairwise_append.2 ⟨hb, List.pairwise_cons.2 ⟨fun r hr => ?_, ha⟩, fun r hr r' hr' => ?_⟩
  · exact Int32.le_of_lt (hafter r hr)
  · obtain rfl | hr' := List.mem_cons.1 hr'
    · exact hbefore r hr
    · exact hba r hr r' hr'

theorem InGroups.mem_orderedGroups_insertRule (h : InGroups rows) :
    g ∈ orderedGroups (Waywallen.insertRule group rows) ↔ g = group ∨ g ∈ orderedGroups rows := by
  simp only [mem_orderedGroups, h.mem_insertRule]
  constructor
  · rintro ⟨r, rfl | hr, rfl⟩
    · exact .inl rfl
    · exact .inr ⟨r, hr, rfl⟩
  · rintro (rfl | ⟨r, hr, rfl⟩)
    · exact ⟨_, .inl rfl, rfl⟩
    · exact ⟨r, .inr hr, rfl⟩

theorem le_foldl_max (m : Int32) :
    m ≤ rows.foldl (fun max r => if max < r.group then r.group else max) m ∧ ∀ r ∈ rows,
      r.group ≤ rows.foldl (fun max r => if max < r.group then r.group else max) m := by
  induction rows generalizing m with
  | nil => exact ⟨Int32.le_refl m, by simp⟩
  | cons r rows ih =>
    rw [List.foldl_cons]
    obtain ⟨hle, hall⟩ := ih (if m < r.group then r.group else m)
    have hmax : m ≤ (if m < r.group then r.group else m) ∧
        r.group ≤ if m < r.group then r.group else m := by
      split
      · exact ⟨Int32.le_of_lt ‹_›, Int32.le_refl _⟩
      · exact ⟨Int32.le_refl _, Int32.not_lt.1 ‹_›⟩
    exact ⟨Int32.le_trans hmax.1 hle,
      List.forall_mem_cons.2 ⟨Int32.le_trans hmax.2 hle, hall⟩⟩

theorem lt_add_one_of_ne {a : Int32} (h : a ≠ Int32.maxValue) : a < a + 1 := by
  have hlt : a.toInt < 2 ^ 31 - 1 := by
    refine lt_of_le_of_ne (Int32.toInt_le a) fun heq => h ?_
    exact Int32.toInt_inj.1 heq
  have hle := Int32.le_toInt a
  have hadd : (a + 1).toInt = a.toInt + 1 := by
    have hone : (1 : Int32).toInt = 1 := rfl
    rw [Int32.toInt_add, hone]
    exact Int.bmod_eq_of_le (by omega) (by omega)
  rw [Int32.lt_iff_toInt_lt, hadd]
  exact Int.lt_succ _

/-- The number of a new group is larger than those there are. -/
theorem lt_newId (hmax : maxGroup rows ≠ Int32.maxValue) (hg : g ∈ orderedGroups rows) :
    g < maxGroup rows + 1 := by
  obtain ⟨r, hr, rfl⟩ := mem_orderedGroups.1 hg
  exact Int32.lt_of_le_of_lt ((le_foldl_max (-1)).2 r hr) (lt_add_one_of_ne hmax)

theorem infix_pair_iff {a b : Int32} : [a, b] <:+: groups ↔
    ∃ i, groups[i]? = some a ∧ groups[i + 1]? = some b := by
  rw [List.infix_iff_getElem?]
  constructor
  · rintro ⟨k, -, hk⟩
    refine ⟨k, by simpa using hk 0 (Nat.zero_lt_succ 1), ?_⟩
    simpa [Nat.add_comm] using hk 1 (Nat.lt_succ_self 1)
  · rintro ⟨i, ha, hb⟩
    have hlt := (List.getElem?_eq_some_iff.1 hb).1
    have hlen : [a, b].length + i ≤ groups.length := by
      rw [List.length_cons, List.length_singleton]
      omega
    refine ⟨i, hlen, fun j hj => ?_⟩
    match j, hj with
    | 0, _ => simpa using ha
    | 1, _ => simpa [Nat.add_comm] using hb

/-- The rules stand in the order of their groups, and every logic joins two sections next to each
other, which no other does. -/
structure Linked (rows : List WallpaperFilterRule) (pairs : List (Int32 × Int32)) : Prop where
  inGroups : InGroups rows
  nodup : pairs.Nodup
  adjacent : ∀ p ∈ pairs, [p.1, p.2] <:+: orderedGroups rows

namespace Linked

variable {pairs pairs' : List (Int32 × Int32)}

theorem nil : Linked [] [] := ⟨.nil, .nil, by simp⟩

/-- Sections between which nothing is left are next to each other if they were. -/
theorem sublist (h : Linked rows pairs) (hrows : rows'.Sublist rows) (hpairs : pairs'.Sublist pairs)
    (hkept : ∀ p ∈ pairs', p.1 ∈ orderedGroups rows' ∧ p.2 ∈ orderedGroups rows') :
    Linked rows' pairs' where
  inGroups := h.inGroups.sublist hrows
  nodup := h.nodup.sublist hpairs
  adjacent p hp := by
    have hinfix := (h.adjacent p (hpairs.subset hp)).filter (· ∈ orderedGroups rows')
    rw [h.inGroups.orderedGroups_sublist hrows]
    simpa [hkept p hp] using hinfix

theorem map_group (h : Linked rows pairs)
    (hgroup : rows'.map WallpaperFilterRule.group = rows.map WallpaperFilterRule.group) :
    Linked rows' pairs := by
  have hsections (rows : List WallpaperFilterRule) : orderedGroups rows =
      (rows.map WallpaperFilterRule.group).foldl
        (fun groups g => if groups.getLast? = some g then groups else groups ++ [g]) [] := by
    rw [List.foldl_map]
    rfl
  refine ⟨?_, h.nodup, fun p hp => ?_⟩
  · have hrows := List.pairwise_map.2 h.inGroups
    rw [← hgroup] at hrows
    exact List.pairwise_map.1 hrows
  · rw [hsections, hgroup, ← hsections]
    exact h.adjacent p hp

theorem appendRuleInGroup (h : Linked rows pairs) (hgroup : group ∈ orderedGroups rows) :
    Linked (insertRule group rows) pairs := by
  have hsections : orderedGroups (insertRule group rows) = orderedGroups rows := by
    refine (h.inGroups.insertRule group).orderedGroups_eq h.inGroups.ascending fun g => ?_
    rw [← mem_orderedGroups, h.inGroups.mem_orderedGroups_insertRule]
    exact ⟨.inr, fun hg => hg.elim (fun heq => heq ▸ hgroup) id⟩
  exact ⟨h.inGroups.insertRule group, h.nodup, fun p hp => hsections ▸ h.adjacent p hp⟩

/-- A group that comes after all others is the last section. -/
theorem orderedGroups_insertRule (h : Linked rows pairs)
    (hlast : ∀ g ∈ orderedGroups rows, g < group) :
    orderedGroups (insertRule group rows) = orderedGroups rows ++ [group] := by
  refine (h.inGroups.insertRule group).orderedGroups_eq (List.pairwise_append.2
    ⟨h.inGroups.ascending, List.pairwise_singleton _ _, fun g hg g' hg' => ?_⟩) fun g => ?_
  · rw [List.mem_singleton.1 hg']
    exact hlast g hg
  · rw [← mem_orderedGroups, h.inGroups.mem_orderedGroups_insertRule, List.mem_append,
      List.mem_singleton]
    exact or_comm

theorem appendNewGroup (h : Linked rows pairs) (hlast : ∀ g ∈ orderedGroups rows, g < group) :
    Linked (insertRule group rows) pairs := by
  refine ⟨h.inGroups.insertRule group, h.nodup, fun p hp => ?_⟩
  rw [h.orderedGroups_insertRule hlast]
  exact (h.adjacent p hp).trans (List.prefix_append _ _).isInfix

theorem appendLogic {p : Int32 × Int32} (h : Linked rows pairs) (hp : p ∉ pairs)
    (hadjacent : [p.1, p.2] <:+: orderedGroups rows) : Linked rows (pairs ++ [p]) where
  inGroups := h.inGroups
  nodup := List.nodup_append.2 ⟨h.nodup, List.nodup_singleton p, fun q hq q' hq' => by
    rw [List.mem_singleton.1 hq']
    exact fun heq => hp (heq ▸ hq)⟩
  adjacent q hq := by
    obtain hq | hq := List.mem_append.1 hq
    · exact h.adjacent q hq
    · rw [List.mem_singleton.1 hq]
      exact hadjacent

end Linked

end Sections

/-! ## Edits -/

theorem map_modify_of_eq {α β : Type} {f : α → α} {g : α → β} (h : ∀ a, g (f a) = g a)
    (l : List α) (i : ℕ) : (l.modify i f).map g = l.map g := by
  refine List.ext_getElem? fun j => ?_
  rw [List.getElem?_map, List.getElem?_map, List.getElem?_modify]
  cases l[j]? with
  | none => rfl
  | some a =>
    split
    · exact congrArg some (h a)
    · rfl

namespace FilterEditor

variable {s t : FilterEditor} {i : ℕ} {p : Int32 × Int32} {op : Int32}

theorem sectionPair_eq_some : s.sectionPair (i + 1) = some p ↔
    (orderedGroups s.rows)[i]? = some p.1 ∧ (orderedGroups s.rows)[i + 1]? = some p.2 := by
  simp only [sectionPair, Option.bind_eq_some_iff, Option.map_eq_some_iff]
  constructor
  · rintro ⟨a, ha, b, hb, rfl⟩
    exact ⟨ha, hb⟩
  · rintro ⟨ha, hb⟩
    exact ⟨p.1, ha, p.2, hb, rfl⟩

theorem exists_sectionPair :
    [p.1, p.2] <:+: orderedGroups s.rows ↔ ∃ i, s.sectionPair (i + 1) = some p := by
  simp only [infix_pair_iff, sectionPair_eq_some]

theorem findLogicAt_eq_none {k : ℕ} (hp : s.sectionPair k = some p) (h : s.findLogicAt k = none) :
    p ∉ s.filterLogics.map FilterLogic.pair := by
  rw [findLogicAt, hp, Option.bind_some, List.findIdx?_eq_none_iff] at h
  intro hmem
  obtain ⟨l, hl, rfl⟩ := List.mem_map.1 hmem
  simpa using h l hl

/-- A section shows the logic there is. -/
theorem logicOpAt_eq_some {k : ℕ} (h : (s.filterLogics.map FilterLogic.pair).Nodup)
    (hp : s.sectionPair k = some p) :
    s.logicOpAt k = some op ↔ ⟨op, p.1, p.2⟩ ∈ s.filterLogics := by
  have hfind {j : ℕ} (hj : s.findLogicAt k = some j) :
      ∃ l, s.filterLogics[j]? = some l ∧ l.pair = p := by
    rw [findLogicAt, hp, Option.bind_some, List.findIdx?_eq_some_iff_getElem] at hj
    obtain ⟨hlt, hpair, -⟩ := hj
    exact ⟨_, List.getElem?_eq_getElem hlt, by simpa using hpair⟩
  rw [logicOpAt]
  constructor
  · intro hop
    obtain ⟨j, hj, hop⟩ := Option.bind_eq_some_iff.1 hop
    obtain ⟨l, hl, rfl⟩ := hfind hj
    rw [hl, Option.map_some, Option.some_inj] at hop
    subst hop
    exact List.mem_of_getElem? hl
  · intro hmem
    cases hj : s.findLogicAt k with
    | none => exact absurd (List.mem_map_of_mem hmem) (findLogicAt_eq_none hp hj)
    | some j =>
      obtain ⟨l, hl, hpair⟩ := hfind hj
      obtain rfl : l = ⟨op, p.1, p.2⟩ :=
        List.inj_on_of_nodup_map h (List.mem_of_getElem? hl) hmem hpair
      rw [Option.bind_some, hl, Option.map_some]

/-- The editor and all settings are in order, and an editor that is not dirty shows what the list
was asked with. -/
structure Consistent (s : FilterEditor) : Prop where
  linked : Linked s.rows (s.filterLogics.map FilterLogic.pair)
  saves : ∀ g ∈ s.saves, Linked g.1 (g.2.map FilterLogic.pair)
  synced : s.dirty = false → s.query = (s.rows, s.filterLogics)

theorem consistent_init : Consistent {} :=
  ⟨.nil, List.forall_mem_singleton.2 .nil, fun _ => rfl⟩

namespace Consistent

theorem replaceState (h : s.Consistent) {g : List WallpaperFilterRule × List FilterLogic}
    (hg : g ∈ s.saves) : (s.replaceState g.1 g.2).doQuery.Consistent := by
  have hsort : sortByGroup g.1 = g.1 := (h.saves g hg).inGroups.insertionSort_eq
  refine ⟨?_, h.saves, fun _ => rfl⟩
  change Linked (sortByGroup g.1) _
  rw [hsort]
  exact h.saves g hg

theorem apply (h : s.Consistent) : s.apply.Consistent := by
  refine ⟨h.linked, fun g hg => ?_, fun _ => rfl⟩
  obtain hg | hg := List.mem_append.1 hg
  · exact h.saves g hg
  · rw [List.mem_singleton.1 hg]
    exact h.linked

theorem appendRuleInGroup (h : s.Consistent) {group : Int32}
    (hgroup : group ∈ orderedGroups s.rows) : (s.appendRuleInGroup group).Consistent :=
  ⟨h.linked.appendRuleInGroup hgroup, h.saves, Bool.noConfusion⟩

theorem appendNewGroup (h : s.Consistent) (hmax : maxGroup s.rows ≠ Int32.maxValue) :
    s.appendNewGroup.Consistent := by
  have hlast : ∀ g ∈ orderedGroups s.rows, g < maxGroup s.rows + 1 := fun g => lt_newId hmax
  have hlinked := h.linked.appendNewGroup hlast
  rw [FilterEditor.appendNewGroup]
  split
  · rename_i hprevious
    refine ⟨?_, h.saves, Bool.noConfusion⟩
    dsimp only [FilterEditor.appendRuleInGroup]
    rw [List.map_append]
    refine hlinked.appendLogic (fun hmem => ?_) ?_
    · -- logics name sections there are
      have hmem := (h.linked.adjacent _ hmem).subset
        (List.mem_cons_of_mem _ (List.mem_singleton_self _))
      exact absurd (hlast _ hmem) Int32.lt_irrefl
    · cases hrow : s.rows.getLast? with
      | none =>
        rw [hrow] at hprevious
        exact absurd hprevious (by decide)
      | some r =>
        obtain ⟨gs, hgs⟩ := List.getLast?_eq_some_iff.1
          ((getLast?_orderedGroups s.rows).trans (congrArg (Option.map _) hrow))
        rw [h.linked.orderedGroups_insertRule hlast, hgs]
        exact ⟨gs, [], by simp [FilterLogic.pair]⟩
  · exact ⟨hlinked, h.saves, Bool.noConfusion⟩

theorem setRule (h : s.Consistent) (row : ℕ) (rule : WallpaperFilterRule) :
    (s.setRule row rule).Consistent := by
  have hgroup : (s.setRule row rule).rows.map WallpaperFilterRule.group =
      s.rows.map WallpaperFilterRule.group := by
    refine map_modify_of_eq (fun r => ?_) _ _
    rfl
  exact ⟨h.linked.map_group hgroup, h.saves, Bool.noConfusion⟩

/-- Rules and logics go, and no logic is left that names a group without rules. -/
theorem remove (h : s.Consistent) (hrows : t.rows.Sublist s.rows)
    (hlogics : t.filterLogics.Sublist s.filterLogics) (hattached : t.Attached)
    (hsaves : t.saves = s.saves) (hsynced : t.dirty = false → t.query = (t.rows, t.filterLogics)) :
    t.Consistent := by
  refine ⟨h.linked.sublist hrows (hlogics.map _) fun p hp => ?_, hsaves ▸ h.saves, hsynced⟩
  obtain ⟨l, hl, rfl⟩ := List.mem_map.1 hp
  exact hattached l hl

theorem clear (h : s.Consistent) (hattached : s.clear.Attached) : s.clear.Consistent := by
  rw [FilterEditor.clear] at hattached ⊢
  split
  · exact h
  · rename_i hrows
    rw [if_neg hrows] at hattached
    exact h.remove (List.nil_sublist _) (.refl _) hattached rfl Bool.noConfusion

theorem deleteGroup (h : s.Consistent) {group : Int32}
    (hattached : (s.deleteGroup group).Attached) : (s.deleteGroup group).Consistent := by
  refine h.remove List.filter_sublist List.filter_sublist hattached rfl fun hdirty => ?_
  dsimp only [FilterEditor.deleteGroup] at hdirty ⊢
  simp only [Bool.or_eq_false_iff, decide_eq_false_iff_not, not_not] at hdirty
  rw [hdirty.1.2, hdirty.2]
  exact h.synced hdirty.1.1

theorem setLogicOpAt (h : s.Consistent) (k : ℕ) (op : Int32) :
    (s.setLogicOpAt k op).Consistent := by
  rw [FilterEditor.setLogicOpAt]
  split
  · rename_i hfind
    split
    · exact h
    · rename_i p hp
      obtain ⟨i, rfl⟩ : ∃ i, k = i + 1 := by
        cases k with
        | zero => cases hp
        | succ i => exact ⟨i, rfl⟩
      refine ⟨?_, h.saves, Bool.noConfusion⟩
      dsimp only
      rw [List.map_append]
      exact h.linked.appendLogic (findLogicAt_eq_none hp hfind) (exists_sectionPair.2 ⟨i, hp⟩)
  · split
    · exact h
    · rename_i i _ _
      have hpairs : (s.filterLogics.modify i ({ · with op })).map FilterLogic.pair =
          s.filterLogics.map FilterLogic.pair := by
        refine map_modify_of_eq (fun l => ?_) _ _
        rfl
      refine ⟨?_, h.saves, Bool.noConfusion⟩
      dsimp only
      rw [hpairs]
      exact h.linked

theorem step {l : FilterEdit} (h : s.Consistent) (hkeeps : s.Keeps l)
    (hstep : s.step l = some t) : t.Consistent := by
  have hattached : t.Attached := hkeeps t hstep
  cases l with
  | replaceState k =>
    obtain ⟨g, hg, rfl⟩ := Option.map_eq_some_iff.1 hstep
    exact h.replaceState (List.mem_of_getElem? hg)
  | apply =>
    obtain ⟨-, hstep⟩ := Option.ite_none_right_eq_some.1 hstep
    cases hstep
    exact h.apply
  | appendNewGroup =>
    obtain ⟨hmax, hstep⟩ := Option.ite_none_left_eq_some.1 hstep
    cases hstep
    exact h.appendNewGroup hmax
  | appendRuleInGroup group =>
    obtain ⟨hgroup, hstep⟩ := Option.ite_none_right_eq_some.1 hstep
    cases hstep
    exact h.appendRuleInGroup hgroup
  | setRule row rule =>
    obtain ⟨-, hstep⟩ := Option.ite_none_right_eq_some.1 hstep
    cases hstep
    exact h.setRule row rule
  | removeRow row =>
    obtain ⟨-, hstep⟩ := Option.ite_none_right_eq_some.1 hstep
    cases hstep
    exact h.remove (List.eraseIdx_sublist _ _) (.refl _) hattached rfl Bool.noConfusion
  | clear =>
    cases hstep
    exact h.clear hattached
  | deleteGroup group =>
    obtain ⟨-, hstep⟩ := Option.ite_none_right_eq_some.1 hstep
    cases hstep
    exact h.deleteGroup hattached
  | setLogicOpAt k op =>
    cases hstep
    exact h.setLogicOpAt k op

end Consistent

/-! ## What the daemon makes of it -/

section Meaning

variable (h : Linked s.rows (s.filterLogics.map FilterLogic.pair))

include h

theorem exists_section {l : FilterLogic} (hl : l ∈ s.filterLogics) :
    ∃ i, s.sectionPair (i + 1) = some l.pair ∧ s.logicOpAt (i + 1) = some l.op := by
  obtain ⟨i, hi⟩ := exists_sectionPair.1 (h.adjacent _ (List.mem_map_of_mem hl))
  exact ⟨i, hi, (logicOpAt_eq_some h.nodup hi).2 hl⟩

theorem joinedAt_iff : s.JoinedAt i ↔ ∃ l ∈ s.filterLogics, s.sectionPair (i + 1) = some l.pair ∧
    EdgePresent WallpaperFilterRule.group wallpaperFilterToCondition s.rows l := by
  constructor
  · rintro ⟨p, hp, hop, hpresent⟩
    obtain ⟨op, hop⟩ := Option.isSome_iff_exists.1 hop
    exact ⟨⟨op, p.1, p.2⟩, (logicOpAt_eq_some h.nodup hp).1 hop, hp, hpresent⟩
  · rintro ⟨l, hl, hp, hpresent⟩
    exact ⟨l.pair, hp, Option.isSome_iff_exists.2 ⟨l.op, (logicOpAt_eq_some h.nodup hp).2 hl⟩,
      hpresent⟩

/-- The sections that are joined to one next to them are those that the edges name. -/
theorem mem_referenced_iff {g : Int32} (hg : (orderedGroups s.rows)[i]? = some g) :
    g ∈ referenced WallpaperFilterRule.group wallpaperFilterToCondition s.rows s.filterLogics ↔
      s.JoinedAt i ∨ ∃ j, i = j + 1 ∧ s.JoinedAt j := by
  have hnodup : (orderedGroups s.rows).Nodup :=
    h.inGroups.ascending.imp fun hlt heq => by
      rw [heq] at hlt
      exact Int32.lt_irrefl hlt
  have hindex {j : ℕ} (hj : (orderedGroups s.rows)[j]? = some g) : j = i := by
    have hlt := (List.getElem?_eq_some_iff.1 hj).1
    exact (List.getElem?_inj hlt hnodup).1 (hj.trans hg.symm)
  rw [mem_referenced]
  constructor
  · rintro ⟨l, hl, hpresent, heq⟩
    obtain ⟨j, hj, -⟩ := exists_section h hl
    have hjoined : s.JoinedAt j := (joinedAt_iff h).2 ⟨l, hl, hj, hpresent⟩
    obtain ⟨ha, hb⟩ := sectionPair_eq_some.1 hj
    obtain rfl | rfl := heq
    · exact .inl (hindex ha ▸ hjoined)
    · exact .inr ⟨j, (hindex hb).symm, hjoined⟩
  · rintro (hjoined | ⟨j, rfl, hjoined⟩)
    · obtain ⟨l, hl, hp, hpresent⟩ := (joinedAt_iff h).1 hjoined
      refine ⟨l, hl, hpresent, .inl ?_⟩
      exact Option.some_inj.1 (hg.symm.trans (sectionPair_eq_some.1 hp).1)
    · obtain ⟨l, hl, hp, hpresent⟩ := (joinedAt_iff h).1 hjoined
      refine ⟨l, hl, hpresent, .inr ?_⟩
      exact Option.some_inj.1 (hg.symm.trans (sectionPair_eq_some.1 hp).2)

/-- The daemon accepts the rows that the sections that are shown accept. -/
theorem accepts_iff_shows (value : Row → Atom → Truth) (row : Row) :
    Query.Accepts value (wallpaperFiltersToCondition s.rows s.filterLogics) row ↔
      s.Shows (value row) := by
  rw [wallpaperFiltersToCondition, accepts_buildGroupedCondition]
  constructor
  · rintro ⟨hedges, hgroups⟩
    refine ⟨fun i op p hp hop hjoined => ?_, fun i g hg hpresent hnext hprevious => ?_⟩
    · obtain ⟨l, hl, hlp, hpresent⟩ := (joinedAt_iff h).1 hjoined
      obtain rfl : p = l.pair := Option.some_inj.1 (hp.symm.trans hlp)
      obtain rfl : op = l.op :=
        Option.some_inj.1 (hop.symm.trans ((logicOpAt_eq_some h.nodup hp).2 hl))
      exact hedges l hl hpresent
    · refine hgroups g hpresent fun hreferenced => ?_
      obtain hjoined | ⟨j, hj, hjoined⟩ := (mem_referenced_iff h hg).1 hreferenced
      · exact hnext hjoined
      · exact hprevious j hj hjoined
  · intro hshows
    refine ⟨fun l hl hpresent => ?_, fun g hpresent hreferenced => ?_⟩
    · obtain ⟨i, hp, hop⟩ := exists_section h hl
      exact hshows.joined i l.op l.pair hp hop ((joinedAt_iff h).2 ⟨l, hl, hp, hpresent⟩)
    · obtain ⟨r, hr, hg, -⟩ := id hpresent
      obtain ⟨i, hi⟩ := List.getElem?_of_mem (mem_orderedGroups.2 ⟨r, hr, hg⟩)
      have hnot := mt (mem_referenced_iff h hi).2 hreferenced
      rw [not_or] at hnot
      exact hshows.alone i g hi hpresent hnot.1 fun j hj hjoined => hnot.2 ⟨j, hj, hjoined⟩

end Meaning

/-- However rules and logics are edited, applied and read back, while no logic names a group whose
rules are gone: the rules stand in the order of their groups, no two logics join the same groups,
the daemon accepts what the sections and the buttons between them show, and an editor that is not
dirty shows what the list was asked with. -/
theorem edits {ls : List FilterEdit} (hkeeps : Transition.Along FilterEditor.step Keeps {} ls)
    (hrun : Transition.run FilterEditor.step {} ls = some s) :
    InGroups s.rows ∧ (s.filterLogics.map FilterLogic.pair).Nodup ∧
    (∀ (value : Row → Atom → Truth) (row : Row),
      Query.Accepts value (wallpaperFiltersToCondition s.rows s.filterLogics) row ↔
        s.Shows (value row)) ∧
    (s.dirty = false → s.query = (s.rows, s.filterLogics)) := by
  have h : s.Consistent := Transition.invariant_of_run
    (fun _ _ _ hs hkeeps hstep => hs.step hkeeps hstep) consistent_init hkeeps hrun
  exact ⟨h.linked.inGroups, h.linked.nodup, accepts_iff_shows h.linked, h.synced⟩

/-- Named after the sea, or wide. -/
def seaOrWide : List FilterEdit :=
  [.appendNewGroup, .setRule 0 ⟨1, 0, some (.stringFilter "sea" 3)⟩, .appendNewGroup,
    .setRule 1 ⟨5, 0, some (.intFilter 1920 6)⟩, .setLogicOpAt 1 2, .apply]

theorem edits_seaOrWide : ∃ s, Transition.run FilterEditor.step {} seaOrWide = some s ∧
    orderedGroups s.rows = [0, 1] ∧ s.logicOpAt 1 = some 2 ∧ s.query = (s.rows, s.filterLogics) :=
  ⟨Transition.reached FilterEditor.step {} seaOrWide (by decide), Transition.run_reached _ _,
    by decide, by decide, (edits (by decide) (Transition.run_reached _ _)).2.2.2 (by decide)⟩

/-- Groups that are cleared leave their logic, which new groups get: the dialog shows that either of
them is enough, and the daemon asks for both. -/
example : (Transition.run FilterEditor.step {} [.appendNewGroup, .appendNewGroup,
    .setLogicOpAt 1 2, .clear, .appendNewGroup, .appendNewGroup]).map (fun s =>
      (s.logicOpAt 1, s.filterLogics)) = some (some 2, [⟨2, 0, 1⟩, ⟨1, 0, 1⟩]) := by
  decide

end FilterEditor

end Waywallen
