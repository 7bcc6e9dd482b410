import Waywallen.Filter.Rules

/-!
# What grouped rules accept

A row is accepted when both ends of every edge between groups with conditions are joined as the
edge says, and every group that no such edge names accepts the row. Rules in groups that no edge
names therefore only narrow what the others accept.
-/

namespace Waywallen

open Sql

/-- What an edge makes of the verdicts of its two groups. -/
def FilterLogic.Joins (l : FilterLogic) (p q : Prop) : Prop :=
  if (LogicOp.tryFrom l.op).getD .and = .or then p ∨ q else p ∧ q

section Groups

variable {F : Type} (groupOf : F → Int32) (toCondition : F → Option (Cond Atom))
  (value : Atom → Truth) (filters : List F)

/-- Some filter of the group has a condition. -/
def GroupPresent (g : Int32) : Prop :=
  ∃ f ∈ filters, groupOf f = g ∧ (toCondition f).isSome = true

instance (g : Int32) : Decidable (GroupPresent groupOf toCondition filters g) :=
  inferInstanceAs (Decidable (∃ f ∈ filters, _))

/-- The conditions of the group are true. -/
def GroupHolds (g : Int32) : Prop :=
  ∀ f ∈ filters, groupOf f = g → ∀ c ∈ toCondition f, c.Holds value

/-- Both groups of the edge have conditions. -/
def EdgePresent (l : FilterLogic) : Prop :=
  GroupPresent groupOf toCondition filters l.groupA ∧
    GroupPresent groupOf toCondition filters l.groupB

instance (l : FilterLogic) : Decidable (EdgePresent groupOf toCondition filters l) :=
  inferInstanceAs (Decidable (_ ∧ _))

variable {groupOf toCondition value filters} {g : Int32} {l : FilterLogic}
  {logics : List FilterLogic}

theorem bucket_eq_nil_iff :
    bucket groupOf toCondition filters g = [] ↔ ¬ GroupPresent groupOf toCondition filters g := by
  simp [bucket, GroupPresent, List.filterMap_eq_nil_iff]

theorem mem_bucket {c : Cond Atom} :
    c ∈ bucket groupOf toCondition filters g ↔ ∃ f ∈ filters, groupOf f = g ∧ toCondition f = some c := by
  simp [bucket, and_assoc]

theorem mem_bucketKeys :
    g ∈ bucketKeys groupOf toCondition filters ↔ GroupPresent groupOf toCondition filters g := by
  simp only [bucketKeys, GroupPresent, List.mem_insertionSort, List.mem_dedup, List.mem_map,
    List.mem_filter]
  constructor
  · rintro ⟨f, ⟨hf, hc⟩, hg⟩
    exact ⟨f, hf, hg, hc⟩
  · rintro ⟨f, hf, hg, hc⟩
    exact ⟨f, ⟨hf, hc⟩, hg⟩

variable (value) in
/-- A group has a condition when it is present, and it is true when the group's conditions are. -/
theorem groupCond_of_present (h : GroupPresent groupOf toCondition filters g) :
    ∃ c, groupCond groupOf toCondition filters g = some c ∧
      (c.Holds value ↔ GroupHolds groupOf toCondition value filters g) := by
  have hne : (bucket groupOf toCondition filters g).isEmpty = false := by
    rw [← Bool.not_eq_true, List.isEmpty_iff, bucket_eq_nil_iff]
    exact not_not.2 h
  refine ⟨.all (bucket groupOf toCondition filters g), by simp [groupCond, hne], ?_⟩
  rw [Cond.holds_all]
  constructor
  · intro hall f hf hg c hc
    exact hall c (mem_bucket.2 ⟨f, hf, hg, hc⟩)
  · intro hall c hc
    obtain ⟨f, hf, hg, hc⟩ := mem_bucket.1 hc
    exact hall f hf hg c hc

theorem groupCond_eq_none_iff :
    groupCond groupOf toCondition filters g = none ↔
      ¬ GroupPresent groupOf toCondition filters g := by
  rw [← bucket_eq_nil_iff, groupCond]
  split <;> simp_all

variable (value) in
theorem pairCond_of_present (h : EdgePresent groupOf toCondition filters l) :
    ∃ c, pairCond groupOf toCondition filters l = some c ∧
      (c.Holds value ↔ l.Joins (GroupHolds groupOf toCondition value filters l.groupA)
        (GroupHolds groupOf toCondition value filters l.groupB)) := by
  obtain ⟨a, ha, hva⟩ := groupCond_of_present value h.1
  obtain ⟨b, hb, hvb⟩ := groupCond_of_present value h.2
  rw [pairCond, ha, hb, ← hva, ← hvb]
  unfold FilterLogic.Joins
  cases (LogicOp.tryFrom l.op).getD .and <;> exact ⟨_, rfl, by simp⟩

theorem pairCond_isSome_iff :
    (pairCond groupOf toCondition filters l).isSome = true ↔
      EdgePresent groupOf toCondition filters l := by
  constructor
  · intro h
    unfold pairCond at h
    split at h
    · rename_i a b ha hb
      constructor
      · by_contra hnot
        rw [groupCond_eq_none_iff.2 hnot] at ha
        cases ha
      · by_contra hnot
        rw [groupCond_eq_none_iff.2 hnot] at hb
        cases hb
    · cases h
  · intro h
    obtain ⟨c, hc, -⟩ := pairCond_of_present (fun _ => none) h
    rw [hc]
    rfl

theorem mem_referenced :
    g ∈ referenced groupOf toCondition filters logics ↔
      ∃ l ∈ logics, EdgePresent groupOf toCondition filters l ∧ (g = l.groupA ∨ g = l.groupB) := by
  simp only [referenced, List.mem_flatMap, List.mem_filter, pairCond_isSome_iff, List.mem_cons,
    List.not_mem_nil, or_false, and_assoc]

theorem buildGroupedCondition_eq_none_iff :
    buildGroupedCondition groupOf toCondition filters logics = none ↔
      ∀ g, ¬ GroupPresent groupOf toCondition filters g := by
  simp only [← mem_bucketKeys, buildGroupedCondition, List.isEmpty_iff, ite_eq_left_iff,
    reduceCtorEq, imp_false, not_not, List.eq_nil_iff_forall_not_mem]

/-- When the built condition is true. -/
theorem holds_buildGroupedCondition :
    (∀ c ∈ buildGroupedCondition groupOf toCondition filters logics, c.Holds value) ↔
      (∀ l ∈ logics, EdgePresent groupOf toCondition filters l →
        l.Joins (GroupHolds groupOf toCondition value filters l.groupA)
          (GroupHolds groupOf toCondition value filters l.groupB)) ∧
      ∀ g, GroupPresent groupOf toCondition filters g →
        g ∉ referenced groupOf toCondition filters logics →
        GroupHolds groupOf toCondition value filters g := by
  unfold buildGroupedCondition
  dsimp only
  split
  · rename_i hempty
    have hnone (g : Int32) : ¬ GroupPresent groupOf toCondition filters g := by
      rw [← mem_bucketKeys, List.isEmpty_iff.1 hempty]
      exact List.not_mem_nil
    simp only [Option.not_mem_none, IsEmpty.forall_iff, implies_true, true_iff]
    exact ⟨fun l _ h => absurd h.1 (hnone _), fun g h => absurd h (hnone g)⟩
  · simp only [Option.mem_def, Option.some.injEq, forall_eq', Cond.holds_all, List.mem_append,
      List.mem_filterMap, List.mem_filter, decide_eq_true_eq, mem_bucketKeys]
    constructor
    · intro hall
      refine ⟨fun l hl h => ?_, fun g h hg => ?_⟩
      · obtain ⟨c, hc, hv⟩ := pairCond_of_present value h
        exact hv.1 (hall c (.inl ⟨l, hl, hc⟩))
      · obtain ⟨c, hc, hv⟩ := groupCond_of_present value h
        exact hv.1 (hall c (.inr ⟨g, ⟨h, hg⟩, hc⟩))
    · rintro ⟨hedges, hgroups⟩ c (⟨l, hl, hc⟩ | ⟨g, ⟨h, hg⟩, hc⟩)
      · have hpresent := pairCond_isSome_iff.1 (Option.isSome_iff_exists.2 ⟨c, hc⟩)
        obtain ⟨c', hc', hv⟩ := pairCond_of_present value hpresent
        obtain rfl := Option.some_inj.1 (hc'.symm.trans hc)
        exact hv.2 (hedges l hl hpresent)
      · obtain ⟨c', hc', hv⟩ := groupCond_of_present value h
        obtain rfl := Option.some_inj.1 (hc'.symm.trans hc)
        exact hv.2 (hgroups g h hg)

/-- The rows that the built condition accepts. -/
theorem accepts_buildGroupedCondition {value : Row → Atom → Truth} {row : Row} :
    Query.Accepts value (buildGroupedCondition groupOf toCondition filters logics) row ↔
      (∀ l ∈ logics, EdgePresent groupOf toCondition filters l →
        l.Joins (GroupHolds groupOf toCondition (value row) filters l.groupA)
          (GroupHolds groupOf toCondition (value row) filters l.groupB)) ∧
      ∀ g, GroupPresent groupOf toCondition filters g →
        g ∉ referenced groupOf toCondition filters logics →
        GroupHolds groupOf toCondition (value row) filters g :=
  holds_buildGroupedCondition

theorem mem_atoms_groupCond {a : Atom} :
    (∃ c ∈ groupCond groupOf toCondition filters g, a ∈ c.atoms) ↔
      ∃ f ∈ filters, groupOf f = g ∧ ∃ c ∈ toCondition f, a ∈ c.atoms := by
  have hbucket : (∃ c ∈ bucket groupOf toCondition filters g, a ∈ c.atoms) ↔
      ∃ f ∈ filters, groupOf f = g ∧ ∃ c ∈ toCondition f, a ∈ c.atoms := by
    simp only [mem_bucket]
    constructor
    · rintro ⟨c, ⟨f, hf, hg, hc⟩, ha⟩
      exact ⟨f, hf, hg, c, hc, ha⟩
    · rintro ⟨f, hf, hg, c, hc, ha⟩
      exact ⟨c, ⟨f, hf, hg, hc⟩, ha⟩
  rw [← hbucket, groupCond]
  split
  · rename_i hempty
    simp [List.isEmpty_iff.1 hempty]
  · simp

theorem mem_atoms_pairCond {a : Atom} :
    (∃ c ∈ pairCond groupOf toCondition filters l, a ∈ c.atoms) ↔
      EdgePresent groupOf toCondition filters l ∧
        ∃ f ∈ filters, (groupOf f = l.groupA ∨ groupOf f = l.groupB) ∧
          ∃ c ∈ toCondition f, a ∈ c.atoms := by
  by_cases hedge : EdgePresent groupOf toCondition filters l
  · obtain ⟨ca, ha, -⟩ := groupCond_of_present (fun _ => none) hedge.1
    obtain ⟨cb, hb, -⟩ := groupCond_of_present (fun _ => none) hedge.2
    have hpair : (∃ c ∈ pairCond groupOf toCondition filters l, a ∈ c.atoms) ↔
        a ∈ ca.atoms ∨ a ∈ cb.atoms := by
      rw [pairCond, ha, hb]
      cases (LogicOp.tryFrom l.op).getD .and <;> simp
    have hmem {g : Int32} {c : Cond Atom} (hc : groupCond groupOf toCondition filters g = some c) :
        a ∈ c.atoms ↔ ∃ f ∈ filters, groupOf f = g ∧ ∃ c ∈ toCondition f, a ∈ c.atoms := by
      rw [← mem_atoms_groupCond, hc]
      simp
    rw [hpair, hmem ha, hmem hb]
    simp only [hedge, true_and, or_and_right, and_or_left, exists_or]
  · have hnone : pairCond groupOf toCondition filters l = none := by
      rw [← Option.not_isSome_iff_eq_none, pairCond_isSome_iff]
      exact hedge
    simp [hnone, hedge]

/-- Every condition of a filter is built into the whole, and nothing else. -/
theorem mem_atoms_buildGroupedCondition {a : Atom} :
    (∃ c ∈ buildGroupedCondition groupOf toCondition filters logics, a ∈ c.atoms) ↔
      ∃ f ∈ filters, ∃ c ∈ toCondition f, a ∈ c.atoms := by
  have hparts : (∃ c ∈ buildGroupedCondition groupOf toCondition filters logics, a ∈ c.atoms) ↔
      (∃ l ∈ logics, ∃ c ∈ pairCond groupOf toCondition filters l, a ∈ c.atoms) ∨
        ∃ g, (GroupPresent groupOf toCondition filters g ∧
          g ∉ referenced groupOf toCondition filters logics) ∧
          ∃ c ∈ groupCond groupOf toCondition filters g, a ∈ c.atoms := by
    rw [buildGroupedCondition]
    split
    · rename_i hempty
      have hnone (g : Int32) : ¬ GroupPresent groupOf toCondition filters g := by
        rw [← mem_bucketKeys, List.isEmpty_iff.1 hempty]
        exact List.not_mem_nil
      have hedges (l : FilterLogic) : ¬ ∃ c ∈ pairCond groupOf toCondition filters l, a ∈ c.atoms :=
        fun h => hnone _ (mem_atoms_pairCond.1 h).1.1
      simp only [hedges, hnone, and_false, false_and, exists_false, or_self, Option.not_mem_none]
    · simp only [Option.mem_def, Option.some.injEq, exists_eq_left', Cond.mem_atoms_all,
        List.mem_append, List.mem_filterMap, List.mem_filter, decide_eq_true_eq, mem_bucketKeys,
        or_and_right, exists_or]
      refine or_congr ⟨?_, ?_⟩ ⟨?_, ?_⟩
      · rintro ⟨c, ⟨l, hl, hc⟩, ha⟩
        exact ⟨l, hl, c, hc, ha⟩
      · rintro ⟨l, hl, c, hc, ha⟩
        exact ⟨c, ⟨l, hl, hc⟩, ha⟩
      · rintro ⟨c, ⟨g, hg, hc⟩, ha⟩
        exact ⟨g, hg, c, hc, ha⟩
      · rintro ⟨g, hg, c, hc, ha⟩
        exact ⟨c, ⟨g, hg, hc⟩, ha⟩
  rw [hparts]
  simp only [mem_atoms_pairCond, mem_atoms_groupCond]
  constructor
  · rintro (⟨l, -, -, f, hf, -, h⟩ | ⟨g, -, f, hf, -, h⟩)
    · exact ⟨f, hf, h⟩
    · exact ⟨f, hf, h⟩
  · rintro ⟨f, hf, c, hc, ha⟩
    have hpresent : GroupPresent groupOf toCondition filters (groupOf f) :=
      ⟨f, hf, rfl, Option.isSome_iff_exists.2 ⟨c, hc⟩⟩
    by_cases href : groupOf f ∈ referenced groupOf toCondition filters logics
    · obtain ⟨l, hl, hedge, hg⟩ := mem_referenced.1 href
      exact .inl ⟨l, hl, hedge, f, hf, hg, c, hc, ha⟩
    · exact .inr ⟨groupOf f, ⟨hpresent, href⟩, f, hf, rfl, c, hc, ha⟩

end Groups

section Append

variable {F : Type} {groupOf : F → Int32} {toCondition : F → Option (Cond Atom)}
  {value : Row → Atom → Truth} {row : Row} {user extra : List F} {logics : List FilterLogic}
  {g : Int32}

theorem groupPresent_append : GroupPresent groupOf toCondition (user ++ extra) g ↔
    GroupPresent groupOf toCondition user g ∨ GroupPresent groupOf toCondition extra g := by
  simp only [GroupPresent, List.mem_append, or_and_right, exists_or]

theorem groupHolds_append {value : Atom → Truth} :
    GroupHolds groupOf toCondition value (user ++ extra) g ↔
      GroupHolds groupOf toCondition value user g ∧
        GroupHolds groupOf toCondition value extra g := by
  simp only [GroupHolds, List.forall_mem_append]

/-- No edge whose two groups have conditions names a group of the extra filters. -/
def Apart (groupOf : F → Int32) (toCondition : F → Option (Cond Atom)) (user extra : List F)
    (logics : List FilterLogic) : Prop :=
  ∀ l ∈ logics, EdgePresent groupOf toCondition (user ++ extra) l →
    ¬ GroupPresent groupOf toCondition extra l.groupA ∧
      ¬ GroupPresent groupOf toCondition extra l.groupB

instance : Decidable (Apart groupOf toCondition user extra logics) :=
  inferInstanceAs (Decidable (∀ l ∈ logics, _))

theorem groupHolds_of_not_present {value : Atom → Truth}
    (h : ¬ GroupPresent groupOf toCondition extra g) :
    GroupHolds groupOf toCondition value extra g :=
  fun f hf hg c hc => absurd ⟨f, hf, hg, Option.isSome_iff_exists.2 ⟨c, hc⟩⟩ h

/-- The edges that count are those between the user's groups. -/
theorem Apart.edgePresent_iff (h : Apart groupOf toCondition user extra logics) {l : FilterLogic}
    (hl : l ∈ logics) : EdgePresent groupOf toCondition (user ++ extra) l ↔
      EdgePresent groupOf toCondition user l := by
  constructor
  · intro hedge
    obtain ⟨ha, hb⟩ := h l hl hedge
    exact ⟨(groupPresent_append.1 hedge.1).resolve_right ha,
      (groupPresent_append.1 hedge.2).resolve_right hb⟩
  · exact fun hedge => ⟨groupPresent_append.2 (.inl hedge.1), groupPresent_append.2 (.inl hedge.2)⟩

theorem Apart.mem_referenced_iff (h : Apart groupOf toCondition user extra logics) :
    g ∈ referenced groupOf toCondition (user ++ extra) logics ↔
      g ∈ referenced groupOf toCondition user logics := by
  simp only [mem_referenced]
  exact exists_congr fun l => and_congr_right fun hl => and_congr_left fun _ => h.edgePresent_iff hl

/-- Filters in groups that no edge names only narrow what the others accept. -/
theorem Apart.accepts_append (h : Apart groupOf toCondition user extra logics) :
    Query.Accepts value (buildGroupedCondition groupOf toCondition (user ++ extra) logics) row ↔
      Query.Accepts value (buildGroupedCondition groupOf toCondition user logics) row ∧
        ∀ f ∈ extra, ∀ c ∈ toCondition f, c.Holds (value row) := by
  simp only [accepts_buildGroupedCondition, h.mem_referenced_iff]
  have hedges : (∀ l ∈ logics, EdgePresent groupOf toCondition (user ++ extra) l →
      l.Joins (GroupHolds groupOf toCondition (value row) (user ++ extra) l.groupA)
        (GroupHolds groupOf toCondition (value row) (user ++ extra) l.groupB)) ↔
      ∀ l ∈ logics, EdgePresent groupOf toCondition user l →
        l.Joins (GroupHolds groupOf toCondition (value row) user l.groupA)
          (GroupHolds groupOf toCondition (value row) user l.groupB) := by
    refine forall₂_congr fun l hl => ?_
    rw [h.edgePresent_iff hl]
    refine forall_congr' fun hedge => ?_
    obtain ⟨ha, hb⟩ := h l hl ((h.edgePresent_iff hl).2 hedge)
    simp only [groupHolds_append, groupHolds_of_not_present ha, groupHolds_of_not_present hb,
      and_true]
  rw [hedges, and_assoc]
  refine and_congr_right fun _ => ?_
  constructor
  · intro hgroups
    refine ⟨fun g hg href => ?_, fun f hf c hc => ?_⟩
    · exact (groupHolds_append.1 (hgroups g (groupPresent_append.2 (.inl hg)) href)).1
    · have hpresent : GroupPresent groupOf toCondition extra (groupOf f) :=
        ⟨f, hf, rfl, Option.isSome_iff_exists.2 ⟨c, hc⟩⟩
      -- no edge names the group of an extra filter
      have hfree : groupOf f ∉ referenced groupOf toCondition user logics := by
        rw [← h.mem_referenced_iff, mem_referenced]
        rintro ⟨l, hl, hedge, hg | hg⟩
        · exact (h l hl hedge).1 (hg ▸ hpresent)
        · exact (h l hl hedge).2 (hg ▸ hpresent)
      exact (groupHolds_append.1 (hgroups _ (groupPresent_append.2 (.inr hpresent)) hfree)).2 f hf
        rfl c hc
  · rintro ⟨hgroups, hextra⟩ g hg href
    refine groupHolds_append.2 ⟨?_, fun f hf _ => hextra f hf⟩
    by_cases huser : GroupPresent groupOf toCondition user g
    · exact hgroups g huser href
    · exact groupHolds_of_not_present huser

end Append

end Waywallen
