import Waywallen.Filter.Grouped

/-!
# Laws of grouped rules

The condition built from rules and edges is a matter of which rules and edges there are: their
order does not count, nor do edges that name a group without conditions. Every group gets into it.
-/

namespace Waywallen

open Sql

section

variable {F : Type} (groupOf : F → Int32) (toCondition : F → Option (Cond Atom))
  (filters : List F) (logics : List FilterLogic)

/-- What `buildGroupedCondition` does with the order of its arguments, with edges that dangle, with
edges that join by `and` alone, and with every single rule. -/
structure GroupLaws : Prop where
  perm : ∀ filters' logics', filters'.Perm filters → logics'.Perm logics →
    SameTruth (buildGroupedCondition groupOf toCondition filters' logics')
      (buildGroupedCondition groupOf toCondition filters logics)
  dangling : ∀ extra logics', (∀ l ∈ extra, ¬ GroupPresent groupOf toCondition filters l.groupA ∨
      ¬ GroupPresent groupOf toCondition filters l.groupB) → logics'.Perm (extra ++ logics) →
    SameTruth (buildGroupedCondition groupOf toCondition filters logics')
      (buildGroupedCondition groupOf toCondition filters logics)
  conjunction : (∀ l ∈ logics, (LogicOp.tryFrom l.op).getD .and ≠ .or) →
    filters.filterMap toCondition ≠ [] →
    SameTruth (buildGroupedCondition groupOf toCondition filters logics)
      (some (.all (filters.filterMap toCondition)))
  occurs : ∀ f ∈ filters, ∀ c ∈ toCondition f,
    ∃ group ∈ groupCond groupOf toCondition filters (groupOf f),
      ∃ whole ∈ buildGroupedCondition groupOf toCondition filters logics,
        c.Part group ∧ group.Part whole
  none_iff : buildGroupedCondition groupOf toCondition filters logics = none ↔
    ∀ f ∈ filters, toCondition f = none

variable {groupOf toCondition filters logics} {filters' : List F} {logics' : List FilterLogic}
  {value : Atom → Truth} {g : Int32}

theorem buildGroupedCondition_eq_none_iff_filters :
    buildGroupedCondition groupOf toCondition filters logics = none ↔
      ∀ f ∈ filters, toCondition f = none := by
  rw [buildGroupedCondition_eq_none_iff]
  constructor
  · intro h f hf
    by_contra hsome
    exact h (groupOf f) ⟨f, hf, rfl, Option.isSome_iff_ne_none.2 hsome⟩
  · rintro h g ⟨f, hf, -, hsome⟩
    rw [h f hf] at hsome
    cases hsome

/-- Only which rules there are counts, and which edges between groups with conditions. -/
theorem sameTruth_buildGroupedCondition (hf : ∀ f, f ∈ filters' ↔ f ∈ filters)
    (hl : ∀ l, EdgePresent groupOf toCondition filters l → (l ∈ logics' ↔ l ∈ logics)) :
    SameTruth (buildGroupedCondition groupOf toCondition filters' logics')
      (buildGroupedCondition groupOf toCondition filters logics) := by
  have hpresent (g : Int32) : GroupPresent groupOf toCondition filters' g ↔
      GroupPresent groupOf toCondition filters g := by
    simp only [GroupPresent, hf]
  have hedge (l : FilterLogic) : EdgePresent groupOf toCondition filters' l ↔
      EdgePresent groupOf toCondition filters l := by
    simp only [EdgePresent, hpresent]
  have hgroup (value : Atom → Truth) (g : Int32) :
      GroupHolds groupOf toCondition value filters' g ↔
        GroupHolds groupOf toCondition value filters g := by
    simp only [GroupHolds, hf]
  refine sameTruth_of_holds_iff ?_ fun value => ?_
  · simp only [buildGroupedCondition_eq_none_iff_filters, hf]
  · rw [holds_buildGroupedCondition, holds_buildGroupedCondition]
    simp only [mem_referenced, hpresent, hedge, hgroup]
    refine and_congr ?_ ?_
    · constructor
      · exact fun h l hmem hpair => h l ((hl l hpair).2 hmem) hpair
      · exact fun h l hmem hpair => h l ((hl l hpair).1 hmem) hpair
    · refine forall₂_congr fun g _ => imp_congr (not_congr (exists_congr fun l => ?_)) .rfl
      constructor
      · exact fun h => ⟨(hl l h.2.1).1 h.1, h.2⟩
      · exact fun h => ⟨(hl l h.2.1).2 h.1, h.2⟩

/-- When no edge joins by `or`, all rules must hold. -/
theorem holds_of_and (hand : ∀ l ∈ logics, (LogicOp.tryFrom l.op).getD .and ≠ .or) :
    (∀ c ∈ buildGroupedCondition groupOf toCondition filters logics, c.Holds value) ↔
      ∀ f ∈ filters, ∀ c ∈ toCondition f, c.Holds value := by
  have hjoins {l : FilterLogic} (hl : l ∈ logics) (p q : Prop) : l.Joins p q ↔ p ∧ q := by
    rw [FilterLogic.Joins, if_neg (hand l hl)]
  rw [holds_buildGroupedCondition]
  constructor
  · rintro ⟨hedges, hgroups⟩ f hf c hc
    have hpresent : GroupPresent groupOf toCondition filters (groupOf f) :=
      ⟨f, hf, rfl, Option.isSome_iff_exists.2 ⟨c, hc⟩⟩
    by_cases href : groupOf f ∈ referenced groupOf toCondition filters logics
    · obtain ⟨l, hl, hpair, hg⟩ := mem_referenced.1 href
      obtain ⟨ha, hb⟩ := (hjoins hl _ _).1 (hedges l hl hpair)
      rcases hg with hg | hg
      · exact ha f hf hg c hc
      · exact hb f hf hg c hc
    · exact hgroups _ hpresent href f hf rfl c hc
  · intro h
    have hgroup (g : Int32) : GroupHolds groupOf toCondition value filters g :=
      fun f hf _ c hc => h f hf c hc
    exact ⟨fun l hl _ => (hjoins hl _ _).2 ⟨hgroup _, hgroup _⟩, fun g _ _ => hgroup g⟩

variable (logics) in
/-- The condition of a group with conditions is a part of the whole. -/
theorem exists_part_whole (h : GroupPresent groupOf toCondition filters g) :
    ∃ group ∈ groupCond groupOf toCondition filters g,
      ∃ whole ∈ buildGroupedCondition groupOf toCondition filters logics, group.Part whole := by
  obtain ⟨group, hgroup, -⟩ := groupCond_of_present (fun _ => none) h
  refine ⟨group, hgroup, ?_⟩
  have hkeys : ¬ (bucketKeys groupOf toCondition filters).isEmpty = true := by
    rw [List.isEmpty_iff]
    exact List.ne_nil_of_mem (mem_bucketKeys.2 h)
  rw [buildGroupedCondition, if_neg hkeys]
  refine ⟨_, rfl, ?_⟩
  by_cases href : g ∈ referenced groupOf toCondition filters logics
  · obtain ⟨l, hl, hpair, hg⟩ := mem_referenced.1 href
    obtain ⟨pair, hsome, -⟩ := pairCond_of_present (fun _ => none) hpair
    refine .all (List.mem_append_left _ (List.mem_filterMap.2 ⟨l, hl, hsome⟩)) ?_
    obtain ⟨a, ha, -⟩ := groupCond_of_present (fun _ => none) hpair.1
    obtain ⟨b, hb, -⟩ := groupCond_of_present (fun _ => none) hpair.2
    have hmem : group ∈ [a, b] := by
      rcases hg with rfl | rfl
      · simp [Option.some_inj.1 (hgroup.symm.trans ha)]
      · simp [Option.some_inj.1 (hgroup.symm.trans hb)]
    rw [pairCond, ha, hb] at hsome
    cases hop : (LogicOp.tryFrom l.op).getD .and with
    | or =>
      rw [hop] at hsome
      obtain rfl := Option.some_inj.1 hsome
      exact .any hmem .refl
    | _ =>
      rw [hop] at hsome
      obtain rfl := Option.some_inj.1 hsome
      exact .all hmem .refl
  · refine .all (List.mem_append_right _ (List.mem_filterMap.2 ⟨g, ?_, hgroup⟩)) .refl
    exact List.mem_filter.2 ⟨mem_bucketKeys.2 h, by simpa using href⟩

variable (groupOf toCondition filters logics) in
/-- The laws hold for all rules and edges. -/
theorem groupLaws : GroupLaws groupOf toCondition filters logics where
  perm filters' logics' hf hl :=
    sameTruth_buildGroupedCondition (fun _ => hf.mem_iff) fun _ _ => hl.mem_iff
  dangling extra logics' hextra hl := by
    refine sameTruth_buildGroupedCondition (fun _ => .rfl) fun l hpair => ?_
    rw [hl.mem_iff, List.mem_append]
    refine or_iff_right fun hmem => ?_
    rcases hextra l hmem with hnot | hnot
    · exact hnot hpair.1
    · exact hnot hpair.2
  conjunction hand hne := by
    refine sameTruth_of_holds_iff ?_ fun value => ?_
    · rw [buildGroupedCondition_eq_none_iff_filters]
      have hsome : ¬ ∀ f ∈ filters, toCondition f = none :=
        fun h => hne (List.filterMap_eq_nil_iff.2 h)
      simpa using hsome
    · rw [holds_of_and hand]
      simp only [Option.mem_def, Option.some.injEq, forall_eq', Cond.holds_all, List.mem_filterMap]
      constructor
      · rintro h c ⟨f, hf, hc⟩
        exact h f hf c hc
      · exact fun h f hf c hc => h c ⟨f, hf, hc⟩
  occurs f hf c hc := by
    have hpresent : GroupPresent groupOf toCondition filters (groupOf f) :=
      ⟨f, hf, rfl, Option.isSome_iff_exists.2 ⟨c, hc⟩⟩
    obtain ⟨group, hgroup, whole, hwhole, hpart⟩ := exists_part_whole logics hpresent
    refine ⟨group, hgroup, whole, hwhole, ?_, hpart⟩
    have hmem : c ∈ bucket groupOf toCondition filters (groupOf f) :=
      mem_bucket.2 ⟨f, hf, rfl, hc⟩
    have hgroup : groupCond groupOf toCondition filters (groupOf f) = some group := hgroup
    rw [groupCond, if_neg (by simpa using List.ne_nil_of_mem hmem)] at hgroup
    obtain rfl := Option.some_inj.1 hgroup
    exact .all hmem .refl
  none_iff := buildGroupedCondition_eq_none_iff_filters

end

end Waywallen
