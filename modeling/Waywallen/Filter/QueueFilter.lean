import Mathlib.Algebra.Group.Int.Defs
import Waywallen.Filter.Grouped

/-!
# The filter of the queue

The user's own rules are kept in the settings; the browser's quick toggles are folded into them as
rules in groups of their own, numbered after the user's groups.
-/

namespace Waywallen

open Sql

structure WallpaperFilterRuleState where
  type : Int32
  group : Int32
  stringFilter : Option (String × Int32)
  intFilter : Option (Int64 × Int32)
  tagFilter : Option (List String × Int32)
  deriving DecidableEq

/-- The user's rules and logic edges, as the settings keep them. -/
structure WallpaperFilterState where
  filters : List WallpaperFilterRuleState
  filterLogics : List FilterLogic
  deriving DecidableEq

instance : Inhabited WallpaperFilterState := ⟨⟨[], []⟩⟩

namespace WallpaperFilterState

def ruleToPb (rule : WallpaperFilterRuleState) : WallpaperFilterRule where
  type := rule.type
  group := rule.group
  payload := match rule.tagFilter with
    | some f => some (.tagFilter f.1 f.2)
    | none => match rule.stringFilter with
      | some f => some (.stringFilter f.1 f.2)
      | none => rule.intFilter.map fun f => .intFilter f.1 f.2

def toPb (s : WallpaperFilterState) : List WallpaperFilterRule × List FilterLogic :=
  (s.filters.map ruleToPb, s.filterLogics)

def ruleFromPb (rule : WallpaperFilterRule) : WallpaperFilterRuleState where
  type := rule.type
  group := rule.group
  stringFilter := match rule.payload with
    | some (.stringFilter value condition) => some (value, condition)
    | _ => none
  intFilter := match rule.payload with
    | some (.intFilter value condition) => some (value, condition)
    | _ => none
  tagFilter := match rule.payload with
    | some (.tagFilter values condition) => some (values, condition)
    | _ => none

def fromPb (rules : List WallpaperFilterRule) (logics : List FilterLogic) : WallpaperFilterState :=
  ⟨rules.map ruleFromPb, logics⟩

/-- Rules survive the way into the settings and back. -/
theorem toPb_fromPb (rules : List WallpaperFilterRule) (logics : List FilterLogic) :
    (fromPb rules logics).toPb = (rules, logics) := by
  have hrule (rule : WallpaperFilterRule) : ruleToPb (ruleFromPb rule) = rule := by
    obtain ⟨type, group, payload⟩ := rule
    rcases payload with _ | _ | _ | _ <;> rfl
  rw [toPb, fromPb, List.map_map]
  exact Prod.ext (List.map_id'' hrule rules) rfl

end WallpaperFilterState

structure WallpaperSortRule where
  key : Int32
  direction : Int32
  deriving DecidableEq

/-- The part of the global settings that selects and orders wallpapers. -/
structure GlobalSettings where
  queueMode : String
  wallpaperFilter : WallpaperFilterState
  wallpaperSorts : List WallpaperSortRule
  /-- Wallpaper types hidden by the quick type toggles. -/
  wallpaperSkipTypes : List String
  /-- Only wallpapers with any of these tags; empty is no constraint. -/
  wallpaperFilterTags : List String
  /-- Content ratings hidden by the quick toggles. -/
  wallpaperSkipContentRatings : List String
  deriving DecidableEq

instance : Inhabited GlobalSettings := ⟨⟨"sequential", default, [], [], [], []⟩⟩

/-! ## Folding the toggles in -/

/-- The number after the highest group, as an exact integer; the code keeps it in 32 bits. -/
def nextGroup (filters : List WallpaperFilterRule) : Int :=
  match (filters.map fun f => f.group.toInt).max? with
  | some g => g + 1
  | none => 0

/-- A rule of the quick toggles, up to its group. -/
structure QuickRule where
  type : Int32
  payload : Payload

def QuickRule.inGroup (rule : QuickRule) (group : Int32) : WallpaperFilterRule :=
  ⟨rule.type, group, some rule.payload⟩

def skipTypeRule (ty : String) : QuickRule :=
  ⟨2, .stringFilter ty 2⟩

def filterTagsRule (tags : List String) : QuickRule :=
  ⟨9, .tagFilter tags 1⟩

def skipRatingRule (rating : String) : QuickRule :=
  ⟨8, .stringFilter rating 2⟩

/-- Give the rules the groups from `next` on. -/
def numberRules (next : Int) : List QuickRule → List WallpaperFilterRule
  | [] => []
  | rule :: rules => rule.inGroup (Int32.ofInt next) :: numberRules (next + 1) rules

namespace GlobalSettings

variable (s : GlobalSettings)

def quickRules : List QuickRule :=
  s.wallpaperSkipTypes.map skipTypeRule ++
    (if s.wallpaperFilterTags.isEmpty then [] else [filterTagsRule s.wallpaperFilterTags]) ++
      s.wallpaperSkipContentRatings.map skipRatingRule

/-- Filter rules and logic for the queue: the quick toggles are folded into the rule list. -/
def wallpaperQueueFilter : List WallpaperFilterRule × List FilterLogic :=
  let (filters, logics) := s.wallpaperFilter.toPb
  (filters ++ numberRules (nextGroup filters) s.quickRules, logics)

/-- The group numbers computed on the way: one after the highest, and one more after each toggle. -/
def queueGroups : List Int :=
  (List.range (s.quickRules.length + 1)).map fun n : ℕ =>
    nextGroup s.wallpaperFilter.toPb.1 + (n : Int)

/-- The user's own rules and logics alone. -/
def ownCondition : Option (Cond Atom) :=
  wallpaperFiltersToCondition s.wallpaperFilter.toPb.1 s.wallpaperFilter.toPb.2

def queueCondition : Option (Cond Atom) :=
  wallpaperFiltersToCondition s.wallpaperQueueFilter.1 s.wallpaperQueueFilter.2

/-! ## What the toggles are for -/

/-- The user's rules accept the item, its type is not hidden, it has one of the tags that are asked
for, and its rating, if it has one, is not hidden. -/
structure Wants (index : String → Item → Bool) (r : Row) : Prop where
  own : Query.Accepts (Row.value index) s.ownCondition r
  type : r.item.ty ∉ s.wallpaperSkipTypes
  tags : s.wallpaperFilterTags ≠ [] →
    ∃ tag ∈ s.wallpaperFilterTags, ∃ name ∈ r.tags, name.toLower = tag.toLower
  rating : ∀ rating ∈ r.item.contentRating, rating ∉ s.wallpaperSkipContentRatings

/-- No number computed on the way leaves the 32-bit integers, and the queue accepts what the user
wants. -/
structure FilterCorrect (index : String → Item → Bool) (r : Row) : Prop where
  fits : ∀ n ∈ s.queueGroups, n < 2 ^ 31
  accepts : Query.Accepts (Row.value index) s.queueCondition r ↔ s.Wants index r

/-- No edge between groups with conditions names a group of a toggle. -/
def EdgesApart : Prop :=
  Apart WallpaperFilterRule.group wallpaperFilterToCondition s.wallpaperFilter.toPb.1
    (numberRules (nextGroup s.wallpaperFilter.toPb.1) s.quickRules) s.wallpaperFilter.toPb.2

instance : Decidable s.EdgesApart :=
  inferInstanceAs (Decidable (Apart _ _ _ _ _))

/-- There is room for the toggles after the highest group of the user. -/
def GroupsFit : Prop :=
  nextGroup s.wallpaperFilter.toPb.1 + s.quickRules.length < 2 ^ 31

instance : Decidable s.GroupsFit :=
  inferInstanceAs (Decidable (_ < _))

end GlobalSettings

section

variable {index : String → Item → Bool} {r : Row} {s : GlobalSettings}

/-- The condition of a toggle, which does not depend on its group. -/
def QuickRule.condition (rule : QuickRule) : Option (Cond Atom) :=
  wallpaperFilterToCondition (rule.inGroup 0)

theorem QuickRule.condition_inGroup (rule : QuickRule) (g : Int32) :
    wallpaperFilterToCondition (rule.inGroup g) = rule.condition :=
  rfl

/-- The item satisfies the toggle. -/
def QuickRule.Holds (index : String → Item → Bool) (r : Row) (rule : QuickRule) : Prop :=
  ∀ c ∈ rule.condition, c.Holds (r.value index)

theorem holds_numberRules {rules : List QuickRule} (next : Int) :
    (∀ f ∈ numberRules next rules, ∀ c ∈ wallpaperFilterToCondition f, c.Holds (r.value index)) ↔
      ∀ rule ∈ rules, rule.Holds index r := by
  induction rules generalizing next with
  | nil => simp [numberRules]
  | cons rule rules ih =>
    rw [numberRules, List.forall_mem_cons, List.forall_mem_cons, ih, rule.condition_inGroup,
      QuickRule.Holds]

theorem holds_skipTypeRule {ty : String} :
    (skipTypeRule ty).Holds index r ↔ r.item.ty ≠ ty.toLower := by
  have hcond : (skipTypeRule ty).condition = some (.all [.atom (.ne .ty ty.toLower)]) := rfl
  simp [QuickRule.Holds, hcond, Row.value, Row.text]

theorem holds_skipRatingRule {rating : String} :
    (skipRatingRule rating).Holds index r ↔ ∃ own ∈ r.item.contentRating, own ≠ rating := by
  have hcond : (skipRatingRule rating).condition =
      some (.all [.atom (.ne .contentRating rating)]) := rfl
  simp [QuickRule.Holds, hcond, Row.value, Row.text]

theorem holds_filterTagsRule {tags : List String} (hne : tags ≠ []) (htags : "" ∉ tags) :
    (filterTagsRule tags).Holds index r ↔
      ∃ tag ∈ tags, ∃ name ∈ r.tags, name.toLower = tag.toLower := by
  have hfilter : tags.filter (· ≠ "") = tags := by
    refine List.filter_eq_self.2 fun tag htag => ?_
    simpa using fun h : tag = "" => htags (h ▸ htag)
  have hcond : (filterTagsRule tags).condition =
      some (.any (tags.map fun tag => .atom (.hasTag tag))) := by
    show tagListConditionToCondition tags .is = _
    rw [tagListConditionToCondition, hfilter, List.isEmpty_eq_false_iff.2 hne]
    rfl
  simp [QuickRule.Holds, hcond, Row.value]

namespace GlobalSettings

/-- Toggles in groups that no edge names narrow the user's rules. -/
theorem accepts_queueCondition (h : s.EdgesApart) :
    Query.Accepts (Row.value index) s.queueCondition r ↔
      Query.Accepts (Row.value index) s.ownCondition r ∧
        ∀ rule ∈ s.quickRules, rule.Holds index r := by
  rw [← holds_numberRules (nextGroup s.wallpaperFilter.toPb.1)]
  exact h.accepts_append

theorem forall_mem_quickRules {p : QuickRule → Prop} : (∀ rule ∈ s.quickRules, p rule) ↔
    (∀ ty ∈ s.wallpaperSkipTypes, p (skipTypeRule ty)) ∧
      (s.wallpaperFilterTags ≠ [] → p (filterTagsRule s.wallpaperFilterTags)) ∧
      ∀ rating ∈ s.wallpaperSkipContentRatings, p (skipRatingRule rating) := by
  have htags : (∀ rule ∈ (if s.wallpaperFilterTags.isEmpty then []
      else [filterTagsRule s.wallpaperFilterTags]), p rule) ↔
      (s.wallpaperFilterTags ≠ [] → p (filterTagsRule s.wallpaperFilterTags)) := by
    by_cases h : s.wallpaperFilterTags = [] <;> simp [h]
  rw [quickRules, List.forall_mem_append, List.forall_mem_append, List.forall_mem_map,
    List.forall_mem_map, htags, and_assoc]

/-- With hidden types in lower case and no empty tag, the toggles say what they are for, but for an
item without a rating. -/
theorem accepts_queueCondition_iff_wants (hedges : s.EdgesApart)
    (htypes : ∀ ty ∈ s.wallpaperSkipTypes, ty.toLower = ty) (htags : "" ∉ s.wallpaperFilterTags) :
    Query.Accepts (Row.value index) s.queueCondition r ↔ s.Wants index r ∧
      (s.wallpaperSkipContentRatings = [] ∨ r.item.contentRating.isSome = true) := by
  rw [accepts_queueCondition hedges, forall_mem_quickRules]
  have htype : (∀ ty ∈ s.wallpaperSkipTypes, (skipTypeRule ty).Holds index r) ↔
      r.item.ty ∉ s.wallpaperSkipTypes := by
    simp only [holds_skipTypeRule]
    constructor
    · exact fun h hmem => h _ hmem (htypes _ hmem).symm
    · rintro h ty hty heq
      exact h (heq.trans (htypes ty hty) ▸ hty)
  have htag : (s.wallpaperFilterTags ≠ [] → (filterTagsRule s.wallpaperFilterTags).Holds index r) ↔
      (s.wallpaperFilterTags ≠ [] →
        ∃ tag ∈ s.wallpaperFilterTags, ∃ name ∈ r.tags, name.toLower = tag.toLower) :=
    forall_congr' fun hne => holds_filterTagsRule hne htags
  have hrating : (∀ rating ∈ s.wallpaperSkipContentRatings,
      (skipRatingRule rating).Holds index r) ↔
      (∀ rating ∈ r.item.contentRating, rating ∉ s.wallpaperSkipContentRatings) ∧
        (s.wallpaperSkipContentRatings = [] ∨ r.item.contentRating.isSome = true) := by
    simp only [holds_skipRatingRule]
    rcases r.item.contentRating with _ | own
    · simp [List.eq_nil_iff_forall_not_mem]
    · simp only [Option.mem_def, Option.some_inj, exists_eq_left', forall_eq', Option.isSome_some,
        or_true, and_true]
      exact ⟨fun h hmem => h own hmem rfl, fun h rating hr heq => h (heq ▸ hr)⟩
  rw [htype, htag, hrating]
  constructor
  · rintro ⟨hown, hty, htg, hrt, hrated⟩
    exact ⟨⟨hown, hty, htg, hrt⟩, hrated⟩
  · rintro ⟨hwants, hrated⟩
    exact ⟨hwants.own, hwants.type, hwants.tags, hwants.rating, hrated⟩

theorem groups_fit_iff : (∀ n ∈ s.queueGroups, n < 2 ^ 31) ↔ s.GroupsFit := by
  simp only [queueGroups, List.forall_mem_map, List.mem_range, GroupsFit]
  constructor
  · exact fun h => h _ (Nat.lt_succ_self _)
  · intro h n hn
    omega

/-- A video without a rating and without tags. -/
def unratedClip : Row :=
  ⟨⟨1, 1, 1, "clip.webm", "video", "Clip", none, none, none, none, none, none, none, 0, 0, 0, none,
    none, none, none, none⟩, none, []⟩

end GlobalSettings

end

end Waywallen
