import Waywallen.Filter.Rules

/-!
# Negative rules

A rule with a negative condition is compared with the one that has the positive condition instead.
The two complement each other wherever the column that they read has a value; `NULL` satisfies
neither.
-/

namespace Waywallen

open Sql

/-- The condition that a negative one denies, as its wire number. -/
def StringCondition.denied : StringCondition → Option Int32
  | isNot => some 1
  | containsNot => some 3
  | _ => none

def IntCondition.denied : IntCondition → Option Int32
  | equalNot => some 1
  | _ => none

/-- The payload with the positive condition in place of a negative one. -/
def Payload.positive : Payload → Option Payload
  | stringFilter value condition =>
    ((StringCondition.tryFrom condition).bind StringCondition.denied).map (stringFilter value)
  | intFilter value condition =>
    ((IntCondition.tryFrom condition).bind IntCondition.denied).map (intFilter value)
  | tagFilter values condition =>
    ((StringCondition.tryFrom condition).bind StringCondition.denied).map (tagFilter values)

namespace WallpaperFilterRule

variable (f : WallpaperFilterRule)

/-- The rule with the positive condition in place of a negative one. -/
def positive : Option WallpaperFilterRule :=
  (f.payload.bind Payload.positive).map fun payload => { f with payload := some payload }

/-- The column that the rule reads is `NULL` in the row. -/
def ReadsNull (r : Row) : Prop :=
  match WallpaperFilterType.tryFrom f.type with
  | some .library => r.text .libraryPath = none
  | some .contentRating => r.text .contentRating = none
  | some .width => r.int .width = none
  | some .height => r.int .height = none
  | some .size => r.int .size = none
  | _ => False

/-- The rule accepts what its positive form rejects, when both have a condition. -/
def Complements (index : String → Item → Bool) (r : Row) : Prop :=
  ∀ f' c c', f.positive = some f' → wallpaperFilterToCondition f = some c →
    wallpaperFilterToCondition f' = some c' →
    (c.Holds (r.value index) ↔ ¬ c'.Holds (r.value index))

end WallpaperFilterRule

/-! ## The conditions in pairs -/

/-- `c` and `c'` complement each other, and where `absent` holds neither is satisfied. -/
def Opposed (index : String → Item → Bool) (r : Row) (absent : Prop) (c c' : Cond Atom) : Prop :=
  (absent → ¬ c.Holds (r.value index) ∧ ¬ c'.Holds (r.value index)) ∧
    (¬ absent → (c.Holds (r.value index) ↔ ¬ c'.Holds (r.value index)))

section

variable {index : String → Item → Bool} {r : Row} {c c' : Cond Atom} {f f' : WallpaperFilterRule}

theorem StringCondition.denied_cases {n m : Int32}
    (h : (tryFrom n).bind StringCondition.denied = some m) :
    ((tryFrom n).getD .unspecified = isNot ∧ (tryFrom m).getD .unspecified = is) ∨
      (tryFrom n).getD .unspecified = containsNot ∧ (tryFrom m).getD .unspecified = contains := by
  obtain ⟨cond, hcond, h⟩ := Option.bind_eq_some_iff.1 h
  rw [hcond]
  cases cond <;> cases h
  · exact .inl ⟨rfl, rfl⟩
  · exact .inr ⟨rfl, rfl⟩

theorem IntCondition.denied_cases {n m : Int32}
    (h : (tryFrom n).bind IntCondition.denied = some m) :
    (tryFrom n).getD .unspecified = equalNot ∧ (tryFrom m).getD .unspecified = equal := by
  obtain ⟨cond, hcond, h⟩ := Option.bind_eq_some_iff.1 h
  rw [hcond]
  cases cond <;> cases h
  exact ⟨rfl, rfl⟩

theorem opposed_text {column : TextColumn} {value : String} {cond cond' : StringCondition}
    (h : (cond = .isNot ∧ cond' = .is) ∨ cond = .containsNot ∧ cond' = .contains)
    (hc : stringConditionToCondition column cond value false = some c)
    (hc' : stringConditionToCondition column cond' value false = some c') :
    Opposed index r (r.text column = none) c c' := by
  rcases h with ⟨rfl, rfl⟩ | ⟨rfl, rfl⟩ <;> cases hc <;> cases hc' <;>
    cases htext : r.text column <;> simp [Opposed, Row.value, htext]

theorem opposed_int {column : IntColumn} {value : Int} {cond cond' : IntCondition}
    (h : cond = .equalNot ∧ cond' = .equal)
    (hc : intConditionToCondition column cond value = some c)
    (hc' : intConditionToCondition column cond' value = some c') :
    Opposed index r (r.int column = none) c c' := by
  obtain ⟨rfl, rfl⟩ := h
  cases hc
  cases hc'
  cases hint : r.int column <;> simp [Opposed, Row.value, hint, IntCondition.compare]

theorem opposed_tag {tag : String} {cond cond' : StringCondition}
    (h : (cond = .isNot ∧ cond' = .is) ∨ cond = .containsNot ∧ cond' = .contains)
    (hc : tagConditionToCondition tag cond = some c)
    (hc' : tagConditionToCondition tag cond' = some c') : Opposed index r False c c' := by
  rcases h with ⟨rfl, rfl⟩ | ⟨rfl, rfl⟩ <;> cases hc <;> cases hc' <;> simp [Opposed, Row.value]

theorem opposed_tagList {values : List String} {cond cond' : StringCondition}
    (h : (cond = .isNot ∧ cond' = .is) ∨ cond = .containsNot ∧ cond' = .contains)
    (hc : tagListConditionToCondition values cond = some c)
    (hc' : tagListConditionToCondition values cond' = some c') : Opposed index r False c c' := by
  have hopposed (names : List String) : Opposed index r False
      (.all (names.map fun tag => .atom (.hasNoTag tag)))
      (.any (names.map fun tag => .atom (.hasTag tag))) := by
    simp [Opposed, Row.value]
  unfold tagListConditionToCondition at hc hc'
  dsimp only at hc hc'
  split at hc
  · cases hc
  · rename_i hempty
    rw [if_neg hempty] at hc'
    rcases h with ⟨rfl, rfl⟩ | ⟨rfl, rfl⟩ <;> cases hc <;> cases hc' <;> exact hopposed _

theorem opposed_name {value : String} {n m : Int32}
    (h : (StringCondition.tryFrom n).bind StringCondition.denied = some m)
    (hc : nameConditionToCondition value n = some c)
    (hc' : nameConditionToCondition value m = some c') : Opposed index r False c c' := by
  unfold nameConditionToCondition at hc hc'
  rcases StringCondition.denied_cases h with ⟨hn, hm⟩ | ⟨hn, hm⟩
  · rw [hn] at hc
    rw [hm] at hc'
    have hopposed : Opposed index r (r.text .displayName = none) c c' :=
      opposed_text (.inl ⟨rfl, rfl⟩) hc hc'
    exact ⟨False.elim, fun _ => hopposed.2 (by simp [Row.text])⟩
  · rw [hn] at hc
    rw [hm] at hc'
    obtain ⟨query, hquery, rfl⟩ := Option.map_eq_some_iff.1 hc
    rw [hquery] at hc'
    cases hc'
    simp [Opposed, Row.value]

/-- A negative rule accepts what its positive form rejects; where the column is `NULL`, both
reject. -/
theorem opposed_positive (hpositive : f.positive = some f')
    (hc : wallpaperFilterToCondition f = some c) (hc' : wallpaperFilterToCondition f' = some c') :
    Opposed index r (f.ReadsNull r) c c' := by
  obtain ⟨payload', hpayload, rfl⟩ := Option.map_eq_some_iff.1 hpositive
  obtain ⟨payload, hpayload, hdenied⟩ := Option.bind_eq_some_iff.1 hpayload
  unfold wallpaperFilterToCondition at hc hc'
  unfold WallpaperFilterRule.ReadsNull
  rw [hpayload] at hc
  cases htype : WallpaperFilterType.tryFrom f.type with
  | none => cases payload <;> simp [htype] at hc
  | some type =>
    simp only [htype] at hc
    cases payload with
    | stringFilter value n =>
      obtain ⟨m, hm, rfl⟩ := Option.map_eq_some_iff.1 hdenied
      have hcases := StringCondition.denied_cases hm
      simp only [htype] at hc'
      cases type with
      | name => exact opposed_name hm hc hc'
      | wpType =>
        -- the type of an item is never `NULL`
        have hopposed : Opposed index r (r.text .ty = none) c c' := opposed_text hcases hc hc'
        exact ⟨False.elim, fun _ => hopposed.2 (by simp [Row.text])⟩
      | library | contentRating => exact opposed_text hcases hc hc'
      | tag => exact opposed_tag hcases hc hc'
      | _ => cases hc
    | intFilter value n =>
      obtain ⟨m, hm, rfl⟩ := Option.map_eq_some_iff.1 hdenied
      have hcases := IntCondition.denied_cases hm
      simp only [htype] at hc'
      cases type with
      | width | height | size => exact opposed_int hcases hc hc'
      | _ => cases hc
    | tagFilter values n =>
      obtain ⟨m, hm, rfl⟩ := Option.map_eq_some_iff.1 hdenied
      have hcases := StringCondition.denied_cases hm
      simp only [htype] at hc'
      cases type with
      | tag => exact opposed_tagList hcases hc hc'
      | _ => cases hc

end

variable (index : String → Item → Bool) (r : Row) (f : WallpaperFilterRule)

theorem WallpaperFilterRule.complements_unless_null :
    (¬ f.ReadsNull r → f.Complements index r) ∧
      (f.ReadsNull r → ∀ f' c c', f.positive = some f' →
        wallpaperFilterToCondition f = some c → wallpaperFilterToCondition f' = some c' →
        ¬ c.Holds (r.value index) ∧ ¬ c'.Holds (r.value index)) := by
  constructor
  · intro hnull f' c c' hpositive hc hc'
    exact (opposed_positive hpositive hc hc').2 hnull
  · intro hnull f' c c' hpositive hc hc'
    exact (opposed_positive hpositive hc hc').1 hnull

/-- A picture of unknown width is neither 1920 wide nor of another width. -/
theorem WallpaperFilterRule.not_complements : ¬ ∀ index r f, Complements f index r := by
  intro h
  have hcomplements := h (fun _ _ => false)
    ⟨⟨1, 1, 1, "a.png", "image", "a", none, none, none, none, none, none, none, 0, 0, 0, none, none,
      none, none, none⟩, none, []⟩
    ⟨5, 0, some (.intFilter 1920 2)⟩ ⟨5, 0, some (.intFilter 1920 1)⟩ _ _ (by decide) rfl rfl
  exact absurd hcomplements (by decide)

end Waywallen
