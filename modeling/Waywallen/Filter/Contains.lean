import Mathlib.Data.List.Infix
import Waywallen.Filter.Rules

/-!
# Containment rules

A containment rule compares a column with a `LIKE` pattern in which the value stands as it is. A
value without `%` and `_` is compared as text, in both cases of ASCII letters; these two keep their
meaning in the pattern.
-/

namespace Waywallen

open Sql

/-! ## Letters in both cases -/

theorem Char.toLower_cases (c : Char) :
    c.toLower = c ∨ 'a'.val ≤ c.toLower.val ∧ c.toLower.val ≤ 'z'.val := by
  unfold Char.toLower
  split
  · rename_i h
    have hfrom := UInt32.le_iff_toNat_le.1 h.1
    have hto := UInt32.le_iff_toNat_le.1 h.2
    refine .inr ⟨UInt32.le_iff_toNat_le.2 ?_, UInt32.le_iff_toNat_le.2 ?_⟩ <;>
      simp only [UInt32.toNat_add] <;> simp at hfrom hto ⊢ <;> omega
  · exact .inl rfl

theorem Char.toLower_toLower (c : Char) : c.toLower.toLower = c.toLower := by
  rcases Char.toLower_cases c with h | h
  · rw [h, h]
  · generalize c.toLower = d at h ⊢
    unfold Char.toLower
    refine dif_neg fun hupper => ?_
    exact absurd (UInt32.le_trans h.1 hupper.2) (by decide)

/-- Only letters are changed. -/
theorem Char.eq_of_toLower_eq {c d : Char} (h : c.toLower = d) (hd : d.val < 'a'.val) : c = d := by
  rcases Char.toLower_cases c with hc | hc
  · rwa [hc] at h
  · rw [h] at hc
    exact absurd hd (UInt32.not_lt.2 hc.1)

/-- `text` has `value` in it, up to the case of ASCII letters. -/
def ContainsText (value text : String) : Prop :=
  value.toList.map Char.toLower <:+: text.toList.map Char.toLower

instance (value text : String) : Decidable (ContainsText value text) :=
  inferInstanceAs (Decidable (_ <:+: _))

theorem containsText_toLower {value text : String} :
    ContainsText value.toLower text ↔ ContainsText value text := by
  have hlower : value.toLower.toList.map Char.toLower = value.toList.map Char.toLower := by
    show (value.map Char.toLower).toList.map Char.toLower = _
    rw [String.toList_map, List.map_map]
    exact List.map_congr_left fun c _ => Char.toLower_toLower c
  rw [ContainsText, ContainsText, hlower]

/-! ## Patterns -/

/-- No character of the value has a meaning of its own in a pattern. -/
def Literal (value : List Char) : Prop :=
  '%' ∉ value ∧ '_' ∉ value

instance (value : List Char) : Decidable (Literal value) :=
  inferInstanceAs (Decidable (_ ∧ _))

section

variable {pattern value text : List Char}

theorem sqlLike_percent :
    sqlLike ('%' :: pattern) text = true ↔ ∃ t, t <:+ text ∧ sqlLike pattern t = true := by
  rw [sqlLike, List.any_eq_true]
  simp only [List.mem_tails]

theorem sqlLike_literal_percent (h : Literal value) :
    sqlLike (value ++ ['%']) text = true ↔ value.map Char.toLower <+: text.map Char.toLower := by
  induction value generalizing text with
  | nil =>
    simp only [List.nil_append, sqlLike_percent, List.map_nil, List.nil_prefix, iff_true]
    exact ⟨[], List.nil_suffix, rfl⟩
  | cons c value ih =>
    have hliteral : Literal value :=
      ⟨fun hmem => h.1 (List.mem_cons_of_mem _ hmem), fun hmem => h.2 (List.mem_cons_of_mem _ hmem)⟩
    have hpercent : c ≠ '%' := fun hc => h.1 (hc ▸ List.mem_cons_self)
    have hunderscore : c ≠ '_' := fun hc => h.2 (hc ▸ List.mem_cons_self)
    cases text with
    | nil => simp [sqlLike]
    | cons d text => simp [sqlLike, ih hliteral]

/-- As text, a value matches what has it inside. -/
theorem sqlLike_literal (h : Literal value) :
    sqlLike ('%' :: (value ++ ['%'])) text = true ↔
      value.map Char.toLower <:+: text.map Char.toLower := by
  rw [sqlLike_percent, List.infix_iff_prefix_suffix]
  constructor
  · rintro ⟨t, ht, hlike⟩
    exact ⟨_, (sqlLike_literal_percent h).1 hlike, ht.map _⟩
  · rintro ⟨t, hprefix, ht⟩
    obtain ⟨s, hs, rfl⟩ := List.suffix_map_iff.1 ht
    exact ⟨s, hs, (sqlLike_literal_percent h).2 hprefix⟩

/-- A text that the value matches as a pattern, and that has no `%` and no `_`. -/
def unmeant (value : List Char) : List Char :=
  (value.filter (· ≠ '%')).map fun c => if c = '_' then 'a' else c

theorem sqlLike_of_suffix (h : sqlLike pattern text = true) : sqlLike ('%' :: pattern) text = true :=
  sqlLike_percent.2 ⟨text, List.suffix_rfl, h⟩

theorem sqlLike_unmeant (value : List Char) :
    sqlLike (value ++ ['%']) (unmeant value) = true := by
  induction value with
  | nil => rfl
  | cons c value ih =>
    by_cases hpercent : c = '%'
    · subst hpercent
      exact sqlLike_of_suffix ih
    · have hcons : unmeant (c :: value) = (if c = '_' then 'a' else c) :: unmeant value := by
        simp [unmeant, hpercent]
      rw [hcons]
      by_cases hunderscore : c = '_'
      · subst hunderscore
        exact ih
      · simpa [sqlLike, hpercent, hunderscore] using ih

theorem literal_unmeant (value : List Char) : Literal (unmeant value) := by
  unfold Literal unmeant
  constructor
  · intro hmem
    obtain ⟨c, hc, heq⟩ := List.mem_map.1 hmem
    have hpercent : c ≠ '%' := by simpa using (List.mem_filter.1 hc).2
    split at heq
    · cases heq
    · exact hpercent heq
  · intro hmem
    obtain ⟨c, -, heq⟩ := List.mem_map.1 hmem
    split at heq
    · cases heq
    · contradiction

/-- What has the value inside has its `%` and `_`. -/
theorem Literal.of_contained (h : value.map Char.toLower <:+: text.map Char.toLower)
    (htext : Literal text) : Literal value := by
  have hmem {c : Char} (hc : c ∈ value) (hval : c.toLower = c) (hlt : c.val < 'a'.val) :
      c ∈ text := by
    obtain ⟨d, hd, heq⟩ := List.mem_map.1 (h.subset (List.mem_map_of_mem hc))
    rw [hval] at heq
    rwa [← Char.eq_of_toLower_eq heq hlt]
  exact ⟨fun hc => htext.1 (hmem hc rfl (by decide)), fun hc => htext.2 (hmem hc rfl (by decide))⟩

end

/-! ## Rules -/

/-- The rule has a condition, and the row satisfies it. -/
def WallpaperFilterRule.Accepts (f : WallpaperFilterRule) (index : String → Item → Bool)
    (r : Row) : Prop :=
  ∃ c ∈ wallpaperFilterToCondition f, c.Holds (r.value index)

/-- The rules that compare a column of text, as their wire numbers. -/
def textRules : List (Int32 × TextColumn) :=
  [(2, .ty), (3, .libraryPath), (8, .contentRating)]

/-- Rules with this value accept what contains it as text. -/
structure ContainsAsText (value : String) : Prop where
  column : ∀ type column, (type, column) ∈ textRules → ∀ group index (r : Row) text,
    r.text column = some text →
      (WallpaperFilterRule.Accepts ⟨type, group, some (.stringFilter value 3)⟩ index r ↔
          ContainsText value text) ∧
        (WallpaperFilterRule.Accepts ⟨type, group, some (.stringFilter value 4)⟩ index r ↔
          ¬ ContainsText value text)
  name : ∀ query, buildFtsMatchQuery value = some query → ∀ group index (r : Row),
    (WallpaperFilterRule.Accepts ⟨1, group, some (.stringFilter value 3)⟩ index r ↔
        index query r.item = true ∨ ∃ tag ∈ r.tags, ContainsText value tag) ∧
      (WallpaperFilterRule.Accepts ⟨1, group, some (.stringFilter value 4)⟩ index r ↔
        index query r.item = false ∧ ∀ tag ∈ r.tags, ¬ ContainsText value tag)

/-- The value as it is compared with a column; types are compared in lower case. -/
def TextColumn.spelled (value : String) : TextColumn → String
  | ty => value.toLower
  | _ => value

section

variable {value text query : String} {group n type : Int32} {index : String → Item → Bool} {r : Row}
  {column : TextColumn} {c : Cond Atom}

theorem condition_textRule (h : (type, column) ∈ textRules) :
    wallpaperFilterToCondition ⟨type, group, some (.stringFilter value n)⟩ =
      stringConditionToCondition column ((StringCondition.tryFrom n).getD .unspecified)
        (column.spelled value) false := by
  simp only [textRules, List.mem_cons, List.not_mem_nil, or_false, Prod.mk.injEq] at h
  rcases h with ⟨rfl, rfl⟩ | ⟨rfl, rfl⟩ | ⟨rfl, rfl⟩ <;> rfl

theorem accepts_iff {f : WallpaperFilterRule} (h : wallpaperFilterToCondition f = some c) :
    f.Accepts index r ↔ c.Holds (r.value index) := by
  rw [WallpaperFilterRule.Accepts, h]
  simp

theorem accepts_contains (hrule : (type, column) ∈ textRules) (htext : r.text column = some text) :
    WallpaperFilterRule.Accepts ⟨type, group, some (.stringFilter value 3)⟩ index r ↔
      sqlLike ("%" ++ column.spelled value ++ "%").toList text.toList = true := by
  have hcond : wallpaperFilterToCondition ⟨type, group, some (.stringFilter value 3)⟩ =
      some (.all [.atom (.like column ("%" ++ column.spelled value ++ "%"))]) :=
    condition_textRule hrule
  rw [accepts_iff hcond]
  simp [Row.value, htext]

theorem accepts_containsNot (hrule : (type, column) ∈ textRules)
    (htext : r.text column = some text) :
    WallpaperFilterRule.Accepts ⟨type, group, some (.stringFilter value 4)⟩ index r ↔
      ¬ sqlLike ("%" ++ column.spelled value ++ "%").toList text.toList = true := by
  have hcond : wallpaperFilterToCondition ⟨type, group, some (.stringFilter value 4)⟩ =
      some (.all [.atom (.notLike column ("%" ++ column.spelled value ++ "%"))]) :=
    condition_textRule hrule
  rw [accepts_iff hcond]
  simp [Row.value, htext]

theorem pattern_toList : ("%" ++ value ++ "%").toList = '%' :: (value.toList ++ ['%']) := by
  simp

theorem sqlLike_iff_containsText (h : Literal value.toList) :
    sqlLike ("%" ++ value ++ "%").toList text.toList = true ↔ ContainsText value text := by
  rw [pattern_toList, sqlLike_literal h, ContainsText]

theorem Literal.toLower (h : Literal value.toList) : Literal value.toLower.toList := by
  have hself : ContainsText value.toLower value := containsText_toLower.2 List.infix_rfl
  exact .of_contained hself h

theorem sqlLike_spelled (h : Literal value.toList) :
    sqlLike ("%" ++ column.spelled value ++ "%").toList text.toList = true ↔
      ContainsText value text := by
  cases column with
  | ty => exact (sqlLike_iff_containsText h.toLower).trans containsText_toLower
  | _ => exact sqlLike_iff_containsText h

theorem accepts_name (h : buildFtsMatchQuery value = some query) :
    (WallpaperFilterRule.Accepts ⟨1, group, some (.stringFilter value 3)⟩ index r ↔
        index query r.item = true ∨
          ∃ tag ∈ r.tags, sqlLike ("%" ++ value ++ "%").toList tag.toList = true) ∧
      (WallpaperFilterRule.Accepts ⟨1, group, some (.stringFilter value 4)⟩ index r ↔
        index query r.item = false ∧
          ∀ tag ∈ r.tags, ¬ sqlLike ("%" ++ value ++ "%").toList tag.toList = true) := by
  have hcontains : wallpaperFilterToCondition ⟨1, group, some (.stringFilter value 3)⟩ =
      some (.any [.atom (.inIndex query), .atom (.hasTagLike ("%" ++ value ++ "%"))]) :=
    congrArg (Option.map _) h
  have hcontainsNot : wallpaperFilterToCondition ⟨1, group, some (.stringFilter value 4)⟩ =
      some (.all [.atom (.notInIndex query), .atom (.hasNoTagLike ("%" ++ value ++ "%"))]) :=
    congrArg (Option.map _) h
  rw [accepts_iff hcontains, accepts_iff hcontainsNot]
  simp [Row.value]

theorem containsAsText_of_literal (h : Literal value.toList) : ContainsAsText value where
  column type column hrule group index r text htext := by
    rw [accepts_contains hrule htext, accepts_containsNot hrule htext, sqlLike_spelled h]
    exact ⟨.rfl, .rfl⟩
  name query hquery group index r := by
    simp only [← sqlLike_iff_containsText h]
    exact accepts_name hquery

/-- An item of a library in this directory. -/
def itemUnder (path : String) : Row :=
  ⟨⟨1, 1, 1, "a.png", "image", "a", none, none, none, none, none, none, none, 0, 0, 0, none, none,
    none, none, none⟩, some ⟨1, 1, path, ""⟩, []⟩

/-- A library path that is not found as text is accepted when the value has `%` or `_`. -/
theorem literal_of_containsAsText (h : ContainsAsText value) : Literal value.toList := by
  have htext : (itemUnder (String.ofList (unmeant value.toList))).text .libraryPath =
      some (String.ofList (unmeant value.toList)) := rfl
  have hlike : sqlLike ("%" ++ TextColumn.libraryPath.spelled value ++ "%").toList
      (String.ofList (unmeant value.toList)).toList = true := by
    rw [pattern_toList, String.toList_ofList]
    exact sqlLike_of_suffix (sqlLike_unmeant value.toList)
  have hcontains := (h.column 3 .libraryPath (by decide) 0 (fun _ _ => false) _ _ htext).1.1
    ((accepts_contains (by decide) htext).2 hlike)
  rw [ContainsText, String.toList_ofList] at hcontains
  exact .of_contained hcontains (literal_unmeant _)

end

end Waywallen
