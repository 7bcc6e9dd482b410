import Mathlib.Data.List.Basic

/-!
# Replacing a character in a text

`String.replace` searches for its pattern step by step. For a pattern of one character it puts the
replacement in place of every occurrence.
-/

namespace String

open Slice Slice.Pattern Slice.Pattern.Model

/-- The text with `rep` in place of every `q`. -/
def substitute (q : Char) (rep text : List Char) : List Char :=
  text.flatMap fun c => if c = q then rep else [c]

theorem substitute_append (q : Char) (rep text₁ text₂ : List Char) :
    substitute q rep (text₁ ++ text₂) = substitute q rep text₁ ++ substitute q rep text₂ :=
  List.flatMap_append

theorem substitute_of_not_mem {q : Char} {text : List Char} (rep : List Char) (h : q ∉ text) :
    substitute q rep text = text := by
  induction text with
  | nil => rfl
  | cons c text ih =>
    rw [List.mem_cons, not_or] at h
    rw [substitute, List.flatMap_cons, if_neg (Ne.symm h.1)]
    exact congrArg (c :: ·) (ih h.2)

/-- What `replace` makes of a search step. -/
def replaceStep {s : Slice} (rep sofar : String) : SearchStep s → String
  | .matched .. => sofar ++ rep.toSlice
  | .rejected start stop => sofar ++ s.slice! start stop

section

variable {s : Slice} {pattern rep : String} {q : Char}

/-- A part in which the pattern is not found does not have its character. -/
theorem not_mem_of_not_matchesAt (hpattern : pattern.toList = [q]) {p p' : s.Pos} {t t' u : String}
    (hp : p.Splits t (u ++ t')) (hp' : p'.Splits (t ++ u) t')
    (h : ∀ pos, p ≤ pos → pos < p' → ¬ MatchesAt pattern pos) : q ∉ u.toList := by
  intro hq
  obtain ⟨u₁, u₂, hu⟩ := List.append_of_mem hq
  have hparts : u = String.ofList u₁ ++ (pattern ++ String.ofList u₂) := by
    apply String.toList_inj.1
    simp [hu, hpattern]
  have hcopy : s.copy = (t ++ String.ofList u₁) ++ (pattern ++ (String.ofList u₂ ++ t')) := by
    rw [hp.eq_append, hparts]
    simp only [String.append_assoc]
  -- the position of the character lies within the part
  have hsplits := Slice.Pos.splits_ofEqAppend hcopy
  refine h _ ?_ ?_ (ForwardStringSearcher.matchesAt_iff_splits.2 ⟨_, _, hsplits⟩)
  · refine (hp.le_iff_exists_eq_append hsplits).2 ⟨String.ofList u₁, rfl, ?_⟩
    rw [hparts]
    simp only [String.append_assoc]
  · refine (hsplits.lt_iff_exists_eq_append hp').2 ⟨pattern ++ String.ofList u₂, ?_, ?_, ?_⟩
    · intro hempty
      have hlist := congrArg String.toList hempty
      rw [String.toList_append, hpattern] at hlist
      cases hlist
    · rw [hparts]
      simp only [String.append_assoc]
    · simp only [String.append_assoc]

theorem toList_foldl_replaceStep (hpattern : pattern.toList = [q]) {pos : s.Pos}
    {steps : List (SearchStep s)} (h : IsValidSearchFrom pattern pos steps) {t t' : String}
    (hpos : pos.Splits t t') (sofar : String) :
    (steps.foldl (replaceStep rep) sofar).toList =
      sofar.toList ++ substitute q rep.toList t'.toList := by
  induction h generalizing t t' sofar with
  | endPos =>
    obtain ⟨-, rfl⟩ := hpos.eq s.splits_endPos
    simp [substitute]
  | matched hmatch _ ih =>
    obtain ⟨t₁, t₂, hstart, hstop⟩ := ForwardStringSearcher.isLongestMatchAt_iff_splits.1 hmatch
    obtain ⟨rfl, rfl⟩ := hpos.eq hstart
    rw [List.foldl_cons, ih hstop]
    simp [replaceStep, substitute, hpattern]
  | mismatched hlt hno _ ih =>
    obtain ⟨t₁, t₂, hstart, hstop⟩ := Slice.copy_slice_eq_iff_splits.1 ⟨Std.le_of_lt hlt, rfl⟩
    obtain ⟨rfl, rfl⟩ := hpos.eq hstart
    have hkeep := substitute_of_not_mem rep.toList
      (not_mem_of_not_matchesAt hpattern hstart hstop hno)
    rw [List.foldl_cons, ih hstop, String.toList_append, substitute_append, hkeep]
    simp [replaceStep, Slice.slice_eq_slice!]

theorem replace_eq_fold (s pattern rep : String) : s.replace pattern rep =
    Std.Iter.fold (replaceStep rep) "" (ToForwardSearcher.toSearcher pattern s.toSlice) := by
  rw [String.replace, Slice.replace]
  refine congrArg (fun f => Std.Iter.fold f "" _) ?_
  funext sofar step
  cases step <;> rfl

/-- To replace a pattern of one character is to replace every occurrence of it. -/
theorem toList_replace (hpattern : pattern.toList = [q]) (s rep : String) :
    (s.replace pattern rep).toList = substitute q rep.toList s.toList := by
  have hne : pattern ≠ "" := by
    rintro rfl
    cases hpattern
  have hsearch := (ForwardStringSearcher.lawfulToForwardSearcherModel hne).isValidSearchFrom_toList
    s.toSlice
  have hfold : _ = "".toList ++ substitute q rep.toList s.toSlice.copy.toList :=
    toList_foldl_replaceStep hpattern hsearch (Slice.splits_startPos _) ""
  rw [Std.Iter.foldl_toList, String.toList_empty, List.nil_append, String.copy_toSlice] at hfold
  rw [replace_eq_fold, hfold]

end

end String
