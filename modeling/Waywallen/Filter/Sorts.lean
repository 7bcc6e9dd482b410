import Waywallen.Filter.Ordered
import Waywallen.Library.StableSort

/-!
# The order of the sort rules

The sort rules order the entries lexicographically: by the first rule, then by the second, and so
on, each in its own direction. Entries that are equal under all of them stay as they stood.
-/

namespace Waywallen

open Std

/-- Compare by one rule; a rule with an unknown key tells no two entries apart. -/
def WallpaperSortRule.compare (files : Files) (rule : WallpaperSortRule) (a b : LoadedEntry) :
    Ordering :=
  match WallpaperSortKey.tryFrom rule.key with
  | none => .eq
  | some key =>
    let ord := key.compare files a b
    if rule.direction.toInt = 2 then ord.swap else ord

/-- Compare by the first rule that tells the entries apart. -/
def compareByRules (files : Files) : List WallpaperSortRule → LoadedEntry → LoadedEntry → Ordering
  | [] => fun _ _ => .eq
  | rule :: rules => compareLex (rule.compare files) (compareByRules files rules)

variable {files : Files}

instance (key : WallpaperSortKey) : TransCmp (key.compare files) := by
  cases key with
  | unspecified => exact { eq_swap := rfl, isLE_trans := fun _ _ => rfl }
  | name => exact inferInstanceAs (TransCmp (compareOn fun e : LoadedEntry => files.toLowercase e.name))
  | wpType => exact inferInstanceAs (TransCmp (compareOn LoadedEntry.wpType))
  | size => exact inferInstanceAs (TransCmp (compareOn fun e : LoadedEntry => e.size.getD 0))
  | lastModified =>
    exact inferInstanceAs (TransCmp (compareOn fun e : LoadedEntry => e.modifiedAt.getD 0))

/-- A reversed comparison is one with its arguments in the other order. -/
theorem transCmp_swap {α : Type} {cmp : α → α → Ordering} [TransCmp cmp] :
    TransCmp fun a b => (cmp a b).swap := by
  have hswap : (fun a b => (cmp a b).swap) = fun a b => cmp b a :=
    funext₂ fun a b => (@OrientedCmp.eq_swap _ cmp _ b a).symm
  rw [hswap]
  infer_instance

instance (rule : WallpaperSortRule) : TransCmp (rule.compare files) := by
  unfold WallpaperSortRule.compare
  cases WallpaperSortKey.tryFrom rule.key with
  | none => exact { eq_swap := rfl, isLE_trans := fun _ _ => rfl }
  | some key =>
    by_cases hdesc : rule.direction.toInt = 2
    · simp only [hdesc, if_true]
      exact transCmp_swap
    · simp only [hdesc, if_false]
      infer_instance

theorem WallpaperSortRule.compare_of_key {rule : WallpaperSortRule} {key : WallpaperSortKey}
    (h : WallpaperSortKey.tryFrom rule.key = some key) : rule.compare files = fun a b =>
      if rule.direction.toInt = 2 then (key.compare files a b).swap else key.compare files a b := by
  unfold compare
  rw [h]

theorem sortedFrom_applySortRule (entries : List LoadedEntry) (rule : WallpaperSortRule) :
    SortedFrom (rule.compare files) entries (applySortRule files entries rule) := by
  have hsorted : SortedFrom (rule.compare files) entries
      (entries.mergeSort fun a b => (rule.compare files a b).isLE) := .mergeSort entries
  unfold applySortRule
  cases hkey : WallpaperSortKey.tryFrom rule.key with
  | none =>
    have heq : rule.compare files = fun _ _ => .eq := by
      unfold WallpaperSortRule.compare
      rw [hkey]
    rw [heq]
    exact .refl entries
  | some key =>
    rw [rule.compare_of_key hkey] at hsorted ⊢
    cases key with
    | unspecified =>
      have heq : (fun a b => if rule.direction.toInt = 2 then
          (WallpaperSortKey.unspecified.compare files a b).swap
          else WallpaperSortKey.unspecified.compare files a b) = fun _ _ => .eq := by
        funext a b
        simp [WallpaperSortKey.compare]
      rw [heq]
      exact .refl entries
    | _ => exact hsorted

/-- The sort rules order the entries lexicographically and are stable. -/
theorem sortedFrom_applyWallpaperSorts (entries : List LoadedEntry)
    (sorts : List WallpaperSortRule) :
    SortedFrom (compareByRules files sorts) entries (applyWallpaperSorts files entries sorts) := by
  unfold applyWallpaperSorts
  induction sorts with
  | nil => exact .refl entries
  | cons rule rules ih =>
    rw [List.reverse_cons, List.foldl_append]
    exact (sortedFrom_applySortRule _ rule).lex ih

end Waywallen
