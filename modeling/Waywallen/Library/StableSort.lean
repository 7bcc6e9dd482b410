import Mathlib.Data.List.Basic

/-!
# Stable sorting by several keys

A stable sort leaves elements that are equal under its comparison as they stand. Sorting by the
last key first and by the first key last therefore orders by the keys lexicographically.
-/

universe u

open Std

variable {α : Type u}

/-- The list is `l` in the order of `cmp`, and the elements that are equal under it stand as in
`l`. -/
structure SortedFrom (cmp : α → α → Ordering) (l sorted : List α) : Prop where
  perm : sorted.Perm l
  ordered : sorted.Pairwise fun a b => (cmp a b).isLE = true
  stable : ∀ a, sorted.filter (fun b => cmp a b = .eq) = l.filter fun b => cmp a b = .eq

namespace SortedFrom

variable {cmp cmp' : α → α → Ordering} {l m n : List α}

/-- Under a comparison that tells nothing apart, a list is sorted. -/
theorem refl (l : List α) : SortedFrom (fun _ _ => .eq) l l where
  perm := .refl l
  ordered := List.pairwise_of_forall fun _ _ => rfl
  stable _ := rfl

theorem mergeSort [TransCmp cmp] (l : List α) :
    SortedFrom cmp l (l.mergeSort fun a b => (cmp a b).isLE) := by
  have htrans (a b c : α) : (cmp a b).isLE → (cmp b c).isLE → (cmp a c).isLE :=
    TransCmp.isLE_trans
  have htotal (a b : α) : (cmp a b).isLE || (cmp b a).isLE := by
    rw [@OrientedCmp.eq_swap _ cmp _ b a]
    cases cmp a b <;> rfl
  refine ⟨List.mergeSort_perm _ _, List.pairwise_mergeSort htrans htotal l, fun a => ?_⟩
  -- the elements equal to `a` are in order as they stand, so they stay a sublist
  have hequal : (l.filter fun b => cmp a b = .eq).Pairwise fun b c => (cmp b c).isLE := by
    refine List.pairwise_of_forall_mem_list fun b hb c hc => ?_
    have hb : cmp a b = .eq := by simpa using (List.mem_filter.1 hb).2
    have hc : cmp a c = .eq := by simpa using (List.mem_filter.1 hc).2
    rw [TransCmp.congr_left (OrientedCmp.eq_symm hb), hc]
    rfl
  have hsub := (List.sublist_mergeSort htrans htotal hequal List.filter_sublist).filter
    fun b => decide (cmp a b = .eq)
  rw [List.filter_filter] at hsub
  simp only [Bool.and_self] at hsub
  exact (hsub.eq_of_length ((List.mergeSort_perm _ _).filter _).length_eq.symm).symm

/-- Sorting by a second key and then by a first one sorts by both. -/
theorem lex [TransCmp cmp] (h : SortedFrom cmp m n) (h' : SortedFrom cmp' l m) :
    SortedFrom (compareLex cmp cmp') l n where
  perm := h.perm.trans h'.perm
  ordered := by
    refine List.pairwise_iff_forall_sublist.2 fun {a b} hab => ?_
    have hle := List.pairwise_iff_forall_sublist.1 h.ordered hab
    cases hcmp : cmp a b with
    | lt => simp [compareLex, hcmp]
    | gt => simp [hcmp] at hle
    | eq =>
      -- the two stand in `m` as they do in `n`
      have hsub := hab.filter fun c => decide (cmp a c = .eq)
      rw [h.stable] at hsub
      have hpair : [a, b].filter (fun c => decide (cmp a c = .eq)) = [a, b] := by
        simp [hcmp, ReflCmp.compare_self]
      rw [hpair] at hsub
      have hle' := List.pairwise_iff_forall_sublist.1 h'.ordered (hsub.trans List.filter_sublist)
      simpa [compareLex, hcmp] using hle'
  stable a := by
    have hsplit (k : List α) : k.filter (fun b => decide (compareLex cmp cmp' a b = .eq)) =
        (k.filter fun b => decide (cmp a b = .eq)).filter fun b => decide (cmp' a b = .eq) := by
      rw [List.filter_filter]
      exact List.filter_congr fun b _ => by simp [compareLex_eq_eq, Bool.and_comm]
    rw [hsplit, hsplit, h.stable, List.filter_comm, h'.stable, List.filter_comm]

end SortedFrom
