import Mathlib.Data.List.Perm.Basic

/-!
# Fisher–Yates shuffles

The shuffle of an array in place, from its last position down, with a generator that is given. An
exchange outside the array is a failure; there is none as long as the generator keeps to the range
it is asked for.
-/

universe u v

namespace Shuffle

variable {α : Type u} {γ : Type v}

/-- Exchange two elements; `none` if one of the positions is outside the array. -/
def swap (a : Array α) (i j : ℕ) : Option (Array α) :=
  if h : i < a.size ∧ j < a.size then some (a.swap i j h.1 h.2) else none

/-- The steps for the positions from `i` down to 1; `draw n` is to draw a number below `n`. -/
def shuffleFrom (draw : ℕ → γ → ℕ × γ) : ℕ → Array α → γ → Option (Array α × γ)
  | 0, a, g => some (a, g)
  | i + 1, a, g =>
      let (j, g) := draw (i + 2) g
      (swap a (i + 1) j).bind fun a => shuffleFrom draw i a g

theorem swap_eq_some {a b : Array α} {i j : ℕ} (h : swap a i j = some b) :
    b.Perm a ∧ b = a.swapIfInBounds i j := by
  unfold swap at h
  split at h
  · rename_i hij
    cases h
    exact ⟨Array.swap_perm .., by simp [Array.swapIfInBounds, hij]⟩
  · cases h

theorem swap_isSome {a : Array α} {i j : ℕ} (hi : i < a.size) (hj : j < a.size) :
    ∃ b, swap a i j = some b :=
  ⟨_, dif_pos ⟨hi, hj⟩⟩

/-- An exchange with another position changes what is at the first one, if all elements differ. -/
theorem swapIfInBounds_ne {a : Array α} (ha : a.toList.Nodup) {i j : ℕ} (hi : i < a.size)
    (hj : j < a.size) (hne : j ≠ i) : (a.swapIfInBounds i j)[i]? ≠ a[i]? := by
  have hi' : i < (a.swapIfInBounds i j).size := by rwa [Array.size_swapIfInBounds]
  intro h
  rw [Array.getElem?_eq_getElem hi', Array.getElem_swapIfInBounds_left hj,
    ← Array.getElem?_eq_getElem hj, ← Array.getElem?_toList, ← Array.getElem?_toList] at h
  exact hne ((List.getElem?_inj hj ha).1 h)

/-- A generator that keeps to its range shuffles without failure. -/
theorem shuffleFrom_perm {draw : ℕ → γ → ℕ × γ} (hdraw : ∀ n g, 0 < n → (draw n g).1 < n) {i : ℕ}
    {a : Array α} (g : γ) (hi : i < a.size ∨ i = 0) :
    ∃ b g', shuffleFrom draw i a g = some (b, g') ∧ b.Perm a := by
  induction i generalizing a g with
  | zero => exact ⟨a, g, rfl, .rfl⟩
  | succ i ih =>
    have hi : i + 1 < a.size := hi.resolve_right (Nat.succ_ne_zero i)
    have hj : (draw (i + 2) g).1 < a.size := by
      have := hdraw (i + 2) g (by omega)
      omega
    obtain ⟨b, hb⟩ := swap_isSome hi hj
    have hperm := (swap_eq_some hb).1
    obtain ⟨c, g', hc, hcb⟩ := ih (a := b) (draw (i + 2) g).2 (.inl (by
      rw [hperm.size_eq]
      omega))
    exact ⟨c, g', by simp [shuffleFrom, hb, hc], hcb.trans hperm⟩

/-! ## Permutations of positions -/

section

variable {a : Array ℕ} {n : ℕ}

theorem size_of_perm_range (h : a.Perm (Array.range n)) : a.size = n := by
  rw [h.size_eq, Array.size_range]

theorem mem_of_perm_range (h : a.Perm (Array.range n)) {i : ℕ} : i ∈ a ↔ i < n := by
  rw [h.mem_iff, Array.mem_range]

/-- At every place there is a position. -/
theorem getElem?_of_perm_range (h : a.Perm (Array.range n)) {p : ℕ} (hp : p < n) :
    ∃ i, a[p]? = some i ∧ i < n := by
  have hsize : p < a.size := by rwa [size_of_perm_range h]
  exact ⟨a[p], Array.getElem?_eq_getElem hsize,
    (mem_of_perm_range h).1 (Array.getElem_mem hsize)⟩

/-- Every position has its place. -/
theorem idxOf?_of_perm_range (h : a.Perm (Array.range n)) {i : ℕ} (hi : i < n) :
    ∃ p, a.idxOf? i = some p ∧ a[p]? = some i := by
  have hmem : i ∈ a.toList := Array.mem_def.1 ((mem_of_perm_range h).2 hi)
  obtain ⟨p, hp⟩ := Option.isSome_iff_exists.1 (List.isSome_idxOf?.2 hmem)
  obtain ⟨hlt, heq, -⟩ := List.idxOf?_eq_some_iff.1 hp
  refine ⟨p, ?_, ?_⟩
  · rw [← hp, ← List.idxOf?_toArray, Array.toArray_toList]
  · rw [← Array.getElem?_toList, List.getElem?_eq_getElem hlt, heq]

end

end Shuffle
