import Mathlib.Data.List.Perm.Basic

/-!
# Sequences in rounds

A sequence of picks goes in rounds over a list when its consecutive blocks of the length of the list
are permutations of it. A walker that goes along one permutation after the other, each from its
first place to its last, picks in rounds.
-/

universe u

namespace Rounds

variable {α : Type u} {l : List α}

/-- Every whole block of `picks` is a permutation of `l`. -/
def InRounds (l picks : List α) : Prop :=
  ∀ k, (k + 1) * l.length ≤ picks.length → ((picks.drop (k * l.length)).take l.length).Perm l

theorem inRounds_of_length_le {round rest : List α} (h : (round ++ rest).Perm l) :
    InRounds l round := by
  have hlen : round.length + rest.length = l.length := by
    rw [← List.length_append, h.length_eq]
  intro k hk
  rw [Nat.succ_mul] at hk
  have hk0 : k * l.length = 0 := by
    by_contra hne
    have : 0 < l.length := Nat.pos_of_ne_zero fun h0 => hne (by rw [h0, Nat.mul_zero])
    have : l.length ≤ k * l.length :=
      Nat.le_mul_of_pos_left _ (Nat.pos_of_ne_zero fun h0 => hne (by rw [h0, Nat.zero_mul]))
    omega
  have hrest : rest = [] := List.length_eq_zero_iff.1 (by omega)
  rw [hk0, List.drop_zero, List.take_of_length_le (by omega)]
  rwa [hrest, List.append_nil] at h

theorem InRounds.append {round picks : List α} (hround : round.Perm l) (h : InRounds l picks) :
    InRounds l (round ++ picks) := by
  have hlen := hround.length_eq
  intro k hk
  cases k with
  | zero => rwa [Nat.zero_mul, List.drop_zero, ← hlen, List.take_left]
  | succ k =>
    rw [Nat.succ_mul, ← Nat.add_comm l.length, ← List.drop_drop, ← hlen, List.drop_left, hlen]
    refine h k ?_
    rw [List.length_append, hlen, Nat.succ_mul] at hk
    omega

/-- The walker has gone along some whole permutations, and stands at the place `pos` of the present
one, `round`; what it stands at is its last pick. -/
structure Walk (l round : List α) (pos : ℕ) (picks : List α) : Prop where
  perm : round.Perm l
  pos_lt : pos < l.length
  rounds : ∃ before : List (List α), (∀ r ∈ before, r.Perm l) ∧
    picks = before.flatten ++ round.take (pos + 1)

theorem Walk.inRounds {round picks : List α} {pos : ℕ} (h : Walk l round pos picks) :
    InRounds l picks := by
  obtain ⟨before, hbefore, rfl⟩ := h.rounds
  induction before with
  | nil =>
    have hround : (round.take (pos + 1) ++ round.drop (pos + 1)).Perm l := by
      rw [List.take_append_drop]
      exact h.perm
    exact inRounds_of_length_le hround
  | cons r before ih =>
    have htail : ∀ r ∈ before, r.Perm l := fun r hr => hbefore r (List.mem_cons_of_mem _ hr)
    rw [List.flatten_cons, List.append_assoc]
    exact (ih htail ⟨h.perm, h.pos_lt, before, htail, rfl⟩).append (hbefore r List.mem_cons_self)

theorem Walk.start {round : List α} {a : α} (h : round.Perm l) (ha : round[0]? = some a) :
    Walk l round 0 [a] := by
  obtain ⟨hlt, -⟩ := List.getElem?_eq_some_iff.1 ha
  refine ⟨h, by rwa [← h.length_eq], [], by simp, ?_⟩
  rw [List.flatten_nil, List.nil_append, List.take_add_one, ha, List.take_zero, List.nil_append,
    Option.toList_some]

/-- One place on. -/
theorem Walk.advance {round picks : List α} {pos : ℕ} {a : α} (h : Walk l round pos picks)
    (ha : round[pos + 1]? = some a) : Walk l round (pos + 1) (picks ++ [a]) := by
  obtain ⟨before, hbefore, rfl⟩ := h.rounds
  obtain ⟨hlt, -⟩ := List.getElem?_eq_some_iff.1 ha
  refine ⟨h.perm, by rwa [← h.perm.length_eq], before, hbefore, ?_⟩
  rw [List.append_assoc, List.take_add_one (i := pos + 1), ha, Option.toList_some]

/-- At the last place a new round begins. -/
theorem Walk.renew {round picks round' : List α} {pos : ℕ} {a : α} (h : Walk l round pos picks)
    (hpos : pos + 1 = l.length) (hround' : round'.Perm l) (ha : round'[0]? = some a) :
    Walk l round' 0 (picks ++ [a]) := by
  obtain ⟨before, hbefore, rfl⟩ := h.rounds
  have htake : round.take (pos + 1) = round :=
    List.take_of_length_le (Nat.le_of_eq (h.perm.length_eq.trans hpos.symm))
  refine ⟨hround', Nat.lt_of_le_of_lt (Nat.zero_le _) h.pos_lt, before ++ [round], ?_, ?_⟩
  · intro r hr
    obtain hr | hr := List.mem_append.1 hr
    · exact hbefore r hr
    · rw [List.mem_singleton.1 hr]
      exact h.perm
  · rw [htake, List.flatten_append, List.flatten_singleton, List.take_add_one, ha,
      List.take_zero, List.nil_append, Option.toList_some]

end Rounds
