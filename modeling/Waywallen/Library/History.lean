import Mathlib.Data.List.Basic
import Mathlib.Data.Nat.Notation

/-!
# Histories of concurrent calls

Each call is invoked at some time and returns at some later time. A call that has returned before
another one is invoked precedes it; calls that overlap may have taken effect in either order.
-/

universe u

namespace History

/-- A call with the times at which it is invoked and returns. -/
structure Span (α : Type u) where
  op : α
  invoked : ℕ
  returned : Option ℕ
  deriving DecidableEq

variable {α : Type u}

/-- `a` has returned before `b` is invoked. -/
def Span.Precedes (a b : Span α) : Prop :=
  ∃ time, a.returned = some time ∧ time < b.invoked

/-- No call stands before one that precedes it. -/
def Consistent (order : List (Span α)) : Prop :=
  order.Pairwise fun a b => ¬ b.Precedes a

theorem consistent_nil : Consistent ([] : List (Span α)) :=
  .nil

/-- A call that returns now may be the last one. -/
theorem Consistent.concat {order : List (Span α)} (h : Consistent order) {a : Span α} {now : ℕ}
    (ha : a.returned = some now) (horder : ∀ b ∈ order, b.invoked ≤ now) :
    Consistent (order ++ [a]) := by
  rw [Consistent, List.pairwise_append]
  refine ⟨h, List.pairwise_singleton _ _, fun b hb c hc => ?_⟩
  rintro ⟨time, htime, hlt⟩
  rw [List.mem_singleton.1 hc, ha] at htime
  cases htime
  exact Nat.not_lt.2 (horder b hb) hlt

end History
