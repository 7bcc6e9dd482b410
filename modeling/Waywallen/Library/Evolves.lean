import Mathlib.Order.Defs.Unbundled

/-!
# Computations that may fail, and what they do to the state

A computation with a state and errors keeps the state it has reached when it ends with an error.
`Evolves R E P m Q` says what every run of `m` does: it takes a state with `P` to one related by
the preorder `R`; if it returns, the result and the state satisfy `Q`, and if it does not, `E`
holds. What `R` preserves may be carried past every computation.
-/

universe u

variable {ε σ α β : Type u}

/-- The state a computation ends in, with a result or with an error. -/
def finalState (m : EStateM ε σ α) (s : σ) : σ :=
  match m s with
  | .ok _ s' => s'
  | .error _ s' => s'

theorem bind_apply (m : EStateM ε σ α) (f : α → EStateM ε σ β) (s : σ) :
    (m >>= f) s = match m s with
      | .ok a s' => f a s'
      | .error e s' => .error e s' := by
  show EStateM.bind m f s = _
  rw [EStateM.bind]
  rcases m s with ⟨a, s'⟩ | ⟨e, s'⟩ <;> rfl

theorem exists_of_bind_ok {m : EStateM ε σ α} {f : α → EStateM ε σ β} {s s'' : σ} {b : β}
    (h : (m >>= f) s = .ok b s'') : ∃ a s', m s = .ok a s' ∧ f a s' = .ok b s'' := by
  rw [bind_apply] at h
  cases hm : m s with
  | ok a s' =>
    rw [hm] at h
    exact ⟨a, s', rfl, h⟩
  | error e s' =>
    rw [hm] at h
    cases h

theorem or_of_bind_error {m : EStateM ε σ α} {f : α → EStateM ε σ β} {s s'' : σ} {e : ε}
    (h : (m >>= f) s = .error e s'') :
    m s = .error e s'' ∨ ∃ a s', m s = .ok a s' ∧ f a s' = .error e s'' := by
  rw [bind_apply] at h
  cases hm : m s with
  | ok a s' =>
    rw [hm] at h
    exact .inr ⟨a, s', rfl, h⟩
  | error e' s' =>
    rw [hm] at h
    obtain ⟨rfl, rfl⟩ := EStateM.Result.error.inj h
    exact .inl rfl

theorem tryCatch_apply (m : EStateM ε σ α) (h : ε → EStateM ε σ α) (s : σ) :
    (tryCatch m h : EStateM ε σ α) s = match m s with
      | .ok a s' => .ok a s'
      | .error e s' => h e s' := by
  show EStateM.tryCatch m h s = _
  delta EStateM.tryCatch
  rcases m s with ⟨a, s'⟩ | ⟨e, s'⟩ <;> rfl

theorem finalState_bind_pure (m : EStateM ε σ α) (f : α → β) (s : σ) :
    finalState (m >>= fun a => pure (f a)) s = finalState m s := by
  rw [finalState, finalState, bind_apply]
  rcases m s with ⟨a, s'⟩ | ⟨e, s'⟩ <;> rfl

/-- What follows a computation whose error is swallowed runs in the state it has reached. -/
theorem finalState_swallow (m : EStateM ε σ PUnit) (k : EStateM ε σ β) (s : σ) :
    finalState (do tryCatch m (fun _ => pure ⟨⟩); k) s = finalState k (finalState m s) := by
  rw [finalState, bind_apply, tryCatch_apply, finalState, finalState]
  rcases m s with ⟨a, s'⟩ | ⟨e, s'⟩ <;> rfl

def Evolves (R : σ → σ → Prop) (E : Prop) (P : σ → Prop) (m : EStateM ε σ α)
    (Q : α → σ → Prop) : Prop :=
  ∀ s, P s → match m s with
    | .ok a s' => R s s' ∧ Q a s'
    | .error _ s' => R s s' ∧ E

namespace Evolves

variable {R : σ → σ → Prop} {E : Prop} {P P' : σ → Prop} {m : EStateM ε σ α}
  {Q Q' : α → σ → Prop}

theorem mono (h : Evolves R E P m Q) (hP : ∀ s, P' s → P s) (hQ : ∀ a s, Q a s → Q' a s) :
    Evolves R E P' m Q' := by
  intro s hs
  have hrun := h s (hP s hs)
  cases hm : m s with
  | ok a s' =>
    rw [hm] at hrun
    exact ⟨hrun.1, hQ a s' hrun.2⟩
  | error e s' =>
    rw [hm] at hrun
    exact hrun

theorem relax {R' : σ → σ → Prop} {E' : Prop} (hR : ∀ s s', R s s' → R' s s') (hE : E → E')
    (h : Evolves R E P m Q) : Evolves R' E' P m Q := by
  intro s hs
  have hrun := h s hs
  cases hm : m s with
  | ok a s' =>
    rw [hm] at hrun
    exact ⟨hR s s' hrun.1, hrun.2⟩
  | error e s' =>
    rw [hm] at hrun
    exact ⟨hR s s' hrun.1, hE hrun.2⟩

/-- A property that `R` preserves may be added on both sides. -/
theorem frame {F : σ → Prop} (hF : ∀ s s', R s s' → F s → F s') (h : Evolves R E P m Q) :
    Evolves R E (fun s => P s ∧ F s) m fun a s => Q a s ∧ F s := by
  intro s hs
  have hrun := h s hs.1
  cases hm : m s with
  | ok a s' =>
    rw [hm] at hrun
    exact ⟨hrun.1, hrun.2, hF s s' hrun.1 hs.2⟩
  | error e s' =>
    rw [hm] at hrun
    exact hrun

theorem pure [Std.Refl R] {a : α} (h : ∀ s, P s → Q a s) :
    Evolves (ε := ε) R E P (Pure.pure a) Q :=
  fun s hs => ⟨Std.Refl.refl s, h s hs⟩

theorem bind [IsTrans σ R] {f : α → EStateM ε σ β} {Q' : β → σ → Prop} (h : Evolves R E P m Q)
    (hf : ∀ a, Evolves R E (Q a) (f a) Q') : Evolves R E P (m >>= f) Q' := by
  intro s hs
  have hrun := h s hs
  rw [bind_apply]
  cases hm : m s with
  | ok a s' =>
    rw [hm] at hrun
    have hnext := hf a s' hrun.2
    cases hn : f a s' with
    | ok b t =>
      simp only [hn] at hnext ⊢
      exact ⟨IsTrans.trans _ _ _ hrun.1 hnext.1, hnext.2⟩
    | error e t =>
      simp only [hn] at hnext ⊢
      exact ⟨IsTrans.trans _ _ _ hrun.1 hnext.1, hnext.2⟩
  | error e s' =>
    rw [hm] at hrun
    exact hrun

/-- A handler goes on from the state in which the error arose. -/
theorem tryCatch [IsTrans σ R] {h : ε → EStateM ε σ α} {P' : σ → Prop}
    (hm : Evolves R True P m Q) (hP : ∀ s s', R s s' → P s → P' s')
    (hh : ∀ e, Evolves R E P' (h e) Q) : Evolves R E P (MonadExcept.tryCatch m h) Q := by
  intro s hs
  have hrun := hm s hs
  rw [tryCatch_apply]
  cases hms : m s with
  | ok a s' =>
    rw [hms] at hrun
    exact hrun
  | error e s' =>
    rw [hms] at hrun
    have hnext := hh e s' (hP s s' hrun.1 hs)
    cases hn : h e s' with
    | ok b t =>
      simp only [hn] at hnext ⊢
      exact ⟨IsTrans.trans _ _ _ hrun.1 hnext.1, hnext.2⟩
    | error e t =>
      simp only [hn] at hnext ⊢
      exact ⟨IsTrans.trans _ _ _ hrun.1 hnext.1, hnext.2⟩

/-- No error arises for the handler. -/
theorem tryCatch_of_returns {h : ε → EStateM ε σ α} (hm : Evolves R False P m Q) :
    Evolves R False P (MonadExcept.tryCatch m h) Q := by
  intro s hs
  have hrun := hm s hs
  rw [tryCatch_apply]
  cases hms : m s with
  | ok a s' =>
    rw [hms] at hrun
    exact hrun
  | error e s' =>
    rw [hms] at hrun
    exact hrun.2.elim

/-- A computation in sequence with another ends in its error or goes on from its result. -/
theorem finalState_bind {f : α → EStateM ε σ β} {s : σ} (h : Evolves R E P m Q) (hs : P s) :
    R s (finalState (m >>= f) s) ∧ E ∨
      ∃ a s', finalState (m >>= f) s = finalState (f a) s' ∧ R s s' ∧ Q a s' := by
  have hrun := h s hs
  simp only [finalState, bind_apply]
  cases hm : m s with
  | ok a s' =>
    rw [hm] at hrun
    exact .inr ⟨a, s', rfl, hrun⟩
  | error e s' =>
    rw [hm] at hrun
    exact .inl hrun

end Evolves
