import Waywallen.Daemon.Handles

/-!
# The debounce of window-state reports

A report that wants a pause takes effect at once; one that no longer does arms a timer, and the
display goes on requesting a pause until that timer fires. Timers are not disarmed: a timer that
has become stale is told by the transition counter it carries.
-/

namespace Waywallen

open TaskPool

/-! ## One machine and its timers -/

namespace Autopause

/-- A machine after `k` transitions while `pending g` timers armed with counter `g` have yet to
fire. -/
structure Debounced (a : State) (pending : UInt64 → ℕ) (k : ℕ) : Prop where
  gen_eq : a.gen = UInt64.ofNat k
  armed : ∀ g, 0 < pending g → ∃ j ≤ k, g = UInt64.ofNat j
  requested : a.rawWantPause = true → a.requested = true
  current : pending a.gen = if a.requested && !a.rawWantPause then 1 else 0

theorem ofNat_inj {j k : ℕ} (hj : j < 2 ^ 64) (hk : k < 2 ^ 64)
    (h : UInt64.ofNat j = UInt64.ofNat k) : j = k := by
  have h := congrArg UInt64.toNat h
  rwa [UInt64.toNat_ofNat_of_lt' hj, UInt64.toNat_ofNat_of_lt' hk] at h

theorem debounced_new : Debounced .new (fun _ => 0) 0 :=
  ⟨rfl, fun _ h => absurd h (lt_irrefl 0), nofun, rfl⟩

variable {a : State} {pending : UInt64 → ℕ} {k : ℕ}

/-- No timer is ahead of the machine. -/
theorem Debounced.pending_next (h : Debounced a pending k) (hk : k + 1 < 2 ^ 64) :
    pending (a.gen + 1) = 0 := by
  by_contra hne
  obtain ⟨j, hj, hg⟩ := h.armed _ (Nat.pos_of_ne_zero hne)
  rw [h.gen_eq, ← UInt64.ofNat_one, ← UInt64.ofNat_add] at hg
  have := ofNat_inj hk (by omega) hg
  omega

/-- A transition bumps the counter past every timer armed so far. -/
theorem Debounced.armed_next (h : Debounced a pending k) {b : State} (hb : b.gen = a.gen + 1)
    (n : UInt64 → ℕ) (hn : ∀ g, 0 < n g → g = b.gen) :
    b.gen = UInt64.ofNat (k + 1) ∧
      ∀ g, 0 < pending g + n g → ∃ j ≤ k + 1, g = UInt64.ofNat j := by
  have hgen : b.gen = UInt64.ofNat (k + 1) := by
    rw [hb, h.gen_eq, UInt64.ofNat_add, UInt64.ofNat_one]
  refine ⟨hgen, fun g hg => ?_⟩
  by_cases hp : 0 < pending g
  · obtain ⟨j, hj, rfl⟩ := h.armed g hp
    exact ⟨j, by omega, rfl⟩
  · exact ⟨k + 1, le_rfl, (hn g (by omega)).trans hgen⟩

/-- The machine after a report: a timer is armed exactly when the report is to resume. -/
theorem Debounced.report (h : Debounced a pending k) (mode : AutopauseMode) (flags : UInt32)
    (hk : k + (if a.gen = (a.report mode flags).1.gen then 0 else 1) < 2 ^ 64) :
    Debounced (a.report mode flags).1
      (fun g => pending g + if (a.report mode flags).2 = .scheduleResume g then 1 else 0)
      (k + if a.gen = (a.report mode flags).1.gen then 0 else 1) := by
  have hne : a.gen ≠ a.gen + 1 := fun h => by simpa using h.symm
  unfold State.report at hk ⊢
  dsimp only at hk ⊢
  split
  · simpa using ⟨h.gen_eq, h.armed, h.requested, h.current⟩
  · rename_i hflags
    rw [if_neg hflags] at hk
    split
    · rename_i hraw
      rw [if_pos hraw] at hk
      have hact (g : UInt64) :
          (if a.requested = true then Action.noop else .reconcile) ≠ .scheduleResume g := by
        split <;> nofun
      simp only [hact, hne, if_false] at hk ⊢
      obtain ⟨hgen, harm⟩ := h.armed_next (b := ⟨flags, true, true, a.gen + 1⟩) rfl (fun _ => 0)
        (by simp)
      exact ⟨hgen, harm, fun _ => rfl, h.pending_next hk⟩
    · rename_i hraw
      rw [if_neg hraw] at hk
      split
      · rename_i hreq
        simp only [hreq, if_true, hne, if_false] at hk
        obtain ⟨hgen, harm⟩ := h.armed_next (b := ⟨flags, false, true, a.gen + 1⟩) rfl
          (fun g => if a.gen + 1 = g then 1 else 0) (by grind)
        simp only [Action.scheduleResume.injEq]
        refine ⟨hgen, harm, nofun, ?_⟩
        simp [h.pending_next hk, hreq]
      · rename_i hreq
        have hrawA : a.rawWantPause = false := by
          by_contra hc
          exact hreq (h.requested (by simpa using hc))
        have hc := h.current
        simp only [hreq, hrawA] at hc
        exact ⟨by simpa using h.gen_eq, by simpa using h.armed, nofun, by simpa [hreq] using hc⟩

/-- The machine after one of its timers fired. -/
theorem Debounced.resume (h : Debounced a pending k) {g : UInt64} (hg : 0 < pending g) :
    Debounced (a.resume g).1 (fun f => pending f - if f = g then 1 else 0) k := by
  have hc := h.current
  have hle (f : UInt64) : 0 < pending f - (if f = g then 1 else 0) → 0 < pending f := by omega
  unfold State.resume
  split
  · rename_i hstale
    refine ⟨h.gen_eq, fun f hf => h.armed f (hle f hf), h.requested, ?_⟩
    dsimp only
    by_cases hag : a.gen = g
    · have hraw : a.rawWantPause = true := by simpa [hag] using hstale
      rw [hag] at hc
      simp [hraw] at hc
      omega
    · simp [hag, hc]
  · rename_i hcur
    obtain ⟨hag, hraw⟩ : a.gen = g ∧ a.rawWantPause = false := by simpa using hcur
    subst hag
    refine ⟨h.gen_eq, fun f hf => h.armed f (hle f hf), fun hr => absurd hr (by simp [hraw]), ?_⟩
    have : pending a.gen ≤ 1 := by rw [hc]; split <;> omega
    simp
    omega

/-- A stale timer changes nothing. -/
theorem State.resume_of_ne {g : UInt64} (h : a.gen ≠ g) : a.resume g = (a, false) := by
  simp [State.resume, h]

end Autopause

/-! ## The daemon's timers -/

/-- The body of a timer of display `d` that carries `g`. -/
def Call.isResume (d : DisplayId) (g : UInt64) : Call → Bool
  | router (.resumeAutopause e f) => e == d && f == g
  | _ => false

/-- In state `s` the call arms a timer of display `d` that carries `g`. -/
def Call.arms (s : Daemon) (d : DisplayId) (g : UInt64) : Call → Bool
  | router (.updateDisplayWindowState e flags) =>
      e == d && (s.inner.updateDisplayWindowState s.settings e flags).2 == .scheduleResume g
  | _ => false

/-- How many timers of display `d` that carry `g` have yet to fire. -/
def pendingResumes (p : DaemonPool) (d : DisplayId) (g : UInt64) : ℕ :=
  (calls p.tasks).countP (Call.isResume d g)

theorem Call.resumes_of_isResume {d : DisplayId} {g : UInt64} {c : Call}
    (h : c.isResume d g = true) : c.resumes = true := by
  cases c with
  | router c => cases c <;> simp_all [isResume, resumes]
  | _ => simp [isResume] at h

/-- Every registered display's machine agrees with the timers pending for it. -/
structure Debounces (p : DaemonPool) : Prop where
  le_next : ∀ d a, p.shared.inner.autopauseOf d = some a → d ≤ p.shared.inner.nextDisplayId
  fresh : ∀ d, p.shared.inner.nextDisplayId < d →
    p.shared.history.transitions d = 0 ∧ ∀ g, pendingResumes p d g = 0
  machine : ∀ d a, p.shared.inner.autopauseOf d = some a →
    p.shared.history.transitions d < 2 ^ 64 →
    Autopause.Debounced a (pendingResumes p d) (p.shared.history.transitions d)

section Run

variable {p : DaemonPool} {i : ℕ} {x : Choice} {t : DaemonTask} {c : Call} {rest : List Call}
  {o : Step} {d : DisplayId} {g : UInt64}

theorem countP_spawn {fresh : ℕ} {s : Daemon} (h : c.exec x fresh s = some o) :
    (calls o.spawn).countP (Call.isResume d g) = if c.arms s d g then 1 else 0 := by
  cases c with
  | router c =>
    cases c with
    | updateDisplayWindowState e flags =>
      simp only [Call.exec, RouterCall.exec, Daemon.done, Daemon.andThen] at h
      split at h <;> rename_i hact <;> cases h <;>
        simp [Call.arms, Call.isResume, hact, List.countP_cons]
    | _ =>
      obtain hs | ⟨t, hs, ht⟩ := Call.spawns h
      · simp [hs, Call.arms]
      · cases ht <;> simp [hs, Call.arms, Call.isResume]
  | manager c => simp [ManagerCall.spawn_eq_nil h, Call.arms]
  | reader c => simp [ReaderCall.spawn_eq_nil h, Call.arms]
  | endpoint c => simp [EndpointCall.spawn_eq_nil h, Call.arms]
  | apply c =>
    obtain hs | ⟨t, hs, ht⟩ := Call.spawns h
    · simp [hs, Call.arms]
    · cases ht
      simp [hs, Call.arms, Call.isResume]

/-- The timers after a call: the one that ran is gone, and a report may have armed one. -/
theorem pendingResumes_resume (ht : p.tasks[i]? = some t) (hc : t.stack = c :: rest)
    (ho : semantics.exec x p.tasks.length c p.shared = some o) :
    pendingResumes (p.resume i t rest o) d g + (if c.isResume d g then 1 else 0) =
      pendingResumes p d g + if c.arms p.shared d g then 1 else 0 := by
  have h := countP_calls_resume ht hc o (Call.isResume d g)
  have hnext : o.next.countP (Call.isResume d g) = 0 := by
    refine List.countP_eq_zero.2 fun k hk hr => ?_
    have := (Call.continues ho hk).resumes
    simp [Call.resumes_of_isResume hr] at this
  rwa [hnext, countP_spawn ho, Nat.add_zero] at h

/-- What the invariant depends on. -/
theorem Debounces.congr {p' : DaemonPool} (hp : Debounces p)
    (ha : ∀ d a, p'.shared.inner.autopauseOf d = some a → p.shared.inner.autopauseOf d = some a)
    (hn : p'.shared.inner.nextDisplayId = p.shared.inner.nextDisplayId)
    (ht : p'.shared.history.transitions = p.shared.history.transitions)
    (hr : ∀ d g, pendingResumes p' d g = pendingResumes p d g) : Debounces p' where
  le_next d a h := hn ▸ hp.le_next d a (ha d a h)
  fresh d h := by
    rw [ht]
    exact (hp.fresh d (hn ▸ h)).imp_right fun h g => (hr d g).trans (h g)
  machine d a h hk := by
    rw [ht] at hk ⊢
    rw [funext (hr d)]
    exact hp.machine d a (ha d a h) hk

theorem Debounces.resume (hp : Debounces p) (ht : p.tasks[i]? = some t)
    (hc : t.stack = c :: rest) (ho : semantics.exec x p.tasks.length c p.shared = some o) :
    Debounces (p.resume i t rest o) := by
  have hinner : (p.resume i t rest o).shared.inner = c.innerAfter p.shared := Call.inner_exec ho
  have htrans : (p.resume i t rest o).shared.history.transitions = c.transitionsAfter p.shared :=
    congrArg History.transitions (Call.history_exec ho)
  have hpend (d g) := pendingResumes_resume (d := d) (g := g) ht hc ho
  cases c with
  | router c =>
    have hauto (d) : (p.resume i t rest o).shared.inner.autopauseOf d = _ :=
      (congrArg (·.autopauseOf d) hinner).trans (RouterCall.autopauseOf_innerAfter c d)
    have hnext : (p.resume i t rest o).shared.inner.nextDisplayId = _ :=
      (congrArg Inner.nextDisplayId hinner).trans (RouterCall.frame p.shared c).nextDisplayId
    cases c with
    | registerDisplay reg b =>
      have hpend (d g) : pendingResumes (p.resume i t rest o) d g = pendingResumes p d g := by
        simpa [Call.isResume, Call.arms] using hpend d g
      simp only [RouterCall.nextDisplayIdAfter, Call.transitionsAfter] at hauto hnext htrans
      constructor
      · intro d a ha
        rw [hauto] at ha
        rw [hnext]
        split at ha
        · rename_i hd
          exact hd.le
        · exact (hp.le_next d a ha).trans (Nat.le_succ _)
      · intro d hd
        rw [hnext] at hd
        rw [htrans]
        exact (hp.fresh d (by omega)).imp_right fun h g => (hpend d g).trans (h g)
      · intro d a ha hk
        rw [hauto] at ha
        rw [htrans] at hk ⊢
        rw [funext (hpend d)]
        split at ha
        · rename_i hd
          obtain ⟨hz, hg⟩ := hp.fresh d (hd ▸ Nat.lt_succ_self _)
          rw [hz, funext hg, ← Option.some_inj.1 ha]
          exact Autopause.debounced_new
        · exact hp.machine d a ha hk
    | unregisterDisplay e =>
      refine hp.congr (fun d a h => ?_) hnext htrans fun d g => ?_
      · rw [hauto] at h
        simp only at h
        split at h
        · cases h
        · exact h
      · simpa [Call.isResume, Call.arms] using hpend d g
    | updateDisplayWindowState e flags =>
      have hpend (d g) : pendingResumes (p.resume i t rest o) d g = pendingResumes p d g +
          if e = d ∧ (p.shared.inner.updateDisplayWindowState p.shared.settings e flags).2 =
            .scheduleResume g then 1 else 0 := by
        simpa [Call.isResume, Call.arms] using hpend d g
      simp only [RouterCall.nextDisplayIdAfter, Call.transitionsAfter] at hauto hnext htrans
      cases he : p.shared.inner.displays.lookup e with
      | none =>
        have hnone : p.shared.inner.autopauseOf e = none := by rw [Inner.autopauseOf, he]; rfl
        have hsame : p.shared.inner.updateDisplayWindowState p.shared.settings e flags =
            (p.shared.inner, .noop) := by
          simp only [Inner.updateDisplayWindowState, he]
        refine hp.congr (fun d a h => ?_) hnext ?_ fun d g => by simpa [hsame] using hpend d g
        · rw [hauto, he] at h
          split at h
          · cases h
          · exact h
        · rw [htrans, hsame, if_pos rfl, Nat.add_zero, Function.update_eq_self]
      | some st =>
        have hold : p.shared.inner.autopauseOf e = some st.autopause := by
          rw [Inner.autopauseOf, he]
          rfl
        have hact : (p.shared.inner.updateDisplayWindowState p.shared.settings e flags).2 = _ :=
          Inner.updateDisplayWindowState_snd he flags
        have hgen := Inner.autopauseOf_updateDisplayWindowState p.shared.settings p.shared.inner
          e e flags
        rw [if_pos rfl, he, Option.map_some] at hgen
        rw [hact] at hpend
        simp only [Inner.autopauseGen_eq, hold, hgen, Option.map_some, Option.some_inj] at htrans
        constructor
        · intro d a ha
          rw [hauto] at ha
          rw [hnext]
          split at ha
          · rename_i hd
            exact hd ▸ hp.le_next e _ hold
          · exact hp.le_next d a ha
        · intro d hd
          rw [hnext] at hd
          have hed : e ≠ d := fun h => absurd (hp.le_next e _ hold) (by rw [h]; exact hd.not_ge)
          rw [htrans, Function.update_of_ne fun h => hed h.symm]
          exact (hp.fresh d hd).imp_right fun h g => by simp [hpend, h, hed]
        · intro d a ha hk
          rw [hauto] at ha
          rw [htrans] at hk ⊢
          rw [funext (hpend d)]
          split at ha
          · rename_i hd
            subst hd
            rw [he, Option.map_some, Option.some_inj] at ha
            subst ha
            rw [Function.update_self] at hk ⊢
            have hk' : p.shared.history.transitions d < 2 ^ 64 := by omega
            simpa using (hp.machine d _ hold hk').report _ flags hk
          · rename_i hd
            have hed : e ≠ d := fun h => hd h.symm
            rw [Function.update_of_ne hd] at hk ⊢
            simpa [hed] using hp.machine d a ha hk
    | resumeAutopause e g =>
      have hpend (d f) : pendingResumes (p.resume i t rest o) d f =
          pendingResumes p d f - if e = d ∧ g = f then 1 else 0 := by
        have := hpend d f
        simp only [Call.isResume, Call.arms, Bool.and_eq_true, beq_iff_eq] at this
        exact Nat.eq_sub_of_add_eq (by simpa using this)
      simp only [RouterCall.nextDisplayIdAfter, Call.transitionsAfter] at hauto hnext htrans
      constructor
      · intro d a ha
        rw [hauto] at ha
        rw [hnext]
        split at ha
        · rename_i hd
          obtain ⟨b, hb, -⟩ := Option.map_eq_some_iff.1 ha
          exact hd ▸ hp.le_next e b hb
        · exact hp.le_next d a ha
      · intro d hd
        rw [hnext] at hd
        rw [htrans]
        exact (hp.fresh d hd).imp_right fun h f => by rw [hpend, h, Nat.zero_sub]
      · intro d a ha hk
        rw [hauto] at ha
        rw [htrans] at hk ⊢
        rw [funext (hpend d)]
        split at ha
        · rename_i hd
          subst hd
          obtain ⟨b, hb, rfl⟩ := Option.map_eq_some_iff.1 ha
          have hg : 0 < pendingResumes p d g := List.countP_pos_iff.2
            ⟨_, mem_calls.2 ⟨t, List.mem_of_getElem? ht, hc ▸ List.mem_cons_self ..⟩,
              by simp [Call.isResume]⟩
          simpa [eq_comm] using (hp.machine d b hb hk).resume hg
        · rename_i hd
          have hd : e ≠ d := fun h => hd h.symm
          simpa [hd] using hp.machine d a ha hk
    | _ =>
      refine hp.congr (fun d a h => ?_) hnext htrans fun d g => ?_
      · rwa [hauto] at h
      · simpa [Call.isResume, Call.arms] using hpend d g
  | _ =>
    refine hp.congr (fun d a h => ?_) (congrArg Inner.nextDisplayId hinner) htrans fun d g => ?_
    · rwa [hinner] at h
    · simpa [Call.isResume, Call.arms] using hpend d g

/-- A timer is never dropped. -/
theorem Debounces.drop (hp : Debounces p) (hs : HandlesSafe p) (ht : p.tasks[i]? = some t)
    (hd : t.aborted = true ∨ t.cancellable = true) : Debounces (p.replace i t.drop) := by
  refine hp.congr (fun _ _ h => h) rfl rfl fun d g => ?_
  have hzero : t.stack.countP (Call.isResume d g) = 0 := by
    refine List.countP_eq_zero.2 fun k hk hr => ?_
    have h := hs.kept t (List.mem_of_getElem? ht) ⟨k, hk, Call.resumes_of_isResume hr⟩
    simp [h] at hd
  have h := countP_calls_drop ht (Call.isResume d g)
  rwa [hzero] at h

end Run

theorem Debounces.start {p : DaemonPool} (hp : Debounces p) {q : Request} {s : Daemon}
    {t : DaemonTask} (h : q.accept p.shared = some (s, t)) : Debounces ⟨s, p.tasks ++ [t]⟩ := by
  have hinner := Request.inner_accept h
  refine hp.congr (fun d a ha => hinner ▸ ha) (congrArg Inner.nextDisplayId hinner) ?_
    fun d g => ?_
  · obtain rfl | ⟨r, -, rfl⟩ := Request.accept_shared h <;> rfl
  · have hzero : t.stack.countP (Call.isResume d g) = 0 := by
      refine List.countP_eq_zero.2 fun k hk hr => ?_
      have := (Call.resumes_of_isRequested ((Request.isRequested_accept h).2 k hk)).1
      simp [Call.resumes_of_isResume hr] at this
    simp [pendingResumes, hzero]

theorem Debounces.env {p : DaemonPool} (hp : Debounces p) (e : Environment) :
    Debounces { p with shared := e.act p.shared } := by
  cases e with
  | promoteDisplay e =>
    refine hp.congr (fun d a h => ?_) rfl rfl fun _ _ => rfl
    simpa [Environment.act, Daemon.withInner, Inner.autopauseOf] using h
  | _ => exact hp.congr (fun _ _ h => h) rfl rfl fun _ _ => rfl

theorem Debounces.step {p p' : DaemonPool} {l : DaemonLabel} (hp : HandlesSafe p ∧ Debounces p)
    (h : semantics.step p l = some p') : HandlesSafe p' ∧ Debounces p' := by
  refine ⟨hp.1.step h, ?_⟩
  refine Semantics.preserves (I := fun p => Debounces p) (C := fun p _ => HandlesSafe p)
    ?_ ?_ ?_ ?_ ?_ p l p' hp.2 hp.1 h
  · exact fun p i x t c rest o hp _ ht _ hc ho => hp.resume ht hc ho
  · exact fun p i t hp _ ht _ => hp.congr (fun _ _ h => h) rfl rfl fun d g => by
      rw [pendingResumes, calls_wake ht, pendingResumes]
  · exact fun p i t hp hs ht hd => hp.drop hs ht hd
  · exact fun p q s t hp _ h => hp.start h
  · intro p e s hp _ he
    cases he
    exact hp.env e

theorem debounces_start (registry : HashMap String (List String)) :
    Debounces (Waywallen.start registry) := by
  have h (d g) : pendingResumes (Waywallen.start registry) d g = 0 := by
    simp [pendingResumes, Waywallen.start, Call.isResume]
  exact ⟨fun d a ha => (by cases ha), fun d _ => ⟨rfl, h d⟩, fun d a ha => (by cases ha)⟩

theorem debounces_of_run {registry : HashMap String (List String)} {ls : List DaemonLabel}
    {p : DaemonPool} (h : Run registry ls p) : HandlesSafe p ∧ Debounces p :=
  Transition.invariant (fun _ _ _ hp hs => Debounces.step hp hs)
    ⟨handlesSafe_start registry, debounces_start registry⟩ h

/-! ## Firing the timers -/

/-- The step is not a window-state report of display `d`. -/
def NoReport (d : DisplayId) (p : DaemonPool) (l : DaemonLabel) : Prop :=
  ∀ flags, p.executed l ≠ some (.router (.updateDisplayWindowState d flags))

/-- A timer ends its sleep, or a resume timer of display `d` runs its body. -/
def FiresTimer (d : DisplayId) (p : DaemonPool) (l : DaemonLabel) : Prop :=
  (∃ i, l = .wake i) ∨ ∃ g, p.executed l = some (.router (.resumeAutopause d g))

/-- Without a report the raw signal of a display does not rise, and no transition is counted. -/
structure Unwanted (d : DisplayId) (k : ℕ) (p : DaemonPool) : Prop where
  transitions : p.shared.history.transitions d = k
  raw : ∀ a, p.shared.inner.autopauseOf d = some a → a.rawWantPause = false

section Run

variable {p : DaemonPool} {d : DisplayId} {k : ℕ}

theorem Unwanted.resume (hp : Unwanted d k p) {i : ℕ} {x : Choice} {t : DaemonTask} {c : Call}
    {rest : List Call} {o : Step} (hn : NoReport d p (.run i x)) (ht : p.tasks[i]? = some t)
    (hc : t.stack = c :: rest) (ho : semantics.exec x p.tasks.length c p.shared = some o) :
    Unwanted d k (p.resume i t rest o) := by
  have hinner : (p.resume i t rest o).shared.inner = c.innerAfter p.shared := Call.inner_exec ho
  have htrans : (p.resume i t rest o).shared.history.transitions = c.transitionsAfter p.shared :=
    congrArg History.transitions (Call.history_exec ho)
  cases c with
  | router c =>
    have hauto : (p.resume i t rest o).shared.inner.autopauseOf d = _ :=
      (congrArg (·.autopauseOf d) hinner).trans (RouterCall.autopauseOf_innerAfter c d)
    cases c with
    | registerDisplay reg b =>
      refine ⟨htrans ▸ hp.transitions, fun a ha => ?_⟩
      rw [hauto] at ha
      simp only at ha
      split at ha
      · cases ha
        rfl
      · exact hp.raw a ha
    | unregisterDisplay e =>
      refine ⟨htrans ▸ hp.transitions, fun a ha => ?_⟩
      rw [hauto] at ha
      simp only at ha
      split at ha
      · cases ha
      · exact hp.raw a ha
    | updateDisplayWindowState e flags =>
      have hde : d ≠ e := by
        rintro rfl
        exact hn flags (Pool.executed_run ht hc)
      simp only [hde, if_false] at hauto
      refine ⟨?_, fun a ha => hp.raw a (hauto ▸ ha)⟩
      rw [htrans]
      simpa [Call.transitionsAfter, Function.update_of_ne hde] using hp.transitions
    | resumeAutopause e g =>
      refine ⟨htrans ▸ hp.transitions, fun a ha => ?_⟩
      rw [hauto] at ha
      simp only at ha
      split at ha
      · rename_i hde
        subst hde
        obtain ⟨b, hb, rfl⟩ := Option.map_eq_some_iff.1 ha
        have hraw := hp.raw b hb
        unfold Autopause.State.resume
        split <;> exact hraw
      · exact hp.raw a ha
    | _ => exact ⟨htrans ▸ hp.transitions, fun a ha => hp.raw a (hauto.symm.trans ha)⟩
  | _ =>
    exact ⟨(congrFun htrans d).trans hp.transitions,
      fun a ha => hp.raw a ((congrArg (·.autopauseOf d) hinner) ▸ ha)⟩

theorem Unwanted.step {p' : DaemonPool} {l : DaemonLabel} (hp : Unwanted d k p)
    (hn : NoReport d p l) (h : semantics.step p l = some p') : Unwanted d k p' := by
  refine Semantics.preserves (C := NoReport d) ?_ ?_ ?_ ?_ ?_ p l p' hp hn h
  · exact fun p i x t c rest o hp hn ht _ hc ho => hp.resume hn ht hc ho
  · exact fun p i t hp _ _ _ => ⟨hp.transitions, hp.raw⟩
  · exact fun p i t hp _ _ _ => ⟨hp.transitions, hp.raw⟩
  · intro p q s t hp _ hq
    refine ⟨?_, fun a ha => hp.raw a (Request.inner_accept hq ▸ ha)⟩
    obtain rfl | ⟨r, -, rfl⟩ := Request.accept_shared hq <;> exact hp.transitions
  · intro p e s hp _ he
    cases he
    cases e with
    | promoteDisplay e =>
      refine ⟨hp.transitions, fun a ha => hp.raw a ?_⟩
      simpa [Environment.act, Daemon.withInner, Inner.autopauseOf] using ha
    | _ => exact ⟨hp.transitions, hp.raw⟩

/-- A timer of display `d`. -/
def Call.isTimer (d : DisplayId) : Call → Bool
  | router (.resumeAutopause e _) => e == d
  | _ => false

theorem pendingResumes_eq_zero (h : (calls p.tasks).countP (Call.isTimer d) = 0) (g : UInt64) :
    pendingResumes p d g = 0 := by
  refine List.countP_eq_zero.2 fun c hc hr => List.countP_eq_zero.1 h c hc ?_
  cases c with
  | router c => cases c <;> simp_all [Call.isResume, Call.isTimer]
  | _ => simp [Call.isResume] at hr

/-- A timer that is awake can run, and is then gone. -/
theorem exists_fire {i : ℕ} {t : DaemonTask} {g : UInt64} (ht : p.tasks[i]? = some t)
    (ha : t.asleep = false) (hc : t.stack = [.router (.resumeAutopause d g)]) :
    ∃ q, semantics.step p (.run i .tick) = some q ∧
      (calls q.tasks).countP (Call.isTimer d) + 1 = (calls p.tasks).countP (Call.isTimer d) := by
  let out := p.shared.inner.resumeAutopause d g
  let o : Step := {
    shared := p.shared.withInner out.1
    next := onlyIf out.2 [.router .reconcileLifecycle] }
  refine ⟨p.resume i t [] o, Semantics.step_run_eq_some.2 ⟨t, _, [], o, ht, ha, hc, rfl, rfl⟩, ?_⟩
  have h := countP_calls_resume ht hc o (Call.isTimer d)
  have hnext : o.next.countP (Call.isTimer d) = 0 := by
    refine List.countP_eq_zero.2 fun k hk => ?_
    obtain ⟨-, hk⟩ := mem_onlyIf.1 hk
    obtain rfl := List.mem_singleton.1 hk
    nofun
  simpa [hnext, o, Call.isTimer] using h

/-- All timers of a display can fire. -/
theorem exists_fire_all (n : ℕ) {p : DaemonPool} (hp : HandlesSafe p)
    (hn : (calls p.tasks).countP (Call.isTimer d) = n) :
    ∃ ms q, Transition.run semantics.step p ms = some q ∧
      Transition.Along semantics.step (FiresTimer d) p ms ∧ ∀ g, pendingResumes q d g = 0 := by
  induction n generalizing p with
  | zero => exact ⟨[], p, rfl, trivial, pendingResumes_eq_zero hn⟩
  | succ n ih =>
    -- a pending timer is all its task has to do
    have hpos : 0 < (calls p.tasks).countP (Call.isTimer d) := by omega
    obtain ⟨c, hmem, hc⟩ := List.countP_pos_iff.1 hpos
    obtain ⟨t, htm, hct⟩ := mem_calls.1 hmem
    obtain ⟨i, ht⟩ := List.mem_iff_getElem?.1 htm
    obtain ⟨g, rfl⟩ : ∃ g, c = .router (.resumeAutopause d g) := by
      cases c with
      | router c => cases c <;> simp_all [Call.isTimer]
      | _ => simp [Call.isTimer] at hc
    have hstack : t.stack = [.router (.resumeAutopause d g)] := by
      obtain ⟨k, hk⟩ := List.length_eq_one_iff.1 (hp.alone t htm ⟨_, hct, rfl⟩)
      rw [hk, List.mem_singleton] at hct
      rw [hk, hct]
    have hfire (p : DaemonPool) (u : DaemonTask) (hu : p.tasks[i]? = some u)
        (hus : u.stack = t.stack) : FiresTimer d p (.run i .tick) :=
      .inr ⟨g, Pool.executed_run hu (hus.trans hstack)⟩
    cases ha : t.asleep with
    | false =>
      obtain ⟨q, hq, hcount⟩ := exists_fire ht ha hstack
      obtain ⟨ms, r, hr, hms, hz⟩ := ih (hp.step hq) (by omega)
      refine ⟨.run i .tick :: ms, r, (Transition.run_cons_eq_some _).2 ⟨q, hq, hr⟩, ?_, hz⟩
      refine Transition.along_cons.2 ⟨hfire p t ht rfl, fun q' hq' => ?_⟩
      rwa [Option.some_inj.1 (hq'.symm.trans hq)]
    | true =>
      have hw : semantics.step p (.wake i) = some (p.replace i t.wake) :=
        Semantics.step_wake_eq_some.2 ⟨t, ht, ha, rfl⟩
      have htw : (p.replace i t.wake).tasks[i]? = some t.wake := by
        rw [getElem?_replace ht, if_pos rfl]
      obtain ⟨q, hq, hcount⟩ := exists_fire htw rfl hstack
      rw [calls_wake ht] at hcount
      obtain ⟨ms, r, hr, hms, hz⟩ := ih ((hp.step hw).step hq) (by omega)
      refine ⟨.wake i :: .run i .tick :: ms, r, (Transition.run_cons_eq_some _).2
        ⟨_, hw, (Transition.run_cons_eq_some _).2 ⟨q, hq, hr⟩⟩, ?_, hz⟩
      refine Transition.along_cons.2 ⟨.inl ⟨i, rfl⟩, fun p' hp' => ?_⟩
      obtain rfl := Option.some_inj.1 (hp'.symm.trans hw)
      refine Transition.along_cons.2 ⟨hfire _ _ htw rfl, fun q' hq' => ?_⟩
      rwa [Option.some_inj.1 (hq'.symm.trans hq)]

/-- A timer that carries another counter than its display's machine changes nothing. -/
theorem step_stale_timer {i : ℕ} {x : Choice} {t : DaemonTask} {g : UInt64} {rest : List Call}
    (ht : p.tasks[i]? = some t) (hc : t.stack = .router (.resumeAutopause d g) :: rest)
    {a : Autopause.State} (ha : p.shared.inner.autopauseOf d = some a) (hg : g ≠ a.gen)
    {q : DaemonPool} (h : semantics.step p (.run i x) = some q) :
    q = p.replace i { t with stack := rest } := by
  obtain ⟨t', c, rest', o, ht', -, hc', ho, rfl⟩ := Semantics.step_run_eq_some.1 h
  obtain rfl := Option.some_inj.1 (ht.symm.trans ht')
  obtain ⟨rfl, rfl⟩ := List.cons_eq_cons.1 (hc.symm.trans hc')
  obtain ⟨s, hs, rfl⟩ := Option.map_eq_some_iff.1 ha
  have hsame : p.shared.inner.resumeAutopause d g = (p.shared.inner, false) := by
    simp only [Inner.resumeAutopause, hs, Autopause.State.resume_of_ne fun h => hg h.symm,
      Inner.modifyDisplay]
    rw [HashMap.modify_eq_self fun v hv => ?_]
    rw [Option.some_inj.1 (hv.symm.trans hs)]
  simp only [semantics, Call.exec, RouterCall.exec, Daemon.andThen, hsame] at ho
  cases ho
  simp [Pool.resume, Pool.replace, onlyIf, abortAll, Daemon.withInner]

end Run

/-- The debounce: a display that wants a pause requests it; one that goes on requesting it has
exactly one current timer, so once its timers have fired, which they can, it no longer does,
unless it reports again; and a stale timer changes nothing. -/
theorem autopause_debounced {registry : HashMap String (List String)} {ls : List DaemonLabel}
    {p : DaemonPool} (hrun : Run registry ls p) {d : DisplayId} {a : Autopause.State}
    (ha : p.shared.inner.autopauseOf d = some a)
    (hk : p.shared.history.transitions d < 2 ^ 64) :
    (a.rawWantPause = true → a.requested = true) ∧
    (a.requested = true → a.rawWantPause = false → pendingResumes p d a.gen = 1) ∧
    (a.rawWantPause = false → ∀ ms q, Transition.run semantics.step p ms = some q →
      Transition.Along semantics.step (NoReport d) p ms → (∀ g, pendingResumes q d g = 0) →
      ∀ b, q.shared.inner.autopauseOf d = some b → b.requested = false) ∧
    (∃ ms q, Transition.run semantics.step p ms = some q ∧
      Transition.Along semantics.step (FiresTimer d) p ms ∧ ∀ g, pendingResumes q d g = 0) ∧
    (∀ i x t g rest q, p.tasks[i]? = some t →
      t.stack = .router (.resumeAutopause d g) :: rest → g ≠ a.gen →
      semantics.step p (.run i x) = some q → q = p.replace i { t with stack := rest }) := by
  obtain ⟨hsafe, hdeb⟩ := debounces_of_run hrun
  have hm := hdeb.machine d a ha hk
  refine ⟨hm.requested, fun hreq hraw => ?_, fun hraw ms q hq hms hz b hb => ?_,
    exists_fire_all _ hsafe rfl, fun i x t g rest q ht hc hg h => step_stale_timer ht hc ha hg h⟩
  · rw [hm.current, hreq, hraw]
    rfl
  · have hun : Unwanted d _ q := Transition.invariant_of_run (fun _ _ _ hp hC h => hp.step hC h)
      ⟨rfl, fun b hb => Option.some_inj.1 (ha.symm.trans hb) ▸ hraw⟩ hms hq
    have hdebq := (Transition.invariant (fun _ _ _ hp hs => Debounces.step hp hs)
      ⟨hsafe, hdeb⟩ hq).2
    have hcur := (hdebq.machine d b hb (hun.transitions ▸ hk)).current
    rw [hz, hun.raw b hb] at hcur
    by_contra hreq
    simp [Bool.eq_true_of_not_eq_false hreq] at hcur

/-- A window comes up on a display and goes away again. -/
def flap : List DaemonLabel :=
  [.env (.settings { (default : Settings) with autopause := ⟨.any, 500, true, true⟩ }),
    .start (.router (.registerDisplay ⟨"A", none, 1920, 1080, 60, ⟨0, 0⟩, none⟩ false)),
    .run 1 .tick,
    .start (.router (.updateDisplayWindowState 1 flagNonMinimized)), .run 2 .tick,
    .start (.router (.updateDisplayWindowState 1 0)), .run 3 .tick]

def flapped : DaemonPool :=
  Transition.reached semantics.step (start ∅) flap (by decide +kernel)

theorem autopause_debounced_flap :
    flapped.shared.inner.autopauseOf 1 = some ⟨0, false, true, 2⟩ ∧
      pendingResumes flapped 1 2 = 1 := by
  have ha : flapped.shared.inner.autopauseOf 1 = some ⟨0, false, true, 2⟩ := by decide
  have hrun : Run ∅ flap flapped := Transition.run_reached _ _
  exact ⟨ha, (autopause_debounced hrun ha (by decide)).2.1 rfl rfl⟩

end Waywallen
