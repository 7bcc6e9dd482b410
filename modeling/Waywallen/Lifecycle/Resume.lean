import Waywallen.Lifecycle.Sockets

/-!
# The resume window of the session

When the last session flag is cleared, a timer is to resume the renderers, so that a brief flap
does not restart them. The reconcile pass does not know of the timer: whatever pass runs in the
window sees clear flags, and resumes the renderers that nothing else keeps paused.
-/

namespace Waywallen

open TaskPool

def Call.isResumeSession (gen : UInt64) : Call → Bool
  | router (.resumeSession g) => g == gen
  | _ => false

/-- The session flags are clear, and the timer that was started when they were is pending. -/
def Debouncing (gen : UInt64) (p : DaemonPool) : Prop :=
  p.shared.inner.sessionGen = gen ∧ p.shared.inner.sessionPaused = false ∧
    (calls p.tasks).any (Call.isResumeSession gen) = true

/-- The pause causes of a renderer other than the session. -/
def Inner.otherCause (inner : Inner) (r : RendererId) : Bool :=
  inner.manualPaused || (inner.activeLinks r).isEmpty || inner.anyAutopaused r

/-- A pass that finds the renderer paused finds a cause other than the session. -/
def KeepsPaused (r : RendererId) (p : DaemonPool) : DaemonLabel → Prop
  | .run i _ => ∀ c ∈ (p.tasks[i]?.bind fun t => t.stack.head?), c.isReconcile = true →
      r ∈ p.shared.inner.table.rendererIds → r ∈ p.shared.inner.pausedRenderers →
      p.shared.inner.otherCause r = true
  | _ => True

/-- How often it has been decided to play the renderer. -/
def playsDecided (r : RendererId) (s : Daemon) : ℕ :=
  (told r s.history.decided).count .play

/-- The times the renderer has been sent Play. -/
def playsWritten (r : RendererId) (s : Daemon) : List Decision :=
  (writtenTo s r).filter (·.message = .play)

section Exec

variable {x : Choice} {fresh : ℕ} {s : Daemon} {c : Call} {o : Step} {r : RendererId}

theorem Inner.shouldPause_eq (inner : Inner) (settings : Option Settings) (r : RendererId) :
    inner.shouldPause settings r = (inner.otherCause r || inner.sessionPauses settings) := rfl

theorem Inner.sessionPauses_eq_false {inner : Inner} (settings : Option Settings)
    (h : inner.sessionPaused = false) : inner.sessionPauses settings = false := by
  rw [sessionPaused, Bool.or_eq_false_iff] at h
  simp [sessionPauses, h.1, h.2]

/-- With the session flags clear, a pass plays a paused renderer that has no other cause. -/
theorem play_mem_diff_iff {settings : Option Settings} {inner : Inner} :
    .play ∈ inner.diff settings r ↔
      inner.shouldPause settings r = false ∧ r ∈ inner.pausedRenderers := by
  unfold Inner.diff
  cases hs : inner.shouldPause settings r <;> by_cases hp : r ∈ inner.pausedRenderers <;>
    simp [hp]

theorem playsDecided_reconcile (ho : (Call.router .reconcileLifecycle).exec x fresh s = some o) :
    playsDecided r o.shared = playsDecided r s ↔
      (r ∈ s.inner.table.rendererIds → .play ∉ s.inner.diff s.settings r) := by
  have hdecided := congrArg History.decided (Call.history_exec ho)
  rw [playsDecided, hdecided]
  show (told r (_ ++ _)).count .play = _ ↔ _
  rw [told_append, told_map, Inner.messagesTo_reconcileLifecycle, List.count_append, playsDecided,
    Nat.add_eq_left, List.count_eq_zero]
  split
  · rename_i hr
    exact ⟨fun h _ => h, fun h => h hr⟩
  · rename_i hr
    exact ⟨fun _ h => absurd h hr, fun _ => List.not_mem_nil⟩

theorem playsDecided_exec (ho : c.exec x fresh s = some o) (hc : c.isReconcile = false) :
    playsDecided r o.shared = playsDecided r s := by
  rw [playsDecided, congrArg History.decided (Call.history_exec ho), playsDecided]
  cases c with
  | router c => cases c <;> first | rfl | cases hc
  | _ => rfl

/-- A message that is on its way stays the same on its way. -/
theorem carries_next (ho : c.exec x fresh s = some o) (hc : c.isReconcile = false) {k : Call}
    (hk : k ∈ o.next) {d : Decision} (hd : k.carries r = some d) : c.carries r = some d := by
  by_cases hs : ∃ e, c = .router (.sendLifecycle e)
  · obtain ⟨e, rfl⟩ := hs
    cases ho
    simp only [onlyIf] at hk
    split at hk
    · obtain rfl := List.mem_singleton.1 hk
      simp only [Call.carries, Call.writes, Lifecycle.lifecycle_control, Option.map_some] at hd ⊢
      split at hd
      · rename_i hr
        subst hr
        exact (if_pos rfl).trans hd
      · cases hd
    · cases hk
  · have hnone := (Call.continues ho hk).carries (r := r)
      (fun h => by rw [h] at hc; cases hc) fun e he => hs ⟨e, he⟩
    rw [hnone] at hd
    cases hd

/-- A pass sends no Play to a renderer that has another cause to be paused. -/
theorem carries_reconcile (ho : (Call.router .reconcileLifecycle).exec x fresh s = some o)
    (hkeep : r ∈ s.inner.table.rendererIds → r ∈ s.inner.pausedRenderers →
      s.inner.otherCause r = true) {k : Call} (hk : k ∈ o.next) {d : Decision}
    (hd : k.carries r = some d) : d.message ≠ .play := by
  cases ho
  rcases List.mem_append.1 hk with hk | hk
  · obtain ⟨e, he, rfl⟩ := List.mem_map.1 hk
    simp only [Call.carries] at hd
    split at hd
    · rename_i hr
      obtain rfl := Option.some_inj.1 hd
      obtain ⟨q, hq, rfl⟩ := List.mem_map.1 he
      intro hplay
      have hmem : .play ∈ Inner.messagesTo r (s.inner.reconcileLifecycle s.settings).2 :=
        List.mem_map.2 ⟨q, List.mem_filter.2 ⟨hq, decide_eq_true hr⟩, hplay⟩
      rw [Inner.messagesTo_reconcileLifecycle] at hmem
      split at hmem
      · rename_i hids
        obtain ⟨hcause, hpaused⟩ := play_mem_diff_iff.1 hmem
        rw [Inner.shouldPause_eq, hkeep hids hpaused] at hcause
        cases hcause
      · cases hmem
    · cases hd
  · obtain ⟨e, -, rfl⟩ := List.mem_map.1 hk
    cases hd

theorem playsWritten_exec (ho : c.exec x fresh s = some o)
    (hc : ∀ d ∈ c.carries r, d.message ≠ .play) : playsWritten r o.shared = playsWritten r s := by
  have hsock := Call.sockets_exec ho
  have hsame (h : o.shared.sockets = s.sockets) : playsWritten r o.shared = playsWritten r s := by
    rw [playsWritten, writtenTo_congr h, playsWritten]
  cases c with
  | manager c =>
    cases c with
    | writeControl q msg pass =>
      cases x with
      | fail | peerGone => exact hsame hsock
      | _ =>
        rw [playsWritten, writtenTo_update hsock, List.filter_append, playsWritten]
        refine List.append_right_eq_self.2 (List.filter_eq_nil_iff.2 fun d hd => ?_)
        have := hc d (Option.mem_toList.1 hd)
        simpa using this
    | writeNegotiate q scheme =>
      cases x with
      | fail | peerGone => exact hsame hsock
      | _ =>
        rw [playsWritten, writtenTo_update hsock, playsWritten]
        simp [ControlMsg.lifecycle]
    | _ => exact hsame hsock
  | _ => exact hsame hsock

end Exec

/-- No Play for renderer `r` is on its way, and the ones written are `plays`. -/
structure Unplayed (r : RendererId) (plays : List Decision) (p : DaemonPool) : Prop where
  carried : ∀ d ∈ pending (Call.carries r) p.tasks, d.message ≠ .play
  written : playsWritten r p.shared = plays

section Run

variable {p p' : DaemonPool} {l : DaemonLabel} {r : RendererId} {gen : UInt64}

theorem Unplayed.step {plays : List Decision} (hp : Unplayed r plays p) (hC : KeepsPaused r p l)
    (h : semantics.step p l = some p') : Unplayed r plays p' := by
  refine Semantics.preserves (C := KeepsPaused r) ?_ ?_ ?_ ?_ ?_ p l p' hp hC h
  · intro p i x t c rest o hp hC ht _ hc ho
    have hcall : c ∈ calls p.tasks :=
      mem_calls.2 ⟨t, List.mem_of_getElem? ht, hc ▸ List.mem_cons_self ..⟩
    refine ⟨fun d hd => ?_, ?_⟩
    · obtain ⟨others, hbefore, hafter⟩ := pending_resume_perm ht hc o (Call.carries r)
      rw [pending_carries_spawn ho, List.append_nil] at hafter
      rcases List.mem_append.1 (hafter.mem_iff.1 hd) with hd | hd
      · obtain ⟨k, hk, hkd⟩ := List.mem_filterMap.1 hd
        cases hrec : c.isReconcile with
        | false =>
          exact hp.carried d (mem_pending.2 ⟨c, hcall, carries_next ho hrec hk hkd⟩)
        | true =>
          obtain rfl := Call.isReconcile_iff.1 hrec
          have hexec : (Call.router .reconcileLifecycle).exec x p.tasks.length p.shared = some o :=
            ho
          exact carries_reconcile hexec
            (hC (.router .reconcileLifecycle) (by simp [ht, hc]) rfl) hk hkd
      · exact hp.carried d (hbefore.mem_iff.2 (List.mem_append_right _ hd))
    · refine (playsWritten_exec (s := p.shared) ho fun d hd => ?_).trans hp.written
      exact hp.carried d (mem_pending.2 ⟨c, hcall, hd⟩)
  · exact fun p i t hp _ ht _ => ⟨pending_wake ht _ ▸ hp.carried, hp.written⟩
  · intro p i t hp hC ht _
    refine ⟨fun d hd => hp.carried d ?_, hp.written⟩
    exact (pending_drop_perm ht _).mem_iff.2 (List.mem_append_right _ hd)
  · intro p q s t hp _ hq
    have hpend := Request.pending_accept (f := Call.carries r)
      (fun _ => Call.carries_of_isRequested) hq p.tasks
    obtain rfl | ⟨k, -, rfl⟩ := Request.accept_shared hq <;>
      exact ⟨hpend ▸ hp.carried, hp.written⟩
  · intro p e s hp _ he
    cases he
    cases e <;> exact ⟨hp.carried, hp.written⟩

/-- While the timer is pending, a step decides to play the renderer exactly when it is a pass that
finds no other cause. -/
theorem playsDecided_eq_iff (hwin : Debouncing gen p) (h : semantics.step p l = some p') :
    playsDecided r p'.shared = playsDecided r p.shared ↔ KeepsPaused r p l := by
  have hsame (hd : p'.shared.history.decided = p.shared.history.decided) (hk : KeepsPaused r p l) :
      playsDecided r p'.shared = playsDecided r p.shared ↔ KeepsPaused r p l :=
    ⟨fun _ => hk, fun _ => by rw [playsDecided, hd, playsDecided]⟩
  cases l with
  | run i x =>
    obtain ⟨t, c, rest, o, ht, -, hc, ho, rfl⟩ := Semantics.step_run_eq_some.1 h
    have hex : (p.tasks[i]?.bind fun t => t.stack.head?) = some c := by simp [ht, hc]
    cases hrec : c.isReconcile with
    | false =>
      refine ⟨fun _ k hk hr => ?_, fun _ => playsDecided_exec (s := p.shared) ho hrec⟩
      obtain rfl := Option.some_inj.1 (hex.symm.trans hk)
      rw [hrec] at hr
      cases hr
    | true =>
      obtain rfl := Call.isReconcile_iff.1 hrec
      have hexec : (Call.router .reconcileLifecycle).exec x p.tasks.length p.shared = some o := ho
      refine (playsDecided_reconcile hexec).trans ?_
      rw [play_mem_diff_iff, Inner.shouldPause_eq, Inner.sessionPauses_eq_false _ hwin.2.1,
        Bool.or_false, KeepsPaused, hex]
      simp only [Option.mem_some_iff, forall_eq', hrec, true_imp_iff]
      refine forall_congr' fun _ => ?_
      cases p.shared.inner.otherCause r <;> simp
  | wake i =>
    obtain ⟨t, -, -, rfl⟩ := Semantics.step_wake_eq_some.1 h
    exact hsame rfl trivial
  | drop i =>
    obtain ⟨t, -, -, rfl⟩ := Semantics.step_drop_eq_some.1 h
    exact hsame rfl trivial
  | start q =>
    obtain ⟨s, t, ha, rfl⟩ := Semantics.step_start_eq_some.1 h
    refine hsame ?_ trivial
    obtain rfl | ⟨k, -, rfl⟩ := Request.accept_shared ha <;> rfl
  | env e =>
    obtain ⟨s, ha, rfl⟩ := Semantics.step_env_eq_some.1 h
    cases ha
    refine hsame ?_ trivial
    cases e <;> rfl

/-- Until the timer fires, the renderer is told to play exactly if some pass finds it paused without
another cause; and if none does and no Play was on its way when the window opened, none is
written. -/
theorem not_played_iff {ls : List DaemonLabel} (hrun : Transition.run semantics.step p ls = some p')
    (hwin : Transition.Along semantics.step (fun q _ => Debouncing gen q) p ls) (r : RendererId) :
    (Transition.Along semantics.step (fun q l => ∀ q', semantics.step q l = some q' →
        playsDecided r q'.shared = playsDecided r q.shared) p ls ↔
      Transition.Along semantics.step (KeepsPaused r) p ls) ∧
    (Transition.Along semantics.step (KeepsPaused r) p ls →
      (∀ d ∈ pending (Call.carries r) p.tasks, d.message ≠ .play) →
      playsWritten r p'.shared = playsWritten r p.shared) := by
  refine ⟨Transition.along_congr hrun hwin fun q l q' hq hstep => ?_, fun hC hcarried => ?_⟩
  · refine ⟨fun h => (playsDecided_eq_iff hq hstep).1 (h q' hstep), fun h q'' hq'' => ?_⟩
    obtain rfl := Option.some_inj.1 (hstep.symm.trans hq'')
    exact (playsDecided_eq_iff hq hstep).2 h
  · have hp : Unplayed r (playsWritten r p.shared) p' := Transition.invariant_of_run
      (fun q l q' hq hC h => hq.step hC h) ⟨hcarried, rfl⟩ hC hrun
    exact hp.written

end Run

instance KeepsPaused.decidable (r : RendererId) (p : DaemonPool) :
    (l : DaemonLabel) → Decidable (KeepsPaused r p l)
  | .run i _ => inferInstanceAs (Decidable (∀ c ∈ (p.tasks[i]?.bind fun t => t.stack.head?),
      c.isReconcile = true → r ∈ p.shared.inner.table.rendererIds →
        r ∈ p.shared.inner.pausedRenderers → p.shared.inner.otherCause r = true))
  | .wake _ | .drop _ | .start _ | .env _ => .isTrue trivial

instance (gen : UInt64) (p : DaemonPool) : Decidable (Debouncing gen p) :=
  inferInstanceAs (Decidable (_ ∧ _ ∧ _))

/-- A display shows renderer 7, and the session is locked. -/
def sceneLocked : List DaemonLabel :=
  .env (.settings { (default : Settings) with autopause := ⟨.any, 500, true, true⟩ }) ::
  sceneShown ++ .start (.router (.updateSessionState (some true) none)) ::
  List.replicate 6 (.run 5 .tick) ++ [.start (.router (.updateSessionState (some false) none))]

/-- The session is about to be unlocked. -/
def unlocking : DaemonPool :=
  Transition.reached semantics.step (start sceneRegistry) sceneLocked (by decide +kernel)

def unlocked : DaemonPool :=
  Transition.reached semantics.step unlocking [.run 6 .tick] (by decide +kernel)

/-- The user pauses before the timer fires. -/
def pausedByHand : DaemonPool :=
  Transition.reached semantics.step unlocked
    (.start (.router (.setManualPause true)) :: List.replicate 2 (.run 8 .tick)) (by decide +kernel)

theorem not_played_iff_pausedByHand :
    playsWritten 7 pausedByHand.shared = playsWritten 7 unlocked.shared := by
  have hwin : Transition.Along semantics.step (fun q _ => Debouncing 2 q) unlocked
      (.start (.router (.setManualPause true)) :: List.replicate 2 (.run 8 .tick)) := by
    decide
  exact (not_played_iff (Transition.run_reached _ _) hwin 7).2 (by decide)
    (by decide)

/-- Another display connects before the timer fires. -/
def joined : List DaemonLabel :=
  .start (.router (.registerDisplay ⟨"B", none, 1920, 1080, 60, ⟨0, 0⟩, none⟩ false)) ::
  List.replicate 6 (.run 8 .tick)

def resumed : DaemonPool :=
  Transition.reached semantics.step unlocked joined (by decide +kernel)

theorem played_while_debouncing : ¬∀ (registry : HashMap String (List String))
    (ls ms : List DaemonLabel) (l : DaemonLabel) (p₀ p p' : DaemonPool) (gen : UInt64)
    (r : RendererId), Run registry ls p₀ → semantics.step p₀ l = some p →
    Transition.run semantics.step p ms = some p' → (∀ l' ∈ ls ++ l :: ms, calm l' = true) →
    Transition.Along semantics.step (fun q _ => Debouncing gen q) p ms → Debouncing gen p' →
    r ∈ p₀.shared.inner.pausedRenderers →
    p₀.shared.inner.sessionPauses p₀.shared.settings = true →
    pending (Call.carries r) p.tasks = [] →
    playsWritten r p'.shared = playsWritten r p.shared := by
  intro h
  have hopen : semantics.step unlocking (.run 6 .tick) = some unlocked :=
    (Transition.run_singleton _ _ _).symm.trans (Transition.run_reached _ _)
  have hsame := h sceneRegistry sceneLocked joined (.run 6 .tick) unlocking unlocked resumed 2 7
    (Transition.run_reached _ _) hopen (Transition.run_reached _ _) (by decide)
    (by decide) (by decide) (by decide) (by decide)
    (by decide)
  revert hsame
  decide

end Waywallen
