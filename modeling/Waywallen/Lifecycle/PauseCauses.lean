import Waywallen.Lifecycle.Reconcile

/-!
# The causes of a pause

Every operation that may change whether a renderer has a cause to be paused goes on to a reconcile
pass. So whenever no pass is under way the paused set agrees with the causes, up to the renderers
a pending session resume is about to release.
-/

namespace Waywallen

open TaskPool

/-- A cause to pause renderer `r`: the manual pause, no enabled link, an enabled link to a display
that requests autopause, or a session flag whose pause setting is enabled. -/
def PauseCause (s : Daemon) (r : RendererId) : Prop :=
  s.inner.manualPaused = true ∨
  (∀ l ∈ s.inner.table.linksForRenderer r, l.enabled = false) ∨
  (∃ l ∈ s.inner.table.linksForRenderer r, l.enabled = true ∧
    ∃ st, s.inner.displays.lookup l.displayId = some st ∧ st.autopause.requested = true) ∨
  ((globalAutopause s.settings).pauseOnLock = true ∧ s.inner.sessionLocked = true) ∨
  ((globalAutopause s.settings).pauseOnUserSwitch = true ∧ s.inner.sessionInactive = true)

/-- What the program computes is whether there is a cause. -/
theorem shouldPause_iff (s : Daemon) (r : RendererId) :
    s.inner.shouldPause s.settings r = true ↔ PauseCause s r := by
  have hnone : (s.inner.activeLinks r).isEmpty = true ↔
      ∀ l ∈ s.inner.table.linksForRenderer r, l.enabled = false := by
    rw [List.isEmpty_iff, Inner.activeLinks, List.filter_eq_nil_iff]
    exact forall₂_congr fun l _ => by simp
  have hany : s.inner.anyAutopaused r = true ↔ ∃ l ∈ s.inner.table.linksForRenderer r,
      l.enabled = true ∧ ∃ st, s.inner.displays.lookup l.displayId = some st ∧
        st.autopause.requested = true := by
    rw [Inner.anyAutopaused, List.any_eq_true]
    constructor
    · rintro ⟨l, hl, hreq⟩
      obtain ⟨hl, hen⟩ := List.mem_filter.1 hl
      cases hd : s.inner.displays.lookup l.displayId with
      | none => simp [hd] at hreq
      | some st => exact ⟨l, hl, hen, st, hd, by simpa [hd] using hreq⟩
    · rintro ⟨l, hl, hen, st, hd, hreq⟩
      exact ⟨l, List.mem_filter.2 ⟨hl, hen⟩, by simp [hd, hreq]⟩
  simp only [Inner.shouldPause, Inner.sessionPauses, Bool.or_eq_true, Bool.and_eq_true, hnone,
    hany, PauseCause, or_assoc]

/-- Both settings enable the same session pauses. -/
def SameSessionPauses (a b : Option Settings) : Prop :=
  (globalAutopause b).pauseOnLock = (globalAutopause a).pauseOnLock ∧
    (globalAutopause b).pauseOnUserSwitch = (globalAutopause a).pauseOnUserSwitch

instance (a b : Option Settings) : Decidable (SameSessionPauses a b) :=
  inferInstanceAs (Decidable (_ ∧ _))

theorem SameSessionPauses.of_eq {a b : Option Settings} (h : globalAutopause b = globalAutopause a) :
    SameSessionPauses a b := by
  rw [SameSessionPauses, h]
  exact ⟨rfl, rfl⟩

namespace Inner

/-- The display requests autopause. -/
def requestedOf (inner : Inner) (d : DisplayId) : Bool :=
  (inner.autopauseOf d).any (·.requested)

theorem requestedOf_congr {i j : Inner} {d : DisplayId} (h : j.autopauseOf d = i.autopauseOf d) :
    j.requestedOf d = i.requestedOf d :=
  congrArg (Option.any _) h

theorem updateSessionState_of_noop {inner : Inner} {locked inactive : Option Bool}
    (h : (inner.updateSessionState locked inactive).2 = .noop) :
    (inner.updateSessionState locked inactive).1 = inner := by
  unfold updateSessionState at h ⊢
  dsimp only at h ⊢
  split
  · rfl
  · rename_i hne
    rw [if_neg hne] at h
    dsimp only at h
    split at h <;> cases h

/-- The causes, by the routes of the displays. -/
theorem shouldPause_iff_routes (settings : Option Settings) (inner : Inner) (r : RendererId) :
    inner.shouldPause settings r = true ↔ inner.manualPaused = true ∨
      (∀ d, inner.table.routeOf d ≠ some r) ∨
      (∃ d, inner.table.routeOf d = some r ∧ inner.requestedOf d = true) ∨
      inner.sessionPauses settings = true := by
  have hnone := inner.activeLinks_isEmpty_iff r
  have hany : inner.anyAutopaused r = true ↔
      ∃ d, inner.table.routeOf d = some r ∧ inner.requestedOf d = true := by
    rw [anyAutopaused, List.any_eq_true]
    constructor
    · rintro ⟨l, hl, h⟩
      refine ⟨l.displayId, routeOf_eq_some.2 ⟨l, mem_activeLinks.1 hl⟩, ?_⟩
      rw [requestedOf, autopauseOf]
      rcases hd : inner.displays.lookup l.displayId with _ | s <;> rw [hd] at h
      · cases h
      · exact h
    · rintro ⟨d, hd, h⟩
      obtain ⟨l, hl, hr⟩ := routeOf_eq_some.1 hd
      obtain rfl := RoutingTable.displayId_of_linkOf hl
      refine ⟨l, mem_activeLinks.2 ⟨hl, hr⟩, ?_⟩
      rw [requestedOf, autopauseOf] at h
      rcases hd : inner.displays.lookup l.displayId with _ | s <;> rw [hd] at h
      · cases h
      · exact h
  simp only [shouldPause, Bool.or_eq_true, hnone, hany, or_assoc]

/-- Two states that agree in everything a reconcile pass reads or writes. -/
structure SameCauses (i j : Inner) : Prop where
  ids : ∀ r, r ∈ j.table.rendererIds ↔ r ∈ i.table.rendererIds
  routeOf : ∀ d, j.table.routeOf d = i.table.routeOf d
  requestedOf : ∀ d, j.requestedOf d = i.requestedOf d
  manualPaused : j.manualPaused = i.manualPaused
  sessionLocked : j.sessionLocked = i.sessionLocked
  sessionInactive : j.sessionInactive = i.sessionInactive
  sessionGen : j.sessionGen = i.sessionGen
  pausedRenderers : j.pausedRenderers = i.pausedRenderers

theorem SameCauses.rfl {i : Inner} : SameCauses i i :=
  ⟨fun _ => .rfl, fun _ => Eq.refl _, fun _ => Eq.refl _, Eq.refl _, Eq.refl _, Eq.refl _,
    Eq.refl _, Eq.refl _⟩

theorem SameCauses.of_eq {i j : Inner} (h : j = i) : SameCauses i j :=
  h ▸ .rfl

theorem SameCauses.shouldPause {i j : Inner} (h : SameCauses i j)
    {settings settings' : Option Settings} (hs : SameSessionPauses settings settings')
    (r : RendererId) :
    j.shouldPause settings' r = i.shouldPause settings r := by
  rw [Bool.eq_iff_iff, shouldPause_iff_routes, shouldPause_iff_routes]
  simp only [h.routeOf, h.requestedOf, h.manualPaused, sessionPauses, h.sessionLocked,
    h.sessionInactive, hs.1, hs.2]

end Inner

/-! ## What an operation leaves to a pass -/

theorem Autopause.State.requested_report_of_noop {a : Autopause.State} {mode : AutopauseMode}
    {flags : UInt32} (h : (a.report mode flags).2 ≠ .reconcile) :
    (a.report mode flags).1.requested = a.requested := by
  unfold State.report at h ⊢
  dsimp only at h ⊢
  split
  · rfl
  · rename_i hflags
    rw [if_neg hflags] at h
    split
    · rename_i hraw
      rw [if_pos hraw] at h
      cases hr : a.requested with
      | true => rfl
      | false => simp [hr] at h
    · split <;> rfl

theorem Autopause.State.requested_resume_of_not {a : Autopause.State} {g : UInt64}
    (h : (a.resume g).2 = false) : (a.resume g).1.requested = a.requested := by
  unfold State.resume at h ⊢
  split
  · rfl
  · simp_all

section Exec

variable {x : Choice} {fresh : ℕ} {s : Daemon} {o : Step}

theorem requestedOf_updateDisplayWindowState {d : DisplayId} {flags : UInt32}
    (h : (s.inner.updateDisplayWindowState s.settings d flags).2 ≠ .reconcile) (e : DisplayId) :
    (s.inner.updateDisplayWindowState s.settings d flags).1.requestedOf e =
      s.inner.requestedOf e := by
  rw [Inner.requestedOf, Inner.autopauseOf_updateDisplayWindowState]
  split
  · rename_i he
    subst he
    rw [Inner.requestedOf, Inner.autopauseOf]
    cases hd : s.inner.displays.lookup e with
    | none => rfl
    | some st =>
      rw [Inner.updateDisplayWindowState_snd hd] at h
      exact Autopause.State.requested_report_of_noop h
  · rfl

theorem requestedOf_resumeAutopause {d : DisplayId} {g : UInt64}
    (h : (s.inner.resumeAutopause d g).2 = false) (e : DisplayId) :
    (s.inner.resumeAutopause d g).1.requestedOf e = s.inner.requestedOf e := by
  rw [Inner.requestedOf, Inner.autopauseOf_resumeAutopause]
  split
  · rename_i he
    subst he
    rw [Inner.requestedOf]
    cases hd : s.inner.displays.lookup e with
    | none => simp [Inner.autopauseOf, hd]
    | some st =>
      simp only [Inner.resumeAutopause, hd] at h
      simpa [Inner.autopauseOf, hd] using Autopause.State.requested_resume_of_not h
  · rfl

/-- A call that does not lead to a reconcile pass leaves the causes alone, unless it arms a session
resume timer. -/
theorem reconciles_or_same {c : Call} (ho : c.exec x fresh s = some o) :
    .router .reconcileLifecycle ∈ o.next ∨ c = .router .reconcileLifecycle ∨
      s.inner.SameCauses o.shared.inner ∨
      ∃ l i g, c = .router (.updateSessionState l i) ∧
        (s.inner.updateSessionState l i).2 = .scheduleResume g := by
  cases c with
  | router c =>
    have hf : RouterCall.Frame s c o.shared.inner := RouterCall.frame_exec ho
    have hids := RouterCall.mem_rendererIds_tableAfter s c
    have hroute := RouterCall.routeOf_tableAfter s c
    have hinner : o.shared.inner = c.innerAfter s := RouterCall.inner_exec ho
    have hauto (d) : o.shared.inner.autopauseOf d = _ :=
      (congrArg (·.autopauseOf d) hinner).trans (RouterCall.autopauseOf_innerAfter c d)
    rw [← hf.table] at hids hroute
    cases c with
    | addRenderer h i => cases ho; exact .inl (by simp)
    | unregisterRenderer r | killOrphanNow r => cases ho; exact .inl (by simp [Daemon.unregister])
    | registerDisplay reg b => cases ho; exact .inl (by simp)
    | unregisterDisplay d => cases ho; exact .inl (by simp)
    | relinkDisplaysTo ds r => cases ho; exact .inl (by simp)
    | relinkAllDisplaysTo r => cases ho; exact .inl (by simp)
    | reconcileLifecycle => exact .inr (.inl rfl)
    | setManualPause b =>
      cases hb : s.inner.manualPaused != b with
      | true =>
        cases ho
        exact .inl (by simp [onlyIf, hb])
      | false =>
        have hb : s.inner.manualPaused = b := by simpa using hb
        exact .inr (.inr (.inl ⟨hids, hroute, fun d => Inner.requestedOf_congr (hauto d),
          hf.manualPaused.trans hb.symm, hf.sessionLocked, hf.sessionInactive, hf.sessionGen,
          hf.pausedRenderers⟩))
    | updateDisplayWindowState d flags =>
      by_cases hact : (s.inner.updateDisplayWindowState s.settings d flags).2 = .reconcile
      · simp only [Call.exec, RouterCall.exec, hact, Daemon.andThen] at ho
        cases ho
        exact .inl (List.mem_singleton_self _)
      · refine .inr (.inr (.inl ⟨hids, hroute, fun e => ?_, hf.manualPaused, hf.sessionLocked,
          hf.sessionInactive, hf.sessionGen, hf.pausedRenderers⟩))
        rw [hinner]
        exact requestedOf_updateDisplayWindowState hact e
    | resumeAutopause d g =>
      cases hact : (s.inner.resumeAutopause d g).2 with
      | true =>
        cases ho
        exact .inl (by simp [onlyIf, hact])
      | false =>
        refine .inr (.inr (.inl ⟨hids, hroute, fun e => ?_, hf.manualPaused, hf.sessionLocked,
          hf.sessionInactive, hf.sessionGen, hf.pausedRenderers⟩))
        rw [hinner]
        exact requestedOf_resumeAutopause hact e
    | updateSessionState l i =>
      cases hact : (s.inner.updateSessionState l i).2 with
      | noop =>
        rw [hinner, RouterCall.innerAfter, Inner.updateSessionState_of_noop hact]
        exact .inr (.inr (.inl .rfl))
      | reconcile =>
        simp only [Call.exec, RouterCall.exec, hact, Daemon.andThen] at ho
        cases ho
        exact .inl (List.mem_singleton_self _)
      | scheduleResume g => exact .inr (.inr (.inr ⟨l, i, g, rfl, hact⟩))
    | _ =>
      exact .inr (.inr (.inl ⟨hids, hroute, fun d => Inner.requestedOf_congr (hauto d),
        hf.manualPaused, hf.sessionLocked, hf.sessionInactive, hf.sessionGen,
        hf.pausedRenderers⟩))
  | _ => exact .inr (.inr (.inl (by rw [Call.inner_exec ho]; exact .rfl)))

end Exec

/-! ## Between the passes -/

/-- A session resume that is going to release the renderers paused for the session. -/
def ResumePending (p : DaemonPool) : Prop :=
  .router (.resumeSession p.shared.inner.sessionGen) ∈ calls p.tasks ∧
    p.shared.inner.sessionLocked = false ∧ p.shared.inner.sessionInactive = false

/-- The paused set agrees with the causes. -/
structure Settled (p : DaemonPool) : Prop where
  pause : ∀ r ∈ p.shared.inner.table.rendererIds,
    p.shared.inner.shouldPause p.shared.settings r = true → r ∈ p.shared.inner.pausedRenderers
  play : ∀ r ∈ p.shared.inner.pausedRenderers,
    p.shared.inner.shouldPause p.shared.settings r = true ∨ ResumePending p

theorem Settled.congr {p p' : DaemonPool} (h : Settled p)
    (hsame : p.shared.inner.SameCauses p'.shared.inner)
    (hs : SameSessionPauses p.shared.settings p'.shared.settings)
    (ht : ResumePending p → ResumePending p') : Settled p' where
  pause r hr hc := by
    rw [hsame.pausedRenderers]
    exact h.pause r ((hsame.ids r).1 hr) ((hsame.shouldPause hs r).symm.trans hc)
  play r hr := by
    rw [hsame.shouldPause hs]
    exact (h.play r (hsame.pausedRenderers ▸ hr)).imp id ht

section Run

variable {p : DaemonPool} {i : ℕ} {x : Choice} {t : DaemonTask} {c : Call} {rest : List Call}
  {o : Step}

theorem globalAutopause_exec {s : Daemon} {fresh : ℕ} (h : c.exec x fresh s = some o) :
    globalAutopause o.shared.settings = globalAutopause s.settings := by
  rw [Call.settings_exec h]
  unfold Call.settingsAfter
  split
  · rename_i reg
    cases s.settings with
    | none => rfl
    | some st =>
      simp only [Option.map_some, globalAutopause, Settings.migrate]
      repeat' split
      all_goals rfl
  · rfl

/-- After a pass the paused set is right. -/
theorem settled_reconcile {fresh : ℕ}
    (ho : (Call.router .reconcileLifecycle).exec x fresh p.shared = some o)
    (hsub : ∀ r ∈ p.shared.inner.pausedRenderers, r ∈ p.shared.inner.table.rendererIds)
    {p' : DaemonPool} (hp' : p'.shared = o.shared) : Settled p' := by
  have hf : RouterCall.Frame p.shared .reconcileLifecycle o.shared.inner :=
    Call.frame_exec ho
  have hinner : o.shared.inner = RouterCall.innerAfter p.shared .reconcileLifecycle :=
    Call.inner_exec ho
  have hpaused (r) := p.shared.inner.mem_pausedRenderers_reconcileLifecycle p.shared.settings r
  have hids (r) : r ∈ o.shared.inner.table.rendererIds ↔ r ∈ p.shared.inner.table.rendererIds := by
    rw [hf.table]
    rfl
  have hcause (r) : o.shared.inner.shouldPause o.shared.settings r =
      p.shared.inner.shouldPause p.shared.settings r := by
    rw [hinner, Call.settings_exec ho]
    rfl
  constructor
  · intro r hr hc
    rw [hp', hids] at hr
    rw [hp', hcause] at hc
    rw [hp', hf.pausedRenderers]
    exact (hpaused r).2 (by rw [if_pos hr]; exact hc)
  · intro r hr
    rw [hp', hf.pausedRenderers] at hr
    rw [hp', hcause]
    have := (hpaused r).1 hr
    split at this
    · exact .inl this
    · rename_i hn
      exact absurd (hsub r this) hn

end Run

/-! ## Operations that complete -/

/-- The lifecycle message for renderer `r` that the call is about to hand over. -/
def Call.sends (r : RendererId) : Call → Option Lifecycle
  | router (.sendLifecycle d) => if d.renderer = r then some d.message else none
  | _ => none

def Call.isSend : Call → Bool
  | router (.sendLifecycle _) => true
  | _ => false

theorem Call.sends_eq_none {c : Call} (h : c.isSend = false) (r : RendererId) :
    c.sends r = none := by
  cases c with
  | router c => cases c <;> first | rfl | cases h
  | _ => rfl

/-- The operations complete: a pass begins when the messages of the pass before have been handed
over, and no task is dropped before its passes are over. The settings that enable a session pause
change only while no renderer is registered. -/
def Completes (p : DaemonPool) : DaemonLabel → Prop
  | .run i _ => (p.tasks[i]?.bind fun t => t.stack.head?).any Call.isReconcile = true →
      ∀ k ∈ calls p.tasks, k.isSend = false
  | .drop i => ∀ t ∈ p.tasks[i]?, ∀ k ∈ t.stack, k.isReconcile = false ∧ k.isSend = false
  | .env (.settings st) => p.shared.inner.table.rendererIds = [] ∨
      SameSessionPauses p.shared.settings (some st)
  | _ => True

instance (p : DaemonPool) : DecidablePred (Completes p)
  | .run _ _ => inferInstanceAs (Decidable (_ → _))
  | .drop _ => inferInstanceAs (Decidable (∀ _ ∈ _, _))
  | .env (.settings _) => inferInstanceAs (Decidable (_ ∨ _))
  | .env (.promoteRegistered _) | .env (.promoteDisplay _) | .env (.promoteManaged _)
  | .wake _ | .start _ => isTrue trivial

/-- Between the passes the paused set is right, and all messages but those of the last pass have
been handed over. -/
structure Reconciled (p : DaemonPool) : Prop where
  settled : .router .reconcileLifecycle ∈ calls p.tasks ∨ Settled p
  emitted : ∀ r, told r p.shared.history.decided =
    told r p.shared.history.emitted ++ pending (Call.sends r) p.tasks
  single : ∀ r, (pending (Call.sends r) p.tasks).length ≤ 1

theorem filterMap_sends (r : RendererId) (ds : List Decision) :
    (ds.map fun d => Call.router (.sendLifecycle d)).filterMap (Call.sends r) = told r ds := by
  induction ds with
  | nil => rfl
  | cons d ds ih =>
    have hd : told r (d :: ds) = told r [d] ++ told r ds := told_append r [d] ds
    rw [hd, told_singleton, ← ih, List.map_cons, List.filterMap_cons]
    by_cases h : d.renderer = r <;> simp [Call.sends, h]

section Exec

variable {x : Choice} {fresh : ℕ} {s : Daemon} {c k : Call} {o : Step} {r : RendererId}

theorem Call.Continues.sends (h : c.Continues fresh s k) (hc : c.isReconcile = false) :
    k.sends r = none := by
  cases h <;> first | rfl | cases hc

theorem pending_sends_spawn (h : c.exec x fresh s = some o) :
    pending (Call.sends r) o.spawn = [] := by
  obtain hs | ⟨t, hs, ht⟩ := Call.spawns h
  · rw [hs]
    rfl
  · rw [hs]
    cases ht <;> rfl

theorem filterMap_sends_next (h : c.exec x fresh s = some o) (hc : c.isReconcile = false) :
    o.next.filterMap (Call.sends r) = [] :=
  List.filterMap_eq_nil_iff.2 fun _ hk => (Call.continues h hk).sends hc

end Exec

theorem perm_eq_of_length_le {α : Type} {l m : List α} (h : l.Perm m) (hl : l.length ≤ 1) :
    l = m := by
  match l, hl with
  | [], _ => exact (List.nil_perm.1 h).symm
  | [a], _ => exact (List.singleton_perm.1 h).symm ▸ rfl

section Run

variable {p : DaemonPool} {i : ℕ} {x : Choice} {t : DaemonTask} {c : Call} {rest : List Call}
  {o : Step}

/-- A pass hands each renderer at most one message over. -/
theorem Reconciled.emitted_reconcile (hp : Reconciled p) (ht : p.tasks[i]? = some t)
    (hc : t.stack = .router .reconcileLifecycle :: rest)
    (ho : (Call.router .reconcileLifecycle).exec x p.tasks.length p.shared = some o)
    (hnone : ∀ k ∈ calls p.tasks, k.isSend = false) (r : RendererId) :
    told r o.shared.history.decided = told r o.shared.history.emitted ++
        pending (Call.sends r) (p.resume i t rest o).tasks ∧
      (pending (Call.sends r) (p.resume i t rest o).tasks).length ≤ 1 := by
  obtain ⟨others, h₁, h₂⟩ := pending_resume_perm ht hc o (Call.sends r)
  have hempty : pending (Call.sends r) p.tasks = [] :=
    List.filterMap_eq_nil_iff.2 fun k hk => Call.sends_eq_none (hnone k hk) r
  have hothers : others = [] := by simpa [hempty, Call.sends] using h₁
  set ds := (p.shared.inner.reconcileLifecycle p.shared.settings).2.map fun q =>
    Decision.mk p.shared.history.passes q.1 q.2 with hds
  have hnext : o.next.filterMap (Call.sends r) = told r ds := by
    cases ho
    rw [List.filterMap_append, filterMap_sends]
    refine List.append_right_eq_self.2 (List.filterMap_eq_nil_iff.2 fun k hk => ?_)
    obtain ⟨d, -, rfl⟩ := List.mem_map.1 hk
    rfl
  have hdecided : o.shared.history.decided = p.shared.history.decided ++ ds :=
    congrArg History.decided (Call.history_exec ho)
  have hemitted : o.shared.history.emitted = p.shared.history.emitted := by
    rw [congrArg History.emitted (Call.history_exec ho)]
    rfl
  have hlen : (told r ds).length ≤ 1 := by
    rw [hds, told_map, Inner.messagesTo_reconcileLifecycle]
    split
    · exact Inner.length_diff_le ..
    · exact Nat.zero_le 1
  rw [hnext, pending_sends_spawn ho, hothers, List.append_nil, List.append_nil] at h₂
  have heq := perm_eq_of_length_le h₂.symm hlen
  rw [← heq, hdecided, hemitted, told_append, hp.emitted, hempty, List.append_nil]
  exact ⟨rfl, hlen⟩

/-- Handing a message over moves it to the messages that have been. -/
theorem Reconciled.emitted_exec (hp : Reconciled p) (ht : p.tasks[i]? = some t)
    (hc : t.stack = c :: rest) (ho : c.exec x p.tasks.length p.shared = some o)
    (hr : c.isReconcile = false) (r : RendererId) :
    told r o.shared.history.decided = told r o.shared.history.emitted ++
        pending (Call.sends r) (p.resume i t rest o).tasks ∧
      (pending (Call.sends r) (p.resume i t rest o).tasks).length ≤ 1 := by
  obtain ⟨others, h₁, h₂⟩ := pending_resume_perm ht hc o (Call.sends r)
  rw [filterMap_sends_next ho hr, pending_sends_spawn ho, List.nil_append, List.nil_append] at h₂
  have hlen := hp.single r
  have heq := perm_eq_of_length_le h₁ hlen
  have hothers : others.length ≤ 1 := by
    rw [heq, List.length_append] at hlen
    omega
  have heq' := perm_eq_of_length_le h₂.symm hothers
  have hdecided : o.shared.history.decided = p.shared.history.decided := by
    rw [congrArg History.decided (Call.history_exec ho)]
    cases c with
    | router c => cases c <;> first | rfl | cases hr
    | _ => rfl
  have hemitted : told r o.shared.history.emitted =
      told r p.shared.history.emitted ++ (c.sends r).toList := by
    rw [congrArg History.emitted (Call.history_exec ho)]
    cases c with
    | router c =>
      cases c with
      | sendLifecycle d =>
        simp only [Call.historyAfter, Call.emittedAfter, told_append, told_singleton, Call.sends]
        split <;> rfl
      | _ => exact (List.append_nil _).symm
    | _ => exact (List.append_nil _).symm
  refine ⟨?_, heq' ▸ hothers⟩
  rw [hdecided, hemitted, hp.emitted, heq, ← heq', List.append_assoc]

/-- The flags are down and a new timer is armed. -/
theorem updateSessionState_of_scheduleResume {inner : Inner} {locked inactive : Option Bool}
    {g : UInt64} (h : (inner.updateSessionState locked inactive).2 = .scheduleResume g) :
    (inner.updateSessionState locked inactive).1 =
      { inner with sessionLocked := false, sessionInactive := false, sessionGen := g } := by
  unfold Inner.updateSessionState at h ⊢
  dsimp only at h ⊢
  split at h
  · cases h
  · rename_i hne
    split at h
    · cases h
    · rename_i hflags
      cases h
      simp only [Bool.or_eq_true, not_or, Bool.not_eq_true] at hflags
      rw [if_neg hne, hflags.1, hflags.2]

/-- Arming a session resume timer leaves the session pauses to it. -/
theorem Settled.scheduleResume {p' : DaemonPool} {g : UInt64} (hp : Settled p)
    (hinner : p'.shared.inner =
      { p.shared.inner with sessionLocked := false, sessionInactive := false, sessionGen := g })
    (ht : .router (.resumeSession g) ∈ calls p'.tasks) : Settled p' where
  pause r hr hc := by
    rw [hinner] at hr hc ⊢
    refine hp.pause r hr ?_
    rw [Inner.shouldPause_iff_routes] at hc ⊢
    have hnot : Inner.sessionPauses p'.shared.settings { p.shared.inner with
      sessionLocked := false, sessionInactive := false, sessionGen := g } = false := by
      simp [Inner.sessionPauses]
    obtain hc | hc | hc | hc := hc
    · exact .inl hc
    · exact .inr (.inl hc)
    · exact .inr (.inr (.inl hc))
    · rw [hnot] at hc
      cases hc
  play r _ := .inr (by
    rw [ResumePending, hinner]
    exact ⟨ht, rfl, rfl⟩)

theorem Reconciled.settled_exec (hp : Reconciled p) (halt : Alternation p.shared)
    (ht : p.tasks[i]? = some t) (hc : t.stack = c :: rest)
    (ho : c.exec x p.tasks.length p.shared = some o) :
    .router .reconcileLifecycle ∈ calls (p.resume i t rest o).tasks ∨
      Settled (p.resume i t rest o) := by
  by_cases hrec : c = .router .reconcileLifecycle
  · subst hrec
    exact .inr (settled_reconcile ho halt.subset rfl)
  by_cases hnext : .router .reconcileLifecycle ∈ o.next
  · exact .inl (next_mem_calls_resume ht hc hnext)
  have hset := globalAutopause_exec ho
  obtain hpend | hsettled := hp.settled
  · exact .inl (calls_resume_of_ne ht hc hpend fun h => hrec h.symm)
  refine .inr ?_
  obtain h | h | hsame | ⟨l, b, g, rfl, hact⟩ := reconciles_or_same ho
  · exact absurd h hnext
  · exact absurd h hrec
  · refine hsettled.congr hsame (.of_eq hset) fun ⟨htimer, hl, hb⟩ => ?_
    refine ⟨?_, hsame.sessionLocked.trans hl, hsame.sessionInactive.trans hb⟩
    have hgen : o.shared.inner.sessionGen = p.shared.inner.sessionGen := hsame.sessionGen
    simp only [Pool.resume] at hgen ⊢
    rw [hgen]
    refine calls_resume_of_ne ht hc htimer fun h => hnext ?_
    -- the timer that fires now would lead to a pass
    subst h
    cases ho
    simp [onlyIf, Inner.sessionResumed, hl, hb]
  · refine hsettled.scheduleResume (g := g) ?_ (spawn_mem_calls_resume ht hc ?_)
    · exact (Call.inner_exec ho).trans (updateSessionState_of_scheduleResume hact)
    · simp only [Call.exec, RouterCall.exec, hact] at ho
      cases ho
      simp

theorem Reconciled.resume (hp : Reconciled p) (halt : Alternation p.shared)
    (hC : Completes p (.run i x)) (ht : p.tasks[i]? = some t) (hc : t.stack = c :: rest)
    (ho : semantics.exec x p.tasks.length c p.shared = some o) :
    Reconciled (p.resume i t rest o) := by
  have hboth (r : RendererId) : told r o.shared.history.decided =
      told r o.shared.history.emitted ++ pending (Call.sends r) (p.resume i t rest o).tasks ∧
      (pending (Call.sends r) (p.resume i t rest o).tasks).length ≤ 1 := by
    cases hr : c.isReconcile with
    | false => exact hp.emitted_exec ht hc ho hr r
    | true =>
      obtain rfl := Call.isReconcile_iff.1 hr
      exact hp.emitted_reconcile (x := x) ht hc ho (hC (by simp [ht, hc, Call.isReconcile])) r
  exact ⟨hp.settled_exec halt ht hc ho, fun r => (hboth r).1, fun r => (hboth r).2⟩

theorem Reconciled.wake (hp : Reconciled p) (ht : p.tasks[i]? = some t) :
    Reconciled (p.replace i t.wake) := by
  have hcalls := calls_wake ht
  refine ⟨?_, fun r => ?_, fun r => ?_⟩
  · rw [hcalls]
    refine hp.settled.imp id fun h => h.congr .rfl (.of_eq rfl) fun hr => ?_
    rw [ResumePending, hcalls]
    exact hr
  · rw [pending, hcalls]
    exact hp.emitted r
  · rw [pending, hcalls]
    exact hp.single r

theorem Reconciled.drop (hp : Reconciled p) (hsafe : HandlesSafe p) (hC : Completes p (.drop i))
    (ht : p.tasks[i]? = some t) (hd : t.aborted = true ∨ t.cancellable = true) :
    Reconciled (p.replace i t.drop) := by
  have hpend (r : RendererId) : pending (Call.sends r) (p.replace i t.drop).tasks =
      pending (Call.sends r) p.tasks := by
    have hnil : t.stack.filterMap (Call.sends r) = [] :=
      List.filterMap_eq_nil_iff.2 fun k hk => Call.sends_eq_none (hC t ht k hk).2 r
    have hperm := pending_drop_perm ht (Call.sends r)
    rw [hnil, List.nil_append] at hperm
    exact (perm_eq_of_length_le hperm (hp.single r)).symm
  refine ⟨?_, fun r => ?_, fun r => ?_⟩
  · obtain h | h := hp.settled
    · refine .inl (calls_drop_of_notMem ht h fun hm => ?_)
      have := (hC t ht _ hm).1
      simp [Call.isReconcile] at this
    · refine .inr (h.congr .rfl (.of_eq rfl) fun hr => ⟨calls_drop_of_notMem ht hr.1 fun hm => ?_, hr.2⟩)
      -- the task of a timer is never interrupted
      obtain ⟨ha, hb⟩ := hsafe.kept t (List.mem_of_getElem? ht) ⟨_, hm, rfl⟩
      simp [ha, hb] at hd
  · rw [hpend]
    exact hp.emitted r
  · rw [hpend]
    exact hp.single r

/-- A request hands no message over by itself. -/
theorem Call.isSend_of_isRequested {c : Call} (h : c.isRequested = true) : c.isSend = false := by
  cases c with
  | router c => cases c <;> first | rfl | cases h
  | _ => rfl

theorem Reconciled.start (hp : Reconciled p) {q : Request} {s : Daemon}
    (h : q.accept p.shared = some (s, t)) : Reconciled ⟨s, p.tasks ++ [t]⟩ := by
  have hpend (r : RendererId) :
      pending (Call.sends r) (p.tasks ++ [t]) = pending (Call.sends r) p.tasks :=
    Request.pending_accept (fun _ hk => Call.sends_eq_none (Call.isSend_of_isRequested hk) r) h _
  have hmem {k : Call} (hk : k ∈ calls p.tasks) : k ∈ calls (p.tasks ++ [t]) := by
    rw [calls_append]
    exact List.mem_append_left _ hk
  have hshared : s.inner = p.shared.inner ∧ s.settings = p.shared.settings ∧
      s.history.decided = p.shared.history.decided ∧
      s.history.emitted = p.shared.history.emitted := by
    obtain rfl | ⟨r, -, rfl⟩ := Request.accept_shared h <;> exact ⟨rfl, rfl, rfl, rfl⟩
  obtain ⟨hinner, hset, hdec, hem⟩ := hshared
  refine ⟨hp.settled.imp hmem fun h => ?_, fun r => ?_, fun r => ?_⟩
  · refine h.congr (.of_eq hinner) (.of_eq (congrArg globalAutopause hset)) fun hr => ?_
    rw [ResumePending, hinner]
    exact ⟨hmem hr.1, hr.2⟩
  · rw [hpend, hdec, hem]
    exact hp.emitted r
  · rw [hpend]
    exact hp.single r

theorem Reconciled.env (hp : Reconciled p) (halt : Alternation p.shared) {e : Environment}
    (hC : Completes p (.env e)) : Reconciled { p with shared := e.act p.shared } := by
  have hhist : (e.act p.shared).history = p.shared.history := by cases e <;> rfl
  refine ⟨hp.settled.imp id fun h => ?_, fun r => ?_, hp.single⟩
  · cases e with
    | settings st =>
      obtain hids | hflags := hC
      · have hnone (r) : r ∉ p.shared.inner.table.rendererIds := hids ▸ List.not_mem_nil
        exact ⟨fun r hr => absurd hr (hnone r), fun r hr => absurd (halt.subset r hr) (hnone r)⟩
      · exact h.congr .rfl hflags id
    | promoteRegistered r =>
      refine h.congr ⟨fun q => ?_, fun _ => rfl, fun _ => rfl, rfl, rfl, rfl, rfl, rfl⟩ (.of_eq rfl) id
      simp [Environment.act, Daemon.withInner, RoutingTable.mem_rendererIds]
    | promoteDisplay d =>
      refine h.congr ⟨fun _ => .rfl, fun _ => rfl, fun q => ?_, rfl, rfl, rfl, rfl, rfl⟩ (.of_eq rfl) id
      simp [Environment.act, Daemon.withInner, Inner.requestedOf, Inner.autopauseOf]
    | promoteManaged r => exact h.congr .rfl (.of_eq rfl) id
  · rw [hhist]
    exact hp.emitted r

end Run

theorem reconciled_start (registry : HashMap String (List String)) :
    Reconciled (start registry) where
  settled := .inr ⟨nofun, nofun⟩
  emitted _ := rfl
  single _ := Nat.zero_le 1

/-- What all runs keep, and what the runs whose operations complete keep. -/
theorem Reconciled.step {p p' : DaemonPool} {l : DaemonLabel}
    (hp : HandlesSafe p ∧ (RegisteredOnce p ∧ Alternation p.shared) ∧ Reconciled p)
    (hC : Completes p l) (h : semantics.step p l = some p') :
    HandlesSafe p' ∧ (RegisteredOnce p' ∧ Alternation p'.shared) ∧ Reconciled p' := by
  refine ⟨hp.1.step h, Alternation.step hp.2.1 h, ?_⟩
  refine Semantics.preserves (I := Reconciled)
    (C := fun p l => HandlesSafe p ∧ Alternation p.shared ∧ Completes p l) ?_ ?_ ?_ ?_ ?_ p l p'
    hp.2.2 ⟨hp.1, hp.2.1.2, hC⟩ h
  · exact fun p i x t c rest o hp hC ht _ hc ho => hp.resume hC.2.1 hC.2.2 ht hc ho
  · exact fun p i t hp _ ht _ => hp.wake ht
  · exact fun p i t hp hC ht hd => hp.drop hC.1 hC.2.2 ht hd
  · exact fun p q s t hp _ hq => hp.start hq
  · intro p e s hp hC he
    cases he
    exact hp.env hC.2.1 hC.2.2

/-- After each completed operation a registered renderer with a pause cause is in the paused set,
one without is not unless a session resume is pending, and the messages handed over for each
renderer alternate. -/
theorem paused_of_cause {registry : HashMap String (List String)} {ls : List DaemonLabel}
    {p : DaemonPool} (hrun : Run registry ls p)
    (hC : Transition.Along semantics.step Completes (start registry) ls) :
    (.router .reconcileLifecycle ∉ calls p.tasks →
      (∀ r ∈ p.shared.inner.table.rendererIds, PauseCause p.shared r →
        r ∈ p.shared.inner.pausedRenderers) ∧
      (∀ r, ¬PauseCause p.shared r → (∀ g, .router (.resumeSession g) ∉ calls p.tasks) →
        r ∉ p.shared.inner.pausedRenderers)) ∧
    ∀ r, Alternates (told r p.shared.history.emitted) := by
  obtain ⟨-, ⟨-, halt⟩, hrec⟩ := Transition.invariant_of_run
    (fun _ _ _ hp hC h => Reconciled.step hp hC h)
    ⟨handlesSafe_start registry, ⟨registeredOnce_start registry, alternation_start registry⟩,
      reconciled_start registry⟩ hC hrun
  refine ⟨fun hdone => ?_, fun r => ?_⟩
  · have hset := hrec.settled.resolve_left hdone
    refine ⟨fun r hr hc => hset.pause r hr ((shouldPause_iff _ r).2 hc), fun r hc hnone hr => ?_⟩
    obtain h | h := hset.play r hr
    · exact hc ((shouldPause_iff _ r).1 h)
    · exact hnone _ h.1
  · have h := halt.alternates r
    rw [hrec.emitted] at h
    exact h.of_append

/-- A renderer is registered, a display comes to show it, and the session is locked. -/
def lockSession : List DaemonLabel :=
  [.env (.settings { (default : Settings) with autopause := ⟨.any, 500, true, true⟩ }),
    .start (.router (.registerRenderer ⟨7, "scene", ∅, "plugin", none, ⟨0, 0⟩⟩))] ++
  List.replicate 5 (.run 1 .tick) ++
  [.start (.router (.registerDisplay ⟨"A", none, 1920, 1080, 60, ⟨0, 0⟩, none⟩ false))] ++
  List.replicate 8 (.run 3 .tick) ++
  [.start (.router (.updateSessionState (some true) none))] ++ List.replicate 4 (.run 4 .tick)

def sessionLocked : DaemonPool :=
  Transition.reached semantics.step (start ∅) lockSession (by decide +kernel)

theorem paused_of_cause_sessionLocked :
    7 ∈ sessionLocked.shared.inner.pausedRenderers ∧
      ∀ r, Alternates (told r sessionLocked.shared.history.emitted) := by
  have hrun : Run ∅ lockSession sessionLocked := Transition.run_reached _ _
  have hC : Transition.Along semantics.step Completes (start ∅) lockSession := by decide
  have hids : 7 ∈ sessionLocked.shared.inner.table.rendererIds := by decide
  have hlocked : sessionLocked.shared.inner.sessionLocked = true := by decide
  have hset : (globalAutopause sessionLocked.shared.settings).pauseOnLock = true := by
    decide
  have hdone : (calls sessionLocked.tasks).all (fun c => !c.isReconcile) = true := by
    decide
  have h := paused_of_cause hrun hC
  refine ⟨(h.1 fun hm => ?_).1 7 hids (.inr (.inr (.inr (.inl ⟨hset, hlocked⟩)))), h.2⟩
  simpa [Call.isReconcile] using List.all_eq_true.1 hdone _ hm

end Waywallen
