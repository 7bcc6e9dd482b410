import Waywallen.Daemon.Queues
import Waywallen.Lifecycle.Reconcile

/-!
# The lifecycle messages on the sockets

A pass decides under the lock and its messages are written after the lock is released. As long as
the messages for a renderer are written in the order of the passes that decided them, what has
been written and what is still to be written make up what has been decided.
-/

namespace Waywallen

open TaskPool

def ControlMsg.lifecycle : ControlMsg → Option Lifecycle
  | play => some .play
  | pause => some .pause
  | _ => none

@[simp] theorem Lifecycle.lifecycle_control (m : Lifecycle) : m.control.lifecycle = some m := by
  cases m <;> rfl

/-- The messages decided for renderer `r`. -/
def decidedFor (r : RendererId) (ds : List Decision) : List Decision :=
  ds.filter (·.renderer = r)

/-- The lifecycle messages written to renderer `r`'s socket. -/
def writtenTo (s : Daemon) (r : RendererId) : List Decision :=
  (s.sockets r).filterMap fun w => w.1.lifecycle.map fun m => ⟨w.2, r, m⟩

namespace Call

/-- The lifecycle message the call is about to write to renderer `r`'s socket. -/
def writes (r : RendererId) : Call → Option Decision
  | manager (.writeControl q msg pass) =>
      if q = r then msg.lifecycle.map fun m => ⟨pass, r, m⟩ else none
  | _ => none

/-- The lifecycle message for renderer `r` the call is about to hand over or to write. -/
def carries (r : RendererId) : Call → Option Decision
  | router (.sendLifecycle d) => if d.renderer = r then some d else none
  | c => c.writes r

/-- The message for renderer `r` does not get lost: the manager knows the renderer, and its socket
takes the message. -/
def delivered (r : RendererId) (s : Daemon) (x : Choice) : Call → Bool
  | router (.sendLifecycle d) => d.renderer != r || s.managed.containsKey r
  | c => (c.writes r).isNone || !(x matches .fail | .peerGone)

end Call

/-- Every `send_control` of a lifecycle message to renderer `r` succeeds, and none is dropped. -/
def Delivers (r : RendererId) (p : DaemonPool) : DaemonLabel → Prop
  | .run i x => ∀ c ∈ (p.tasks[i]?.bind fun t => t.stack.head?), c.delivered r p.shared x = true
  | .drop i => ∀ t ∈ p.tasks[i]?, ∀ c ∈ t.stack, c.carries r = none
  | _ => True

/-- A message for renderer `r` is written only when no earlier pass has one left for it. -/
def WritesInOrder (r : RendererId) (p : DaemonPool) : DaemonLabel → Prop
  | .run i _ => ∀ c ∈ (p.tasks[i]?.bind fun t => t.stack.head?), ∀ d ∈ c.writes r,
      ∀ e ∈ pending (Call.carries r) p.tasks, d.pass ≤ e.pass
  | _ => True

instance (r : RendererId) (p : DaemonPool) : DecidablePred (Delivers r p)
  | .run _ _ | .drop _ => inferInstanceAs (Decidable (∀ _ ∈ _, _))
  | .wake _ | .start _ | .env _ => isTrue trivial

instance (r : RendererId) (p : DaemonPool) : DecidablePred (WritesInOrder r p)
  | .run _ _ => inferInstanceAs (Decidable (∀ _ ∈ _, _))
  | .drop _ | .wake _ | .start _ | .env _ => isTrue trivial

/-- What has been decided for renderer `r` is what has been written to its socket followed by what
is still to be written. -/
structure WrittenInOrder (r : RendererId) (p : DaemonPool) : Prop where
  queue : ∃ ds, decidedFor r p.shared.history.decided = writtenTo p.shared r ++ ds ∧
    (pending (Call.carries r) p.tasks).Perm ds
  sorted : (decidedFor r p.shared.history.decided).Pairwise (·.pass < ·.pass)
  passes : ∀ d ∈ decidedFor r p.shared.history.decided, d.pass < p.shared.history.passes

section Exec

variable {x : Choice} {fresh : ℕ} {s : Daemon} {c k : Call} {o : Step} {r : RendererId}

theorem Call.Continues.carries (h : c.Continues fresh s k) (hr : c ≠ .router .reconcileLifecycle)
    (hs : ∀ d, c ≠ .router (.sendLifecycle d)) : k.carries r = none := by
  cases h <;> first | rfl | exact absurd rfl hr | exact absurd rfl (hs _) | skip
  all_goals simp [Call.carries, Call.writes, ControlMsg.lifecycle]

theorem pending_carries_spawn (h : c.exec x fresh s = some o) :
    pending (Call.carries r) o.spawn = [] := by
  obtain hs | ⟨t, hs, ht⟩ := Call.spawns h
  · rw [hs]
    rfl
  · rw [hs]
    cases ht <;> rfl

theorem writtenTo_congr {t : Daemon} (h : t.sockets = s.sockets) :
    writtenTo t r = writtenTo s r := by
  rw [writtenTo, h, writtenTo]

theorem writtenTo_update {t : Daemon} {q : RendererId} {msg : ControlMsg} {pass : ℕ}
    (h : t.sockets = Function.update s.sockets q (s.sockets q ++ [(msg, pass)])) :
    writtenTo t r = writtenTo s r ++
      (if q = r then msg.lifecycle.map (Decision.mk pass r) else none).toList := by
  rw [writtenTo, h]
  by_cases hq : q = r
  · subst hq
    rw [Function.update_self, List.filterMap_append, if_pos rfl]
    cases hm : msg.lifecycle <;> simp [writtenTo, hm]
  · have hr : r ≠ q := fun e => hq e.symm
    rw [Function.update_of_ne hr, if_neg hq]
    exact (List.append_nil _).symm

/-- A message that is carried is passed on, or written. -/
theorem carried (ho : c.exec x fresh s = some o) (hd : c.delivered r s x = true)
    (hr : c ≠ .router .reconcileLifecycle) :
    (o.next.filterMap (Call.carries r) = (c.carries r).toList ∧
      writtenTo o.shared r = writtenTo s r) ∨
    (o.next.filterMap (Call.carries r) = [] ∧ c.carries r = c.writes r ∧
      writtenTo o.shared r = writtenTo s r ++ (c.writes r).toList) := by
  have hsock := Call.sockets_exec ho
  by_cases hs : ∃ d, c = .router (.sendLifecycle d)
  · obtain ⟨d, rfl⟩ := hs
    refine .inl ⟨?_, writtenTo_congr hsock⟩
    simp only [Call.delivered, Bool.or_eq_true, bne_iff_ne] at hd
    cases ho
    by_cases hdr : d.renderer = r
    · subst hdr
      have hk := hd.resolve_left (· rfl)
      simp [onlyIf, hk, Call.carries, Call.writes]
    · cases hk : s.managed.containsKey d.renderer <;>
        simp [onlyIf, Call.carries, Call.writes, hdr]
  have hnil : o.next.filterMap (Call.carries r) = [] := List.filterMap_eq_nil_iff.2 fun k hk =>
    (Call.continues ho hk).carries hr fun d h => hs ⟨d, h⟩
  have hcarries : c.carries r = c.writes r := by
    cases c with
    | router c => cases c <;> first | rfl | exact absurd ⟨_, rfl⟩ hs
    | _ => rfl
  refine .inr ⟨hnil, hcarries, ?_⟩
  cases c with
  | manager c =>
    cases c with
    | writeControl q msg pass =>
      simp only [Call.delivered, Bool.or_eq_true] at hd
      simp only [Call.writes] at hd ⊢
      cases x with
      | fail | peerGone =>
        rw [writtenTo_congr hsock]
        cases hw : (if q = r then msg.lifecycle.map fun m => Decision.mk pass r m else none) with
        | none => exact (List.append_nil _).symm
        | some d => simp [hw] at hd
      | _ => exact writtenTo_update hsock
    | writeNegotiate q scheme =>
      cases x with
      | fail | peerGone => exact (writtenTo_congr hsock).trans (List.append_nil _).symm
      | _ =>
        rw [writtenTo_update hsock]
        simp [ControlMsg.lifecycle, Call.writes]
    | _ => exact (writtenTo_congr hsock).trans (List.append_nil _).symm
  | _ => exact (writtenTo_congr hsock).trans (List.append_nil _).symm

end Exec

/-- The member of a strictly sorted list that is least is its head. -/
theorem eq_head_of_le {d : Decision} {ds : List Decision} (hs : ds.Pairwise (·.pass < ·.pass))
    (hd : d ∈ ds) (hle : ∀ e ∈ ds, d.pass ≤ e.pass) : ∃ es, ds = d :: es := by
  cases ds with
  | nil => cases hd
  | cons a es =>
    obtain rfl | hd := List.mem_cons.1 hd
    · exact ⟨es, rfl⟩
    · have hlt := (List.pairwise_cons.1 hs).1 d hd
      have hle := hle a List.mem_cons_self
      omega

section Run

variable {p : DaemonPool} {i : ℕ} {x : Choice} {t : DaemonTask} {c : Call} {rest : List Call}
  {o : Step} {r : RendererId}

theorem decidedFor_append (ds es : List Decision) :
    decidedFor r (ds ++ es) = decidedFor r ds ++ decidedFor r es :=
  List.filter_append ..

theorem filterMap_carries (ds : List Decision) :
    (ds.map fun d => Call.router (.sendLifecycle d)).filterMap (Call.carries r) =
      decidedFor r ds := by
  induction ds with
  | nil => rfl
  | cons d ds ih =>
    rw [List.map_cons, List.filterMap_cons, ih]
    by_cases h : d.renderer = r <;> simp [Call.carries, decidedFor, h]

/-- A pass decides at most one message for each renderer. -/
theorem length_decidedFor_le (s : Daemon) (n : ℕ) :
    (decidedFor r ((s.inner.reconcileLifecycle s.settings).2.map fun q =>
      Decision.mk n q.1 q.2)).length ≤ 1 := by
  have h := told_map r n (s.inner.reconcileLifecycle s.settings).2
  rw [Inner.messagesTo_reconcileLifecycle] at h
  have hlen := congrArg List.length h
  rw [told, List.length_map] at hlen
  rw [decidedFor, hlen]
  split
  · exact Inner.length_diff_le ..
  · exact Nat.zero_le 1

theorem WrittenInOrder.reconcile (hp : WrittenInOrder r p) (ht : p.tasks[i]? = some t)
    (hc : t.stack = .router .reconcileLifecycle :: rest)
    (ho : (Call.router .reconcileLifecycle).exec x p.tasks.length p.shared = some o) :
    WrittenInOrder r (p.resume i t rest o) := by
  obtain ⟨ds, hq, hperm⟩ := hp.queue
  obtain ⟨others, h₁, h₂⟩ := pending_resume_perm ht hc o (Call.carries r)
  have hhist : o.shared.history = _ := Call.history_exec ho
  have hdecided := congrArg History.decided hhist
  have hpasses := congrArg History.passes hhist
  set new := (p.shared.inner.reconcileLifecycle p.shared.settings).2.map fun q =>
    Decision.mk p.shared.history.passes q.1 q.2 with hnew
  have hfor : decidedFor r o.shared.history.decided =
      decidedFor r p.shared.history.decided ++ decidedFor r new := by
    rw [hdecided]
    exact decidedFor_append _ _
  have hnext : o.next.filterMap (Call.carries r) = decidedFor r new := by
    cases ho
    rw [List.filterMap_append, filterMap_carries]
    refine List.append_right_eq_self.2 (List.filterMap_eq_nil_iff.2 fun k hk => ?_)
    obtain ⟨d, -, rfl⟩ := List.mem_map.1 hk
    rfl
  have hpass : ∀ d ∈ decidedFor r new, d.pass = p.shared.history.passes := by
    intro d hd
    obtain ⟨q, -, rfl⟩ := List.mem_map.1 (List.mem_filter.1 hd).1
    rfl
  rw [hnext, pending_carries_spawn ho, List.append_nil] at h₂
  refine ⟨⟨ds ++ decidedFor r new, ?_, ?_⟩, ?_, ?_⟩
  · have hw : writtenTo o.shared r = writtenTo p.shared r :=
      writtenTo_congr (Call.sockets_exec ho)
    simp only [Pool.resume]
    rw [hfor, hw, hq, List.append_assoc]
  · refine (h₂.trans List.perm_append_comm).trans (List.Perm.append_right _ ?_)
    exact h₁.symm.trans hperm
  · simp only [Pool.resume]
    rw [hfor, List.pairwise_append]
    refine ⟨hp.sorted, ?_, fun a ha b hb => ?_⟩
    · have hlen := length_decidedFor_le (r := r) p.shared p.shared.history.passes
      rcases hm : decidedFor r new with _ | ⟨d, _ | ⟨e, l⟩⟩
      · exact .nil
      · exact List.pairwise_singleton _ _
      · simp [← hnew, hm] at hlen
    · rw [hpass b hb]
      exact hp.passes a ha
  · intro d hd
    simp only [Pool.resume] at hd ⊢
    rw [hpasses]
    rw [hfor] at hd
    show d.pass < p.shared.history.passes + 1
    obtain hd | hd := List.mem_append.1 hd
    · have := hp.passes d hd
      omega
    · have := hpass d hd
      omega

theorem WrittenInOrder.exec (hp : WrittenInOrder r p) (ht : p.tasks[i]? = some t)
    (hc : t.stack = c :: rest) (hr : c ≠ .router .reconcileLifecycle)
    (ho : c.exec x p.tasks.length p.shared = some o)
    (hd : c.delivered r p.shared x = true)
    (hw : ∀ d ∈ c.writes r, ∀ e ∈ pending (Call.carries r) p.tasks, d.pass ≤ e.pass) :
    WrittenInOrder r (p.resume i t rest o) := by
  obtain ⟨ds, hq, hperm⟩ := hp.queue
  obtain ⟨others, h₁, h₂⟩ := pending_resume_perm ht hc o (Call.carries r)
  have hhist : o.shared.history = _ := Call.history_exec ho
  have hdecided : o.shared.history.decided = p.shared.history.decided := by
    rw [congrArg History.decided hhist]
    cases c with
    | router c => cases c <;> first | rfl | exact absurd rfl hr
    | _ => rfl
  have hpasses : o.shared.history.passes = p.shared.history.passes := by
    rw [congrArg History.passes hhist]
    cases c with
    | router c => cases c <;> first | rfl | exact absurd rfl hr
    | _ => rfl
  rw [pending_carries_spawn ho, List.append_nil] at h₂
  refine ⟨?_, ?_, ?_⟩
  · simp only [Pool.resume]
    rw [hdecided]
    obtain ⟨hnext, hwr⟩ | ⟨hnext, hcar, hwr⟩ := carried ho hd hr
    · rw [hnext] at h₂
      exact ⟨ds, by rw [hwr, hq], h₂.trans (h₁.symm.trans hperm)⟩
    · rw [hnext, List.nil_append] at h₂
      rw [hcar] at h₁
      cases hd' : c.writes r with
      | none =>
        rw [hd'] at h₁ hwr
        exact ⟨ds, by rw [hwr, hq]; simp, h₂.trans (h₁.symm.trans hperm)⟩
      | some d =>
        rw [hd'] at h₁ hwr hw
        have hds := h₁.symm.trans hperm
        have hsorted : ds.Pairwise (·.pass < ·.pass) :=
          (List.pairwise_append.1 (hq ▸ hp.sorted)).2.1
        -- the message written is the oldest of those that were left
        obtain ⟨es, rfl⟩ := eq_head_of_le hsorted (hds.mem_iff.1 (by simp)) fun e he =>
          hw d rfl e (hperm.mem_iff.2 he)
        refine ⟨es, by rw [hwr, hq]; simp, h₂.trans ?_⟩
        exact (List.perm_cons d).1 hds
  · simp only [Pool.resume]
    rw [hdecided]
    exact hp.sorted
  · simp only [Pool.resume]
    rw [hdecided, hpasses]
    exact hp.passes

theorem Call.carries_of_isRequested {c : Call} (h : c.isRequested = true) :
    c.carries r = none := by
  cases c with
  | router c => cases c <;> first | rfl | cases h
  | manager c => cases c <;> first | rfl | cases h
  | _ => rfl

theorem WrittenInOrder.congr {p' : DaemonPool} (hp : WrittenInOrder r p)
    (hdecided : p'.shared.history.decided = p.shared.history.decided)
    (hpasses : p'.shared.history.passes = p.shared.history.passes)
    (hsockets : p'.shared.sockets = p.shared.sockets)
    (hpending : (pending (Call.carries r) p'.tasks).Perm (pending (Call.carries r) p.tasks)) :
    WrittenInOrder r p' := by
  obtain ⟨ds, hq, hperm⟩ := hp.queue
  refine ⟨⟨ds, ?_, hpending.trans hperm⟩, hdecided ▸ hp.sorted, hdecided ▸ hpasses ▸ hp.passes⟩
  rw [hdecided, writtenTo_congr hsockets, hq]

theorem WrittenInOrder.step {p' : DaemonPool} {l : DaemonLabel} (hp : WrittenInOrder r p)
    (hC : Delivers r p l ∧ WritesInOrder r p l) (h : semantics.step p l = some p') :
    WrittenInOrder r p' := by
  refine Semantics.preserves (C := fun p l => Delivers r p l ∧ WritesInOrder r p l)
    ?_ ?_ ?_ ?_ ?_ p l p' hp hC h
  · intro p i x t c rest o hp hC ht _ hc ho
    have hex : c ∈ p.tasks[i]?.bind fun t => t.stack.head? := by simp [ht, hc]
    by_cases hr : c = .router .reconcileLifecycle
    · subst hr
      exact hp.reconcile (x := x) ht hc ho
    · exact hp.exec ht hc hr ho (hC.1 c hex) (hC.2 c hex)
  · exact fun p i t hp _ ht _ => hp.congr rfl rfl rfl (.of_eq (pending_wake ht _))
  · intro p i t hp hC ht _
    have hperm := pending_drop_perm ht (Call.carries r)
    rw [List.filterMap_eq_nil_iff.2 fun c hc => hC.1 t ht c hc, List.nil_append] at hperm
    exact hp.congr rfl rfl rfl hperm.symm
  · intro p q s t hp _ hq
    have hpend := Request.pending_accept (f := Call.carries r)
      (fun _ => Call.carries_of_isRequested) hq p.tasks
    obtain rfl | ⟨k, -, rfl⟩ := Request.accept_shared hq <;>
      exact hp.congr rfl rfl rfl (.of_eq hpend)
  · intro p e s hp _ he
    cases he
    cases e <;> exact hp.congr rfl rfl rfl .rfl

end Run

theorem writtenInOrder_start (r : RendererId) (registry : HashMap String (List String)) :
    WrittenInOrder r (start registry) :=
  ⟨⟨[], rfl, .rfl⟩, .nil, nofun⟩

/-- The last lifecycle message written to renderer `r`'s socket. -/
def lastWritten (s : Daemon) (r : RendererId) : Option Lifecycle :=
  (writtenTo s r).getLast?.map Decision.message

/-- When the messages for a renderer are written in the order of their passes, and none is left,
the last one written says whether the renderer is in the paused set. -/
theorem lastWritten_eq_pause_iff {registry : HashMap String (List String)}
    {ls : List DaemonLabel} {p : DaemonPool} (hrun : Run registry ls p) (r : RendererId)
    (hd : Transition.Along semantics.step (Delivers r) (start registry) ls)
    (hw : Transition.Along semantics.step (WritesInOrder r) (start registry) ls)
    (hdone : pending (Call.carries r) p.tasks = []) (hr : r ∈ p.shared.inner.table.rendererIds) :
    lastWritten p.shared r = some .pause ↔ r ∈ p.shared.inner.pausedRenderers := by
  have hp : WrittenInOrder r p := Transition.invariant_of_run (fun _ _ _ hp hC h => hp.step hC h)
    (writtenInOrder_start r registry) (hd.and hw) hrun
  obtain ⟨ds, hq, hperm⟩ := hp.queue
  rw [hdone, List.nil_perm] at hperm
  rw [hperm, List.append_nil] at hq
  have halt := (alternation_of_run hrun).2
  have hlast : lastWritten p.shared r = (told r p.shared.history.decided).getLast? := by
    rw [lastWritten, ← hq, told, List.getLast?_map]
    rfl
  rw [hlast, (halt.alternates r).getLast?, halt.paused r hr]

/-! ## Two passes -/

/-- A renderer is spawned and a display comes to show it. -/
def sceneShown : List DaemonLabel :=
  sceneSpawned ++
  [.start (.router (.registerDisplay ⟨"A", none, 1920, 1080, 60, ⟨0, 0⟩, none⟩ false))] ++
  List.replicate 9 (.run 4 .tick)

/-- The user pauses, and plays again once the pause has been written. -/
def pausedThenPlayed : List DaemonLabel :=
  sceneShown ++ .start (.router (.setManualPause true)) :: List.replicate 6 (.run 5 .tick) ++
  .start (.router (.setManualPause false)) :: List.replicate 6 (.run 6 .tick)

def played : DaemonPool :=
  Transition.reached semantics.step (start sceneRegistry) pausedThenPlayed (by decide +kernel)

theorem lastWritten_eq_pause_iff_played : lastWritten played.shared 7 ≠ some .pause := by
  have hrun : Run sceneRegistry pausedThenPlayed played := Transition.run_reached _ _
  have h := lastWritten_eq_pause_iff hrun 7 (by decide) (by decide)
    (by decide) (by decide)
  rw [Ne, h]
  decide

/-- The pass of the pause decides, the pass of the play decides and writes, and then the pause is
written. -/
def pauseOvertaken : List DaemonLabel :=
  sceneShown ++ .start (.router (.setManualPause true)) :: List.replicate 2 (.run 5 .tick) ++
  .start (.router (.setManualPause false)) :: List.replicate 6 (.run 6 .tick) ++
  List.replicate 4 (.run 5 .tick)

def overtaken : DaemonPool :=
  Transition.reached semantics.step (start sceneRegistry) pauseOvertaken (by decide +kernel)

/-- The interleaving of two passes decides which of their messages comes last. -/
theorem lastWritten_overtaken :
    ¬∀ (registry : HashMap String (List String)) (ls : List DaemonLabel) (p : DaemonPool),
      Run registry ls p → ∀ r, Transition.Along semantics.step (Delivers r) (start registry) ls →
      .router .reconcileLifecycle ∉ calls p.tasks → pending (Call.carries r) p.tasks = [] →
      r ∈ p.shared.inner.table.rendererIds →
      (lastWritten p.shared r = some .pause ↔ r ∈ p.shared.inner.pausedRenderers) := by
  intro h
  have hnone : (calls overtaken.tasks).all (fun c => !c.isReconcile) = true := by decide
  have hiff := h sceneRegistry pauseOvertaken overtaken (Transition.run_reached _ _) 7
    (by decide)
    (fun hm => by simpa [Call.isReconcile] using List.all_eq_true.1 hnone _ hm)
    (by decide) (by decide)
  revert hiff
  decide

end Waywallen
