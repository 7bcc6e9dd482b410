import Waywallen.Daemon.Channels
import Waywallen.Daemon.Registration

/-!
# Acquire fences

A frame waits on the channel of its display, its acquire fence in a ring of its renderer. An
endpoint that finds no fence for its frame ends the connection, so the fences must outlast the
frames.
-/

namespace Waywallen

open TaskPool

/-- The fences that a call drops. -/
def Call.dropsFences (x : Choice) (s : Daemon) : Call → List (RendererId × ℕ)
  | reader (.readerLoop r) =>
      match x with
      | .received (.frameReady _ _ _) =>
          let fds := (s.slots r).syncFds
          (fds.take (fds.length + 1 - syncFdRetention)).map (r, ·)
      | _ => []
  | reader (.clearSyncFds r) => (s.slots r).syncFds.map (r, ·)
  | _ => []

/-- The call sends a frame to some display after its fence has been dropped. -/
def Call.late (s : Daemon) : Call → Bool
  | router (.onRendererFrame r _ seq _) =>
      !(s.slots r).cloneSyncFd seq &&
        (s.slots r).generation.any fun g => !(s.inner.frameRecipients r g).isEmpty
  | _ => false

/-- The frame of renderer `r` that an event is. -/
def DisplayOutEvent.frameSeq (r : RendererId) : DisplayOutEvent → Option ℕ
  | .frame q _ _ seq _ _ => if q = r then some seq else none
  | _ => none

/-- What an endpoint has still to take off the channel of display `d`. -/
def Daemon.queued (s : Daemon) (d : DisplayId) : List DisplayOutEvent :=
  ((s.channels d).drop (s.taken d)).map Dispatch.event

/-- The event an endpoint is about to forward. -/
def Call.delivers : Call → Option DisplayOutEvent
  | endpoint (.deliver _ e) => some e
  | _ => none

/-- The frames of renderer `r` that have not been forwarded yet. -/
def waitingFrames (p : DaemonPool) (r : RendererId) : List ℕ :=
  (((List.range (p.shared.inner.nextDisplayId + 1)).flatMap p.shared.queued) ++
    pending Call.delivers p.tasks).filterMap (DisplayOutEvent.frameSeq r)

/-- A fence is dropped when its frame has been forwarded, and a frame is sent while its fence is
kept. -/
def FencesOutlast (p : DaemonPool) : DaemonLabel → Prop
  | .run i x => ∀ c ∈ (p.tasks[i]?.bind fun t => t.stack.head?),
      (∀ f ∈ c.dropsFences x p.shared, f.2 ∉ waitingFrames p f.1) ∧ c.late p.shared = false
  | _ => True

/-- What is needed to forward an event is there, and its renderer's slots will not be reset. -/
def Daemon.Ready (s : Daemon) : DisplayOutEvent → Prop
  | .bind r => r ∈ s.history.used ∧ (s.slots r).bindSnapshot ≠ none
  | .frame r _ _ seq _ _ => r ∈ s.history.used ∧ seq ∈ (s.slots r).syncFds
  | _ => True

/-- All events still to be forwarded can be. -/
structure Forwardable (p : DaemonPool) : Prop where
  fresh : ChannelsFresh p.shared
  registered : RegisteredOnce p
  consistent : ∀ r snap, (p.shared.slots r).bindSnapshot = some snap → snap.consistent = true
  queued : ∀ d, ∀ e ∈ p.shared.queued d, p.shared.Ready e
  delivered : ∀ e ∈ pending Call.delivers p.tasks, p.shared.Ready e

section Exec

variable {x : Choice} {fresh : ℕ} {s : Daemon} {c k : Call} {o : Step} {d : DisplayId}
  {r : RendererId} {e : DisplayOutEvent}

theorem used_mono (ho : c.exec x fresh s = some o) (hr : r ∈ s.history.used) :
    r ∈ o.shared.history.used := by
  rw [Call.history_exec ho]
  show r ∈ c.usedAfter x s
  unfold Call.usedAfter
  repeat' split
  all_goals first
    | exact hr
    | exact List.mem_cons_of_mem _ hr

theorem not_used_of_spawn {req : SpawnRequest} {purpose : Purpose} {id : RendererId}
    {pid : Option ℕ} {gpu : DrmNode} {reaper : Bool} {name : String}
    (ho : (Call.apply (.spawn req purpose)).exec (.spawned id pid gpu reaper) fresh s = some o)
    (hn : s.resolve req = some name) : id ∉ s.history.used := by
  intro hid
  simp only [Call.exec, ApplyCall.exec, hn] at ho
  rw [if_pos hid] at ho
  cases ho

/-- The pool of a renderer is replaced, but never taken away. -/
theorem bindSnapshot_ne_none (ho : c.exec x fresh s = some o) (hr : r ∈ s.history.used)
    (h : (s.slots r).bindSnapshot ≠ none) : (o.shared.slots r).bindSnapshot ≠ none := by
  rw [(Call.slotsFrame_exec ho r).bindSnapshot]
  unfold Call.snapshotAfter
  split
  · repeat' split
    all_goals first
      | exact h
      | exact Option.some_ne_none _
  · split
    · rename_i hn
      split
      · rename_i hid
        subst hid
        exact absurd hr (not_used_of_spawn ho hn)
      · exact h
    · exact h
  · exact h

/-- A fence is kept unless the call drops it. -/
theorem mem_syncFds_exec {seq : ℕ} (ho : c.exec x fresh s = some o) (hr : r ∈ s.history.used)
    (h : seq ∈ (s.slots r).syncFds) (hdrop : (r, seq) ∉ c.dropsFences x s) :
    seq ∈ (o.shared.slots r).syncFds := by
  rw [(Call.slotsFrame_exec ho r).syncFds]
  unfold Call.syncFdsAfter
  split
  · split
    · split
      · rename_i hq
        subst hq
        rw [Slots.pushSyncFd]
        refine List.mem_append_left _ ?_
        rw [← List.take_append_drop ((s.slots r).syncFds.length + 1 - syncFdRetention)
          (s.slots r).syncFds, List.mem_append] at h
        rcases h with h | h
        · exact absurd (List.mem_map_of_mem h) hdrop
        · exact h
      · exact h
    · exact h
  · split
    · rename_i hq
      subst hq
      exact absurd (List.mem_map_of_mem h) hdrop
    · exact h
  · split
    · rename_i hn
      split
      · rename_i hid
        subst hid
        exact absurd hr (not_used_of_spawn ho hn)
      · exact h
    · exact h
  · exact h

theorem Daemon.Ready.exec (h : s.Ready e) (ho : c.exec x fresh s = some o)
    (hdrop : ∀ f ∈ c.dropsFences x s, e.frameSeq f.1 ≠ some f.2) : o.shared.Ready e := by
  cases e with
  | bind r => exact ⟨used_mono ho h.1, bindSnapshot_ne_none ho h.1 h.2⟩
  | frame r g i seq point n =>
    refine ⟨used_mono ho h.1, mem_syncFds_exec ho h.1 h.2 fun hf => hdrop _ hf ?_⟩
    simp [DisplayOutEvent.frameSeq]
  | _ => trivial

/-- What is sent can be forwarded. -/
theorem ready_dispatched (hused : ∀ r ∈ s.inner.table.rendererIds, r ∈ s.history.used)
    (hlate : c.late s = false) {e : Dispatch} (he : e ∈ c.dispatched s d) : s.Ready e.event := by
  cases e with
  | bind r g =>
    obtain ⟨rfl, l, k, htarget, rfl⟩ := Call.eq_syncDisplay_of_bind he
    obtain ⟨-, hk, hid, hg⟩ := Inner.syncTarget_eq_some.1 htarget
    refine ⟨hused _ ?_, fun hnone => ?_⟩
    · rw [hid, RoutingTable.mem_rendererIds, hk]
      rfl
    · rw [hid] at hnone
      simp [Slots.generation, hnone] at hg
  | frame r g i seq point n =>
    rcases Call.frame_dispatched he with ⟨rfl, hr, hg, hd, -⟩ |
      ⟨rfl, -, l, k, htarget, rfl, hreplay⟩
    · refine ⟨hused r (RoutingTable.mem_rendererIds.2 hr), ?_⟩
      simp only [Call.late, hg, Option.any_some, Bool.and_eq_false_iff, Bool.not_eq_false',
        List.isEmpty_iff] at hlate
      rcases hlate with hseq | hnil
      · exact List.contains_iff_mem.1 hseq
      · rw [hnil] at hd
        cases hd
    · obtain ⟨-, hk, hid, -⟩ := Inner.syncTarget_eq_some.1 htarget
      refine ⟨hused _ ?_, ?_⟩
      · rw [hid, RoutingTable.mem_rendererIds, hk]
        rfl
      · obtain ⟨-, hseq⟩ := Option.filter_eq_some_iff.1 hreplay
        exact List.contains_iff_mem.1 hseq
  | _ => trivial

theorem mem_queued_exec (ho : c.exec x fresh s = some o) (he : e ∈ o.shared.queued d) :
    e ∈ s.queued d ∨ ∃ e' ∈ c.dispatched s d, e'.event = e := by
  obtain ⟨e', he', rfl⟩ := List.mem_map.1 he
  rw [Call.channels_exec ho] at he'
  have hmem := (List.drop_sublist_drop_left _ (taken_le ho d)).subset he'
  rw [List.drop_append] at hmem
  rcases List.mem_append.1 hmem with hmem | hmem
  · exact .inl (List.mem_map_of_mem hmem)
  · exact .inr ⟨e', List.mem_of_mem_drop hmem, rfl⟩

/-- What is to be forwarded was taken off the channel. -/
theorem queued_of_delivers (ho : c.exec x fresh s = some o) (hk : k ∈ o.next)
    (he : k.delivers = some e) : ∃ d, e ∈ s.queued d := by
  cases Call.continues ho hk with
  | @frameDeliver d e' hd =>
    obtain rfl := Option.some_inj.1 he
    refine ⟨d, List.mem_map_of_mem ?_⟩
    exact List.mem_of_getElem? ((List.getElem?_drop (j := 0)).trans hd)
  | _ => cases he

theorem delivers_spawn (ho : c.exec x fresh s = some o) : pending Call.delivers o.spawn = [] := by
  refine List.filterMap_eq_nil_iff.2 fun k hk => ?_
  obtain hs | ⟨t, hs, ht⟩ := Call.spawns ho
  · simp [hs] at hk
  · rw [hs, calls_cons, calls_nil, List.append_nil] at hk
    cases ht <;> obtain rfl := List.mem_singleton.1 hk <;> rfl

theorem consistent_exec (ho : c.exec x fresh s = some o)
    (h : ∀ r snap, (s.slots r).bindSnapshot = some snap → snap.consistent = true) {snap : BindSnapshot}
    (hr : (o.shared.slots r).bindSnapshot = some snap) : snap.consistent = true := by
  rw [(Call.slotsFrame_exec ho r).bindSnapshot] at hr
  unfold Call.snapshotAfter at hr
  split at hr
  · split at hr
    · split at hr
      · rename_i ha
        obtain rfl := Option.some_inj.1 hr
        have hacc := ha.2
        rw [BindSnapshot.accepted, Bool.and_eq_true] at hacc
        exact hacc.1
      · exact h r snap hr
    · exact h r snap hr
  · repeat' split at hr
    all_goals first
      | exact h r snap hr
      | cases hr
  · exact h r snap hr

end Exec

section Run

variable {p p' : DaemonPool} {l : DaemonLabel}

theorem Call.delivers_of_isRequested {c : Call} (h : c.isRequested = true) :
    c.delivers = none := by
  cases c with
  | endpoint c => cases h
  | _ => rfl

/-- An event that waits does so for a frame of the renderers listed. -/
theorem mem_waitingFrames {e : DisplayOutEvent} {r : RendererId} {seq : ℕ} (hp : Forwardable p)
    (he : (∃ d, e ∈ p.shared.queued d) ∨ e ∈ pending Call.delivers p.tasks)
    (hseq : e.frameSeq r = some seq) : seq ∈ waitingFrames p r := by
  refine List.mem_filterMap.2 ⟨e, List.mem_append.2 (he.imp (fun ⟨d, hd⟩ => ?_) id), hseq⟩
  refine List.mem_flatMap.2 ⟨d, List.mem_range.2 (Nat.lt_succ_of_le ?_), hd⟩
  by_contra hlt
  rw [Daemon.queued, hp.fresh.empty d (not_le.1 hlt), List.drop_nil] at hd
  cases hd

theorem Forwardable.step (hp : Forwardable p) (hC : FencesOutlast p l)
    (h : semantics.step p l = some p') : Forwardable p' := by
  have hreg := hp.registered.step h
  revert hreg
  refine Semantics.preserves (I := fun p => RegisteredOnce p → Forwardable p)
    (C := fun p l => Forwardable p ∧ FencesOutlast p l) ?_ ?_ ?_ ?_ ?_ p l p' (fun _ => hp) ⟨hp, hC⟩ h
  · intro p i x t c rest o _ ⟨hp, hC⟩ ht _ hc ho hreg
    obtain ⟨hdrop, hlate⟩ := hC c (by simp [ht, hc])
    have hused : ∀ r ∈ p.shared.inner.table.rendererIds, r ∈ p.shared.history.used :=
      fun r hr => by
        have honce := hp.registered.once r
        have hpos := List.count_pos_iff.2 (hp.registered.registered r hr)
        by_contra hnot
        rw [if_neg hnot] at honce
        omega
    have hold {e : DisplayOutEvent}
        (he : (∃ d, e ∈ p.shared.queued d) ∨ e ∈ pending Call.delivers p.tasks)
        (hr : p.shared.Ready e) : o.shared.Ready e :=
      hr.exec ho fun f hf hseq => hdrop f hf (mem_waitingFrames hp he hseq)
    refine ⟨hp.fresh.exec ho, hreg, fun r snap hr => consistent_exec ho hp.consistent hr,
      fun d e he => ?_, fun e he => ?_⟩
    · rcases mem_queued_exec ho he with he | ⟨e', he', rfl⟩
      · exact hold (.inl ⟨d, he⟩) (hp.queued d e he)
      · refine (ready_dispatched hused hlate he').exec ho fun f hf => ?_
        -- a call that sends something drops no fences
        cases c with
        | reader c => cases he'
        | _ => cases hf
    · obtain ⟨others, hbefore, hafter⟩ := pending_resume_perm ht hc o Call.delivers
      rw [delivers_spawn ho, List.append_nil] at hafter
      rcases List.mem_append.1 (hafter.mem_iff.1 he) with he | he
      · obtain ⟨k, hk, hke⟩ := List.mem_filterMap.1 he
        obtain ⟨d, hd⟩ := queued_of_delivers ho hk hke
        exact hold (.inl ⟨d, hd⟩) (hp.queued d e hd)
      · have hmem := hbefore.mem_iff.2 (List.mem_append_right _ he)
        exact hold (.inr hmem) (hp.delivered e hmem)
  · intro p i t _ ⟨hp, _⟩ ht _ hreg
    exact ⟨hp.fresh, hreg, hp.consistent, hp.queued, pending_wake ht _ ▸ hp.delivered⟩
  · intro p i t _ ⟨hp, _⟩ ht _ hreg
    refine ⟨hp.fresh, hreg, hp.consistent, hp.queued, fun e he => hp.delivered e ?_⟩
    exact (pending_drop_perm ht _).mem_iff.2 (List.mem_append_right _ he)
  · intro p q s t _ ⟨hp, _⟩ ha hreg
    have hdelivered := Request.pending_accept (fun _ => Call.delivers_of_isRequested) ha p.tasks
    have hready {e : DisplayOutEvent} (he : p.shared.Ready e) : s.Ready e := by
      obtain rfl | ⟨id, -, rfl⟩ := Request.accept_shared ha
      · exact he
      · cases e with
        | bind r => exact ⟨List.mem_cons_of_mem _ he.1, he.2⟩
        | frame r g i seq point n => exact ⟨List.mem_cons_of_mem _ he.1, he.2⟩
        | _ => trivial
    have hsame : s.slots = p.shared.slots ∧ s.queued = p.shared.queued := by
      obtain rfl | ⟨id, -, rfl⟩ := Request.accept_shared ha <;> exact ⟨rfl, rfl⟩
    refine ⟨hp.fresh.accept ha, hreg, ?_, fun d e he => hready ?_, fun e he => hready ?_⟩
    · show ∀ r snap, (s.slots r).bindSnapshot = some snap → snap.consistent = true
      rw [hsame.1]
      exact hp.consistent
    · exact hp.queued d e (hsame.2 ▸ he)
    · exact hp.delivered e (hdelivered ▸ he)
  · intro p e s _ ⟨hp, _⟩ ha hreg
    obtain rfl := Option.some_inj.1 ha
    refine ⟨hp.fresh.act e, hreg, ?_, ?_, ?_⟩ <;> cases e <;>
      first | exact hp.consistent | exact hp.queued | exact hp.delivered

theorem forwardable_start (registry : HashMap String (List String)) :
    Forwardable (start registry) where
  fresh := channelsFresh_initial registry
  registered := registeredOnce_start registry
  consistent r snap hr := by cases hr
  queued d e he := by simp [start, Daemon.initial, Daemon.queued] at he
  delivered e he := by simp [start, pending, Call.delivers] at he

/-- If the fences outlast the frames, every event that an endpoint has taken off its channel is
forwarded. -/
theorem forwards_of_fencesOutlast {registry : HashMap String (List String)}
    {ls : List DaemonLabel} {p : DaemonPool} (hrun : Run registry ls p)
    (hC : Transition.Along semantics.step FencesOutlast (start registry) ls) {d : DisplayId}
    {e : DisplayOutEvent} (he : .endpoint (.deliver d e) ∈ calls p.tasks) :
    ∃ w record, (EndpointCall.deliver d e).exec .tick p.shared =
      p.shared.andThen [.endpoint (.write d w record)] := by
  have hp : Forwardable p := Transition.invariant_of_run
    (fun p l p' hp hC h => hp.step hC h) (forwardable_start registry) hC hrun
  have hready := hp.delivered e (mem_pending.2 ⟨_, he, rfl⟩)
  cases e with
  | bind r =>
    obtain ⟨snap, hsnap⟩ := Option.ne_none_iff_exists'.1 hready.2
    refine ⟨.bindBuffers r snap, none, ?_⟩
    simp [EndpointCall.exec, hsnap, hp.consistent r snap hsnap]
  | unbind g => exact ⟨_, _, rfl⟩
  | setConfig cfg => exact ⟨_, _, rfl⟩
  | frame r g i seq point n =>
    refine ⟨.frameReady r g i seq, some ⟨point, some d, n⟩, ?_⟩
    have hseq : (p.shared.slots r).cloneSyncFd seq = true := List.contains_iff_mem.2 hready.2
    simp [EndpointCall.exec, hseq]

theorem exists_deliver {ts : List DaemonTask} {e : DisplayOutEvent}
    (he : e ∈ pending Call.delivers ts) : ∃ d, .endpoint (.deliver d e) ∈ calls ts := by
  obtain ⟨c, hc, hce⟩ := mem_pending.1 he
  cases c with
  | endpoint c =>
    cases c with
    | deliver d e' =>
      obtain rfl := Option.some_inj.1 hce
      exact ⟨d, hc⟩
    | _ => cases hce
  | _ => cases hce

end Run

instance FencesOutlast.decidable (p : DaemonPool) :
    (l : DaemonLabel) → Decidable (FencesOutlast p l)
  | .run i x => inferInstanceAs (Decidable (∀ c ∈ (p.tasks[i]?.bind fun t => t.stack.head?),
      (∀ f ∈ c.dropsFences x p.shared, f.2 ∉ waitingFrames p f.1) ∧ c.late p.shared = false))
  | .wake _ | .drop _ | .start _ | .env _ => .isTrue trivial

/-- The renderer sends a frame, and the display's endpoint takes it off its channel. -/
def sceneFrame : List DaemonLabel :=
  sceneBound ++ [.run 2 (.received (.frameReady 0 1 1)), .run 2 .tick, .run 2 .tick, .run 3 .tick,
    .run 3 .tick]

def shown : DaemonPool :=
  Transition.reached semantics.step (start sceneRegistry) (sceneFrame ++ [.run 4 .tick])
    (by decide +kernel)

theorem forwards_of_fencesOutlast_shown : ∃ d w record,
    (EndpointCall.deliver d (.frame 7 1 0 1 1 1)).exec .tick shown.shared =
      shown.shared.andThen [.endpoint (.write d w record)] := by
  have hrun : Run sceneRegistry (sceneFrame ++ [.run 4 .tick]) shown := Transition.run_reached _ _
  have hmem : .frame 7 1 0 1 1 1 ∈ pending Call.delivers shown.tasks := by decide
  obtain ⟨d, hd⟩ := exists_deliver hmem
  exact ⟨d, forwards_of_fencesOutlast hrun (by decide) hd⟩

/-- Before the endpoint takes the frame, the renderer binds a new pool. -/
def rebound : List DaemonLabel :=
  sceneFrame ++ [.run 2 (.received (.bindBuffers (scenePool 2))), .run 2 .tick, .run 4 .tick]

def fenceless : DaemonPool :=
  Transition.reached semantics.step (start sceneRegistry) rebound (by decide +kernel)

theorem not_forwards : ¬∀ (registry : HashMap String (List String)) (ls : List DaemonLabel)
    (p : DaemonPool), Run registry ls p → (∀ l ∈ ls, calm l = true) →
    ∀ (d : DisplayId) (e : DisplayOutEvent), .endpoint (.deliver d e) ∈ calls p.tasks →
    ∃ w record, (EndpointCall.deliver d e).exec .tick p.shared =
      p.shared.andThen [.endpoint (.write d w record)] := by
  intro h
  have hrun : Run sceneRegistry rebound fenceless := Transition.run_reached _ _
  have hmem : .frame 7 1 0 1 1 1 ∈ pending Call.delivers fenceless.tasks := by decide
  obtain ⟨d, hd⟩ := exists_deliver hmem
  obtain ⟨w, record, hw⟩ := h _ _ _ hrun (by decide) d _ hd
  have hseq : (fenceless.shared.slots 7).cloneSyncFd 1 = false := by decide
  have hnext : (EndpointCall.deliver d (.frame 7 1 0 1 1 1)).exec .tick fenceless.shared =
      EndpointCall.hangUp fenceless.shared d := by
    simp [EndpointCall.exec, hseq]
  rw [hnext, EndpointCall.hangUp, Daemon.andThen, Daemon.andThen, Option.some_inj] at hw
  simpa using congrArg TaskPool.Outcome.next hw

end Waywallen
