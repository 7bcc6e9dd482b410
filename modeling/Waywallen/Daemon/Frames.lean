import Waywallen.Daemon.Exec
import Waywallen.Routing.RouterFrames

/-!
# What a call leaves alone

For each family of calls: the parts of the shared state it may change, and what it makes of the
router's state.
-/

namespace Waywallen

open TaskPool

namespace Daemon

theorem dispatchAll_eq (ds : List DisplayId) (e : Dispatch) (s : Daemon) :
    s.dispatchAll ds e = { s with channels := (s.dispatchAll ds e).channels } := by
  unfold dispatchAll
  induction ds generalizing s with
  | nil => rfl
  | cons d ds ih =>
    rw [List.foldl_cons, ih]
    rfl

end Daemon

namespace RouterCall

/-- What a router call makes of the router's state. -/
def innerAfter (s : Daemon) : RouterCall → Inner
  | addRenderer h task => s.inner.addRenderer h task
  | unregisterRenderer r | killOrphanNow r => s.inner.unregisterRenderer r
  | setRendererWallpaperLayoutOverride r layout =>
      if (s.inner.table.getRenderer r).isNone then s.inner
      else s.inner.setRendererWallpaperLayoutOverride r layout
  | beginUnbindAckTracking r => s.inner.beginUnbindAckTracking r
  | recordUnbindDone d g => s.inner.recordUnbindDone d g
  | clearUnbindAcks r => s.inner.clearUnbindAcks r
  | registerDisplay reg _ => (s.inner.registerDisplay reg).1
  | unregisterDisplay d => s.inner.unregisterDisplay d
  | setConsumerCaps d caps => s.inner.setConsumerCaps d caps
  | onConsumerBindFailed d fourcc modifier => s.inner.onConsumerBindFailed d fourcc modifier
  | updateClearColors r clear => (s.inner.updateClearColors r clear).1
  | updateDisplaySize d w h =>
      if w = 0 ∨ h = 0 then s.inner else s.inner.updateDisplaySize d w h
  | updateDisplayWindowState d flags => (s.inner.updateDisplayWindowState s.settings d flags).1
  | resumeAutopause d gen => (s.inner.resumeAutopause d gen).1
  | updateSessionState locked inactive => (s.inner.updateSessionState locked inactive).1
  | setManualPause paused => s.inner.setManualPause paused
  | armOrphanTimer r task => s.inner.armOrphanTimer r task
  | cancelOrphanTimer r => s.inner.removeOrphanTimer r
  | fireOrphanReap r => s.inner.removeOrphanTimer r
  | relinkDisplaysTo ds r => s.inner.relinkDisplaysTo ds r
  | relinkAllDisplaysTo r => s.inner.relinkAllDisplaysTo r
  | setLinkGeometry lid g => (s.inner.setLinkGeometry s.settings s.slots lid g).1
  | resyncDisplaySetConfig d => (s.inner.resyncDisplaySetConfig s.settings s.slots d).1
  | reconcileLifecycle => (s.inner.reconcileLifecycle s.settings).1
  | syncDisplay d => (s.inner.syncDisplay s.settings s.slots d).1
  | _ => s.inner

variable {x : Choice} {fresh : ℕ} {s : Daemon} {c : RouterCall} {o : Step}

theorem inner_exec (h : c.exec x fresh s = some o) : o.shared.inner = c.innerAfter s := by
  cases c with
  | updateDisplaySize d w height =>
    simp only [exec, Daemon.done, Daemon.andThen] at h
    split at h
    · rename_i hd
      cases h
      simp [innerAfter, Inner.updateDisplaySize, Inner.modifyDisplay,
        HashMap.modify_eq_self (m := s.inner.displays) (k := d) (by simp [hd])]
    · split at h <;> cases h <;> simp_all [innerAfter, Daemon.withInner]
  | onRendererFrame r index seq point =>
    simp only [exec, Daemon.done, innerAfter] at h ⊢
    (repeat' split at h) <;> cases h <;> try rfl
    rw [Daemon.dispatchAll_eq]
  | unregisterRenderer r | killOrphanNow r =>
    cases h
    rfl
  | _ =>
    simp only [exec, Daemon.done, Daemon.andThen, innerAfter] at h ⊢
    (repeat' split at h) <;> cases h <;> simp_all [Daemon.withInner, Daemon.record,
      Daemon.modifySlots, Daemon.dispatch]

/-! ### The fields of the router's state after a call -/

section Fields

variable (s : Daemon)

def tableAfter : RouterCall → RoutingTable
  | addRenderer h _ => s.inner.table.addRenderer h
  | unregisterRenderer r | killOrphanNow r => s.inner.table.removeRenderer r
  | registerDisplay reg _ => (s.inner.registerDisplay reg).1.table
  | unregisterDisplay d => s.inner.table.removeDisplay d
  | updateClearColors r clear => (s.inner.updateClearColors r clear).1.table
  | relinkDisplaysTo ds r => (s.inner.relinkDisplaysTo ds r).table
  | relinkAllDisplaysTo r => (s.inner.relinkAllDisplaysTo r).table
  | setLinkGeometry lid g => (s.inner.table.updateLinkGeometry lid g).1
  | _ => s.inner.table

def rendererTasksAfter : RouterCall → HashMap RendererId ℕ
  | addRenderer h task => s.inner.rendererTasks.insert h.id task
  | unregisterRenderer r | killOrphanNow r => s.inner.rendererTasks.erase r
  | _ => s.inner.rendererTasks

def pausedRenderersAfter : RouterCall → Finset RendererId
  | unregisterRenderer r | killOrphanNow r => s.inner.pausedRenderers.erase r
  | reconcileLifecycle => (s.inner.reconcileLifecycle s.settings).1.pausedRenderers
  | _ => s.inner.pausedRenderers

def sessionLockedAfter : RouterCall → Bool
  | updateSessionState locked _ => locked.getD s.inner.sessionLocked
  | _ => s.inner.sessionLocked

def sessionInactiveAfter : RouterCall → Bool
  | updateSessionState _ inactive => inactive.getD s.inner.sessionInactive
  | _ => s.inner.sessionInactive

def sessionGenAfter : RouterCall → UInt64
  | updateSessionState locked inactive =>
      (s.inner.updateSessionState locked inactive).1.sessionGen
  | _ => s.inner.sessionGen

def manualPausedAfter : RouterCall → Bool
  | setManualPause paused => paused
  | _ => s.inner.manualPaused

def orphanTimersAfter : RouterCall → HashMap RendererId ℕ
  | armOrphanTimer r task => s.inner.orphanTimers.insert r task
  | unregisterRenderer r | killOrphanNow r | cancelOrphanTimer r | fireOrphanReap r =>
      s.inner.orphanTimers.erase r
  | _ => s.inner.orphanTimers

def nextDisplayIdAfter : RouterCall → ℕ
  | registerDisplay _ _ => s.inner.nextDisplayId + 1
  | _ => s.inner.nextDisplayId

end Fields

structure Frame (s : Daemon) (c : RouterCall) (i : Inner) : Prop where
  table : i.table = c.tableAfter s
  rendererTasks : i.rendererTasks = c.rendererTasksAfter s
  pausedRenderers : i.pausedRenderers = c.pausedRenderersAfter s
  sessionLocked : i.sessionLocked = c.sessionLockedAfter s
  sessionInactive : i.sessionInactive = c.sessionInactiveAfter s
  sessionGen : i.sessionGen = c.sessionGenAfter s
  manualPaused : i.manualPaused = c.manualPausedAfter s
  orphanTimers : i.orphanTimers = c.orphanTimersAfter s
  nextDisplayId : i.nextDisplayId = c.nextDisplayIdAfter s

/-- The router's state after a call, field by field. -/
theorem frame (s : Daemon) (c : RouterCall) : Frame s c (c.innerAfter s) := by
  cases c with
  | beginUnbindAckTracking r =>
    rw [innerAfter, Inner.beginUnbindAckTracking_eq]
    exact ⟨rfl, rfl, rfl, rfl, rfl, rfl, rfl, rfl, rfl⟩
  | updateClearColors r clear =>
    rw [innerAfter, Inner.updateClearColors_eq]
    exact ⟨rfl, rfl, rfl, rfl, rfl, rfl, rfl, rfl, rfl⟩
  | updateDisplayWindowState d flags =>
    rw [innerAfter, Inner.updateDisplayWindowState_eq]
    exact ⟨rfl, rfl, rfl, rfl, rfl, rfl, rfl, rfl, rfl⟩
  | resumeAutopause d gen =>
    rw [innerAfter, Inner.resumeAutopause_eq]
    exact ⟨rfl, rfl, rfl, rfl, rfl, rfl, rfl, rfl, rfl⟩
  | updateSessionState locked inactive =>
    obtain ⟨hl, hi⟩ := s.inner.flags_updateSessionState locked inactive
    rw [innerAfter, Inner.updateSessionState_eq]
    exact ⟨rfl, rfl, rfl, hl, hi, rfl, rfl, rfl, rfl⟩
  | relinkDisplaysTo ds r =>
    rw [innerAfter, Inner.relinkDisplaysTo_eq]
    exact ⟨rfl, rfl, rfl, rfl, rfl, rfl, rfl, rfl, rfl⟩
  | relinkAllDisplaysTo r =>
    rw [innerAfter, Inner.relinkAllDisplaysTo_eq]
    exact ⟨rfl, rfl, rfl, rfl, rfl, rfl, rfl, rfl, rfl⟩
  | setLinkGeometry lid g =>
    rw [innerAfter, Inner.setLinkGeometry_eq]
    exact ⟨rfl, rfl, rfl, rfl, rfl, rfl, rfl, rfl, rfl⟩
  | resyncDisplaySetConfig d =>
    rw [innerAfter, Inner.resyncDisplaySetConfig_eq]
    exact ⟨rfl, rfl, rfl, rfl, rfl, rfl, rfl, rfl, rfl⟩
  | syncDisplay d =>
    rw [innerAfter, Inner.syncDisplay_eq]
    exact ⟨rfl, rfl, rfl, rfl, rfl, rfl, rfl, rfl, rfl⟩
  | _ =>
    simp only [innerAfter]
    (try split) <;> exact ⟨rfl, rfl, rfl, rfl, rfl, rfl, rfl, rfl, rfl⟩

theorem frame_exec (h : c.exec x fresh s = some o) : Frame s c o.shared.inner := by
  rw [inner_exec h]
  exact frame s c

theorem getRenderer_tableAfter (s : Daemon) (c : RouterCall) (r : RendererId) :
    (c.tableAfter s).getRenderer r =
    match c with
    | addRenderer h _ => if r = h.id then some h else s.inner.table.getRenderer r
    | unregisterRenderer q | killOrphanNow q => if r = q then none else s.inner.table.getRenderer r
    | _ => s.inner.table.getRenderer r := by
  cases c with
  | addRenderer h i => exact RoutingTable.getRenderer_addRenderer ..
  | unregisterRenderer q | killOrphanNow q => exact RoutingTable.getRenderer_removeRenderer ..
  | registerDisplay reg b =>
    simp only [tableAfter, Inner.registerDisplay]
    split
    · rfl
    · exact RoutingTable.getRenderer_addLink ..
  | unregisterDisplay d => exact RoutingTable.getRenderer_removeDisplay ..
  | updateClearColors q clear => exact Inner.getRenderer_updateClearColors ..
  | relinkDisplaysTo ds q => exact Inner.getRenderer_relinkDisplays ..
  | relinkAllDisplaysTo q => exact Inner.getRenderer_relinkDisplays ..
  | setLinkGeometry lid g => exact RoutingTable.getRenderer_updateLinkGeometry ..
  | _ => rfl

/-- The renderers registered after a call. -/
theorem mem_rendererIds_tableAfter (s : Daemon) (c : RouterCall) (r : RendererId) :
    r ∈ (c.tableAfter s).rendererIds ↔
    match c with
    | addRenderer h _ => r = h.id ∨ r ∈ s.inner.table.rendererIds
    | unregisterRenderer q | killOrphanNow q => r ≠ q ∧ r ∈ s.inner.table.rendererIds
    | _ => r ∈ s.inner.table.rendererIds := by
  rw [RoutingTable.mem_rendererIds, getRenderer_tableAfter]
  cases c with
  | addRenderer h i =>
    by_cases hr : r = h.id <;> simp [hr, RoutingTable.mem_rendererIds]
  | unregisterRenderer q | killOrphanNow q =>
    by_cases hr : r = q <;> simp [hr, RoutingTable.mem_rendererIds]
  | _ => exact RoutingTable.mem_rendererIds.symm

/-- The routes after a call. -/
theorem routeOf_tableAfter (s : Daemon) (c : RouterCall) (d : DisplayId) :
    (c.tableAfter s).routeOf d =
    match c with
    | unregisterRenderer q | killOrphanNow q => (s.inner.table.routeOf d).filter (· ≠ q)
    | registerDisplay _ _ =>
        if d = s.inner.nextDisplayId + 1 then
          s.inner.table.firstRenderer.or (s.inner.table.routeOf d)
        else s.inner.table.routeOf d
    | unregisterDisplay e => if d = e then none else s.inner.table.routeOf d
    | relinkDisplaysTo ds r =>
        if d ∈ s.inner.relinkTargets ds then some r else s.inner.table.routeOf d
    | relinkAllDisplaysTo r =>
        if d ∈ s.inner.displays.keys then some r else s.inner.table.routeOf d
    | _ => s.inner.table.routeOf d := by
  cases c with
  | addRenderer h i => exact congrArg (Option.map Link.rendererId) (RoutingTable.linkOf_addRenderer ..)
  | unregisterRenderer q | killOrphanNow q =>
    simp only [tableAfter, RoutingTable.routeOf, RoutingTable.linkOf_removeRenderer]
    cases s.inner.table.linkOf d with
    | none => rfl
    | some l => by_cases hl : l.rendererId = q <;> simp [Option.filter, hl]
  | registerDisplay reg b =>
    simp only [tableAfter, Inner.registerDisplay]
    cases s.inner.table.firstRenderer with
    | none => simp
    | some r =>
      simp only [RoutingTable.routeOf, RoutingTable.linkOf_addLink]
      split <;> rfl
  | unregisterDisplay e =>
    simp only [tableAfter, RoutingTable.routeOf, RoutingTable.linkOf_removeDisplay]
    split <;> rfl
  | updateClearColors q clear => exact Inner.routeOf_updateClearColors ..
  | relinkDisplaysTo ds q => exact Inner.routeOf_relinkDisplays ..
  | relinkAllDisplaysTo q => exact Inner.routeOf_relinkDisplays ..
  | setLinkGeometry lid g => exact Inner.routeOf_updateLinkGeometry ..
  | _ => rfl

theorem autopauseOf_innerAfter (c : RouterCall) (d : DisplayId) :
    (c.innerAfter s).autopauseOf d =
    match c with
    | registerDisplay _ _ =>
        if d = s.inner.nextDisplayId + 1 then some .new else s.inner.autopauseOf d
    | unregisterDisplay e => if d = e then none else s.inner.autopauseOf d
    | updateDisplayWindowState e flags =>
        if d = e then (s.inner.displays.lookup e).map fun st =>
          (st.autopause.report (resolvedAutopause s.settings st.info).mode flags).1
        else s.inner.autopauseOf d
    | resumeAutopause e gen =>
        if d = e then (s.inner.autopauseOf e).map fun a => (a.resume gen).1
        else s.inner.autopauseOf d
    | _ => s.inner.autopauseOf d := by
  cases c with
  | registerDisplay reg b =>
    simp only [innerAfter, Inner.autopauseOf, Inner.registerDisplay, HashMap.lookup_insert_eq]
    split <;> rfl
  | unregisterDisplay e =>
    simp only [innerAfter, Inner.autopauseOf, Inner.unregisterDisplay, HashMap.lookup_erase_eq]
    split <;> rfl
  | updateDisplayWindowState e flags => exact Inner.autopauseOf_updateDisplayWindowState ..
  | resumeAutopause e gen => exact Inner.autopauseOf_resumeAutopause ..
  | syncDisplay e => exact Inner.autopauseOf_syncDisplay ..
  | setConsumerCaps e caps =>
    rw [innerAfter, Inner.setConsumerCaps, Inner.autopauseOf_modifyDisplay_of_eq]
    exact fun _ => rfl
  | onConsumerBindFailed e f m =>
    rw [innerAfter, Inner.onConsumerBindFailed, Inner.autopauseOf_modifyDisplay_of_eq]
    exact fun _ => rfl
  | updateDisplaySize e w h =>
    rw [innerAfter]
    split
    · rfl
    · rw [Inner.updateDisplaySize, Inner.autopauseOf_modifyDisplay_of_eq]
      exact fun _ => rfl
  | _ =>
    simp only [innerAfter] <;> (try split) <;> first
      | rfl
      | rw [Inner.beginUnbindAckTracking_eq]; rfl
      | rw [Inner.updateClearColors_eq]; rfl
      | rw [Inner.updateSessionState_eq]; rfl
      | rw [Inner.relinkDisplaysTo_eq]; rfl
      | rw [Inner.relinkAllDisplaysTo_eq]; rfl
      | rw [Inner.setLinkGeometry_eq]; rfl
      | rw [Inner.resyncDisplaySetConfig_eq]; rfl

/-- What no router call touches. -/
structure Untouched (s t : Daemon) : Prop where
  registry : t.registry = s.registry
  managed : t.managed = s.managed
  reapQueue : t.reapQueue = s.reapQueue
  broadcasts : t.broadcasts = s.broadcasts
  sockets : t.sockets = s.sockets
  taken : t.taken = s.taken
  wires : t.wires = s.wires
  used : t.history.used = s.history.used
  received : t.history.received = s.history.received
  runs : t.history.runs = s.history.runs
  applied : t.history.applied = s.history.applied

theorem untouched (h : c.exec x fresh s = some o) : Untouched s o.shared := by
  cases c with
  | onRendererFrame r index seq point =>
    simp only [exec, Daemon.done] at h
    (repeat' split at h) <;> cases h <;> try exact ⟨rfl, rfl, rfl, rfl, rfl, rfl, rfl, rfl, rfl,
      rfl, rfl⟩
    rw [Daemon.dispatchAll_eq]
    exact ⟨rfl, rfl, rfl, rfl, rfl, rfl, rfl, rfl, rfl, rfl, rfl⟩
  | _ =>
    simp only [exec, Daemon.done, Daemon.andThen] at h
    (repeat' split at h) <;> cases h <;>
      exact ⟨rfl, rfl, rfl, rfl, rfl, rfl, rfl, rfl, rfl, rfl, rfl⟩

end RouterCall

/-- All that a call of the manager writes. -/
theorem ManagerCall.shared_eq {x : Choice} {s : Daemon} {c : ManagerCall} {o : Step}
    (h : c.exec x s = some o) : o.shared =
      { s with
        managed := o.shared.managed
        reapQueue := o.shared.reapQueue
        slots := o.shared.slots
        sockets := o.shared.sockets
        history := o.shared.history } := by
  cases c <;> simp only [exec, Daemon.done, Daemon.andThen] at h <;> (repeat' split at h) <;>
    cases h <;> rfl

theorem ManagerCall.inner_exec {x : Choice} {s : Daemon} {c : ManagerCall} {o : Step}
    (h : c.exec x s = some o) : o.shared.inner = s.inner :=
  (congrArg Daemon.inner (shared_eq h)).trans rfl

/-- All that a call of a reader thread writes. -/
theorem ReaderCall.shared_eq {x : Choice} {s : Daemon} {c : ReaderCall} {o : Step}
    (h : c.exec x s = some o) : o.shared =
      { s with
        reapQueue := o.shared.reapQueue
        slots := o.shared.slots
        broadcasts := o.shared.broadcasts
        history := o.shared.history } := by
  cases c <;> simp only [exec, Daemon.done, Daemon.andThen] at h <;> (repeat' split at h) <;>
    cases h <;> rfl

theorem ReaderCall.inner_exec {x : Choice} {s : Daemon} {c : ReaderCall} {o : Step}
    (h : c.exec x s = some o) : o.shared.inner = s.inner :=
  (congrArg Daemon.inner (shared_eq h)).trans rfl

theorem EndpointCall.submit_eq (s : Daemon) (w : WireEvent) (r : Option FrameRecord) :
    submit s w r = { s with slots := (submit s w r).slots } := by
  unfold submit
  split <;> rfl

/-- All that a call of an endpoint writes. -/
theorem EndpointCall.shared_eq {x : Choice} {s : Daemon} {c : EndpointCall} {o : Step}
    (h : c.exec x s = some o) : o.shared =
      { s with
        slots := o.shared.slots
        taken := o.shared.taken
        wires := o.shared.wires
        history := o.shared.history } := by
  cases c <;> simp only [exec, hangUp, Daemon.done, Daemon.andThen] at h <;>
    (repeat' split at h) <;> cases h <;> first | rfl | rw [submit_eq]

theorem EndpointCall.inner_exec {x : Choice} {s : Daemon} {c : EndpointCall} {o : Step}
    (h : c.exec x s = some o) : o.shared.inner = s.inner :=
  (congrArg Daemon.inner (shared_eq h)).trans rfl

/-- All that a call of an apply run writes. -/
theorem ApplyCall.shared_eq {x : Choice} {s : Daemon} {c : ApplyCall} {o : Step}
    (h : c.exec x s = some o) : o.shared =
      { s with
        slots := o.shared.slots
        history := o.shared.history } := by
  cases c <;> simp only [exec, Daemon.done, Daemon.andThen] at h <;> (repeat' split at h) <;>
    cases h <;> rfl

theorem ApplyCall.inner_exec {x : Choice} {s : Daemon} {c : ApplyCall} {o : Step}
    (h : c.exec x s = some o) : o.shared.inner = s.inner :=
  (congrArg Daemon.inner (shared_eq h)).trans rfl

namespace Call

/-- What a call makes of the router's state. -/
def innerAfter (s : Daemon) : Call → Inner
  | router c => c.innerAfter s
  | _ => s.inner

theorem inner_exec {x : Choice} {fresh : ℕ} {s : Daemon} {c : Call} {o : Step}
    (h : c.exec x fresh s = some o) : o.shared.inner = c.innerAfter s := by
  cases c with
  | router c => exact RouterCall.inner_exec h
  | manager c => exact ManagerCall.inner_exec h
  | reader c => exact ReaderCall.inner_exec h
  | endpoint c => exact EndpointCall.inner_exec h
  | apply c => exact ApplyCall.inner_exec h

theorem frame_exec {x : Choice} {fresh : ℕ} {s : Daemon} {c : RouterCall} {o : Step}
    (h : (router c).exec x fresh s = some o) : RouterCall.Frame s c o.shared.inner :=
  RouterCall.frame_exec h

/-! ### The history after a call -/

section History

variable (x : Choice) (s : Daemon)

def usedAfter : Call → List RendererId
  | apply (.spawn req _) =>
      match s.resolve req, x with
      | some _, .spawned id _ _ _ => id :: s.history.used
      | _, _ => s.history.used
  | _ => s.history.used

def registeredAfter : Call → List RendererId
  | router (.addRenderer h _) => s.history.registered ++ [h.id]
  | _ => s.history.registered

def receivedAfter : Call → RendererId → List EventMsg
  | reader (.readerLoop r) =>
      match x with
      | .received msg => Function.update s.history.received r (s.history.received r ++ [msg])
      | _ => s.history.received
  | _ => s.history.received

def answeredAfter : Call → DisplayId → List ℕ
  | endpoint (.frameLoop d) =>
      match x with
      | .client q => (s.answer d q).history.answered
      | _ => s.history.answered
  | _ => s.history.answered

def transitionsAfter : Call → DisplayId → ℕ
  | router (.updateDisplayWindowState d flags) =>
      Function.update s.history.transitions d (s.history.transitions d +
        if s.inner.autopauseGen d =
          (s.inner.updateDisplayWindowState s.settings d flags).1.autopauseGen d then 0 else 1)
  | _ => s.history.transitions

def passesAfter : Call → ℕ
  | router .reconcileLifecycle => s.history.passes + 1
  | _ => s.history.passes

def decidedAfter : Call → List Decision
  | router .reconcileLifecycle =>
      s.history.decided ++ (s.inner.reconcileLifecycle s.settings).2.map fun p =>
        ⟨s.history.passes, p.1, p.2⟩
  | _ => s.history.decided

def emittedAfter : Call → List Decision
  | router (.sendLifecycle d) => s.history.emitted ++ [d]
  | _ => s.history.emitted

def runsAfter : Call → List ApplyRun
  | apply (.stopReplaced target _) => s.history.runs ++ [⟨s.history.runs.length, target⟩]
  | _ => s.history.runs

def appliedAfter : Call → List (ApplyRun × RendererId)
  | apply (.finish run r) => s.history.applied ++ [(run, r)]
  | _ => s.history.applied

def historyAfter (c : Call) : History where
  used := c.usedAfter x s
  registered := c.registeredAfter s
  received := c.receivedAfter x s
  answered := c.answeredAfter x s
  transitions := c.transitionsAfter s
  passes := c.passesAfter s
  decided := c.decidedAfter s
  emitted := c.emittedAfter s
  runs := c.runsAfter s
  applied := c.appliedAfter s

end History

theorem history_exec {x : Choice} {fresh : ℕ} {s : Daemon} {c : Call} {o : Step}
    (h : c.exec x fresh s = some o) : o.shared.history = c.historyAfter x s := by
  cases c with
  | router c =>
    cases c with
    | onRendererFrame r index seq point =>
      simp only [exec, RouterCall.exec, Daemon.done] at h
      (repeat' split at h) <;> cases h <;> try rfl
      rw [Daemon.dispatchAll_eq]
      rfl
    | updateDisplayWindowState d flags =>
      simp only [exec, RouterCall.exec, Daemon.done, Daemon.andThen] at h
      split at h <;> cases h <;> rfl
    | _ =>
      simp only [exec, RouterCall.exec, Daemon.done, Daemon.andThen] at h
      (repeat' split at h) <;> cases h <;> rfl
  | manager c =>
    cases c <;> simp only [exec, ManagerCall.exec, Daemon.done, Daemon.andThen] at h <;>
      (repeat' split at h) <;> cases h <;> rfl
  | reader c =>
    cases c <;> simp only [exec, ReaderCall.exec, Daemon.done, Daemon.andThen] at h <;>
      (repeat' split at h) <;> cases h <;> rfl
  | endpoint c =>
    cases c with
    | frameLoop d =>
      cases x <;> simp only [exec, EndpointCall.exec, EndpointCall.hangUp, Daemon.andThen] at h <;>
        (repeat' split at h) <;> cases h <;> rfl
    | _ =>
      simp only [exec, EndpointCall.exec, EndpointCall.hangUp, Daemon.done, Daemon.andThen] at h
      (repeat' split at h) <;> cases h <;> first | rfl | rw [EndpointCall.submit_eq]; rfl
  | apply c =>
    cases c <;> simp only [exec, ApplyCall.exec, Daemon.done, Daemon.andThen] at h <;>
      (repeat' split at h) <;> cases h <;> simp_all [historyAfter, usedAfter, registeredAfter,
        receivedAfter, answeredAfter, transitionsAfter, passesAfter, decidedAfter, emittedAfter, runsAfter,
        appliedAfter, Daemon.record, Daemon.modifySlots]

/-- What a call makes of the manager's map. -/
def managedAfter (s : Daemon) : Call → HashMap RendererId RendererHandle
  | manager (.insertRenderer h) => s.managed.insert h.id h
  | manager (.kill r) | manager (.evict r) => s.managed.erase r
  | _ => s.managed

theorem managed_exec {x : Choice} {fresh : ℕ} {s : Daemon} {c : Call} {o : Step}
    (h : c.exec x fresh s = some o) : o.shared.managed = c.managedAfter s := by
  cases c with
  | router c => exact (RouterCall.untouched h).managed
  | manager c =>
    cases c <;> simp only [exec, ManagerCall.exec, Daemon.done, Daemon.andThen] at h <;>
      (repeat' split at h) <;> cases h <;> rfl
  | reader c => exact (congrArg Daemon.managed (ReaderCall.shared_eq h)).trans rfl
  | endpoint c => exact (congrArg Daemon.managed (EndpointCall.shared_eq h)).trans rfl
  | apply c => exact (congrArg Daemon.managed (ApplyCall.shared_eq h)).trans rfl

/-- What a call makes of the settings. -/
def settingsAfter (s : Daemon) : Call → Option Settings
  | router (.migratePrefs reg) => s.settings.map fun st => st.migrate reg
  | _ => s.settings

theorem settings_exec {x : Choice} {fresh : ℕ} {s : Daemon} {c : Call} {o : Step}
    (h : c.exec x fresh s = some o) : o.shared.settings = c.settingsAfter s := by
  cases c with
  | router c =>
    cases c with
    | onRendererFrame r index seq point =>
      simp only [exec, RouterCall.exec, Daemon.done] at h
      (repeat' split at h) <;> cases h <;> try rfl
      rw [Daemon.dispatchAll_eq]
      rfl
    | _ =>
      simp only [exec, RouterCall.exec, Daemon.done, Daemon.andThen] at h
      (repeat' split at h) <;> cases h <;> rfl
  | manager c => exact (congrArg Daemon.settings (ManagerCall.shared_eq h)).trans rfl
  | reader c => exact (congrArg Daemon.settings (ReaderCall.shared_eq h)).trans rfl
  | endpoint c => exact (congrArg Daemon.settings (EndpointCall.shared_eq h)).trans rfl
  | apply c => exact (congrArg Daemon.settings (ApplyCall.shared_eq h)).trans rfl

end Call

end Waywallen
