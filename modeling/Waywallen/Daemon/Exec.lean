import Waywallen.Daemon.State

/-!
# What each call does
-/

namespace Waywallen

open TaskPool

namespace Daemon

variable (s : Daemon)

/-- The call is over: `s` is the new state. -/
def done : Option Step := some { shared := s }

/-- The call goes on with `next`. -/
def andThen (next : List Call) : Option Step := some { shared := s, next }

def withInner (inner : Inner) : Daemon := { s with inner }

/-- Append to the channel of a display. -/
def dispatch (d : DisplayId) (ds : List Dispatch) : Daemon :=
  { s with channels := Function.update s.channels d (s.channels d ++ ds) }

/-- Send the same event to several displays. -/
def dispatchAll (ds : List DisplayId) (e : Dispatch) : Daemon :=
  ds.foldl (fun s d => s.dispatch d [e]) s

def modifySlots (r : RendererId) (f : Slots → Slots) : Daemon :=
  { s with slots := Function.update s.slots r (f (s.slots r)) }

def writeSocket (r : RendererId) (msg : ControlMsg) (pass : ℕ) : Daemon :=
  { s with sockets := Function.update s.sockets r (s.sockets r ++ [(msg, pass)]) }

/-- Queue a renderer for eviction. -/
def markDead (r : RendererId) : Daemon := { s with reapQueue := s.reapQueue ++ [r] }

def record (f : History → History) : Daemon := { s with history := f s.history }

/-- Remember a client's reply to an unbind. -/
def answer (d : DisplayId) (q : ClientRequest) : Daemon :=
  s.record fun h => { h with
    answered := match q with
      | .unbindDone g => Function.update h.answered d (h.answered d ++ [g])
      | _ => h.answered }

/-- The plugin that is spawned for a request. -/
def resolve (req : SpawnRequest) : Option String :=
  match req.rendererName with
  | some name => if s.registry.values.any (·.contains name) then some name else none
  | none => (s.registry.lookup req.wpType).bind List.head?

/-- A live renderer whose identity matches the request. -/
def findReusable (req : SpawnRequest) : Option RendererId :=
  (s.resolve req).bind fun name =>
    (s.managed.entries.find? fun e => e.2.wpType == req.wpType && e.2.name == name &&
      e.2.extras.sameEntries req.extras).map Sigma.fst

end Daemon

/-- Broadcast receivers that are more than this many events behind skip to the oldest kept. -/
def broadcastCapacity : ℕ := 256

/-- Unregister and kill at once. -/
def unregisterAndKill (r : RendererId) : List Call :=
  [.router (.unregisterRenderer r), .manager (.kill r)]

/-- The wallpaper-switch shutdown handshake for the listed renderers. -/
def stopRenderersOrderly (rs : List RendererId) : List Call :=
  rs.map (fun r => .router (.beginUnbindAckTracking r)) ++
    rs.map (fun r => .router (.unregisterRenderer r)) ++
    rs.map (fun r => .router (.awaitUnbindAcks r)) ++
    rs.map (fun r => .manager (.kill r))

/-- What follows once the renderer is known. -/
def Purpose.continueWith (r : RendererId) : Purpose → List Call
  | .core run layout => [.router (.setRendererWallpaperLayoutOverride r layout),
      .router (match run.target with
        | none => .relinkAllDisplaysTo r
        | some ds => .relinkDisplaysTo ds r),
      .apply (.finish run r)]
  | .request displays layout => [.router (.setRendererWallpaperLayoutOverride r layout),
      .router (if displays = [] then .relinkAllDisplaysTo r else .relinkDisplaysTo displays r),
      .apply (.waitForFirstFrame r)]
  | .bare => []

/-- What a registered renderer's event loop does with an event. -/
def EventMsg.handler (r : RendererId) : EventMsg → List Call
  | .bindBuffers _ => [.router (.onRendererBind r)]
  | .frameReady index seq point => [.router (.onRendererFrame r index seq point)]
  | .formatCaps _ => [.router .reconcileBufferFlags]
  | .bindFailed fourcc modifier => [.router (.onRendererBindFailed r fourcc modifier)]
  | .reportState _ => [.router (.onRendererStateChanged r)]
  | .releaseSyncobj => []

/-- `next` if `b`, nothing otherwise. -/
def onlyIf (b : Bool) (next : List Call) : List Call := if b then next else []

/-- Drop a renderer from the routing table; `after` follows once it is gone. -/
def Daemon.unregister (s : Daemon) (r : RendererId) (after : List Call) : Step :=
  let affected := s.inner.affectedBy r
  { shared := s.withInner (s.inner.unregisterRenderer r)
    next := .router (.emit (.rendererRemoved r)) ::
      affected.map (fun d => .router (.syncDisplay d)) ++
      .router .reconcileLifecycle :: onlyIf (!affected.isEmpty) [.router .emitDisplaysReplace] ++
      after
    abort := s.inner.tasksOf r }

namespace RouterCall

def exec (x : Choice) (fresh : ℕ) (s : Daemon) : RouterCall → Option Step
  | registerRenderer h => some {
      shared := s
      next := [.router (.addRenderer h fresh)]
      spawn := [{ stack := [.router (.rendererEvents h.id (s.broadcasts h.id).length)] }] }
  | addRenderer h task => ((s.withInner (s.inner.addRenderer h task)).record fun k => { k with
      registered := k.registered ++ [h.id] }).andThen [.router .reconcileLifecycle]
  | rendererEvents r taken =>
      let log := s.broadcasts r
      if taken + broadcastCapacity < log.length then
        s.andThen [.router (.rendererEvents r (log.length - broadcastCapacity))]
      else
        match log[taken]? with
        | none => none
        | some e => s.andThen (e.handler r ++ [.router (.rendererEvents r (taken + 1))])
  | unregisterRenderer r => some (s.unregister r [])
  | setRendererWallpaperLayoutOverride r layout =>
      if (s.inner.table.getRenderer r).isNone then s.done
      else
        let displays := (s.inner.activeLinks r).map Link.displayId
        (s.withInner (s.inner.setRendererWallpaperLayoutOverride r layout)).andThen
          (displays.map (fun d => .router (.resyncDisplaySetConfig d)) ++
            onlyIf (!displays.isEmpty) [.router .emitDisplaysReplace])
  | beginUnbindAckTracking r => (s.withInner (s.inner.beginUnbindAckTracking r)).done
  | recordUnbindDone d generation => (s.withInner (s.inner.recordUnbindDone d generation)).done
  | awaitUnbindAcks r =>
      match s.inner.unbindAcked r, x with
      | true, _ => s.andThen [.router (.clearUnbindAcks r)]
      | false, .fail => s.andThen [.router (.clearUnbindAcks r)]
      | false, _ => none
  | clearUnbindAcks r => (s.withInner (s.inner.clearUnbindAcks r)).done
  | migratePrefs reg => Daemon.done { s with settings := s.settings.map fun st => st.migrate reg }
  | registerDisplay reg client =>
      let out := s.inner.registerDisplay reg
      (s.withInner out.1).andThen
        (out.2.2.toList.map (fun r => .router (.cancelOrphanTimer r)) ++
          [.router (.syncDisplay out.2.1), .router .reconcileLifecycle,
            .router .reconcileBufferFlags, .router (.emitDisplayUpsert out.2.1)] ++
          onlyIf client [.endpoint (.accepted out.2.1)])
  | unregisterDisplay d => (s.withInner (s.inner.unregisterDisplay d)).andThen
      [.router (.markOrphans none), .router .reconcileLifecycle, .router .reconcileBufferFlags,
        .router (.emit (.displayRemoved d))]
  | setConsumerCaps d caps => (s.withInner (s.inner.setConsumerCaps d caps)).andThen
      (onlyIf (s.inner.displays.containsKey d) [.router .reconcileBufferFlags])
  | onConsumerBindFailed d fourcc modifier =>
      (s.withInner (s.inner.onConsumerBindFailed d fourcc modifier)).andThen
        (onlyIf ((s.inner.displays.lookup d).any (·.consumerCaps.isSome))
          [.router .reconcileBufferFlags])
  | onRendererBindFailed r fourcc modifier =>
      match s.inner.table.getRenderer r with
      | none => s.done
      | some h => (s.modifySlots h.id fun sl => (sl.blacklistFormat fourcc modifier).1).andThen
          [.router .reconcileBufferFlags]
  | onRendererStateChanged r =>
      match s.inner.table.getRenderer r with
      | none => s.done
      | some h => s.andThen [.router (.updateClearColors r (s.slots h.id).clearRgba)]
  | updateClearColors r clear =>
      let out := s.inner.updateClearColors r clear
      (s.withInner out.1).andThen (out.2.map fun d => .router (.resyncDisplaySetConfig d))
  | updateDisplaySize d width height =>
      match s.inner.displays.lookup d with
      | none => s.done
      | some state =>
          if width = 0 ∨ height = 0 then s.done
          else
            let differs := state.info.width != width || state.info.height != height
            (s.withInner (s.inner.updateDisplaySize d width height)).andThen
              (onlyIf differs [.router (.resyncDisplaySetConfig d)] ++
                [.router (.emitDisplayUpsert d)])
  | updateDisplayWindowState d flags =>
      let out := s.inner.updateDisplayWindowState s.settings d flags
      let s' := (s.withInner out.1).record fun h => { h with
        transitions := Function.update h.transitions d
          (h.transitions d + if s.inner.autopauseGen d = out.1.autopauseGen d then 0 else 1) }
      match out.2 with
      | .noop => s'.done
      | .reconcile => s'.andThen [.router .reconcileLifecycle]
      | .scheduleResume gen => some {
          shared := s'
          spawn := [{ stack := [.router (.resumeAutopause d gen)], asleep := true }] }
  | resumeAutopause d gen =>
      let out := s.inner.resumeAutopause d gen
      (s.withInner out.1).andThen (onlyIf out.2 [.router .reconcileLifecycle])
  | updateSessionState locked inactive =>
      let out := s.inner.updateSessionState locked inactive
      match out.2 with
      | .noop => (s.withInner out.1).done
      | .reconcile => (s.withInner out.1).andThen [.router .reconcileLifecycle]
      | .scheduleResume gen => some {
          shared := s.withInner out.1
          spawn := [{ stack := [.router (.resumeSession gen)], asleep := true }] }
  | resumeSession gen =>
      s.andThen (onlyIf (s.inner.sessionResumed gen) [.router .reconcileLifecycle])
  | setManualPause paused => (s.withInner (s.inner.setManualPause paused)).andThen
      (onlyIf (s.inner.manualPaused != paused) [.router .reconcileLifecycle])
  | markOrphans keep =>
      let lone := s.inner.loneRendererNoDisplays
      s.andThen ((s.inner.orphanCandidates keep).flatMap (fun r =>
          if lone then [.router (.scheduleOrphanGrace r)] else [.router (.killOrphanNow r)]) ++
        keep.toList.map fun r => .router (.cancelOrphanTimer r))
  | scheduleOrphanGrace r => some {
      shared := s
      next := [.router (.armOrphanTimer r fresh)]
      spawn := [{ stack := [.router (.fireOrphanReap r)], asleep := true }] }
  | armOrphanTimer r task => some {
      shared := s.withInner (s.inner.armOrphanTimer r task)
      abort := (s.inner.orphanTimers.lookup r).toList }
  | cancelOrphanTimer r => (s.withInner (s.inner.removeOrphanTimer r)).andThen
      ((s.inner.orphanTimers.lookup r).toList.map fun i => .router (.abortTask i))
  | killOrphanNow r => some (s.unregister r [.manager (.kill r)])
  | abortTask i => some { shared := s, abort := [i] }
  | fireOrphanReap r => (s.withInner (s.inner.removeOrphanTimer r)).andThen
      (onlyIf (s.inner.table.rendererIds.contains r && s.inner.isOrphan r)
        [.router (.killOrphanNow r)])
  | relinkDisplaysTo ds r =>
      let applied := s.inner.relinkTargets ds
      (s.withInner (s.inner.relinkDisplaysTo ds r)).andThen
        (applied.map (fun d => .router (.syncDisplay d)) ++
          [.router .reconcileLifecycle, .router (.markOrphans (some r)),
            .router .reconcileBufferFlags] ++
          onlyIf (!applied.isEmpty) [.router .emitDisplaysReplace])
  | relinkAllDisplaysTo r =>
      let ids := s.inner.displays.keys
      (s.withInner (s.inner.relinkAllDisplaysTo r)).andThen
        (ids.map (fun d => .router (.syncDisplay d)) ++
          [.router .reconcileLifecycle, .router (.markOrphans (some r)),
            .router .reconcileBufferFlags] ++
          onlyIf (!ids.isEmpty) [.router .emitDisplaysReplace])
  | setLinkGeometry lid g =>
      let out := s.inner.setLinkGeometry s.settings s.slots lid g
      (s.withInner out.1).andThen (out.2.toList.flatMap fun p =>
        [.router (.sendLinkConfig p.1 p.2), .router (.emitDisplayUpsert p.1)])
  | sendLinkConfig d p =>
      if s.inner.displays.containsKey d then (s.dispatch d [.setConfig p]).done else s.done
  | resyncDisplaySetConfig d =>
      let out := s.inner.resyncDisplaySetConfig s.settings s.slots d
      ((s.withInner out.1).dispatch d out.2).done
  | resyncAllSetConfigs =>
      s.andThen (s.inner.displays.keys.map fun d => .router (.resyncDisplaySetConfig d))
  | onRendererBind r =>
      s.andThen ((s.inner.activeLinks r).map (fun l => .router (.syncDisplay l.displayId)) ++
        [.router .reconcileBufferFlags, .router (.emitRendererUpsert r)])
  | onRendererFrame r index seq point =>
      match s.inner.table.getRenderer r with
      | none => s.done
      | some h =>
          match (s.slots h.id).generation with
          | none => s.done
          | some g =>
              let recipients := s.inner.frameRecipients r g
              if recipients = [] then
                (s.modifySlots h.id (·.submitFrameRecord ⟨point, none, 0⟩)).done
              else
                (s.dispatchAll recipients (.frame h.id g index seq point recipients.length)).done
  | reconcileLifecycle =>
      let out := s.inner.reconcileLifecycle s.settings
      let decisions := out.2.map fun p => Decision.mk s.history.passes p.1 p.2
      ((s.withInner out.1).record fun h => { h with
          passes := h.passes + 1
          decided := h.decided ++ decisions }).andThen
        (decisions.map (fun d => .router (.sendLifecycle d)) ++
          decisions.map fun d => .router (.emitRendererUpsert d.renderer))
  | sendLifecycle d =>
      (s.record fun h => { h with emitted := h.emitted ++ [d] }).andThen
        (onlyIf (s.managed.containsKey d.renderer)
          [.manager (.writeControl d.renderer d.message.control d.pass)])
  | reconcileBufferFlags =>
      s.andThen ((s.inner.reconcileBufferFlags s.slots).entries.map fun e =>
        .manager (.sendNegotiateBuffers e.1 e.2))
  | syncDisplay d =>
      let out := s.inner.syncDisplay s.settings s.slots d
      ((s.withInner out.1).dispatch d out.2).done
  | emit e => Daemon.done { s with events := s.events ++ [e] }
  | emitDisplayUpsert d => s.andThen
      ((s.inner.snapshotDisplay s.settings d).toList.map fun snap =>
        .router (.emit (.displayUpsert snap)))
  | emitDisplaysReplace =>
      s.andThen [.router (.emit (.displaysReplace (s.inner.snapshotDisplays s.settings)))]
  | emitRendererUpsert r => s.andThen
      ((s.inner.snapshotRenderer s.slots r).toList.map fun snap =>
        .router (.emit (.rendererUpsert snap)))

end RouterCall

namespace ManagerCall

def exec (x : Choice) (s : Daemon) : ManagerCall → Option Step
  | insertRenderer h => Daemon.done { s with managed := s.managed.insert h.id h }
  | registerSpawned r => s.andThen
      ((s.managed.lookup r).toList.map fun h => .router (.registerRenderer h))
  | kill r => Daemon.andThen { s with managed := s.managed.erase r }
      (onlyIf (s.managed.containsKey r) [.manager (.writeControl r .shutdown 0)])
  | evict r => Daemon.andThen { s with managed := s.managed.erase r }
      (onlyIf (s.managed.containsKey r) [.router (.unregisterRenderer r)])
  | reapLoop =>
      match s.reapQueue with
      | [] => none
      | r :: queue => Daemon.andThen { s with reapQueue := queue }
          [.manager (.evict r), .manager .reapLoop]
  | writeControl r msg pass =>
      match x with
      | .fail => s.done
      | .peerGone => (s.markDead r).done
      | _ => (s.writeSocket r msg pass).done
  | sendNegotiateBuffers r scheme => s.andThen
      (onlyIf (s.managed.containsKey r && (s.slots r).lastDispatchedScheme != some scheme)
        [.manager (.sendNegotiate r scheme)])
  | sendNegotiate r scheme => s.andThen
      (onlyIf (s.managed.containsKey r) [.manager (.writeNegotiate r scheme)])
  | writeNegotiate r scheme =>
      match x with
      | .fail => s.done
      | .peerGone => (s.markDead r).done
      | _ => (s.writeSocket r (.negotiateBuffers scheme) 0).andThen
          [.manager (.storeDispatchedScheme r scheme)]
  | storeDispatchedScheme r scheme =>
      (s.modifySlots r fun sl => { sl with lastDispatchedScheme := some scheme }).done

end ManagerCall

namespace ReaderCall

/-- What the reader does with a message before it broadcasts it: its first access to the slots,
and the accesses that follow. -/
def receive (r : RendererId) : EventMsg → (Slots → Slots) × List Call
  | .bindBuffers snap =>
      if snap.accepted then
        (fun sl => { sl with bindSnapshot := some snap },
          [.reader (.clearSyncFds r), .reader (.clearLatestFrame r)])
      else (id, [])
  | .frameReady index seq point =>
      (fun sl => sl.pushSyncFd seq, [.reader (.stashLatestFrame r index seq point)])
  | .releaseSyncobj => (fun sl => { sl with releaseSyncobj := true }, [])
  | .formatCaps caps =>
      (fun sl => match caps.unflatten with
        | .ok caps => { sl with formatCaps := some caps }
        | .error _ => sl, [])
  | .bindFailed _ _ => (id, [])
  | .reportState clear => (fun sl => { sl with clearRgba := clear.getD sl.clearRgba }, [])

def exec (x : Choice) (s : Daemon) : ReaderCall → Option Step
  | readerLoop r =>
      match x with
      | .received msg =>
          ((s.modifySlots r (receive r msg).1).record fun h => { h with
            received := Function.update h.received r (h.received r ++ [msg]) }).andThen
            ((receive r msg).2 ++ [.reader (.broadcast r msg), .reader (.readerLoop r)])
      | .closed => (s.markDead r).done
      | _ => none
  | clearSyncFds r => (s.modifySlots r fun sl => { sl with syncFds := [] }).done
  | clearLatestFrame r => (s.modifySlots r fun sl => { sl with latestFrame := none }).done
  | stashLatestFrame r index seq point =>
      (s.modifySlots r fun sl => { sl with
        latestFrame := match sl.generation with
          | some g => some ⟨g, index, seq, point⟩
          | none => sl.latestFrame }).done
  | broadcast r msg => Daemon.done { s with
      broadcasts := Function.update s.broadcasts r (s.broadcasts r ++ [msg]) }

end ReaderCall

namespace EndpointCall

/-- The connection is over. -/
def hangUp (s : Daemon) (d : DisplayId) : Option Step :=
  s.andThen [.router (.unregisterDisplay d)]

/-- The router calls a client's request leads to; `none` ends the connection. -/
def request (d : DisplayId) : ClientRequest → Option (List Call)
  | .updateDisplay w h => some [.router (.updateDisplaySize d w h)]
  | .windowState flags => some [.router (.updateDisplayWindowState d flags)]
  | .consumerCaps caps =>
      match caps.unflatten with
      | .ok caps => some [.router (.setConsumerCaps d caps)]
      | .error _ => some []
  | .bindFailed fourcc modifier => some [.router (.onConsumerBindFailed d fourcc modifier)]
  | .unbindDone g => some [.router (.recordUnbindDone d g)]
  | .bye => none

/-- Hand the frame record of a forwarded frame to its renderer's reaper. -/
def submit (s : Daemon) : WireEvent → Option FrameRecord → Daemon
  | .frameReady r _ _ _, some record => s.modifySlots r (·.submitFrameRecord record)
  | _, _ => s

def exec (x : Choice) (s : Daemon) : EndpointCall → Option Step
  | accepted d =>
      match x with
      | .fail => s.done
      | _ => s.andThen [.endpoint (.frameLoop d)]
  | frameLoop d =>
      match x with
      | .client q =>
          let s := s.answer d q
          match request d q with
          | some next => s.andThen (next ++ [.endpoint (.frameLoop d)])
          | none => hangUp s d
      | .closed => hangUp s d
      | _ =>
          match (s.channels d)[s.taken d]? with
          | some e => Daemon.andThen
              { s with taken := Function.update s.taken d (s.taken d + 1) }
              [.endpoint (.deliver d e.event)]
          | none => if s.inner.displays.containsKey d then none else hangUp s d
  | deliver d e =>
      match e with
      | .bind r =>
          match (s.slots r).bindSnapshot with
          | none => hangUp s d
          | some snap =>
              if snap.consistent then s.andThen [.endpoint (.write d (.bindBuffers r snap) none)]
              else hangUp s d
      | .unbind g => s.andThen [.endpoint (.write d (.unbind g) none)]
      | .setConfig cfg => s.andThen [.endpoint (.write d (.setConfig cfg) none)]
      | .frame r g index seq point count =>
          if (s.slots r).cloneSyncFd seq && x matches .tick then
            s.andThen [.endpoint (.write d (.frameReady r g index seq)
              (some ⟨point, some d, count⟩))]
          else hangUp s d
  | write d w record =>
      match x with
      | .fail => hangUp s d
      | _ => Daemon.andThen
          (submit { s with wires := Function.update s.wires d (s.wires d ++ [w]) } w record)
          [.endpoint (.frameLoop d)]

end EndpointCall

namespace ApplyCall

def exec (x : Choice) (s : Daemon) : ApplyCall → Option Step
  | applyWallpaperCore target =>
      match x with
      | .entry wpType => s.andThen
          (onlyIf ((s.registry.lookup wpType).any fun defs => !defs.isEmpty)
            [.apply (.stopReplaced target wpType)])
      | .fail => s.done
      | _ => none
  | stopReplaced target wpType =>
      let run : ApplyRun := ⟨s.history.runs.length, target⟩
      (s.record fun h => { h with runs := h.runs ++ [run] }).andThen
        (stopRenderersOrderly (s.inner.renderersFullyReplacedBy target) ++
          [.apply (.callExtras run wpType)])
  | callExtras run wpType =>
      match x with
      | .properties extras layout =>
          s.andThen [.apply (.findReusable run ⟨wpType, extras, none⟩ layout)]
      | .fail => s.done
      | _ => none
  | findReusable run req layout =>
      let purpose := Purpose.core run layout
      match s.findReusable req with
      | some r => s.andThen (purpose.continueWith r)
      | none => s.andThen [.apply (.spawn req purpose)]
  | spawn req purpose =>
      match s.resolve req, x with
      | none, _ => s.done
      | some _, .fail => s.done
      | some name, .spawned id pid gpu reaper =>
          if id ∈ s.history.used then none
          else
            some {
              shared := (s.modifySlots id fun _ => { Slots.initial with reaper }).record
                fun h => { h with used := id :: h.used }
              next := [.manager (.insertRenderer ⟨id, req.wpType, req.extras, name, pid, gpu⟩),
                .manager (.registerSpawned id)] ++ purpose.continueWith id
              spawn := [{ stack := [.reader (.readerLoop id)] }] }
      | some _, _ => none
  | finish run r =>
      (s.record fun h => { h with applied := h.applied ++ [(run, r)] }).done
  | wallpaperApply displays name =>
      match x with
      | .entry wpType =>
          let known := match name with
            | none => (s.registry.lookup wpType).any fun defs => !defs.isEmpty
            | some n => (s.registry.lookup wpType).any (·.contains n)
          s.andThen (onlyIf (!s.inner.displays.keys.isEmpty && known)
            [.apply (.requestExtras displays wpType name)])
      | .fail => s.done
      | _ => none
  | requestExtras displays wpType name =>
      match x with
      | .properties extras layout =>
          s.andThen [.apply (.requestFindReusable displays ⟨wpType, extras, name⟩ layout)]
      | .fail => s.done
      | _ => none
  | requestFindReusable displays req layout =>
      match s.findReusable req with
      | some r => s.andThen ((Purpose.request displays layout).continueWith r)
      | none => s.andThen [.apply (.requestStopReplaced displays req layout)]
  | requestStopReplaced displays req layout =>
      let target := if displays = [] then none else some displays
      s.andThen (stopRenderersOrderly (s.inner.renderersFullyReplacedBy target) ++
        [.apply (.spawn req (.request displays layout))])
  | waitForFirstFrame r =>
      match x with
      | .tick => s.done
      | .fail => s.andThen (unregisterAndKill r)
      | _ => none

end ApplyCall

namespace Call

def exec (x : Choice) (fresh : ℕ) (c : Call) (s : Daemon) : Option Step :=
  match c with
  | router c => c.exec x fresh s
  | manager c => c.exec x s
  | reader c => c.exec x s
  | endpoint c => c.exec x s
  | apply c => c.exec x s

end Call

/-- The router's public operations. -/
def RouterCall.isPublic : RouterCall → Bool
  | registerRenderer _ | unregisterRenderer _ | setRendererWallpaperLayoutOverride _ _
  | beginUnbindAckTracking _ | recordUnbindDone _ _ | awaitUnbindAcks _ | registerDisplay _ _
  | unregisterDisplay _ | setConsumerCaps _ _ | onConsumerBindFailed _ _ _
  | onRendererBindFailed _ _ _ | onRendererStateChanged _ | updateDisplaySize _ _ _
  | updateDisplayWindowState _ _ | updateSessionState _ _ | setManualPause _ | markOrphans _
  | cancelOrphanTimer _ | relinkDisplaysTo _ _ | relinkAllDisplaysTo _ | setLinkGeometry _ _
  | resyncDisplaySetConfig _ | resyncAllSetConfigs => true
  | _ => false

/-- The task a request starts. A renderer is registered under an id that is drawn for it. -/
def Request.accept (q : Request) (s : Daemon) : Option (Daemon × DaemonTask) :=
  match q with
  | connect reg => some (s, { stack :=
      [.router (.migratePrefs reg), .router (.registerDisplay reg true)] })
  | applyGlobal => some (s, { stack := [.apply (.applyWallpaperCore none)], cancellable := true })
  | applyToDisplays displays =>
      if displays = [] then none
      else some (s, { stack := [.apply (.applyWallpaperCore (some displays))] })
  | wallpaperApply displays name =>
      some (s, { stack := [.apply (.wallpaperApply displays name)] })
  | rendererSpawn req => some (s, { stack := [.apply (.spawn req .bare)] })
  | rendererKill r => some (s, { stack := unregisterAndKill r })
  | router c =>
      match c with
      | .registerRenderer h =>
          if h.id ∈ s.history.used then none
          else some (s.record fun k => { k with used := h.id :: k.used },
            { stack := [.router (.registerRenderer h)] })
      | c => if c.isPublic then some (s, { stack := [.router c] }) else none

def Environment.act (e : Environment) (s : Daemon) : Daemon :=
  match e with
  | settings st => { s with settings := some st }
  | promoteRegistered r =>
      s.withInner { s.inner with table := s.inner.table.promoteRenderer r }
  | promoteDisplay d => s.withInner { s.inner with displays := s.inner.displays.promote d }
  | promoteManaged r => { s with managed := s.managed.promote r }

/-- The daemon. -/
def semantics : Semantics Daemon Call Choice Request Environment where
  exec := Call.exec
  accept := Request.accept
  act e s := some (e.act s)

/-- The daemon as it starts: nothing registered, only the reaper task running. -/
def Daemon.initial (registry : HashMap String (List String)) : Daemon where
  inner := .new
  settings := none
  registry := registry
  managed := ∅
  reapQueue := []
  slots := fun _ => .initial
  broadcasts := fun _ => []
  sockets := fun _ => []
  channels := fun _ => []
  taken := fun _ => 0
  wires := fun _ => []
  events := []
  history := ⟨[], [], fun _ => [], fun _ => [], fun _ => 0, 0, [], [], [], []⟩

def start (registry : HashMap String (List String)) : DaemonPool where
  shared := .initial registry
  tasks := [{ stack := [.manager .reapLoop] }]

/-- A run of the daemon from its start. -/
def Run (registry : HashMap String (List String)) (ls : List DaemonLabel) (p : DaemonPool) :
    Prop :=
  Transition.run semantics.step (start registry) ls = some p

/-- Nothing fails, and no connection is closed from outside. -/
def calm : DaemonLabel → Bool
  | .run _ .fail | .run _ .peerGone | .run _ .closed | .run _ (.client .bye) => false
  | _ => true

/-! A small scene: one plugin, one renderer with a pool of one buffer, one display. -/

def sceneRegistry : HashMap String (List String) :=
  (∅ : HashMap String (List String)).insert "scene" ["plugin"]

def scenePool (generation : ℕ) : BindSnapshot :=
  ⟨generation, 0, 1, 0, 64, 64, 0, 1, [0], [0], [0], 1⟩

/-- Renderer 7 is spawned. -/
def sceneSpawned : List DaemonLabel :=
  [.start (.rendererSpawn ⟨"scene", ∅, none⟩), .run 1 (.spawned 7 none ⟨0, 0⟩ false)] ++
  List.replicate 9 (.run 1 .tick)

/-- It binds its first pool, a display connects, and is told of the pool. -/
def sceneBound : List DaemonLabel :=
  sceneSpawned ++ .run 2 (.received (.bindBuffers (scenePool 1))) ::
  List.replicate 3 (.run 2 .tick) ++ List.replicate 5 (.run 3 .tick) ++
  .start (.connect ⟨"A", none, 1920, 1080, 60, ⟨0, 0⟩, none⟩) :: List.replicate 19 (.run 4 .tick)

end Waywallen
