import Waywallen.Daemon.Frames

/-!
# The control flow of the daemon

Which calls a call may go on with, and which tasks it may spawn. Cases on `Continues c k` for a
given `k` are the places of the program that lead to `k`.
-/

namespace Waywallen

open TaskPool

namespace Call

/-- The call unregisters renderer `r`. -/
@[grind intro]
inductive Removes : Call → RendererId → Prop
  | unregister {r} : Removes (router (.unregisterRenderer r)) r
  | orphan {r} : Removes (router (.killOrphanNow r)) r

/-- In state `s`, call `c` goes on to reap the orphaned renderer `r`. -/
@[grind intro]
inductive Reaps (s : Daemon) : Call → RendererId → Prop
  | orphan {keep r} (hr : r ∈ s.inner.orphanCandidates keep)
      (hl : s.inner.loneRendererNoDisplays = false) : Reaps s (router (.markOrphans keep)) r
  | timer {r} (hr : r ∈ s.inner.table.rendererIds) (ho : s.inner.isOrphan r = true) :
      Reaps s (router (.fireOrphanReap r)) r

/-- In state `s`, call `c` starts the shutdown handshake of renderer `r`. -/
@[grind intro]
inductive Stops (s : Daemon) : Call → RendererId → Prop
  | core {target ty r} (hr : r ∈ s.inner.renderersFullyReplacedBy target) :
      Stops s (apply (.stopReplaced target ty)) r
  | request {ds req layout r}
      (hr : r ∈ s.inner.renderersFullyReplacedBy (if ds = [] then none else some ds)) :
      Stops s (apply (.requestStopReplaced ds req layout)) r

/-- In state `s`, call `c` settles on renderer `r`, reused or about to be registered. -/
@[grind intro]
inductive Settles (s : Daemon) : Call → Purpose → RendererId → Prop
  | found {run req layout r} (hr : s.findReusable req = some r) :
      Settles s (apply (.findReusable run req layout)) (.core run layout) r
  | requestFound {ds req layout r} (hr : s.findReusable req = some r) :
      Settles s (apply (.requestFindReusable ds req layout)) (.request ds layout) r
  | spawned {req purpose r} (hid : r ∉ s.history.used) :
      Settles s (apply (.spawn req purpose)) purpose r

/-- In state `s`, call `c` may push `k`; `fresh` is the position of the first task it spawns. -/
@[grind intro]
inductive Continues (fresh : ℕ) (s : Daemon) : Call → Call → Prop
  | registerRenderer {h} :
      Continues fresh s (router (.registerRenderer h)) (router (.addRenderer h fresh))
  | addRenderer {h i} : Continues fresh s (router (.addRenderer h i)) (router .reconcileLifecycle)
  | eventsNext {r k} :
      Continues fresh s (router (.rendererEvents r k)) (router (.rendererEvents r (k + 1)))
  | eventsLagged {r k} (h : k + broadcastCapacity < (s.broadcasts r).length) :
      Continues fresh s (router (.rendererEvents r k))
        (router (.rendererEvents r ((s.broadcasts r).length - broadcastCapacity)))
  | eventsBind {r k snap} (he : (s.broadcasts r)[k]? = some (.bindBuffers snap)) :
      Continues fresh s (router (.rendererEvents r k)) (router (.onRendererBind r))
  | eventsFrame {r k index seq point}
      (he : (s.broadcasts r)[k]? = some (.frameReady index seq point)) :
      Continues fresh s (router (.rendererEvents r k))
        (router (.onRendererFrame r index seq point))
  | eventsCaps {r k} : Continues fresh s (router (.rendererEvents r k))
      (router .reconcileBufferFlags)
  | eventsBindFailed {r k f m} : Continues fresh s (router (.rendererEvents r k))
      (router (.onRendererBindFailed r f m))
  | eventsState {r k} : Continues fresh s (router (.rendererEvents r k))
      (router (.onRendererStateChanged r))
  | unregisterEmit {c r} (h : Removes c r) :
      Continues fresh s c (router (.emit (.rendererRemoved r)))
  | unregisterSync {c r d} (h : Removes c r) (hd : d ∈ s.inner.affectedBy r) :
      Continues fresh s c (router (.syncDisplay d))
  | unregisterReconcile {c r} (h : Removes c r) :
      Continues fresh s c (router .reconcileLifecycle)
  | unregisterReplace {c r} (h : Removes c r) : Continues fresh s c (router .emitDisplaysReplace)
  | orphanKill {r} : Continues fresh s (router (.killOrphanNow r)) (manager (.kill r))
  | overrideResync {r o d} :
      Continues fresh s (router (.setRendererWallpaperLayoutOverride r o))
        (router (.resyncDisplaySetConfig d))
  | overrideReplace {r o} :
      Continues fresh s (router (.setRendererWallpaperLayoutOverride r o))
        (router .emitDisplaysReplace)
  | awaitUnbindAcks {r} :
      Continues fresh s (router (.awaitUnbindAcks r)) (router (.clearUnbindAcks r))
  | displayCancel {reg b r} :
      Continues fresh s (router (.registerDisplay reg b)) (router (.cancelOrphanTimer r))
  | displaySync {reg b} : Continues fresh s (router (.registerDisplay reg b))
      (router (.syncDisplay (s.inner.nextDisplayId + 1)))
  | displayReconcile {reg b} :
      Continues fresh s (router (.registerDisplay reg b)) (router .reconcileLifecycle)
  | displayFlags {reg b} :
      Continues fresh s (router (.registerDisplay reg b)) (router .reconcileBufferFlags)
  | displayUpsert {reg b} : Continues fresh s (router (.registerDisplay reg b))
      (router (.emitDisplayUpsert (s.inner.nextDisplayId + 1)))
  | displayAccepted {reg} : Continues fresh s (router (.registerDisplay reg true))
      (endpoint (.accepted (s.inner.nextDisplayId + 1)))
  | undisplayOrphans {d} :
      Continues fresh s (router (.unregisterDisplay d)) (router (.markOrphans none))
  | undisplayReconcile {d} :
      Continues fresh s (router (.unregisterDisplay d)) (router .reconcileLifecycle)
  | undisplayFlags {d} :
      Continues fresh s (router (.unregisterDisplay d)) (router .reconcileBufferFlags)
  | undisplayEmit {d} :
      Continues fresh s (router (.unregisterDisplay d)) (router (.emit (.displayRemoved d)))
  | setConsumerCaps {d caps} :
      Continues fresh s (router (.setConsumerCaps d caps)) (router .reconcileBufferFlags)
  | onConsumerBindFailed {d f m} :
      Continues fresh s (router (.onConsumerBindFailed d f m)) (router .reconcileBufferFlags)
  | onRendererBindFailed {r f m} :
      Continues fresh s (router (.onRendererBindFailed r f m)) (router .reconcileBufferFlags)
  | onRendererStateChanged {r rgba} : Continues fresh s (router (.onRendererStateChanged r))
      (router (.updateClearColors r rgba))
  | updateClearColors {r rgba d} : Continues fresh s (router (.updateClearColors r rgba))
      (router (.resyncDisplaySetConfig d))
  | sizeResync {d w h} : Continues fresh s (router (.updateDisplaySize d w h))
      (router (.resyncDisplaySetConfig d))
  | sizeUpsert {d w h} : Continues fresh s (router (.updateDisplaySize d w h))
      (router (.emitDisplayUpsert d))
  | updateDisplayWindowState {d f} :
      Continues fresh s (router (.updateDisplayWindowState d f)) (router .reconcileLifecycle)
  | resumeAutopause {d g} :
      Continues fresh s (router (.resumeAutopause d g)) (router .reconcileLifecycle)
  | updateSessionState {l i} :
      Continues fresh s (router (.updateSessionState l i)) (router .reconcileLifecycle)
  | resumeSession {g} : Continues fresh s (router (.resumeSession g)) (router .reconcileLifecycle)
  | setManualPause {b} : Continues fresh s (router (.setManualPause b)) (router .reconcileLifecycle)
  | orphansGrace {keep r} (hr : r ∈ s.inner.orphanCandidates keep) :
      Continues fresh s (router (.markOrphans keep)) (router (.scheduleOrphanGrace r))
  | reap {c r} (h : Reaps s c r) : Continues fresh s c (router (.killOrphanNow r))
  | orphansCancel {r} :
      Continues fresh s (router (.markOrphans (some r))) (router (.cancelOrphanTimer r))
  | scheduleOrphanGrace {r} :
      Continues fresh s (router (.scheduleOrphanGrace r)) (router (.armOrphanTimer r fresh))
  | cancelOrphanTimer {r i} (hi : s.inner.orphanTimers.lookup r = some i) :
      Continues fresh s (router (.cancelOrphanTimer r)) (router (.abortTask i))
  | relinkSync {ds r d} (hd : d ∈ s.inner.relinkTargets ds) :
      Continues fresh s (router (.relinkDisplaysTo ds r)) (router (.syncDisplay d))
  | relinkReconcile {ds r} :
      Continues fresh s (router (.relinkDisplaysTo ds r)) (router .reconcileLifecycle)
  | relinkOrphans {ds r} :
      Continues fresh s (router (.relinkDisplaysTo ds r)) (router (.markOrphans (some r)))
  | relinkFlags {ds r} :
      Continues fresh s (router (.relinkDisplaysTo ds r)) (router .reconcileBufferFlags)
  | relinkReplace {ds r} :
      Continues fresh s (router (.relinkDisplaysTo ds r)) (router .emitDisplaysReplace)
  | relinkAllSync {r d} (hd : d ∈ s.inner.displays.keys) :
      Continues fresh s (router (.relinkAllDisplaysTo r)) (router (.syncDisplay d))
  | relinkAllReconcile {r} :
      Continues fresh s (router (.relinkAllDisplaysTo r)) (router .reconcileLifecycle)
  | relinkAllOrphans {r} :
      Continues fresh s (router (.relinkAllDisplaysTo r)) (router (.markOrphans (some r)))
  | relinkAllFlags {r} :
      Continues fresh s (router (.relinkAllDisplaysTo r)) (router .reconcileBufferFlags)
  | relinkAllReplace {r} :
      Continues fresh s (router (.relinkAllDisplaysTo r)) (router .emitDisplaysReplace)
  | geometrySend {lid g d p}
      (hp : (s.inner.setLinkGeometry s.settings s.slots lid g).2 = some (d, p)) :
      Continues fresh s (router (.setLinkGeometry lid g)) (router (.sendLinkConfig d p))
  | geometryUpsert {lid g d} :
      Continues fresh s (router (.setLinkGeometry lid g)) (router (.emitDisplayUpsert d))
  | resyncAll {d} :
      Continues fresh s (router .resyncAllSetConfigs) (router (.resyncDisplaySetConfig d))
  | bindSync {r d} : Continues fresh s (router (.onRendererBind r)) (router (.syncDisplay d))
  | bindFlags {r} :
      Continues fresh s (router (.onRendererBind r)) (router .reconcileBufferFlags)
  | bindUpsert {r} :
      Continues fresh s (router (.onRendererBind r)) (router (.emitRendererUpsert r))
  | reconcileSend {r m} (h : (r, m) ∈ (s.inner.reconcileLifecycle s.settings).2) :
      Continues fresh s (router .reconcileLifecycle)
        (router (.sendLifecycle ⟨s.history.passes, r, m⟩))
  | reconcileUpsert {r} :
      Continues fresh s (router .reconcileLifecycle) (router (.emitRendererUpsert r))
  | sendLifecycle {d} (h : s.managed.containsKey d.renderer = true) :
      Continues fresh s (router (.sendLifecycle d))
        (manager (.writeControl d.renderer d.message.control d.pass))
  | reconcileBufferFlags {r scheme} :
      Continues fresh s (router .reconcileBufferFlags) (manager (.sendNegotiateBuffers r scheme))
  | emitDisplayUpsert {d e} : Continues fresh s (router (.emitDisplayUpsert d)) (router (.emit e))
  | emitDisplaysReplace {e} : Continues fresh s (router .emitDisplaysReplace) (router (.emit e))
  | emitRendererUpsert {r e} :
      Continues fresh s (router (.emitRendererUpsert r)) (router (.emit e))
  | registerSpawned {r h} (hr : s.managed.lookup r = some h) :
      Continues fresh s (manager (.registerSpawned r)) (router (.registerRenderer h))
  | kill {r} : Continues fresh s (manager (.kill r)) (manager (.writeControl r .shutdown 0))
  | evict {r} (hr : s.managed.containsKey r = true) :
      Continues fresh s (manager (.evict r)) (router (.unregisterRenderer r))
  | reapEvict {r} (hr : r ∈ s.reapQueue) :
      Continues fresh s (manager .reapLoop) (manager (.evict r))
  | reapLoop : Continues fresh s (manager .reapLoop) (manager .reapLoop)
  | sendNegotiateBuffers {r scheme} :
      Continues fresh s (manager (.sendNegotiateBuffers r scheme))
        (manager (.sendNegotiate r scheme))
  | sendNegotiate {r scheme} :
      Continues fresh s (manager (.sendNegotiate r scheme)) (manager (.writeNegotiate r scheme))
  | writeNegotiate {r scheme} : Continues fresh s (manager (.writeNegotiate r scheme))
      (manager (.storeDispatchedScheme r scheme))
  | readerBind {r} : Continues fresh s (reader (.readerLoop r)) (reader (.clearSyncFds r))
  | readerBindFrame {r} :
      Continues fresh s (reader (.readerLoop r)) (reader (.clearLatestFrame r))
  | readerFrame {r index seq point} : Continues fresh s (reader (.readerLoop r))
      (reader (.stashLatestFrame r index seq point))
  | readerBroadcast {r msg} :
      Continues fresh s (reader (.readerLoop r)) (reader (.broadcast r msg))
  | readerLoop {r} : Continues fresh s (reader (.readerLoop r)) (reader (.readerLoop r))
  | accepted {d} : Continues fresh s (endpoint (.accepted d)) (endpoint (.frameLoop d))
  | clientSize {d w h} :
      Continues fresh s (endpoint (.frameLoop d)) (router (.updateDisplaySize d w h))
  | clientWindow {d flags} :
      Continues fresh s (endpoint (.frameLoop d)) (router (.updateDisplayWindowState d flags))
  | clientCaps {d caps} :
      Continues fresh s (endpoint (.frameLoop d)) (router (.setConsumerCaps d caps))
  | clientBindFailed {d f m} :
      Continues fresh s (endpoint (.frameLoop d)) (router (.onConsumerBindFailed d f m))
  | clientUnbindDone {d g} :
      Continues fresh s (endpoint (.frameLoop d)) (router (.recordUnbindDone d g))
  | frameLoop {d} : Continues fresh s (endpoint (.frameLoop d)) (endpoint (.frameLoop d))
  | frameHangUp {d} :
      Continues fresh s (endpoint (.frameLoop d)) (router (.unregisterDisplay d))
  | frameDeliver {d e} (he : (s.channels d)[s.taken d]? = some e) :
      Continues fresh s (endpoint (.frameLoop d)) (endpoint (.deliver d e.event))
  | deliverWrite {d e w rec} : Continues fresh s (endpoint (.deliver d e)) (endpoint (.write d w rec))
  | deliverHangUp {d e} :
      Continues fresh s (endpoint (.deliver d e)) (router (.unregisterDisplay d))
  | writeLoop {d w rec} : Continues fresh s (endpoint (.write d w rec)) (endpoint (.frameLoop d))
  | writeHangUp {d w rec} :
      Continues fresh s (endpoint (.write d w rec)) (router (.unregisterDisplay d))
  | applyStop {target ty} :
      Continues fresh s (apply (.applyWallpaperCore target)) (apply (.stopReplaced target ty))
  | stopTrack {c r} (h : Stops s c r) : Continues fresh s c (router (.beginUnbindAckTracking r))
  | stopUnregister {c r} (h : Stops s c r) : Continues fresh s c (router (.unregisterRenderer r))
  | stopAwait {c r} (h : Stops s c r) : Continues fresh s c (router (.awaitUnbindAcks r))
  | stopKill {c r} (h : Stops s c r) : Continues fresh s c (manager (.kill r))
  | stopExtras {target ty} : Continues fresh s (apply (.stopReplaced target ty))
      (apply (.callExtras ⟨s.history.runs.length, target⟩ ty))
  | callExtras {run ty req layout} :
      Continues fresh s (apply (.callExtras run ty)) (apply (.findReusable run req layout))
  | settledOverride {c run layout r} (h : Settles s c (.core run layout) r) :
      Continues fresh s c (router (.setRendererWallpaperLayoutOverride r layout))
  | settledRelinkAll {c run layout r} (h : Settles s c (.core run layout) r)
      (ht : run.target = none) : Continues fresh s c (router (.relinkAllDisplaysTo r))
  | settledRelink {c run layout r ds} (h : Settles s c (.core run layout) r)
      (ht : run.target = some ds) : Continues fresh s c (router (.relinkDisplaysTo ds r))
  | settledFinish {c run layout r} (h : Settles s c (.core run layout) r) :
      Continues fresh s c (apply (.finish run r))
  | requestedOverride {c ds layout r} (h : Settles s c (.request ds layout) r) :
      Continues fresh s c (router (.setRendererWallpaperLayoutOverride r layout))
  | requestedRelinkAll {c layout r} (h : Settles s c (.request [] layout) r) :
      Continues fresh s c (router (.relinkAllDisplaysTo r))
  | requestedRelink {c ds layout r} (h : Settles s c (.request ds layout) r) (hd : ds ≠ []) :
      Continues fresh s c (router (.relinkDisplaysTo ds r))
  | timeoutUnregister {r} :
      Continues fresh s (apply (.waitForFirstFrame r)) (router (.unregisterRenderer r))
  | timeoutKill {r} : Continues fresh s (apply (.waitForFirstFrame r)) (manager (.kill r))
  | requestedWait {c ds layout r} (h : Settles s c (.request ds layout) r) :
      Continues fresh s c (apply (.waitForFirstFrame r))
  | findSpawn {run req layout} : Continues fresh s (apply (.findReusable run req layout))
      (apply (.spawn req (.core run layout)))
  | spawnInsert {req purpose h} (hid : h.id ∉ s.history.used) :
      Continues fresh s (apply (.spawn req purpose)) (manager (.insertRenderer h))
  | spawnRegister {req purpose id} (hid : id ∉ s.history.used) :
      Continues fresh s (apply (.spawn req purpose)) (manager (.registerSpawned id))
  | wallpaperApply {ds name ty} :
      Continues fresh s (apply (.wallpaperApply ds name)) (apply (.requestExtras ds ty name))
  | requestExtras {ds ty name req layout} : Continues fresh s (apply (.requestExtras ds ty name))
      (apply (.requestFindReusable ds req layout))
  | requestNotFound {ds req layout} :
      Continues fresh s (apply (.requestFindReusable ds req layout))
        (apply (.requestStopReplaced ds req layout))
  | requestSpawn {ds req layout} : Continues fresh s (apply (.requestStopReplaced ds req layout))
      (apply (.spawn req (.request ds layout)))

end Call

variable {x : Choice} {fresh : ℕ} {s : Daemon} {o : Step}

theorem mem_onlyIf {b : Bool} {l : List Call} {k : Call} : k ∈ onlyIf b l ↔ b = true ∧ k ∈ l := by
  cases b <;> simp [onlyIf]

theorem mem_unregisterAndKill {r : RendererId} {k : Call} : k ∈ unregisterAndKill r ↔
    k = .router (.unregisterRenderer r) ∨ k = .manager (.kill r) := by
  simp [unregisterAndKill]

theorem mem_stopRenderersOrderly {rs : List RendererId} {k : Call} :
    k ∈ stopRenderersOrderly rs ↔ ∃ r ∈ rs, k = .router (.beginUnbindAckTracking r) ∨
      k = .router (.unregisterRenderer r) ∨ k = .router (.awaitUnbindAcks r) ∨
      k = .manager (.kill r) := by
  simp only [stopRenderersOrderly, List.mem_append, List.mem_map]
  grind

/-- What a call goes on with once it has settled on a renderer. -/
theorem Call.Settles.continues {c : Call} {purpose : Purpose} {r : RendererId}
    (h : c.Settles s purpose r) {k : Call} (hk : k ∈ purpose.continueWith r) :
    c.Continues fresh s k := by
  cases purpose with
  | core run layout =>
    simp only [Purpose.continueWith, List.mem_cons, List.not_mem_nil, or_false] at hk
    cases ht : run.target <;> rw [ht] at hk <;> grind
  | request ds layout =>
    simp only [Purpose.continueWith, List.mem_cons, List.not_mem_nil, or_false] at hk
    by_cases hd : ds = [] <;> grind
  | bare => cases hk

/-- What a call goes on with once it has dropped a renderer. -/
theorem Call.Removes.continues {c : Call} {r : RendererId} (h : c.Removes r) {after : List Call}
    {k : Call} (hk : k ∈ (s.unregister r after).next) : c.Continues fresh s k ∨ k ∈ after := by
  simp only [Daemon.unregister, List.mem_append, List.mem_cons, List.mem_map, mem_onlyIf,
    List.not_mem_nil, or_false] at hk
  obtain ((rfl | ⟨d, hd, rfl⟩) | rfl | ⟨-, rfl⟩) | hk := hk
  · exact .inl (.unregisterEmit h)
  · exact .inl (.unregisterSync h hd)
  · exact .inl (.unregisterReconcile h)
  · exact .inl (.unregisterReplace h)
  · exact .inr hk

theorem RouterCall.continues {c : RouterCall} (h : c.exec x fresh s = some o) {k : Call}
    (hk : k ∈ o.next) : Call.Continues fresh s (.router c) k := by
  cases c with
  | rendererEvents r taken =>
    simp only [RouterCall.exec, Daemon.andThen] at h
    split at h
    · cases h
      obtain rfl := List.mem_singleton.1 hk
      exact .eventsLagged ‹_›
    · split at h
      · cases h
      · rename_i e he
        cases h
        obtain hk | hk := List.mem_append.1 hk
        · cases e <;> simp only [EventMsg.handler, List.mem_singleton, List.not_mem_nil] at hk <;>
            grind
        · obtain rfl := List.mem_singleton.1 hk
          exact .eventsNext
  | unregisterRenderer r =>
    cases h
    exact (Call.Removes.unregister.continues hk).resolve_right List.not_mem_nil
  | killOrphanNow r =>
    cases h
    obtain hk | hk := Call.Removes.orphan.continues hk
    · exact hk
    · obtain rfl := List.mem_singleton.1 hk
      exact .orphanKill
  | _ =>
    simp only [RouterCall.exec, Daemon.done, Daemon.andThen] at h
    (repeat' split at h) <;> cases h <;>
      simp only [List.mem_append, List.mem_cons, List.mem_map, List.mem_flatMap, mem_onlyIf,
        List.not_mem_nil, or_false, Option.mem_toList, Inner.id_registerDisplay] at hk <;>
      grind

theorem ManagerCall.continues {c : ManagerCall} (h : c.exec x s = some o) {k : Call}
    (hk : k ∈ o.next) : Call.Continues fresh s (.manager c) k := by
  cases c <;> simp only [ManagerCall.exec, Daemon.done, Daemon.andThen] at h <;>
    (repeat' split at h) <;> cases h <;>
    simp only [List.mem_cons, List.mem_map, mem_onlyIf, List.not_mem_nil, or_false,
      Option.mem_toList] at hk <;>
    grind

theorem ReaderCall.receive_continues {r : RendererId} {msg : EventMsg} {k : Call}
    (hk : k ∈ (receive r msg).2) : Call.Continues fresh s (.reader (.readerLoop r)) k := by
  cases msg with
  | bindBuffers snap =>
    simp only [receive] at hk
    split at hk <;> simp only [List.mem_cons, List.not_mem_nil, or_false] at hk
    obtain rfl | rfl := hk
    · exact .readerBind
    · exact .readerBindFrame
  | frameReady index seq point =>
    obtain rfl := List.mem_singleton.1 hk
    exact .readerFrame
  | _ => cases hk

theorem ReaderCall.continues {c : ReaderCall} (h : c.exec x s = some o) {k : Call}
    (hk : k ∈ o.next) : Call.Continues fresh s (.reader c) k := by
  cases c <;> simp only [ReaderCall.exec, Daemon.done, Daemon.andThen] at h <;>
    (repeat' split at h) <;> cases h <;>
    simp only [List.mem_append, List.mem_cons, List.not_mem_nil, or_false] at hk
  obtain hk | rfl | rfl := hk
  · exact receive_continues hk
  · exact .readerBroadcast
  · exact .readerLoop

theorem EndpointCall.request_continues {d : DisplayId} {q : ClientRequest} {next : List Call}
    (hq : request d q = some next) {k : Call} (hk : k ∈ next) :
    Call.Continues fresh s (.endpoint (.frameLoop d)) k := by
  cases q with
  | consumerCaps caps =>
    simp only [request] at hq
    split at hq <;> cases hq <;> simp only [List.mem_singleton, List.not_mem_nil] at hk
    exact hk ▸ .clientCaps
  | bye => cases hq
  | _ =>
    cases hq
    obtain rfl := List.mem_singleton.1 hk
    constructor

theorem EndpointCall.continues {c : EndpointCall} (h : c.exec x s = some o) {k : Call}
    (hk : k ∈ o.next) : Call.Continues fresh s (.endpoint c) k := by
  cases c <;> simp only [EndpointCall.exec, EndpointCall.hangUp, Daemon.done,
      Daemon.andThen] at h <;>
    (repeat' split at h) <;> cases h <;>
    simp only [List.mem_append, List.mem_cons, List.not_mem_nil, or_false] at hk <;>
    grind [EndpointCall.request_continues]

theorem ApplyCall.continues {c : ApplyCall} (h : c.exec x s = some o) {k : Call}
    (hk : k ∈ o.next) : Call.Continues fresh s (.apply c) k := by
  cases c with
  | findReusable run req layout =>
    simp only [ApplyCall.exec, Daemon.andThen] at h
    split at h <;> cases h
    · exact Call.Settles.continues (.found ‹_›) hk
    · obtain rfl := List.mem_singleton.1 hk
      exact .findSpawn
  | requestFindReusable displays req layout =>
    simp only [ApplyCall.exec, Daemon.andThen] at h
    split at h <;> cases h
    · exact Call.Settles.continues (.requestFound ‹_›) hk
    · obtain rfl := List.mem_singleton.1 hk
      exact .requestNotFound
  | spawn req purpose =>
    simp only [ApplyCall.exec, Daemon.done] at h
    (repeat' split at h) <;> cases h
    · cases hk
    · cases hk
    · obtain hk | hk := List.mem_append.1 hk
      · grind
      · exact Call.Settles.continues (.spawned ‹_›) hk
  | _ =>
    simp only [ApplyCall.exec, Daemon.done, Daemon.andThen] at h
    (repeat' split at h) <;> cases h <;>
      simp only [List.mem_append, List.mem_cons, mem_onlyIf, List.not_mem_nil, or_false,
        mem_stopRenderersOrderly, mem_unregisterAndKill] at hk <;>
      grind

/-- A call that is pushed is pushed along an edge. -/
theorem Call.continues {c : Call} (h : c.exec x fresh s = some o) {k : Call} (hk : k ∈ o.next) :
    c.Continues fresh s k := by
  cases c with
  | router c => exact RouterCall.continues h hk
  | manager c => exact ManagerCall.continues h hk
  | reader c => exact ReaderCall.continues h hk
  | endpoint c => exact EndpointCall.continues h hk
  | apply c => exact ApplyCall.continues h hk

/-! ## Tasks spawned and aborted -/

/-- In state `s`, call `c` spawns task `t`. -/
inductive Call.Spawns (s : Daemon) : Call → DaemonTask → Prop
  | registerRenderer {h} : Spawns s (.router (.registerRenderer h))
      { stack := [.router (.rendererEvents h.id (s.broadcasts h.id).length)] }
  | resumeAutopause {d flags g}
      (hg : (s.inner.updateDisplayWindowState s.settings d flags).2 = .scheduleResume g) :
      Spawns s (.router (.updateDisplayWindowState d flags))
        { stack := [.router (.resumeAutopause d g)], asleep := true }
  | resumeSession {l i g} (hg : (s.inner.updateSessionState l i).2 = .scheduleResume g) :
      Spawns s (.router (.updateSessionState l i))
        { stack := [.router (.resumeSession g)], asleep := true }
  | fireOrphanReap {r} : Spawns s (.router (.scheduleOrphanGrace r))
      { stack := [.router (.fireOrphanReap r)], asleep := true }
  | readerLoop {req purpose id} (hid : id ∉ s.history.used) :
      Spawns s (.apply (.spawn req purpose)) { stack := [.reader (.readerLoop id)] }

/-- The task a call holds a handle on. -/
def Call.handle : Call → Option ℕ
  | router (.addRenderer _ i) | router (.armOrphanTimer _ i) | router (.abortTask i) => some i
  | _ => none

/-- The handles the router keeps. -/
def Inner.handles (inner : Inner) : List ℕ :=
  inner.rendererTasks.values ++ inner.orphanTimers.values

theorem RouterCall.spawns {c : RouterCall} (h : c.exec x fresh s = some o) :
    o.spawn = [] ∨ ∃ t, o.spawn = [t] ∧ Call.Spawns s (.router c) t := by
  cases c <;> simp only [RouterCall.exec, Daemon.done, Daemon.andThen] at h <;>
    (repeat' split at h) <;> cases h <;> first
    | exact .inl rfl
    | exact .inr ⟨_, rfl, by constructor <;> assumption⟩

theorem ManagerCall.spawn_eq_nil {c : ManagerCall} (h : c.exec x s = some o) : o.spawn = [] := by
  cases c <;> simp only [ManagerCall.exec, Daemon.done, Daemon.andThen] at h <;>
    (repeat' split at h) <;> cases h <;> rfl

theorem ReaderCall.spawn_eq_nil {c : ReaderCall} (h : c.exec x s = some o) : o.spawn = [] := by
  cases c <;> simp only [ReaderCall.exec, Daemon.done, Daemon.andThen] at h <;>
    (repeat' split at h) <;> cases h <;> rfl

theorem EndpointCall.spawn_eq_nil {c : EndpointCall} (h : c.exec x s = some o) :
    o.spawn = [] := by
  cases c <;> simp only [EndpointCall.exec, EndpointCall.hangUp, Daemon.done,
      Daemon.andThen] at h <;>
    (repeat' split at h) <;> cases h <;> rfl

theorem ApplyCall.spawns {c : ApplyCall} (h : c.exec x s = some o) :
    o.spawn = [] ∨ ∃ t, o.spawn = [t] ∧ Call.Spawns s (.apply c) t := by
  cases c <;> simp only [ApplyCall.exec, Daemon.done, Daemon.andThen] at h <;>
    (repeat' split at h) <;> cases h <;> first
    | exact .inl rfl
    | exact .inr ⟨_, rfl, by constructor; assumption⟩

theorem Call.spawns {c : Call} (h : c.exec x fresh s = some o) :
    o.spawn = [] ∨ ∃ t, o.spawn = [t] ∧ c.Spawns s t := by
  cases c with
  | router c => exact RouterCall.spawns h
  | manager c => exact .inl (ManagerCall.spawn_eq_nil h)
  | reader c => exact .inl (ReaderCall.spawn_eq_nil h)
  | endpoint c => exact .inl (EndpointCall.spawn_eq_nil h)
  | apply c => exact ApplyCall.spawns h

/-- Only tasks that a handle leads to are aborted. -/
theorem Call.mem_abort {c : Call} (h : c.exec x fresh s = some o) {i : ℕ} (hi : i ∈ o.abort) :
    i ∈ s.inner.handles ∨ c.handle = some i := by
  cases c with
  | router c =>
    cases c with
    | unregisterRenderer r | killOrphanNow r =>
      cases h
      exact .inl ((List.mem_append.1 hi).elim
        (fun hi => List.mem_append_left _ (HashMap.mem_values_of_lookup hi))
        fun hi => List.mem_append_right _ (HashMap.mem_values_of_lookup hi))
    | armOrphanTimer r task =>
      cases h
      exact .inl (List.mem_append_right _ (HashMap.mem_values_of_lookup hi))
    | abortTask j =>
      cases h
      obtain rfl := List.mem_singleton.1 hi
      exact .inr rfl
    | _ =>
      simp only [exec, RouterCall.exec, Daemon.done, Daemon.andThen] at h
      (repeat' split at h) <;> cases h <;> cases hi
  | manager c =>
    cases c <;> simp only [exec, ManagerCall.exec, Daemon.done, Daemon.andThen] at h <;>
      (repeat' split at h) <;> cases h <;> cases hi
  | reader c =>
    cases c <;> simp only [exec, ReaderCall.exec, Daemon.done, Daemon.andThen] at h <;>
      (repeat' split at h) <;> cases h <;> cases hi
  | endpoint c =>
    cases c <;> simp only [exec, EndpointCall.exec, EndpointCall.hangUp, Daemon.done,
        Daemon.andThen] at h <;>
      (repeat' split at h) <;> cases h <;> cases hi
  | apply c =>
    cases c <;> simp only [exec, ApplyCall.exec, Daemon.done, Daemon.andThen] at h <;>
      (repeat' split at h) <;> cases h <;> cases hi

/-! ## Requests -/

/-- The calls a request may ask for. -/
def Call.isRequested : Call → Bool
  | router (.migratePrefs _) => true
  | router c => c.isPublic
  | manager (.kill _) => true
  | apply (.applyWallpaperCore _) | apply (.wallpaperApply _ _) | apply (.spawn _ .bare) => true
  | _ => false

/-- A task that has just been started is awake and is to do what was asked for. -/
theorem Request.isRequested_accept {q : Request} {s s' : Daemon} {t : DaemonTask}
    (h : q.accept s = some (s', t)) :
    t.asleep = false ∧ ∀ k ∈ t.stack, k.isRequested = true := by
  cases q with
  | router c =>
    cases c <;> simp only [Request.accept, RouterCall.isPublic] at h <;>
      (repeat' split at h) <;> cases h <;>
      exact ⟨rfl, by simp [Call.isRequested, RouterCall.isPublic]⟩
  | _ =>
    simp only [Request.accept] at h
    (try split at h) <;> cases h
    exact ⟨rfl, by simp [Call.isRequested, RouterCall.isPublic, unregisterAndKill]⟩

/-- A request adds nothing to what no request carries. -/
theorem Request.pending_accept {α : Type} {f : Call → Option α}
    (hf : ∀ c, c.isRequested = true → f c = none) {q : Request} {s s' : Daemon} {t : DaemonTask}
    (h : q.accept s = some (s', t)) (ts : List DaemonTask) :
    pending f (ts ++ [t]) = pending f ts :=
  pending_start fun c hc => hf c ((Request.isRequested_accept h).2 c hc)

theorem Request.stack_router {c : RouterCall} {s s' : Daemon} {t : DaemonTask}
    (h : (Request.router c).accept s = some (s', t)) : t.stack = [.router c] := by
  cases c <;> simp only [Request.accept] at h <;> split at h <;> cases h <;> rfl

/-- Accepting a request draws at most a new renderer id. -/
theorem Request.accept_shared {q : Request} {s s' : Daemon} {t : DaemonTask}
    (h : q.accept s = some (s', t)) : s' = s ∨ ∃ r ∉ s.history.used,
      s' = s.record fun k => { k with used := r :: k.used } := by
  cases q with
  | router c =>
    cases c with
    | registerRenderer h' =>
      simp only [Request.accept] at h
      split at h
      · cases h
      · cases h
        exact .inr ⟨_, ‹_›, rfl⟩
    | _ =>
      simp only [Request.accept] at h
      split at h <;> cases h
      exact .inl rfl
  | _ =>
    simp only [Request.accept] at h
    (try split at h) <;> cases h
    exact .inl rfl

theorem Request.inner_accept {q : Request} {s s' : Daemon} {t : DaemonTask}
    (h : q.accept s = some (s', t)) : s'.inner = s.inner := by
  obtain rfl | ⟨r, -, rfl⟩ := Request.accept_shared h <;> rfl

end Waywallen
