import Waywallen.Library.TaskPool
import Waywallen.Routing.Snapshot

/-!
# The daemon's state and its calls

The daemon is a pool of tasks over one shared state. A call is what a task does between two await
points, most often one critical section under the router's or the manager's lock; the stack of a
task holds what it has still to do. Reader threads are tasks too: their calls are their accesses
to the shared slots and queues.
-/

namespace Waywallen

open TaskPool

/-- What an endpoint writes to its display connection. `renderer` is not on the wire: it names the
handle the event was made from. -/
inductive WireEvent
  | bindBuffers (renderer : RendererId) (snap : BindSnapshot)
  | unbind (bufferGeneration : ℕ)
  | setConfig (config : ProjectedConfig)
  | frameReady (renderer : RendererId) (bufferGeneration bufferIndex seq : ℕ)
deriving DecidableEq

/-- What a display client asks for. -/
inductive ClientRequest
  | updateDisplay (width height : ℕ)
  | windowState (flags : UInt32)
  | consumerCaps (caps : WireCaps)
  | bindFailed (fourcc : UInt32) (modifier : UInt64)
  | unbindDone (bufferGeneration : ℕ)
  | bye

structure SpawnRequest where
  wpType : String
  extras : HashMap String String
  rendererName : Option String

/-- One run of the apply core, numbered in the order in which the runs pick their victims. -/
structure ApplyRun where
  number : ℕ
  target : Option (List DisplayId)
deriving DecidableEq

/-- What a spawn is for: the steps that follow it. -/
inductive Purpose
  | core (run : ApplyRun) (layout : WallpaperLayoutOverride)
  | request (displays : List DisplayId) (layout : WallpaperLayoutOverride)
  | bare

/-- A reconcile pass's decision about one renderer. -/
structure Decision where
  pass : ℕ
  renderer : RendererId
  message : Lifecycle
deriving DecidableEq

/-- What has happened so far. Nothing the daemon does depends on it. -/
structure History where
  /-- The UUIDs drawn so far. -/
  used : List RendererId
  /-- The renderers registered so far. -/
  registered : List RendererId
  /-- The messages each reader thread took off its socket. -/
  received : RendererId → List EventMsg
  /-- The generations of the `unbind_done` requests each display sent. -/
  answered : DisplayId → List ℕ
  /-- How often the transition counter of each display's autopause machine was bumped. -/
  transitions : DisplayId → ℕ
  passes : ℕ
  /-- The lifecycle messages decided under the lock. -/
  decided : List Decision
  /-- The lifecycle messages handed to `send_control`. -/
  emitted : List Decision
  runs : List ApplyRun
  /-- The runs that returned `Ok`, with their renderer. -/
  applied : List (ApplyRun × RendererId)

structure Daemon where
  /-- The router's state, under its lock. -/
  inner : Inner
  settings : Option Settings
  /-- wallpaper type → renderer plugins, best first. -/
  registry : HashMap String (List String)
  /-- The manager's map of live renderers. -/
  managed : HashMap RendererId RendererHandle
  /-- Renderers queued for eviction. -/
  reapQueue : List RendererId
  slots : RendererId → Slots
  /-- Every event a reader has broadcast; receivers keep their own positions. -/
  broadcasts : RendererId → List EventMsg
  /-- What has been written to each renderer's socket; a lifecycle message with its pass. -/
  sockets : RendererId → List (ControlMsg × ℕ)
  /-- Everything ever put on each display's channel. -/
  channels : DisplayId → List Dispatch
  /-- How much of it the endpoint has taken off. -/
  taken : DisplayId → ℕ
  wires : DisplayId → List WireEvent
  events : List RouterEvent
  history : History

inductive RouterCall
  | registerRenderer (h : RendererHandle)
  | addRenderer (h : RendererHandle) (task : ℕ)
  | rendererEvents (r : RendererId) (taken : ℕ)
  | unregisterRenderer (r : RendererId)
  | setRendererWallpaperLayoutOverride (r : RendererId) (layout : WallpaperLayoutOverride)
  | beginUnbindAckTracking (r : RendererId)
  | recordUnbindDone (d : DisplayId) (generation : ℕ)
  | awaitUnbindAcks (r : RendererId)
  | clearUnbindAcks (r : RendererId)
  | migratePrefs (reg : DisplayRegistration)
  | registerDisplay (reg : DisplayRegistration) (client : Bool)
  | unregisterDisplay (d : DisplayId)
  | setConsumerCaps (d : DisplayId) (caps : PeerCaps)
  | onConsumerBindFailed (d : DisplayId) (fourcc : UInt32) (modifier : UInt64)
  | onRendererBindFailed (r : RendererId) (fourcc : UInt32) (modifier : UInt64)
  | onRendererStateChanged (r : RendererId)
  | updateClearColors (r : RendererId) (clear : Rgba)
  | updateDisplaySize (d : DisplayId) (width height : ℕ)
  | updateDisplayWindowState (d : DisplayId) (flags : UInt32)
  | resumeAutopause (d : DisplayId) (gen : UInt64)
  | updateSessionState (locked inactive : Option Bool)
  | resumeSession (gen : UInt64)
  | setManualPause (paused : Bool)
  | markOrphans (keep : Option RendererId)
  | scheduleOrphanGrace (r : RendererId)
  | armOrphanTimer (r : RendererId) (task : ℕ)
  | cancelOrphanTimer (r : RendererId)
  | killOrphanNow (r : RendererId)
  | abortTask (i : ℕ)
  | fireOrphanReap (r : RendererId)
  | relinkDisplaysTo (ds : List DisplayId) (r : RendererId)
  | relinkAllDisplaysTo (r : RendererId)
  | setLinkGeometry (lid : LinkId) (g : LinkGeometry)
  | sendLinkConfig (d : DisplayId) (p : Projection)
  | resyncDisplaySetConfig (d : DisplayId)
  | resyncAllSetConfigs
  | onRendererBind (r : RendererId)
  | onRendererFrame (r : RendererId) (index seq releasePoint : ℕ)
  | reconcileLifecycle
  | sendLifecycle (decision : Decision)
  | reconcileBufferFlags
  | syncDisplay (d : DisplayId)
  | emit (e : RouterEvent)
  | emitDisplayUpsert (d : DisplayId)
  | emitDisplaysReplace
  | emitRendererUpsert (r : RendererId)

inductive ManagerCall
  | insertRenderer (h : RendererHandle)
  | registerSpawned (r : RendererId)
  | kill (r : RendererId)
  | evict (r : RendererId)
  | reapLoop
  | writeControl (r : RendererId) (msg : ControlMsg) (pass : ℕ)
  | sendNegotiateBuffers (r : RendererId) (scheme : NegotiatedScheme)
  | sendNegotiate (r : RendererId) (scheme : NegotiatedScheme)
  | writeNegotiate (r : RendererId) (scheme : NegotiatedScheme)
  | storeDispatchedScheme (r : RendererId) (scheme : NegotiatedScheme)

inductive ReaderCall
  | readerLoop (r : RendererId)
  | clearSyncFds (r : RendererId)
  | clearLatestFrame (r : RendererId)
  | stashLatestFrame (r : RendererId) (index seq releasePoint : ℕ)
  | broadcast (r : RendererId) (msg : EventMsg)

inductive EndpointCall
  | accepted (d : DisplayId)
  | frameLoop (d : DisplayId)
  | deliver (d : DisplayId) (e : DisplayOutEvent)
  | write (d : DisplayId) (w : WireEvent) (record : Option FrameRecord)

inductive ApplyCall
  | applyWallpaperCore (target : Option (List DisplayId))
  | stopReplaced (target : Option (List DisplayId)) (wpType : String)
  | callExtras (run : ApplyRun) (wpType : String)
  | findReusable (run : ApplyRun) (req : SpawnRequest) (layout : WallpaperLayoutOverride)
  | spawn (req : SpawnRequest) (purpose : Purpose)
  | finish (run : ApplyRun) (r : RendererId)
  | wallpaperApply (displays : List DisplayId) (rendererName : Option String)
  | requestExtras (displays : List DisplayId) (wpType : String) (rendererName : Option String)
  | requestFindReusable (displays : List DisplayId) (req : SpawnRequest)
      (layout : WallpaperLayoutOverride)
  | requestStopReplaced (displays : List DisplayId) (req : SpawnRequest)
      (layout : WallpaperLayoutOverride)
  | waitForFirstFrame (r : RendererId)

/-- One step of some task. -/
inductive Call
  | router (c : RouterCall)
  | manager (c : ManagerCall)
  | reader (c : ReaderCall)
  | endpoint (c : EndpointCall)
  | apply (c : ApplyCall)

/-- What the program does not decide about a step. -/
inductive Choice
  /-- Nothing unusual: writes succeed, waits that can end do. -/
  | tick
  /-- A time-out, or a failure of whatever the step relies on. -/
  | fail
  /-- A write fails because the renderer is gone. -/
  | peerGone
  /-- The other end of the connection closed. -/
  | closed
  | received (msg : EventMsg)
  | client (q : ClientRequest)
  /-- The wallpaper's type, read from the database. -/
  | entry (wpType : String)
  /-- The source plugin's extras and the layout saved with the wallpaper. -/
  | properties (extras : HashMap String String) (layout : WallpaperLayoutOverride)
  /-- The renderer process connected and reported ready. -/
  | spawned (id : RendererId) (pid : Option ℕ) (gpu : DrmNode) (reaper : Bool)

/-- What starts a task. -/
inductive Request
  | connect (reg : DisplayRegistration)
  | applyGlobal
  | applyToDisplays (displays : List DisplayId)
  | wallpaperApply (displays : List DisplayId) (rendererName : Option String)
  | rendererSpawn (req : SpawnRequest)
  | rendererKill (r : RendererId)
  | router (c : RouterCall)

/-- What changes without a task of the daemon: the settings, and the iteration order of the hash
maps. -/
inductive Environment
  | settings (s : Settings)
  | promoteRegistered (r : RendererId)
  | promoteDisplay (d : DisplayId)
  | promoteManaged (r : RendererId)

abbrev DaemonTask := TaskPool.Task Call

abbrev DaemonPool := Pool Daemon Call

abbrev DaemonLabel := Label Choice Request Environment

abbrev Step := Outcome Daemon Call

end Waywallen
