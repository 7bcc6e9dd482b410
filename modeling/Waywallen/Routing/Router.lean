import Mathlib.Data.Finset.Basic
import Mathlib.Data.List.Sort
import Waywallen.Routing.Autopause
import Waywallen.Routing.Table

/-!
# The router's critical sections

`Inner` is the state the router keeps under its lock. Each definition here is one critical
section: a function of `Inner`, of the settings and of the renderers' slots, which reader threads
write and a section reads while it holds the lock. What a section puts on the displays' channels
is part of its result.
-/

namespace Waywallen

structure DisplayInfo where
  id : DisplayId
  name : String
  /-- Stable consumer-provided identifier, the settings key when present. -/
  instanceId : Option String
  width : ℕ
  height : ℕ
  refreshMhz : ℕ
deriving DecidableEq

structure DisplayRegistration where
  name : String
  instanceId : Option String
  width : ℕ
  height : ℕ
  refreshMhz : ℕ
  gpu : DrmNode
  consumerCaps : Option PeerCaps

structure DisplayState where
  info : DisplayInfo
  gpu : DrmNode
  /-- Last renderer this display was bound to. -/
  lastRenderer : Option RendererId
  /-- Last buffer generation sent in a `Bind` to this display. -/
  lastBufferGeneration : Option ℕ
  consumerCaps : Option PeerCaps
  autopause : Autopause.State

/-- What a configuration is projected from. -/
structure Projection where
  link : Link
  texture : ℕ × ℕ
  info : DisplayInfo
  configGeneration : ℕ
  layout : ResolvedLayout
deriving DecidableEq

/-- Wire-translated event streamed from the router to a display endpoint. -/
inductive DisplayOutEvent
  | bind (renderer : RendererId)
  | unbind (bufferGeneration : ℕ)
  | setConfig (config : ProjectedConfig)
  | frame (renderer : RendererId) (bufferGeneration bufferIndex seq releasePoint
      expectedCount : ℕ)
deriving DecidableEq

/-- An event as the router sends it, with what the router read when it sent it: the generation it
records with a `Bind`, and what a configuration was projected from. -/
inductive Dispatch
  | bind (renderer : RendererId) (generation : ℕ)
  | unbind (generation : ℕ)
  | setConfig (projection : Projection)
  | frame (renderer : RendererId) (generation index seq releasePoint expectedCount : ℕ)
deriving DecidableEq

/-- The lifecycle messages a reconcile pass decides on. -/
inductive Lifecycle
  | play
  | pause
deriving DecidableEq

def Lifecycle.control : Lifecycle → ControlMsg
  | .play => .play
  | .pause => .pause

structure Inner where
  table : RoutingTable
  displays : HashMap DisplayId DisplayState
  /-- The event loop of each registered renderer. -/
  rendererTasks : HashMap RendererId ℕ
  /-- Renderers we've already sent `Pause` to. -/
  pausedRenderers : Finset RendererId
  sessionLocked : Bool
  sessionInactive : Bool
  manualPaused : Bool
  /-- Bumped on every session-state transition; resume timers armed earlier are stale. -/
  sessionGen : UInt64
  /-- Pending orphan-reap timers. -/
  orphanTimers : HashMap RendererId ℕ
  /-- The (display, generation) pairs unbound from a renderer under teardown and not yet acked. -/
  unbindAcksPending : HashMap RendererId (Finset (DisplayId × ℕ))
  wallpaperLayoutOverrides : HashMap RendererId WallpaperLayoutOverride
  nextDisplayId : ℕ
  nextConfigGeneration : ℕ

/-! ## Projection -/

namespace Projection

/-- Resolve a link's geometry into a wire-ready configuration. -/
def project (p : Projection) : ProjectedConfig :=
  if p.link.srcRect = .full ∧ p.link.dstRect = .full then
    let turned := p.layout.rotation = .cw90 ∨ p.layout.rotation = .cw270
    let out := LayoutInput.compute {
      texW := p.texture.1
      texH := p.texture.2
      dispW := if turned then p.info.height else p.info.width
      dispH := if turned then p.info.width else p.info.height
      fillmode := p.layout.fillmode
      location := p.layout.location
      clearRgba := p.link.clearRgba }
    { configGeneration := p.configGeneration
      source := out.source
      dest := out.dest
      transform := p.layout.rotation.toWlTransform
      clearRgba := out.clearRgba }
  else
    { configGeneration := p.configGeneration
      source := ⟨p.link.srcRect.x, p.link.srcRect.y,
        p.link.srcRect.w.untopD p.texture.1, p.link.srcRect.h.untopD p.texture.2⟩
      dest := ⟨p.link.dstRect.x, p.link.dstRect.y,
        p.link.dstRect.w.untopD p.info.width, p.link.dstRect.h.untopD p.info.height⟩
      transform := p.layout.rotation.toWlTransform
      clearRgba := p.link.clearRgba }

end Projection

/-- What is put on the channel. -/
def Dispatch.event : Dispatch → DisplayOutEvent
  | .bind r _ => .bind r
  | .unbind g => .unbind g
  | .setConfig p => .setConfig p.project
  | .frame r g i q p n => .frame r g i q p n

/-! ## Settings lookups -/

section Settings

variable (settings : Option Settings) (info : DisplayInfo)

/-- The settings key of a display: its instance id when settings are kept under it, else its
name. -/
def prefsKey (s : Settings) : String :=
  match info.instanceId with
  | some iid => if (s.displayPrefs iid).isSome then iid else info.name
  | none => info.name

/-- Resolve the layout of a display, defaulting to identity without settings. -/
def resolvedLayout : ResolvedLayout :=
  match settings with
  | none => default
  | some s => s.resolvedLayout (prefsKey info s)

/-- Per-display override → global default → `never` without settings. -/
def resolvedAutopause : ResolvedAutopause :=
  match settings with
  | none => ⟨.never, 500⟩
  | some s => s.resolvedAutopause (prefsKey info s)

/-- The global autopause settings a reconcile pass reads. -/
def globalAutopause : AutopauseDefaults :=
  match settings with
  | none => default
  | some s => s.autopause

end Settings

/-- One-time migration when a display registers: copy preferences kept under the display's name
to its instance id. -/
def Settings.migrate (s : Settings) (reg : DisplayRegistration) : Settings :=
  match reg.instanceId with
  | none => s
  | some iid =>
      match s.displayPrefs iid, s.displayPrefs reg.name with
      | none, some legacy => { s with displays := s.displays.insert iid legacy }
      | _, _ => s

namespace Inner

def new : Inner where
  table := .new
  displays := ∅
  rendererTasks := ∅
  pausedRenderers := ∅
  sessionLocked := false
  sessionInactive := false
  manualPaused := false
  sessionGen := 0
  orphanTimers := ∅
  unbindAcksPending := ∅
  wallpaperLayoutOverrides := ∅
  nextDisplayId := 0
  nextConfigGeneration := 0

variable (settings : Option Settings) (slots : RendererId → Slots) (inner : Inner)

def resolvedLayoutForRenderer (info : DisplayInfo) (r : RendererId) : ResolvedLayout :=
  ((inner.wallpaperLayoutOverrides.lookup r).getD default).applyTo (resolvedLayout settings info)

def modifyDisplay (d : DisplayId) (f : DisplayState → DisplayState) : Inner :=
  { inner with displays := inner.displays.modify d f }

/-- The transition counter of a display's autopause machine. -/
def autopauseGen (d : DisplayId) : Option UInt64 :=
  (inner.displays.lookup d).map fun s => s.autopause.gen

/-- The autopause machine of a display. -/
def autopauseOf (d : DisplayId) : Option Autopause.State :=
  (inner.displays.lookup d).map DisplayState.autopause

theorem lookup_modifyDisplay (d e : DisplayId) (f : DisplayState → DisplayState) :
    (inner.modifyDisplay d f).displays.lookup e =
      if e = d then (inner.displays.lookup d).map f else inner.displays.lookup e :=
  HashMap.lookup_modify _ _ _ _

/-- The enabled links of a renderer. -/
def activeLinks (r : RendererId) : List Link :=
  (inner.table.linksForRenderer r).filter (·.enabled)

/-! ## Renderer lifecycle -/

def addRenderer (h : RendererHandle) (task : ℕ) : Inner :=
  { inner with
    table := inner.table.addRenderer h
    rendererTasks := inner.rendererTasks.insert h.id task }

/-- The displays that lose their link when the renderer is removed. -/
def affectedBy (r : RendererId) : List DisplayId :=
  (inner.table.removedWithRenderer r).map Prod.snd

/-- The tasks aborted when the renderer is removed: its event loop and its orphan timer. -/
def tasksOf (r : RendererId) : List ℕ :=
  (inner.rendererTasks.lookup r).toList ++ (inner.orphanTimers.lookup r).toList

def unregisterRenderer (r : RendererId) : Inner :=
  { inner with
    table := inner.table.removeRenderer r
    wallpaperLayoutOverrides := inner.wallpaperLayoutOverrides.erase r
    rendererTasks := inner.rendererTasks.erase r
    orphanTimers := inner.orphanTimers.erase r
    pausedRenderers := inner.pausedRenderers.erase r }

def setRendererWallpaperLayoutOverride (r : RendererId) (layout : WallpaperLayoutOverride) :
    Inner :=
  { inner with wallpaperLayoutOverrides :=
      if layout.isEmpty then inner.wallpaperLayoutOverrides.erase r
      else inner.wallpaperLayoutOverrides.insert r layout }

def beginUnbindAckTracking (r : RendererId) : Inner :=
  if inner.unbindAcksPending.containsKey r then inner
  else { inner with unbindAcksPending := inner.unbindAcksPending.insert r ∅ }

def recordUnbindDone (d : DisplayId) (generation : ℕ) : Inner :=
  { inner with
    unbindAcksPending := inner.unbindAcksPending.keys.foldl
      (fun m r => m.modify r (·.erase (d, generation))) inner.unbindAcksPending }

/-- Nothing is left to wait for. -/
def unbindAcked (r : RendererId) : Bool :=
  match inner.unbindAcksPending.lookup r with
  | none => true
  | some pending => pending = ∅

def clearUnbindAcks (r : RendererId) : Inner :=
  { inner with unbindAcksPending := inner.unbindAcksPending.erase r }

/-! ## Display lifecycle -/

/-- Insert a display and link it to whichever renderer is first; the new id and that renderer. -/
def registerDisplay (reg : DisplayRegistration) : Inner × DisplayId × Option RendererId :=
  let id := inner.nextDisplayId + 1
  let state : DisplayState := {
    info := ⟨id, reg.name, reg.instanceId, reg.width, reg.height, reg.refreshMhz⟩
    gpu := reg.gpu
    lastRenderer := none
    lastBufferGeneration := none
    consumerCaps := reg.consumerCaps
    autopause := .new }
  let auto := inner.table.firstRenderer
  ({ inner with
      nextDisplayId := id
      displays := inner.displays.insert id state
      table := match auto with
        | none => inner.table
        | some r => inner.table.addLink r id }, id, auto)

@[simp] theorem id_registerDisplay (reg : DisplayRegistration) :
    (inner.registerDisplay reg).2.1 = inner.nextDisplayId + 1 := rfl

def unregisterDisplay (d : DisplayId) : Inner :=
  { inner with
    displays := inner.displays.erase d
    table := inner.table.removeDisplay d }

def setConsumerCaps (d : DisplayId) (caps : PeerCaps) : Inner :=
  inner.modifyDisplay d fun s => { s with consumerCaps := some caps }

def onConsumerBindFailed (d : DisplayId) (fourcc : UInt32) (modifier : UInt64) : Inner :=
  inner.modifyDisplay d fun s => { s with
    consumerCaps := s.consumerCaps.map fun caps =>
      if caps.blacklist.contains (fourcc, modifier) then caps
      else { caps with blacklist := (fourcc, modifier) :: caps.blacklist } }

/-- Set the clear color of one link; its display is added to the list if that changed it. -/
def updateClearColor (clear : Rgba) (p : Inner × List DisplayId) (lid : LinkId) :
    Inner × List DisplayId :=
  let updated := p.1.table.updateLinkGeometry lid ⟨none, none, none, some clear, none⟩
  ({ p.1 with table := updated.1 },
    if updated.2 then p.2 ++ (updated.1.getLink lid).toList.map Link.displayId else p.2)

/-- Set the clear color of every link of a renderer; the displays whose link changed. -/
def updateClearColors (r : RendererId) (clear : Rgba) : Inner × List DisplayId :=
  ((inner.table.linksForRenderer r).map Link.id).foldl (updateClearColor clear) (inner, [])

def updateDisplaySize (d : DisplayId) (width height : ℕ) : Inner :=
  inner.modifyDisplay d fun s => { s with info := { s.info with width, height } }

def updateDisplayWindowState (d : DisplayId) (flags : UInt32) : Inner × Autopause.Action :=
  match inner.displays.lookup d with
  | none => (inner, .noop)
  | some s =>
      let reported := s.autopause.report (resolvedAutopause settings s.info).mode flags
      (inner.modifyDisplay d fun s => { s with autopause := reported.1 }, reported.2)

/-- The body of a window-state resume timer; whether renderers have to be reconciled. -/
def resumeAutopause (d : DisplayId) (gen : UInt64) : Inner × Bool :=
  match inner.displays.lookup d with
  | none => (inner, false)
  | some s =>
      let resumed := s.autopause.resume gen
      (inner.modifyDisplay d fun s => { s with autopause := resumed.1 }, resumed.2)

def sessionPaused : Bool := inner.sessionLocked || inner.sessionInactive

/-- Update the session flags (`none` leaves a flag alone): a transition into pause reconciles at
once, one out of it schedules a debounced resume. -/
def updateSessionState (locked inactive : Option Bool) : Inner × Autopause.Action :=
  let l := locked.getD inner.sessionLocked
  let i := inactive.getD inner.sessionInactive
  if l == inner.sessionLocked && i == inner.sessionInactive then (inner, .noop)
  else
    let gen := inner.sessionGen + 1
    ({ inner with sessionLocked := l, sessionInactive := i, sessionGen := gen },
      if l || i then .reconcile else .scheduleResume gen)

/-- The body of a session resume timer: whether renderers have to be reconciled. -/
def sessionResumed (gen : UInt64) : Bool :=
  inner.sessionGen == gen && !inner.sessionLocked && !inner.sessionInactive

def setManualPause (paused : Bool) : Inner :=
  { inner with manualPaused := paused }

/-! ## Orphans -/

def isOrphan (r : RendererId) : Bool :=
  (inner.table.linksForRenderer r).all fun l => !l.enabled

/-- Registered renderers without an enabled link, except `keep`. -/
def orphanCandidates (keep : Option RendererId) : List RendererId :=
  inner.table.rendererIds.filter fun r => some r != keep && inner.isOrphan r

def loneRendererNoDisplays : Bool :=
  inner.displays.keys.isEmpty && inner.table.rendererIds.length == 1

def armOrphanTimer (r : RendererId) (task : ℕ) : Inner :=
  { inner with orphanTimers := inner.orphanTimers.insert r task }

def removeOrphanTimer (r : RendererId) : Inner :=
  { inner with orphanTimers := inner.orphanTimers.erase r }

/-! ## Routing policy -/

/-- The renderers whose every enabled link is covered by `target` (`none`: all displays). -/
def renderersFullyReplacedBy (target : Option (List DisplayId)) : List RendererId :=
  inner.table.rendererIds.filter fun r =>
    match target with
    | none => true
    | some ts => (inner.activeLinks r).all fun l => ts.contains l.displayId

/-- Replace every link of the display by one to `r`. -/
def relinkDisplay (r : RendererId) (d : DisplayId) : Inner :=
  let cleared := (inner.table.linksForDisplay d).foldl (fun t l => t.removeLink l.id) inner.table
  { inner with table := cleared.addLink r d }

/-- The displays a relink applies to: the registered ones among those asked for. -/
def relinkTargets (ds : List DisplayId) : List DisplayId :=
  ds.filter inner.displays.containsKey

def relinkDisplaysTo (ds : List DisplayId) (r : RendererId) : Inner :=
  (inner.relinkTargets ds).foldl (fun i d => i.relinkDisplay r d) inner

def relinkAllDisplaysTo (r : RendererId) : Inner :=
  inner.displays.keys.foldl (fun i d => i.relinkDisplay r d) inner

/-! ## Channels -/

/-- The enabled link of a display, with its renderer and the generation cached for it. -/
def syncTarget (d : DisplayId) : Option (Link × RendererHandle × ℕ) :=
  ((inner.table.linksForDisplay d).find? (·.enabled)).bind fun l =>
    (inner.table.getRenderer l.rendererId).bind fun h =>
      (slots h.id).generation.map fun g => (l, h, g)

def projection (link : Link) (h : RendererHandle) (info : DisplayInfo) : Projection where
  link := link
  texture := (slots h.id).textureSize
  info := info
  configGeneration := inner.nextConfigGeneration + 1
  layout := inner.resolvedLayoutForRenderer settings info link.rendererId

/-- Both sides declared capabilities and the cached pool is not yet of the scheme dispatched
last. -/
def gated (state : DisplayState) (target : Option (Link × RendererHandle × ℕ)) : Bool :=
  match target with
  | none => false
  | some (_, h, _) => (slots h.id).formatCaps.isSome && state.consumerCaps.isSome &&
      !(slots h.id).schemeSatisfied

def needsUpdate (state : DisplayState) (target : Option (Link × RendererHandle × ℕ)) : Bool :=
  match state.lastRenderer, state.lastBufferGeneration, target with
  | some oldR, some oldG, some (link, _, newG) => oldR != link.rendererId || oldG != newG
  | none, none, none => false
  | _, _, _ => true

/-- Record an unbind as pending if its renderer is being torn down with ack tracking. -/
def recordPendingUnbind (d : DisplayId) (state : DisplayState) : Inner :=
  match state.lastRenderer, state.lastBufferGeneration with
  | some oldR, some oldG => { inner with
      unbindAcksPending := inner.unbindAcksPending.modify oldR (insert (d, oldG)) }
  | _, _ => inner

/-- The frame to repeat after a `Bind`: the latest one of an image renderer, if it belongs to the
pool just bound. -/
def replayFrame (h : RendererHandle) (generation : ℕ) : List Dispatch :=
  if eqIgnoreAsciiCase h.wpType "image" then
    ((slots h.id).latestReplayable.filter (·.bufferGeneration == generation)).toList.map fun f =>
      .frame h.id f.bufferGeneration f.bufferIndex f.seq f.releasePoint 1
  else
    []

/-- Bring a display's sent state in line with its current link target. Idempotent. -/
def syncDisplay (d : DisplayId) : Inner × List Dispatch :=
  match inner.displays.lookup d with
  | none => (inner, [])
  | some state =>
      let target := inner.syncTarget slots d
      if gated slots state target || !needsUpdate state target then (inner, [])
      else
        let retire := state.lastBufferGeneration.toList.map Dispatch.unbind
        let inner := inner.recordPendingUnbind d state
        match target with
        | some (link, h, g) =>
            let p := inner.projection settings slots link h state.info
            ({ inner with
                nextConfigGeneration := inner.nextConfigGeneration + 1
                displays := inner.displays.modify d fun s => { s with
                  lastRenderer := some link.rendererId
                  lastBufferGeneration := some g } },
              retire ++ .bind h.id g :: .setConfig p :: replayFrame slots h g)
        | none =>
            (inner.modifyDisplay d fun s => { s with
              lastRenderer := none
              lastBufferGeneration := none }, retire)

/-- Re-emit `set_config` for a single display to pick up new settings. -/
def resyncDisplaySetConfig (d : DisplayId) : Inner × List Dispatch :=
  match inner.displays.lookup d, inner.syncTarget slots d with
  | some state, some (link, h, _) =>
      ({ inner with nextConfigGeneration := inner.nextConfigGeneration + 1 },
        [.setConfig (inner.projection settings slots link h state.info)])
  | _, _ => (inner, [])

/-- Mutate a link's geometry; the configuration to send, if its display is bound to its
renderer. -/
def setLinkGeometry (lid : LinkId) (g : LinkGeometry) :
    Inner × Option (DisplayId × Projection) :=
  let updated := inner.table.updateLinkGeometry lid g
  let inner := { inner with table := updated.1 }
  if !updated.2 then (inner, none)
  else
    match inner.table.getLink lid with
    | none => (inner, none)
    | some link =>
        match inner.table.getRenderer link.rendererId, inner.displays.lookup link.displayId with
        | some h, some state =>
            if state.lastRenderer == some link.rendererId then
              ({ inner with nextConfigGeneration := inner.nextConfigGeneration + 1 },
                some (link.displayId, inner.projection settings slots link h state.info))
            else (inner, none)
        | _, _ => (inner, none)

/-- The displays a frame of the pool `generation` of renderer `r` goes to. -/
def frameRecipients (r : RendererId) (generation : ℕ) : List DisplayId :=
  ((inner.activeLinks r).map Link.displayId).filter fun d =>
    match inner.displays.lookup d with
    | none => false
    | some s => s.lastBufferGeneration == some generation && s.lastRenderer == some r

/-! ## Lifecycle reconciliation -/

/-- Some enabled link of the renderer leads to a display that requests autopause. -/
def anyAutopaused (r : RendererId) : Bool :=
  (inner.activeLinks r).any fun l =>
    match inner.displays.lookup l.displayId with
    | none => false
    | some s => s.autopause.requested

/-- A session flag whose pause setting is enabled is set. -/
def sessionPauses : Bool :=
  ((globalAutopause settings).pauseOnLock && inner.sessionLocked) ||
    ((globalAutopause settings).pauseOnUserSwitch && inner.sessionInactive)

/-- The four pause causes. -/
def shouldPause (r : RendererId) : Bool :=
  inner.manualPaused || (inner.activeLinks r).isEmpty || inner.anyAutopaused r ||
    inner.sessionPauses settings

/-- One renderer of a reconcile pass: compare what it should do with what it was told last. -/
def reconcileRenderer (p : Finset RendererId × List (RendererId × Lifecycle)) (r : RendererId) :
    Finset RendererId × List (RendererId × Lifecycle) :=
  if !inner.shouldPause settings r && decide (r ∈ p.1) then (p.1.erase r, p.2 ++ [(r, .play)])
  else if inner.shouldPause settings r && decide (r ∉ p.1) then
    (insert r p.1, p.2 ++ [(r, .pause)])
  else p

/-- Compute the current Play/Pause diff. -/
def reconcileLifecycle : Inner × List (RendererId × Lifecycle) :=
  let out := inner.table.rendererIds.foldl (inner.reconcileRenderer settings)
    (inner.pausedRenderers, [])
  ({ inner with pausedRenderers := out.1 }, out.2)

/-- Re-run the picker for every (renderer, display) link; the last compatible pick of a renderer
wins. -/
def reconcileBufferFlags : HashMap RendererId NegotiatedScheme :=
  let pairs := inner.table.rendererIds.flatMap fun r =>
    match inner.table.getRenderer r with
    | none => []
    | some h =>
        match (slots h.id).formatCaps with
        | none => []
        | some producer => (inner.activeLinks r).filterMap fun l =>
            (inner.displays.lookup l.displayId).bind fun s =>
              s.consumerCaps.map fun consumer => (r, producer, consumer)
  pairs.foldl (fun m (r, producer, consumer) =>
    match pick producer consumer with
    | .ok scheme => m.insert r scheme
    | .error _ => m) ∅

end Inner

end Waywallen
