import Waywallen.Routing.Router

/-!
# Snapshots and router events

What the router shows of its state to UI subscribers.
-/

namespace Waywallen

structure DisplayLinkSnapshot where
  rendererId : RendererId
  zOrder : ℤ
deriving DecidableEq

inductive LayoutSource
  | global
  | display
  | wallpaper
deriving DecidableEq

inductive RendererStatus
  | playing
  | paused
deriving DecidableEq

structure RendererSnapshot where
  id : RendererId
  wpType : String
  name : String
  status : RendererStatus
  pid : ℕ
  gpu : DrmNode
  texture : ℕ × ℕ
deriving DecidableEq

structure DisplaySnapshot where
  id : DisplayId
  name : String
  instanceId : Option String
  width : ℕ
  height : ℕ
  refreshMhz : ℕ
  links : List DisplayLinkSnapshot
  gpu : DrmNode
  displayLayout : ResolvedLayout
  effectiveLayout : ResolvedLayout
  effectiveLayoutSource : LayoutSource
deriving DecidableEq

/-- Transport-agnostic router event: an upsert or a removal of one entry, or a whole list. -/
inductive RouterEvent
  | displayUpsert (snap : DisplaySnapshot)
  | displayRemoved (d : DisplayId)
  | displaysReplace (snaps : List DisplaySnapshot)
  | rendererUpsert (snap : RendererSnapshot)
  | rendererRemoved (r : RendererId)
deriving DecidableEq

/-- Where the layout of a display comes from when no wallpaper overrides it. -/
def displayLayoutSource (settings : Option Settings) (info : DisplayInfo) : LayoutSource :=
  match settings with
  | none => .global
  | some s =>
      let named := s.displayPrefs info.name
      let prefs := match info.instanceId with
        | some iid => (s.displayPrefs iid).or named
        | none => named
      if prefs.any fun p =>
          p.fillmode.isSome || p.location.isSome || p.align.isSome || p.rotation.isSome
      then .display else .global

namespace Inner

variable (settings : Option Settings) (slots : RendererId → Slots) (inner : Inner)

def snapshotDisplayState (d : DisplayId) (s : DisplayState) : DisplaySnapshot :=
  let rows := (inner.table.linksForDisplay d).filter (·.enabled)
  let layout := resolvedLayout settings s.info
  let override := (rows.head?.bind fun l =>
    inner.wallpaperLayoutOverrides.lookup l.rendererId).filter fun o => !o.isEmpty
  { id := d
    name := s.info.name
    instanceId := s.info.instanceId
    width := s.info.width
    height := s.info.height
    refreshMhz := s.info.refreshMhz
    links := rows.map fun l => ⟨l.rendererId, l.zOrder⟩
    gpu := s.gpu
    displayLayout := layout
    effectiveLayout := match override with
      | some o => o.applyTo layout
      | none => layout
    effectiveLayoutSource := match override with
      | some _ => .wallpaper
      | none => displayLayoutSource settings s.info }

/-- Snapshot of a single display, `none` if it has been unregistered. -/
def snapshotDisplay (d : DisplayId) : Option DisplaySnapshot :=
  (inner.displays.lookup d).map (inner.snapshotDisplayState settings d)

/-- Snapshot of every registered display, ordered by ascending id. -/
def snapshotDisplays : List DisplaySnapshot :=
  (inner.displays.keys.mergeSort (· ≤ ·)).filterMap (inner.snapshotDisplay settings)

/-- Snapshot of a single renderer, `none` if it has been unregistered. -/
def snapshotRenderer (r : RendererId) : Option RendererSnapshot :=
  (inner.table.getRenderer r).map fun h =>
    { id := h.id
      wpType := h.wpType
      name := h.name
      status := if r ∈ inner.pausedRenderers then .paused else .playing
      pid := h.pid.getD 0
      gpu := h.gpu
      texture := (slots h.id).textureSize }

end Inner

end Waywallen
