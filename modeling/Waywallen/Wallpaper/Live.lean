import Waywallen.Plugin.Live
import Waywallen.Wallpaper.Properties

/-!
# The properties of live wallpapers

A property request rewrites the properties of an item as a whole, from what it read before, and
then sends the one property to one of the renderers that show the item's file. The layout takes
the same way, but to the router. An apply reads both long before its renderer is listed.
-/

namespace Waywallen

open TaskPool

variable {fl : FloatOps}

abbrev ItemId := ℕ

/-- What is decided outside the requests: the loaded renderers, the reading of percentages and the
default values of the properties of each item. -/
structure PropertySources (fl : FloatOps) where
  registry : RendererRegistry fl
  parsePercent : String → Option ℕ
  defaultValue : ItemId → String → Option String

/-- A renderer on the list, with the property values it last received. -/
structure ShownRenderer where
  wpType : String
  extras : HashMap String String
  name : String
  userProperties : HashMap String String

structure WallpaperState where
  items : HashMap ItemId WallpaperRow
  renderers : HashMap RendererId ShownRenderer
  /-- The renderers the router knows. -/
  registered : List RendererId
  layoutOverrides : HashMap RendererId WallpaperLayoutOverride
  /-- The ids of all renderers that have been listed. -/
  used : List RendererId
  /-- The property writes so far; an empty value stands for a removal. -/
  history : List (ItemId × String × String)

inductive PropertyCall
  | propertySet (item : ItemId) (key value : String)
  | mergeOverrides (item : ItemId) (key value : String)
  | updateOverrides (item : ItemId) (key value : String) (current : UserProperties)
  /-- A renderer is found by its path. -/
  | pushProperty (item : ItemId) (key value : String)
  | readLayout (item : ItemId) (id : RendererId)
  | sendDefault (item : ItemId) (id : RendererId) (key : String)
  | sendProperty (id : RendererId) (key value : String)
  | layoutSet (item : ItemId) (layout : Option ResolvedLayout)
  | readCleared (item : ItemId)
  | clearLayout (item : ItemId) (current : UserProperties)
  | updateLayout (item : ItemId) (layout : ResolvedLayout)
  /-- A renderer is found by its path. -/
  | pushLayout (item : ItemId) (layout : WallpaperLayoutOverride)
  | setOverride (id : RendererId) (layout : WallpaperLayoutOverride)
  | apply (item : ItemId) (rendererName : Option String)
  | readProperties (item : ItemId) (rendererName : Option String)
  | findReusable (req : SpawnRequest)
      (properties : HashMap String String × WallpaperLayoutOverride)
  | spawn (req : SpawnRequest) (values : HashMap String String)
      (layout : Option WallpaperLayoutOverride)
  | insertRenderer (h : ShownRenderer) (layout : Option WallpaperLayoutOverride)
  | register (id : RendererId)
  /-- Unregister and kill. -/
  | kill (id : RendererId)
  | remove (id : RendererId)
  /-- The renderer has exited. -/
  | evict (id : RendererId)
  | unregister (id : RendererId)

inductive PropertyChoice
  | tick
  /-- The database, the source plugin, the spawn or the socket fails. -/
  | fail
  /-- The renderer that a search in unspecified order finds. -/
  | pick (id : RendererId)
  /-- What the source plugin computes for the item. -/
  | extras (e : HashMap String String)
  /-- The UUID of the spawn. -/
  | uuid (id : RendererId)

inductive PropertyRequest
  | propertySet (item : ItemId) (key value : String)
  | layoutSet (item : ItemId) (layout : Option ResolvedLayout)
  | apply (item : ItemId) (rendererName : Option String)
  | rendererSpawn (wpType : String) (metadata : HashMap String String)
  /-- By request, or as part of an apply. -/
  | kill (id : RendererId)
  | exited (id : RendererId)

abbrev PropertyStep := Outcome WallpaperState PropertyCall

def WallpaperLayoutOverride.fromResolved (layout : ResolvedLayout) : WallpaperLayoutOverride :=
  ⟨some layout.fillmode, some layout.location, some layout.rotation⟩

namespace WallpaperState

variable (s : WallpaperState)

def done : Option PropertyStep := some { shared := s }

def andThen (cs : List PropertyCall) : Option PropertyStep := some { shared := s, next := cs }

/-- The path the renderer was spawned with. -/
def path (id : RendererId) : Option String :=
  (s.renderers.lookup id).bind fun h => h.extras.lookup "path"

/-- The path is that of the item's file. -/
def IsFile (item : ItemId) (path : Option String) : Prop :=
  ∃ row ∈ s.items.lookup item, path = some row.resource

instance (item : ItemId) (path : Option String) : Decidable (s.IsFile item path) :=
  inferInstanceAs (Decidable (∃ row ∈ s.items.lookup item, path = some row.resource))

/-- Search a renderer that shows the item; go on with the one found. -/
def findByResource (x : PropertyChoice) (item : ItemId) (f : RendererId → List PropertyCall) :
    Option PropertyStep :=
  match x with
  | .pick id => if s.IsFile item (s.path id) then s.andThen (f id) else none
  | .tick => if ∃ id ∈ s.renderers.keys, s.IsFile item (s.path id) then none else s.done
  | _ => none

def Reusable (r : RendererRegistry fl) (req : SpawnRequest) (id : RendererId) : Prop :=
  ∃ h ∈ s.renderers.lookup id, ∃ d ∈ r.resolveRequest req,
    h.wpType = req.wpType ∧ h.name = d.name ∧ h.extras.sameEntries req.extras = true

instance (r : RendererRegistry fl) (req : SpawnRequest) (id : RendererId) :
    Decidable (s.Reusable r req id) :=
  inferInstanceAs (Decidable (∃ h ∈ s.renderers.lookup id, ∃ d ∈ r.resolveRequest req,
    h.wpType = req.wpType ∧ h.name = d.name ∧ h.extras.sameEntries req.extras = true))

/-- Read or write the row of an item. -/
def onRow (x : PropertyChoice) (item : ItemId) (f : WallpaperRow → PropertyStep) :
    Option PropertyStep :=
  match s.items.lookup item, x with
  | none, _ => s.done
  | some row, .tick => some (f row)
  | some _, .fail => s.done
  | some _, _ => none

def setRow (item : ItemId) (row : WallpaperRow) (sets : List (ItemId × String × String)) :
    WallpaperState :=
  { s with
    items := s.items.insert item row
    history := s.history ++ sets }

/-- The renderer takes the value over. -/
def deliver (id : RendererId) (key value : String) : WallpaperState :=
  { s with renderers := s.renderers.modify id fun h =>
    { h with userProperties := h.userProperties.insert key value } }

/-- Nothing happens for a renderer that the router does not know. -/
def setOverride (id : RendererId) (layout : WallpaperLayoutOverride) : WallpaperState :=
  if id ∈ s.registered then
    { s with layoutOverrides :=
      if layout.isEmpty then s.layoutOverrides.erase id else s.layoutOverrides.insert id layout }
  else s

def unregister (id : RendererId) : WallpaperState :=
  { s with
    registered := s.registered.filter (· ≠ id)
    layoutOverrides := s.layoutOverrides.erase id }

def remove (id : RendererId) : WallpaperState :=
  { s with renderers := s.renderers.erase id }

end WallpaperState

section

variable (w : PropertySources fl)

def PropertyCall.exec (x : PropertyChoice) (s : WallpaperState) :
    PropertyCall → Option PropertyStep
  | .propertySet item key value =>
      s.andThen (if s.items.containsKey item then [.mergeOverrides item key value] else [])
  | .mergeOverrides item key value => s.onRow x item fun row =>
      { shared := s
        next := [.updateOverrides item key value row.getUserPropertyOverrides] }
  | .updateOverrides item key value current => s.onRow x item fun row =>
      { shared := s.setRow item (row.setUserPropertyOverrides (current.merge key value))
          [(item, key, value)]
        next := [.pushProperty item key value] }
  | .pushProperty item key value => s.findByResource x item fun id =>
      if isDaemonDisplayPropertyKey key then [.readLayout item id]
      else if value = "" then [.sendDefault item id key]
      else [.sendProperty id key value]
  | .readLayout item id =>
      match x with
      | .tick => s.andThen [.setOverride id ((s.items.lookup item).elim default fun row =>
          (row.getWallpaperRenderProperties w.parsePercent).2)]
      | .fail => s.done
      | _ => none
  | .sendDefault item id key =>
      match x with
      | .tick => s.andThen [.sendProperty id key
          ((w.defaultValue item (canonicalUserPropertyKey key)).getD "")]
      | .fail => s.andThen [.sendProperty id key ""]
      | _ => none
  | .sendProperty id key value =>
      match x with
      | .tick => (s.deliver id key value).done
      | .fail => s.done
      | _ => none
  | .layoutSet item layout =>
      s.andThen (if s.items.containsKey item then
        [layout.elim (.readCleared item) (.updateLayout item)] else [])
  | .readCleared item => s.onRow x item fun row =>
      { shared := s
        next := [.clearLayout item row.getUserPropertyOverrides] }
  | .clearLayout item current => s.onRow x item fun row =>
      { shared := s.setRow item ({ row with
            wallpaperLayoutOverride := none }.setUserPropertyOverrides current.clearLayout)
          (daemonDisplayPropertyKeys.map (item, ·, ""))
        next := [.pushLayout item default] }
  | .updateLayout item layout => s.onRow x item fun row =>
      { shared := s.setRow item { row with
          wallpaperLayoutOverride := some (.fromResolved layout) } []
        next := [.pushLayout item (.fromResolved layout)] }
  | .pushLayout item layout => s.findByResource x item fun id => [.setOverride id layout]
  | .setOverride id layout => (s.setOverride id layout).done
  | .apply item rendererName =>
      s.andThen (if s.items.containsKey item then [.readProperties item rendererName] else [])
  -- the extras, which nothing here bears on, are computed just before or after
  | .readProperties item rendererName =>
      match s.items.lookup item, x with
      | none, _ => s.done
      | some row, .extras e => s.andThen [.findReusable ⟨row.wpType, e, rendererName⟩
          (row.getWallpaperRenderProperties w.parsePercent)]
      | some _, .fail => s.done
      | some _, _ => none
  | .findReusable req properties =>
      match x with
      | .pick id =>
          if s.Reusable w.registry req id then s.andThen [.setOverride id properties.2] else none
      | .tick =>
          if ∃ id ∈ s.renderers.keys, s.Reusable w.registry req id then none
          else s.andThen [.spawn req properties.1 (some properties.2)]
      | _ => none
  | .spawn req values layout =>
      match x, w.registry.resolveRequest req with
      | .tick, some d => s.andThen [.insertRenderer ⟨req.wpType, req.extras, d.name, values⟩ layout]
      | _, _ => s.done
  -- the id was drawn when the spawn began; nobody has seen it before
  | .insertRenderer h layout =>
      match x with
      | .uuid id =>
          if id ∈ s.used then none
          else ({ s with
            renderers := s.renderers.insert id h
            used := id :: s.used } : WallpaperState).andThen
              (.register id :: layout.toList.map (.setOverride id))
      | _ => none
  | .register id =>
      ({ s with registered :=
        if s.renderers.containsKey id then id :: s.registered else s.registered } :
          WallpaperState).done
  | .kill id => (s.unregister id).andThen [.remove id]
  | .remove id => (s.remove id).done
  | .evict id =>
      (s.remove id).andThen (if s.renderers.containsKey id then [.unregister id] else [])
  | .unregister id => (s.unregister id).done

def propertySemantics :
    Semantics WallpaperState PropertyCall PropertyChoice PropertyRequest Empty where
  exec x _ c s := c.exec w x s
  accept q s := some (s, { stack := match q with
    | .propertySet item key value => [.propertySet item key value]
    | .layoutSet item layout => [.layoutSet item layout]
    | .apply item rendererName => [.apply item rendererName]
    | .rendererSpawn wpType metadata =>
        [.spawn ⟨if wpType = "" then "scene" else wpType, metadata, none⟩ ∅ none]
    | .kill id => [.kill id]
    | .exited id => [.evict id] })
  act e _ := nomatch e

end

abbrev PropertyPool := Pool WallpaperState PropertyCall

abbrev PropertyLabel := Label PropertyChoice PropertyRequest Empty

/-- The daemon serves requests; nothing has been spawned. -/
def startProperties (items : HashMap ItemId WallpaperRow) : PropertyPool :=
  ⟨⟨items, ∅, [], ∅, [], []⟩, []⟩

end Waywallen
