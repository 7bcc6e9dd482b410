import Waywallen.Wallpaper.Live

/-!
# What a wallpaper's renderers show

Once all requests are through, a renderer should show what the row of its wallpaper says, and each
property write should still be in the row. This holds when nobody writes the row between the read
and the write of a request, and when each value reaches every renderer of the wallpaper last; the
program does neither of its own accord.
-/

namespace Waywallen

open TaskPool

/-- What a renderer shows of its wallpaper's row. -/
inductive Aspect
  | value (key : String)
  | layout
deriving DecidableEq

/-- What a property request is about. -/
def aspectOf (key : String) : Aspect :=
  if isDaemonDisplayPropertyKey key then .layout else .value key

variable {fl : FloatOps} (w : PropertySources fl)

/-- The value of a key for the renderer: one nobody has set has its default. -/
def PropertySources.shown (item : ItemId) (values : HashMap String String) (key : String) :
    Option String :=
  (values.lookup key).or (w.defaultValue item key)

/-- The writes to one item, one after the other. -/
def replay (u : UserProperties) (item : ItemId) (history : List (ItemId × String × String)) :
    UserProperties :=
  (history.filter (·.1 = item)).foldl (fun u e => u.merge e.2.1 e.2.2) u

namespace WallpaperState

variable (s : WallpaperState)

/-- What holds for every item and every live renderer that shows its file. -/
def ForShown (P : ItemId → WallpaperRow → RendererId → ShownRenderer → Prop) : Prop :=
  ∀ i ∈ s.items.entries, ∀ e ∈ s.renderers.entries, e.2.extras.lookup "path" = some i.2.resource →
    P i.1 i.2 e.1 e.2

/-- The renderer shows what one spawned now would. -/
def Met (item : ItemId) (row : WallpaperRow) (id : RendererId) (h : ShownRenderer) :
    Aspect → Prop
  | .value key => canonicalUserPropertyKey key = key → w.shown item h.userProperties key =
      w.shown item (row.getWallpaperRenderProperties w.parsePercent).1 key
  | .layout => (s.layoutOverrides.lookup id).getD default =
      (row.getWallpaperRenderProperties w.parsePercent).2

instance (item : ItemId) (row : WallpaperRow) (id : RendererId) (h : ShownRenderer) :
    (a : Aspect) → Decidable (s.Met w item row id h a)
  | .value key => inferInstanceAs (Decidable (canonicalUserPropertyKey key = key →
      w.shown item h.userProperties key =
        w.shown item (row.getWallpaperRenderProperties w.parsePercent).1 key))
  | .layout => inferInstanceAs (Decidable ((s.layoutOverrides.lookup id).getD default =
      (row.getWallpaperRenderProperties w.parsePercent).2))

instance (P : ItemId → WallpaperRow → RendererId → ShownRenderer → Prop)
    [∀ item row id h, Decidable (P item row id h)] : Decidable (s.ForShown P) :=
  inferInstanceAs (Decidable (∀ i ∈ s.items.entries, ∀ e ∈ s.renderers.entries,
    e.2.extras.lookup "path" = some i.2.resource → P i.1 i.2 e.1 e.2))

/-- A respawn would change nothing. -/
def Faithful : Prop :=
  s.ForShown fun item row id h => ∀ a, s.Met w item row id h a

/-- Every property write is still in the row, unless a later one replaced it. -/
def Persisted (items : HashMap ItemId WallpaperRow) : Prop :=
  ∀ item start row, items.lookup item = some start → s.items.lookup item = some row → ∀ key,
    row.getUserPropertyOverrides.get key =
      (replay start.getUserPropertyOverrides item s.history).get key

end WallpaperState

namespace PropertyCall

/-- The call has yet to search the renderers of the path, to send the aspect to one of them. -/
def Seeks (s : WallpaperState) (path : Option String) (a : Aspect) : PropertyCall → Prop
  | pushProperty item key _ => s.IsFile item path ∧ a = aspectOf key
  | pushLayout item _ => s.IsFile item path ∧ a = .layout
  | _ => False

/-- The call may still bring the aspect to the renderer, or it removes it. -/
def Owes (s : WallpaperState) (path : Option String) (id : RendererId) (a : Aspect) :
    PropertyCall → Prop
  | pushProperty item key _ => s.IsFile item path ∧ a = aspectOf key
  | pushLayout item _ => s.IsFile item path ∧ a = .layout
  | readLayout _ i | setOverride i _ => i = id ∧ a = .layout
  | sendDefault _ i key | sendProperty i key _ => i = id ∧ a = .value key
  | remove i => i = id
  | _ => False

instance (s : WallpaperState) (path : Option String) (a : Aspect) :
    (c : PropertyCall) → Decidable (c.Seeks s path a)
  | pushProperty _ _ _ | pushLayout _ _ => inferInstanceAs (Decidable (_ ∧ _))
  | propertySet _ _ _ | mergeOverrides _ _ _ | updateOverrides _ _ _ _ | readLayout _ _
  | sendDefault _ _ _ | sendProperty _ _ _ | layoutSet _ _ | readCleared _ | clearLayout _ _
  | updateLayout _ _ | setOverride _ _ | apply _ _ | readProperties _ _ | findReusable _ _
  | spawn _ _ _ | insertRenderer _ _ | register _ | kill _ | remove _ | evict _ | unregister _ =>
      inferInstanceAs (Decidable False)

instance (s : WallpaperState) (path : Option String) (id : RendererId) (a : Aspect) :
    (c : PropertyCall) → Decidable (c.Owes s path id a)
  | pushProperty _ _ _ | pushLayout _ _ | readLayout _ _ | setOverride _ _ | sendDefault _ _ _
  | sendProperty _ _ _ => inferInstanceAs (Decidable (_ ∧ _))
  | remove i => inferInstanceAs (Decidable (i = id))
  | propertySet _ _ _ | mergeOverrides _ _ _ | updateOverrides _ _ _ _ | layoutSet _ _
  | readCleared _ | clearLayout _ _ | updateLayout _ _ | apply _ _ | readProperties _ _
  | findReusable _ _ | spawn _ _ _ | insertRenderer _ _ | register _ | kill _ | evict _
  | unregister _ => inferInstanceAs (Decidable False)

end PropertyCall

/-- An aspect is right, or it is still to be sent. -/
abbrev Covered (s : WallpaperState) (cs : List PropertyCall) (item : ItemId) (row : WallpaperRow)
    (id : RendererId) (h : ShownRenderer) (a : Aspect) : Prop :=
  s.Met w item row id h a ∨ ∃ c ∈ cs, c.Owes s (h.extras.lookup "path") id a

/-! ## When requests reach what they concern -/

/-- A property is written: the row has the other properties that were read, and its key is the one
the renderers know it by, unless nothing changes or nobody shows the wallpaper. -/
abbrev OverridesReach (s : WallpaperState) (item : ItemId) (key value : String)
    (current : UserProperties) : Prop :=
  ∀ row ∈ s.items.lookup item,
    (∀ k ∈ current.map.keys ++ row.getUserPropertyOverrides.map.keys,
      k ≠ canonicalUserPropertyKey key → current.get k = row.getUserPropertyOverrides.get k) ∧
    (canonicalUserPropertyKey key = key ∨
      (∀ e ∈ s.renderers.entries, e.2.extras.lookup "path" ≠ some row.resource) ∨
      row.getUserPropertyOverrides.get (canonicalUserPropertyKey key) =
        if value = "" then none else some value)

/-- The layout is cleared: the row has the properties that were read. -/
abbrev ClearReaches (s : WallpaperState) (item : ItemId) (current : UserProperties) : Prop :=
  ∀ row ∈ s.items.lookup item, ∀ k ∈ current.map.keys ++ row.getUserPropertyOverrides.map.keys,
    isDaemonDisplayPropertyKey k = false → current.get k = row.getUserPropertyOverrides.get k

/-- One renderer is found: all others that show the wallpaper are right, or the aspect is still to
be sent to them. -/
abbrev PickReaches (s : WallpaperState) (rest : List PropertyCall) (item : ItemId) (a : Aspect)
    (id : RendererId) : Prop :=
  s.ForShown fun i row j h => j ≠ id → s.IsFile item (h.extras.lookup "path") →
    Covered w s rest i row j h a

/-- A value is delivered: it is that of the row, or the key is still to be sent. -/
abbrev SendReaches (s : WallpaperState) (rest : List PropertyCall) (id : RendererId)
    (key value : String) : Prop :=
  s.ForShown fun i row j h => j = id → canonicalUserPropertyKey key = key →
    some value = w.shown i (row.getWallpaperRenderProperties w.parsePercent).1 key ∨
      ∃ c ∈ rest, c.Owes s (h.extras.lookup "path") id (.value key)

/-- The layout is set: it is that of the row, or one is still to be set. -/
abbrev LayoutReaches (s : WallpaperState) (rest : List PropertyCall) (id : RendererId)
    (layout : WallpaperLayoutOverride) : Prop :=
  s.ForShown fun _ row j h => j = id →
    (if id ∈ s.registered then layout else (s.layoutOverrides.lookup id).getD default) =
        (row.getWallpaperRenderProperties w.parsePercent).2 ∨
      ∃ c ∈ rest, c.Owes s (h.extras.lookup "path") id .layout

/-- A renderer is listed: the values it was spawned with are those of the row, or the key is still
to be sent to all renderers of the wallpaper; the same goes for the layout, unless the spawn goes
on to set it. -/
abbrev SpawnReaches (s : WallpaperState) (rest : List PropertyCall) (h : ShownRenderer)
    (layout : Option WallpaperLayoutOverride) : Prop :=
  ∀ i ∈ s.items.entries, h.extras.lookup "path" = some i.2.resource →
    (∀ key ∈ h.userProperties.keys ++
        (i.2.getWallpaperRenderProperties w.parsePercent).1.keys,
      canonicalUserPropertyKey key = key →
        w.shown i.1 h.userProperties key =
            w.shown i.1 (i.2.getWallpaperRenderProperties w.parsePercent).1 key ∨
          ∃ c ∈ rest, c.Seeks s (h.extras.lookup "path") (.value key)) ∧
    (layout = none → default = (i.2.getWallpaperRenderProperties w.parsePercent).2 ∨
      ∃ c ∈ rest, c.Seeks s (h.extras.lookup "path") .layout)

def PropertyChoice.picked : PropertyChoice → Option RendererId
  | pick id => some id
  | _ => none

/-- What a step needs so that what it sends, or does not send, leaves every renderer right. -/
def PropertyCall.Reaches (s : WallpaperState) (rest : List PropertyCall) (x : PropertyChoice) :
    PropertyCall → Prop
  | updateOverrides item key value current => OverridesReach s item key value current
  | clearLayout item current => ClearReaches s item current
  | pushProperty item key _ => ∀ id ∈ x.picked, PickReaches w s rest item (aspectOf key) id
  | pushLayout item _ => ∀ id ∈ x.picked, PickReaches w s rest item .layout id
  | sendProperty id key value => SendReaches w s rest id key value
  | setOverride id layout => LayoutReaches w s rest id layout
  | insertRenderer h layout => SpawnReaches w s rest h layout
  | _ => True

instance PropertyCall.Reaches.decidable (s : WallpaperState) (rest : List PropertyCall)
    (x : PropertyChoice) : (c : PropertyCall) → Decidable (c.Reaches w s rest x)
  | .updateOverrides item key value current =>
      inferInstanceAs (Decidable (OverridesReach s item key value current))
  | .clearLayout item current => inferInstanceAs (Decidable (ClearReaches s item current))
  | .pushProperty item key _ => inferInstanceAs
      (Decidable (∀ id ∈ x.picked, PickReaches w s rest item (aspectOf key) id))
  | .pushLayout item _ => inferInstanceAs
      (Decidable (∀ id ∈ x.picked, PickReaches w s rest item .layout id))
  | .sendProperty id key value => inferInstanceAs (Decidable (SendReaches w s rest id key value))
  | .setOverride id layout => inferInstanceAs (Decidable (LayoutReaches w s rest id layout))
  | .insertRenderer h layout => inferInstanceAs (Decidable (SpawnReaches w s rest h layout))
  | .propertySet _ _ _ | .mergeOverrides _ _ _ | .readLayout _ _ | .sendDefault _ _ _
  | .layoutSet _ _ | .readCleared _ | .updateLayout _ _ | .apply _ _ | .readProperties _ _
  | .findReusable _ _ | .spawn _ _ _ | .register _ | .kill _ | .remove _ | .evict _
  | .unregister _ => inferInstanceAs (Decidable True)

/-- Every write is made on what was read, and every value reaches the renderers last. -/
def PropertiesReach (p : PropertyPool) : PropertyLabel → Prop
  | .run i x => ∀ c ∈ p.executed (.run i x : PropertyLabel),
      c.Reaches w p.shared (p.remaining (.run i x : PropertyLabel)) x
  | _ => True

instance (p : PropertyPool) : (l : PropertyLabel) → Decidable (PropertiesReach w p l)
  | .run i x => inferInstanceAs (Decidable (∀ c ∈ p.executed (.run i x : PropertyLabel),
      c.Reaches w p.shared (p.remaining (.run i x : PropertyLabel)) x))
  | .wake _ | .drop _ | .start _ => inferInstanceAs (Decidable True)

/-- The call sends a value to a renderer, or reads the row to do so. -/
def PropertyCall.Sends : PropertyCall → Prop
  | sendProperty _ _ _ | readLayout _ _ => True
  | _ => False

instance PropertyCall.Sends.decidable : (c : PropertyCall) → Decidable c.Sends
  | .sendProperty _ _ _ | .readLayout _ _ => inferInstanceAs (Decidable True)
  | .propertySet _ _ _ | .mergeOverrides _ _ _ | .updateOverrides _ _ _ _ | .pushProperty _ _ _
  | .sendDefault _ _ _ | .layoutSet _ _ | .readCleared _ | .clearLayout _ _ | .updateLayout _ _
  | .pushLayout _ _ | .setOverride _ _ | .apply _ _ | .readProperties _ _ | .findReusable _ _
  | .spawn _ _ _ | .insertRenderer _ _ | .register _ | .kill _ | .remove _ | .evict _
  | .unregister _ => inferInstanceAs (Decidable False)

/-- No send fails. -/
def PropertySendsSucceed (p : PropertyPool) : PropertyLabel → Prop
  | .run i .fail => ∀ c ∈ p.executed (.run i .fail : PropertyLabel), ¬c.Sends
  | _ => True

instance (p : PropertyPool) : (l : PropertyLabel) → Decidable (PropertySendsSucceed p l)
  | .run i .fail => inferInstanceAs
      (Decidable (∀ c ∈ p.executed (.run i .fail : PropertyLabel), ¬c.Sends))
  | .run _ .tick | .run _ (.pick _) | .run _ (.extras _) | .run _ (.uuid _) | .wake _ | .drop _
  | .start _ => inferInstanceAs (Decidable True)

end Waywallen
