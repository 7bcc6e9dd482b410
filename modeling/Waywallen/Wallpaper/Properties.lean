import Waywallen.Display.Layout
import Waywallen.Library.HashMap

/-!
# The properties of a wallpaper

An item row keeps the user's property values and layout for the wallpaper. Values are looked up by
canonical key; those under the keys of the daemon's own display properties place the picture (older
rows keep the layout there), all others go to the renderer.
-/

namespace Waywallen

def schemeColorKey : String := "waywallen.scheme_color"
def fillModeKey : String := "waywallen.fill_mode"
def rotationKey : String := "waywallen.rotation"
def locationXKey : String := "waywallen.location_x"
def locationYKey : String := "waywallen.location_y"
def legacySchemeColorKey : String := "schemecolor"

def daemonDisplayPropertyKeys : List String :=
  [fillModeKey, rotationKey, locationXKey, locationYKey]

def isDaemonDisplayPropertyKey (key : String) : Bool :=
  daemonDisplayPropertyKeys.contains key

def canonicalUserPropertyKey (key : String) : String :=
  if key = legacySchemeColorKey then schemeColorKey else key

@[simp] theorem canonicalUserPropertyKey_canonical (key : String) :
    canonicalUserPropertyKey (canonicalUserPropertyKey key) = canonicalUserPropertyKey key := by
  by_cases h : key = legacySchemeColorKey
  · rw [canonicalUserPropertyKey, canonicalUserPropertyKey, if_pos h, if_neg (by decide)]
  · rw [canonicalUserPropertyKey, canonicalUserPropertyKey, if_neg h, if_neg h]

/-- Property values under canonical keys. -/
structure UserProperties where
  map : HashMap String String
  canonical : ∀ key ∈ map.keys, canonicalUserPropertyKey key = key

namespace UserProperties

def empty : UserProperties := ⟨∅, nofun⟩

def get (u : UserProperties) (key : String) : Option String := u.map.lookup key

def insert (u : UserProperties) (key value : String) : UserProperties where
  map := u.map.insert (canonicalUserPropertyKey key) value
  canonical k hk := by
    obtain ⟨v, hv⟩ := (HashMap.mem_keys_iff _ _).1 hk
    rw [HashMap.lookup_insert_eq] at hv
    split at hv
    · rename_i h
      rw [h, canonicalUserPropertyKey_canonical]
    · exact u.canonical k ((HashMap.mem_keys_iff _ _).2 ⟨v, hv⟩)

def erase (u : UserProperties) (key : String) : UserProperties where
  map := u.map.erase (canonicalUserPropertyKey key)
  canonical k hk := by
    obtain ⟨v, hv⟩ := (HashMap.mem_keys_iff _ _).1 hk
    rw [HashMap.lookup_erase_eq] at hv
    split at hv
    · cases hv
    · exact u.canonical k ((HashMap.mem_keys_iff _ _).2 ⟨v, hv⟩)

/-- Set one property; an empty value removes it. -/
def merge (u : UserProperties) (key value : String) : UserProperties :=
  if value = "" then u.erase key else u.insert key value

/-- Without the layout that older rows keep among the properties. -/
def clearLayout (u : UserProperties) : UserProperties where
  map := u.map.retain fun key => !isDaemonDisplayPropertyKey key
  canonical k hk := by
    obtain ⟨v, hv⟩ := (HashMap.mem_keys_iff _ _).1 hk
    rw [HashMap.lookup_retain] at hv
    split at hv
    · exact u.canonical k ((HashMap.mem_keys_iff _ _).2 ⟨v, hv⟩)
    · cases hv

/-- Take one entry over: the canonical key wins over an older name for it. -/
def addNormalized (out : UserProperties) (key value : String) : UserProperties :=
  if key = canonicalUserPropertyKey key ∨ out.get (canonicalUserPropertyKey key) = none then
    out.insert key value
  else out

end UserProperties

def normalizeUserPropertyOverrides (m : HashMap String String) : UserProperties :=
  m.entries.foldl (fun out e => out.addNormalized e.1 e.2) .empty

namespace UserProperties

variable (u : UserProperties) (key value : String)

theorem map_insert :
    (u.insert key value).map = u.map.insert (canonicalUserPropertyKey key) value :=
  rfl

theorem get_merge (k : String) : (u.merge key value).get k =
    if k = canonicalUserPropertyKey key then if value = "" then none else some value
    else u.get k := by
  unfold merge
  by_cases hvalue : value = ""
  · rw [if_pos hvalue, if_pos hvalue]
    exact HashMap.lookup_erase_eq _ _ _
  · rw [if_neg hvalue, if_neg hvalue]
    exact HashMap.lookup_insert_eq _ _ _ _

theorem get_clearLayout (k : String) :
    u.clearLayout.get k = if isDaemonDisplayPropertyKey k then none else u.get k := by
  refine (HashMap.lookup_retain _ _ _).trans ?_
  cases isDaemonDisplayPropertyKey k <;> rfl

/-- What has been normalized stays as it is. -/
theorem get_normalize (k : String) : (normalizeUserPropertyOverrides u.map).get k = u.get k := by
  have h (l : List (Sigma fun _ : String => String))
      (hl : ∀ e ∈ l, canonicalUserPropertyKey e.1 = e.1) (out : UserProperties) :
      (l.foldl (fun out e => out.addNormalized e.1 e.2) out).map =
        l.foldl (fun m e => m.insert e.1 e.2) out.map := by
    induction l generalizing out with
    | nil => rfl
    | cons e l ih =>
      have he := hl e List.mem_cons_self
      rw [List.foldl_cons, List.foldl_cons, ih (fun e' he' => hl e' (List.mem_cons_of_mem _ he')),
        addNormalized, if_pos (.inl he.symm), map_insert, he]
  rw [get, normalizeUserPropertyOverrides, h _ fun e he => u.canonical e.1
    (List.mem_map.2 ⟨e, he, rfl⟩), HashMap.lookup_foldl_entries, empty, HashMap.lookup_empty,
    Option.or_none, get]

end UserProperties

/-! ## What a renderer gets -/

def parseFillmode (value : String) : Option FillMode :=
  if value = "stretched" then some .stretched
  else if value = "preserve_aspect_fit" then some .preserveAspectFit
  else if value = "preserve_aspect_crop" then some .preserveAspectCrop
  else if value = "centered" then some .centered
  else none

def parseRotation (value : String) : Option Rotation :=
  if value = "normal" then some .normal
  else if value = "cw_90" then some .cw90
  else if value = "cw_180" then some .cw180
  else if value = "cw_270" then some .cw270
  else none

section

-- the percentage a text stands for, rounded and clamped: parsing floating point is left open
variable (parsePercent : String → Option ℕ)

def splitRendererProperties (u : UserProperties) : HashMap String String × WallpaperLayoutOverride :=
  let x := (u.get locationXKey).bind parsePercent
  let y := (u.get locationYKey).bind parsePercent
  (u.clearLayout.map,
    { fillmode := (u.get fillModeKey).bind parseFillmode
      location :=
        if x.isSome ∨ y.isSome then some (Location.new (x.getD 50) (y.getD 50)) else none
      rotation := (u.get rotationKey).bind parseRotation })

/-- The columns of an item row that concern its properties, parsed. -/
structure WallpaperRow where
  /-- The path of the library and that of the item in it. -/
  resource : String
  wpType : String
  userPropertyOverrides : Option (HashMap String String)
  wallpaperLayoutOverride : Option WallpaperLayoutOverride

namespace WallpaperRow

variable (row : WallpaperRow)

def getUserPropertyOverrides : UserProperties :=
  normalizeUserPropertyOverrides (row.userPropertyOverrides.getD ∅)

def getWallpaperRenderProperties : HashMap String String × WallpaperLayoutOverride :=
  let split := splitRendererProperties parsePercent row.getUserPropertyOverrides
  (split.1, row.wallpaperLayoutOverride.getD split.2)

/-- The column is emptied with the last property. -/
def setUserPropertyOverrides (u : UserProperties) : WallpaperRow :=
  { row with userPropertyOverrides := if u.map.keys = [] then none else some u.map }

end WallpaperRow

end

theorem WallpaperRow.get_setUserPropertyOverrides (row : WallpaperRow) (u : UserProperties)
    (k : String) : (row.setUserPropertyOverrides u).getUserPropertyOverrides.get k = u.get k := by
  by_cases h : u.map.keys = []
  · have hnone : u.get k = none := by
      rw [UserProperties.get, Option.eq_none_iff_forall_ne_some]
      intro v hv
      have hk := (HashMap.mem_keys_iff u.map k).2 ⟨v, hv⟩
      rw [h] at hk
      cases hk
    rw [getUserPropertyOverrides, setUserPropertyOverrides, if_pos h, hnone]
    rfl
  · rw [getUserPropertyOverrides, setUserPropertyOverrides, if_neg h, Option.getD_some,
      UserProperties.get_normalize]

end Waywallen
