import Waywallen.Display.Layout
import Waywallen.Library.HashMap

/-!
# The settings the router reads

Per-display preferences fall through to the global defaults, field by field.
-/

namespace Waywallen

/-- What the daemon does when window-state reports arrive from a display. -/
inductive AutopauseMode
  | never
  | any
  | max
  | focus
  | focusOrMax
  | fullScreen
deriving DecidableEq

structure AutopauseDefaults where
  mode : AutopauseMode
  /-- Milliseconds without an autopause condition before resuming. -/
  resumeMs : UInt32
  pauseOnLock : Bool
  pauseOnUserSwitch : Bool
deriving DecidableEq

instance : Inhabited AutopauseDefaults := ⟨⟨.never, 500, true, true⟩⟩

structure ResolvedAutopause where
  mode : AutopauseMode
  resumeMs : UInt32
deriving DecidableEq

structure LayoutDefaults where
  fillmode : FillMode
  location : Option Location
  align : Align
  rotation : Rotation
deriving DecidableEq

instance : Inhabited LayoutDefaults := ⟨⟨default, none, default, default⟩⟩

/-- Per-display overrides; `none` fields inherit from the global defaults. -/
structure DisplayPrefs where
  fillmode : Option FillMode
  location : Option Location
  align : Option Align
  rotation : Option Rotation
  autopauseMode : Option AutopauseMode
  autopauseResumeMs : Option UInt32
  /-- Last wallpaper id applied to this display. -/
  lastWallpaper : Option String
  displayAlias : Option String
  activePlaylistId : Option ℤ
deriving DecidableEq

structure Settings where
  layout : LayoutDefaults
  autopause : AutopauseDefaults
  /-- The wallpaper of the displays without a record of their own. -/
  lastWallpaper : Option String
  displays : HashMap String DisplayPrefs

instance : Inhabited Settings := ⟨⟨default, default, none, ∅⟩⟩

namespace Settings

variable (s : Settings)

def displayPrefs (displayName : String) : Option DisplayPrefs :=
  s.displays.lookup displayName

def resolvedLayout (displayName : String) : ResolvedLayout :=
  let defaults := s.layout
  let prefs := s.displayPrefs displayName
  let defaultLocation := defaults.location.getD (.fromAlign defaults.align)
  { fillmode := (prefs.bind (·.fillmode)).getD defaults.fillmode
    location := ((prefs.bind (·.location)).or
      (prefs.bind fun p => p.align.map .fromAlign)).getD defaultLocation
    rotation := (prefs.bind (·.rotation)).getD defaults.rotation }

def resolvedAutopause (displayName : String) : ResolvedAutopause :=
  let prefs := s.displayPrefs displayName
  { mode := (prefs.bind (·.autopauseMode)).getD s.autopause.mode
    resumeMs := (prefs.bind (·.autopauseResumeMs)).getD s.autopause.resumeMs }

end Settings

end Waywallen
