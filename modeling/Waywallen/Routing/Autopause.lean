import Waywallen.Settings

/-!
# Per-display autopause

The machine a display's `window_state` reports drive: pause applies at once, resume is debounced
by a timer that carries the transition counter it was armed with.
-/

namespace Waywallen

def flagNonMinimized : UInt32 := (1 : UInt32) <<< 0
def flagActive : UInt32 := (1 : UInt32) <<< 1
def flagMaximized : UInt32 := (1 : UInt32) <<< 2
def flagFullscreen : UInt32 := (1 : UInt32) <<< 3

/-- (mode, flags) → autopause this display? -/
def AutopauseMode.decide (mode : AutopauseMode) (flags : UInt32) : Bool :=
  let has (b : UInt32) : Bool := flags &&& b != 0
  match mode with
  | .never => false
  | .any => has flagNonMinimized
  | .focus => has flagActive
  | .max => has flagMaximized || has flagFullscreen
  | .focusOrMax => has flagActive || has flagMaximized || has flagFullscreen
  | .fullScreen => has flagFullscreen

namespace Autopause

/-- Per-display autopause state held by the router. -/
structure State where
  /-- Most recent flags the consumer reported. -/
  lastFlags : UInt32
  /-- The instantaneous raw signal. -/
  rawWantPause : Bool
  /-- The effective signal; pause applies at once, resume may be debounced. -/
  requested : Bool
  /-- Bumped on every transition; resume timers armed earlier are stale. -/
  gen : UInt64
deriving DecidableEq

def State.new : State := ⟨0, false, false, 0⟩

/-- What a report asks the router to do after the state is updated. -/
inductive Action
  | scheduleResume (gen : UInt64)
  | reconcile
  | noop
deriving DecidableEq

/-- A `window_state` report under the resolved mode. -/
def State.report (s : State) (mode : AutopauseMode) (flags : UInt32) : State × Action :=
  let newRaw := mode.decide flags
  if s.lastFlags == flags && newRaw == s.rawWantPause then
    ({ s with lastFlags := flags }, .noop)
  else if newRaw then
    ({ lastFlags := flags, rawWantPause := true, requested := true, gen := s.gen + 1 },
      if s.requested then .noop else .reconcile)
  else if s.requested then
    ({ s with lastFlags := flags, rawWantPause := false, gen := s.gen + 1 },
      .scheduleResume (s.gen + 1))
  else
    ({ s with lastFlags := flags, rawWantPause := false }, .noop)

/-- A resume timer fires: the new state, and whether renderers have to be reconciled. -/
def State.resume (s : State) (gen : UInt64) : State × Bool :=
  if s.gen != gen || s.rawWantPause then (s, false)
  else ({ s with requested := false }, s.requested)

end Autopause

end Waywallen
