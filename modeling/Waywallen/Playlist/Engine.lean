import Mathlib.Data.List.Sort
import Waywallen.Library.TaskPool
import Waywallen.Renderer.Handle

/-!
# The playlist engine

The engine knows which playlist each display rotates, and the settings keep the assignment of a
display under its settings key. An activation, a deactivation and the deletion of a playlist take
the locks of the map, the settings and the router one after the other, and an activation holds none
of them while it applies the first wallpaper. The hotplug watcher receives the events of the router
and restores what is saved for a display, or the playlist attached to every display.
-/

namespace Waywallen

open TaskPool

abbrev PlaylistId := ℕ

/-- What a display registers with, as far as its settings key depends on it. -/
structure DisplayIdent where
  name : String
  instanceId : Option String := none
deriving DecidableEq

def DisplayIdent.settingsKey (i : DisplayIdent) : String := i.instanceId.getD i.name

/-- A router event, as the hotplug watcher tells them apart. -/
inductive HotplugEvent
  | displayUpsert (d : DisplayId) (ident : DisplayIdent)
  | displayRemoved (d : DisplayId)
  | other
deriving DecidableEq

/-- The engine with what it reads and writes of the database, the settings and the router. -/
structure PlaylistEngine where
  /-- The playlist of each display with a rotation. -/
  owned : HashMap DisplayId PlaylistId := ∅
  /-- The playlists in the database, each with its entry ids. -/
  playlists : HashMap PlaylistId (List ℕ) := ∅
  /-- The entries of the library. -/
  entries : List ℕ := []
  /-- The `active_playlist_id` of each display entry in the settings. -/
  assigned : HashMap String (Option PlaylistId) := ∅
  autoAttach : Option PlaylistId := none
  nextDisplayId : ℕ := 0
  /-- The displays registered with the router. -/
  displays : HashMap DisplayId DisplayIdent := ∅
  /-- The events the watcher has still to receive. -/
  events : List HotplugEvent := []
  lagged : Bool := false

/-- The arguments of `activate` and `activate_resuming`, and whether `PlaylistActivate` goes on to
attach the playlist to every display. -/
structure Activation where
  displayIds : List DisplayId
  playlistId : PlaylistId
  resume : Bool := false
  autoAttach : Bool := false
deriving DecidableEq

inductive EngineCall
  | getPlaylist (a : Activation)
  | resolveItems (a : Activation)
  | targets (a : Activation)
  | release (d : DisplayId) (pid : PlaylistId)
  | applyWallpaper (d : DisplayId) (pid : PlaylistId)
  | insertRotation (d : DisplayId) (pid : PlaylistId)
  | persistAssignment (d : DisplayId) (pid : Option PlaylistId)
  | saveAssignment (d : DisplayId) (key : String) (pid : Option PlaylistId)
  | deactivate (displayIds : List DisplayId)
  | removeRotation (d : DisplayId)
  | deactivateForPlaylist (pid : PlaylistId)
  | deletePlaylist (pid : PlaylistId)
  | setItems (pid : PlaylistId) (entryIds : List ℕ)
  | setMode (pid : PlaylistId)
  | rebuildForPlaylist (pid : PlaylistId)
  | rebuildGet (pid : PlaylistId) (affected : List DisplayId)
  | rebuildItems (pid : PlaylistId) (affected : List DisplayId)
  | attach (pid : PlaylistId)
  | clearAttach (pid : PlaylistId)
  | registerDisplay (ident : DisplayIdent)
  | insertLegacy (iid : String) (legacy : Option PlaylistId)
  | addDisplay (ident : DisplayIdent)
  | snapshotDisplay (d : DisplayId)
  | emitUpsert (d : DisplayId) (ident : DisplayIdent)
  | unregisterDisplay (d : DisplayId)
  | emitRemoved (d : DisplayId)
  | restoreAll
  | watch
  | resync
  | checkOwned (d : DisplayId) (key : String)
  | resolvePid (d : DisplayId) (key : String)
  | dropDisplay (d : DisplayId)
deriving DecidableEq

/-- What the code does not decide: whether the database answers, and the order in which a hash map
is read. -/
inductive EngineChoice
  | ok
  | dbError
  | order (ks : List DisplayId)
deriving DecidableEq

inductive EngineRequest
  | playlistActivate (displayIds : List DisplayId) (pid : PlaylistId) (autoAttach : Bool)
  | playlistDeactivate (displayIds : List DisplayId) (clearAutoAttach : Option PlaylistId)
  | wallpaperApply (displayIds : List DisplayId)
  | playlistDelete (pid : PlaylistId)
  | playlistSetItems (pid : PlaylistId) (entryIds : List ℕ)
  | playlistSetMode (pid : PlaylistId)
  | registerDisplay (ident : DisplayIdent)
  | unregisterDisplay (d : DisplayId)
  /-- A change of the display that the router announces: its layout, alias, size or links. -/
  | updateDisplay (d : DisplayId)

/-- What the rest of the daemon does to the state. -/
inductive EngineSignal
  | createPlaylist (pid : PlaylistId) (entryIds : List ℕ)
  | setEntries (entries : List ℕ)
  /-- Another field of a display's settings is written. -/
  | touchPrefs (key : String)
  /-- An empty display entry of the settings is removed. -/
  | prunePrefs (key : String)
  | otherEvent
  /-- The watcher is too slow: the oldest events are lost to it. -/
  | lag (n : ℕ)

abbrev EnginePool := Pool PlaylistEngine EngineCall

abbrev EngineLabel := Label EngineChoice EngineRequest EngineSignal

namespace PlaylistEngine

variable (s : PlaylistEngine)

def done : Option (Outcome PlaylistEngine EngineCall) := some { shared := s }

def andThen (next : List EngineCall) : Option (Outcome PlaylistEngine EngineCall) :=
  some { shared := s, next }

/-- The registered displays in ascending order of their ids. -/
def snapshotDisplays : List (DisplayId × DisplayIdent) :=
  (s.displays.keys.insertionSort (· ≤ ·)).filterMap fun d => (s.displays.lookup d).map (d, ·)

/-- The items of a playlist: its entries that exist, or all if none does. -/
def resolve (pid : PlaylistId) : List ℕ :=
  let ids := (s.playlists.lookup pid).getD []
  let filtered := ids.filter (· ∈ s.entries)
  if filtered = [] then ids else filtered

/-- The displays that rotate the playlist. -/
def ownersOf (pid : PlaylistId) : List DisplayId :=
  s.owned.keys.filter fun d => s.owned.lookup d = some pid

/-- The assignment saved under a settings key. -/
def saved (key : String) : Option PlaylistId := (s.assigned.lookup key).join

/-- The playlist a display is to rotate when nobody has asked for one. -/
def resolvePid (key : String) : Option PlaylistId := (s.saved key).or s.autoAttach

/-- Go on with the given displays, read from a hash map in whatever order. -/
def inOrder (ds : List DisplayId) (next : List DisplayId → List EngineCall) :
    EngineChoice → Option (Outcome PlaylistEngine EngineCall)
  | .order ks => if ks.Perm ds then s.andThen (next ks) else none
  | _ => none

def emit (e : HotplugEvent) : PlaylistEngine := { s with events := s.events ++ [e] }

/-- The watcher receives the next event, or learns that it has missed some. -/
def receive : Option (Outcome PlaylistEngine EngineCall) :=
  if s.lagged then { s with lagged := false }.andThen [.resync, .watch]
  else
    match s.events with
    | [] => none
    | .displayUpsert d ident :: events =>
        { s with events }.andThen [.checkOwned d ident.settingsKey, .watch]
    | .displayRemoved d :: events => { s with events }.andThen [.dropDisplay d, .watch]
    | .other :: events => { s with events }.andThen [.watch]

end PlaylistEngine

namespace EngineCall

def exec (x : EngineChoice) (c : EngineCall) (s : PlaylistEngine) :
    Option (Outcome PlaylistEngine EngineCall) :=
  match c with
  | getPlaylist a =>
      if x ≠ .dbError ∧ s.playlists.containsKey a.playlistId then s.andThen [resolveItems a]
      else s.done
  | resolveItems a =>
      if x ≠ .dbError ∧ s.resolve a.playlistId ≠ [] then s.andThen [targets a] else s.done
  | targets a =>
      let ids := if a.displayIds = [] then s.snapshotDisplays.map Prod.fst else a.displayIds
      s.andThen (ids.map (release · a.playlistId) ++
        if a.autoAttach then [attach a.playlistId] else [])
  | release d pid => { s with owned := s.owned.erase d }.andThen [applyWallpaper d pid]
  -- no lock is held while the wallpaper is applied, and a failure to do so is ignored
  | applyWallpaper d pid => s.andThen [insertRotation d pid]
  | insertRotation d pid =>
      { s with owned := s.owned.insert d pid }.andThen [persistAssignment d (some pid)]
  | persistAssignment d pid =>
      match s.displays.lookup d with
      | some ident => s.andThen [saveAssignment d ident.settingsKey pid]
      | none => s.done
  | saveAssignment _ key pid => { s with assigned := s.assigned.insert key pid }.done
  | deactivate [] => s.inOrder s.owned.keys (List.map removeRotation) x
  | deactivate ids => s.andThen (ids.map removeRotation)
  | removeRotation d => { s with owned := s.owned.erase d }.andThen [persistAssignment d none]
  | deactivateForPlaylist pid =>
      s.inOrder (s.ownersOf pid) (fun ids => if ids = [] then [] else [deactivate ids]) x
  | deletePlaylist pid =>
      if x = .dbError then s.done else { s with playlists := s.playlists.erase pid }.done
  | setItems pid entryIds =>
      if x ≠ .dbError ∧ s.playlists.containsKey pid then
        { s with playlists := s.playlists.insert pid entryIds }.andThen [rebuildForPlaylist pid]
      else s.done
  | setMode pid =>
      if x ≠ .dbError ∧ s.playlists.containsKey pid then s.andThen [rebuildForPlaylist pid]
      else s.done
  | rebuildForPlaylist pid =>
      s.inOrder (s.ownersOf pid) (fun ids => if ids = [] then [] else [rebuildGet pid ids]) x
  | rebuildGet pid affected =>
      if x ≠ .dbError ∧ s.playlists.containsKey pid then s.andThen [rebuildItems pid affected]
      else s.done
  -- an error of the database counts as no items
  | rebuildItems pid affected =>
      if x ≠ .dbError ∧ s.resolve pid ≠ [] then s.done else s.andThen [deactivate affected]
  | attach pid => { s with autoAttach := some pid }.done
  | clearAttach pid =>
      { s with autoAttach := if s.autoAttach = some pid then none else s.autoAttach }.done
  | registerDisplay ident =>
      match ident.instanceId with
      | none => s.andThen [addDisplay ident]
      | some iid =>
          match s.assigned.lookup iid, s.assigned.lookup ident.name with
          | none, some legacy => s.andThen [insertLegacy iid legacy, addDisplay ident]
          | _, _ => s.andThen [addDisplay ident]
  | insertLegacy iid legacy =>
      if s.assigned.containsKey iid then s.done
      else { s with assigned := s.assigned.insert iid legacy }.done
  | addDisplay ident =>
      { s with
        nextDisplayId := s.nextDisplayId + 1
        displays := s.displays.insert (s.nextDisplayId + 1) ident }.andThen
          [snapshotDisplay (s.nextDisplayId + 1)]
  | snapshotDisplay d =>
      match s.displays.lookup d with
      | some ident => s.andThen [emitUpsert d ident]
      | none => s.done
  | emitUpsert d ident => (s.emit (.displayUpsert d ident)).done
  | unregisterDisplay d => { s with displays := s.displays.erase d }.andThen [emitRemoved d]
  | emitRemoved d => (s.emit (.displayRemoved d)).done
  | restoreAll => s.andThen (s.snapshotDisplays.map fun e => resolvePid e.1 e.2.settingsKey)
  | watch => s.receive
  | resync => s.andThen (s.snapshotDisplays.map fun e => checkOwned e.1 e.2.settingsKey)
  | checkOwned d key => if s.owned.containsKey d then s.done else s.andThen [resolvePid d key]
  | resolvePid d key =>
      match s.resolvePid key with
      | some pid => s.andThen [getPlaylist { displayIds := [d], playlistId := pid, resume := true }]
      | none => s.done
  | dropDisplay d => { s with owned := s.owned.erase d }.done

end EngineCall

open EngineCall in
def EngineRequest.calls : EngineRequest → List EngineCall
  | playlistActivate displayIds playlistId autoAttach =>
      [.getPlaylist { displayIds, playlistId, autoAttach }]
  | playlistDeactivate displayIds clear =>
      .deactivate displayIds :: (clear.map clearAttach).toList
  | wallpaperApply displayIds => [.deactivate displayIds]
  | playlistDelete pid => [.deactivateForPlaylist pid, .deletePlaylist pid]
  | playlistSetItems pid entryIds => [.setItems pid entryIds]
  | playlistSetMode pid => [.setMode pid]
  | registerDisplay ident => [.registerDisplay ident]
  | unregisterDisplay d => [.unregisterDisplay d]
  | updateDisplay d => [.snapshotDisplay d]

namespace PlaylistEngine

/-- The ids of displays are those the router has given out. -/
def accept (s : PlaylistEngine) (q : EngineRequest) :
    Option (PlaylistEngine × TaskPool.Task EngineCall) :=
  match q with
  | .unregisterDisplay d =>
      if d ≤ s.nextDisplayId then some (s, { stack := q.calls }) else none
  | _ => some (s, { stack := q.calls })

def act (e : EngineSignal) (s : PlaylistEngine) : Option PlaylistEngine :=
  match e with
  | .createPlaylist pid entryIds =>
      if s.playlists.containsKey pid then none
      else some { s with playlists := s.playlists.insert pid entryIds }
  | .setEntries entries => some { s with entries }
  | .touchPrefs key =>
      if s.assigned.containsKey key then none
      else some { s with assigned := s.assigned.insert key none }
  | .prunePrefs key =>
      if s.assigned.lookup key = some none then some { s with assigned := s.assigned.erase key }
      else none
  | .otherEvent => some (s.emit .other)
  | .lag n => some { s with events := s.events.drop n, lagged := true }

def semantics : Semantics PlaylistEngine EngineCall EngineChoice EngineRequest EngineSignal where
  exec x _ c s := c.exec x s
  accept q s := s.accept q
  act := act

/-- The state in which the watcher subscribes: no playlist is active yet. -/
structure Fresh (s : PlaylistEngine) : Prop where
  owned : s.owned = ∅
  events : s.events = []
  lagged : s.lagged = false
  displays : ∀ d ∈ s.displays.keys, d ≤ s.nextDisplayId

def start (s : PlaylistEngine) : EnginePool where
  shared := s
  tasks := [{ stack := [.restoreAll, .watch] }]

def Run (s : PlaylistEngine) (ls : List EngineLabel) (p : EnginePool) : Prop :=
  Transition.run semantics.step (start s) ls = some p

section Exec

variable {s : PlaylistEngine} {x : EngineChoice} {o : Outcome PlaylistEngine EngineCall}
  {next : List EngineCall}

theorem done_eq (h : s.done = some o) : o = { shared := s } := (Option.some_inj.1 h).symm

theorem andThen_eq (h : s.andThen next = some o) : o = { shared := s, next } :=
  (Option.some_inj.1 h).symm

theorem inOrder_eq {ds : List DisplayId} {f : List DisplayId → List EngineCall}
    (h : s.inOrder ds f x = some o) :
    ∃ ks, ks.Perm ds ∧ o = { shared := s, next := f ks } := by
  cases x with
  | order ks =>
    rw [inOrder] at h
    obtain ⟨hks, h⟩ := Option.ite_none_right_eq_some.1 h
    exact ⟨ks, hks, andThen_eq h⟩
  | _ => cases h

theorem mem_snapshotDisplays {e : DisplayId × DisplayIdent} :
    e ∈ s.snapshotDisplays ↔ s.displays.lookup e.1 = some e.2 := by
  rw [snapshotDisplays, List.mem_filterMap]
  constructor
  · rintro ⟨d, -, h⟩
    obtain ⟨ident, hident, rfl⟩ := Option.map_eq_some_iff.1 h
    exact hident
  · intro h
    refine ⟨e.1, ?_, by rw [h]; rfl⟩
    rw [List.mem_insertionSort]
    exact (HashMap.mem_keys_iff _ _).2 ⟨_, h⟩

/-- No call starts a task or aborts one. -/
theorem exec_eq {c : EngineCall} (h : c.exec x s = some o) :
    o = { shared := o.shared, next := o.next } := by
  have andThen {t : PlaylistEngine} {next} (h : t.andThen next = some o) :
      o = { shared := o.shared, next := o.next } := by
    rw [andThen_eq h]
  have inOrder {ds next} (h : s.inOrder ds next x = some o) :
      o = { shared := o.shared, next := o.next } := by
    obtain ⟨ks, -, rfl⟩ := inOrder_eq h
    rfl
  cases c with
  | deactivate ids => cases ids <;> first | exact inOrder h | exact andThen h
  | deactivateForPlaylist | rebuildForPlaylist => exact inOrder h
  | watch =>
    simp only [EngineCall.exec, receive] at h
    repeat' split at h
    all_goals first | exact andThen h | cases h
  | _ =>
    simp only [EngineCall.exec] at h
    repeat' split at h
    all_goals exact andThen h

end Exec

theorem steady : semantics.Steady where
  abort ho := by rw [exec_eq ho]
  spawn ho t ht := by
    rw [exec_eq ho] at ht
    cases ht
  accept {q s a} hq := by
    cases q with
    | unregisterDisplay d =>
      obtain ⟨-, ha⟩ := Option.ite_none_right_eq_some.1 hq
      cases ha
      exact ⟨rfl, rfl⟩
    | _ =>
      cases hq
      exact ⟨rfl, rfl⟩

end PlaylistEngine

end Waywallen
