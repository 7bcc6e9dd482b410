import Waywallen.Filter.Ordered
import Waywallen.Library.TaskPool
import Waywallen.Queue.State

/-!
# Steps of the queue

A queue step reads the filter, the mode, the round and the rows of the database one after the other,
and holds the queue's lock only around single accesses to its state. Settings requests, changes of
the database, mode changes and applies run in between.
-/

namespace Waywallen

open TaskPool

/-- What a settings request replaces in the global settings. -/
structure SettingsPatch where
  wallpaperFilters : List WallpaperFilterRule
  wallpaperFilterLogics : List FilterLogic
  wallpaperSorts : List WallpaperSortRule
  wallpaperSkipTypes : List String
  wallpaperFilterTags : List String
  wallpaperSkipContentRatings : List String
  /-- Empty leaves the mode as it is. -/
  queueMode : String

def GlobalSettings.patched (s : GlobalSettings) (g : SettingsPatch) : GlobalSettings where
  queueMode := if g.queueMode = "" then s.queueMode else g.queueMode
  wallpaperFilter := .fromPb g.wallpaperFilters g.wallpaperFilterLogics
  wallpaperSorts := g.wallpaperSorts
  wallpaperSkipTypes := g.wallpaperSkipTypes
  wallpaperFilterTags := g.wallpaperFilterTags
  wallpaperSkipContentRatings := g.wallpaperSkipContentRatings

/-- What a shuffled step answered (`none`: the queue is empty), and the settings and the database
at that moment. -/
structure Answer where
  settings : GlobalSettings
  db : Db
  row : Option QueueRow

structure AppState where
  settings : GlobalSettings
  db : Db
  queue : QueueState
  answers : List Answer

abbrev QueueFilter := List WallpaperFilterRule × List FilterLogic

/-- What happens between two await points. -/
inductive QueueCall
  /-- The settings before the update are remembered. -/
  | settingsSet (patch : Option SettingsPatch)
  | settingsUpdate (patch : Option SettingsPatch) (previous : GlobalSettings)
  | filterChanged (previous : GlobalSettings)
  | modeChanged (previous : GlobalSettings)
  | resetShuffleRound
  | setMode (mode : Mode)
  | persistMode (mode : Mode)
  /-- A scan, a probe, a download, an uninstall or a removal changes the database, and resets the
  round at its end or not. -/
  | writeDb (resets : Bool)
  | stepPick (delta : Int32)
  | readSorts (delta : Int32) (filter : QueueFilter)
  | dispatch (delta : Int32) (filter : QueueFilter) (sorts : List WallpaperSortRule)
  | stepSequential (delta : Int32) (filter : QueueFilter) (sorts : List WallpaperSortRule)
  | pickSequential (delta : Int32) (ordered : List String)
  | stepRandom (filter : QueueFilter)
  | randomItem (filter : QueueFilter) (exclude : Option ℕ)
  /-- Is there a round? -/
  | stepShuffle (delta : Int32) (filter : QueueFilter)
  | listItemIds (filter : QueueFilter)
  | buildRound (ids : List ℕ)
  | walkRound (delta : Int32)
  | fetch (pick : ℕ)
  | apply (entryId : String)
  | requestApply (entryId : String)

/-- What the program does not decide about a step. -/
inductive QueueChoice
  | tick
  | fail
  | now (nanos : UInt64)
  | draw (n : ℕ)
  | wrote (db : Db)
  /-- The item found by the path of the applied wallpaper. -/
  | located (id : Option ℕ)

inductive QueueRequest
  | settingsSet (patch : Option SettingsPatch)
  | setMode (mode : Mode)
  | changeDb (resets : Bool)
  | step (delta : Int32)
  | wallpaperApply (entryId : String)
  | restore

abbrev QueueStep := Outcome AppState QueueCall

def getItemWithLibrary (db : Db) (id : ℕ) : Option QueueRow :=
  (db.items.rows.find? fun i => i.id = id).bind fun i =>
    (db.libraryOf i).map fun lib => ⟨i.id, lib.path, i.path⟩

namespace QueueState

/-- One step through the round, which is drawn anew at its ends. -/
def walk (nanos : UInt64) (delta : Int32) (q : QueueState) : QueueState :=
  let len : Int := q.shuffleRound.size
  let raw : Int := q.shufflePos + delta.toInt
  if len ≤ raw ∨ raw < 0 then
    let target := if len ≤ raw then 0 else q.shuffleRound.size - 1
    { q.buildShuffleRound nanos q.shuffleRound q.lastDbId target with shufflePos := target }
  else { q with shufflePos := raw.toNat }

/-- The position of the next entry in sequential order. -/
def nextIndex (q : QueueState) (delta : Int32) (ordered : List String) : ℕ :=
  match q.current.bind fun c => ordered.idxOf? c with
  | some i => ((i + delta.toInt) % (ordered.length : Int)).toNat
  | none => if 0 ≤ delta.toInt then 0 else ordered.length - 1

end QueueState

namespace AppState

variable (s : AppState)

def done : Option QueueStep := some { shared := s }

def andThen (cs : List QueueCall) : Option QueueStep := some { shared := s, next := cs }

/-- A shuffled step answers. -/
def answer (row : Option QueueRow) : AppState :=
  { s with answers := s.answers ++ [⟨s.settings, s.db, row⟩] }

/-- The pick at the current position; without one the index is out of bounds. -/
def pick : List QueueCall :=
  (s.queue.shuffleRound[s.queue.shufflePos]?).toList.map .fetch

end AppState

def QueueCall.exec (files : Files) (x : QueueChoice) (s : AppState) : QueueCall → Option QueueStep
  | .settingsSet patch => s.andThen [.settingsUpdate patch s.settings]
  | .settingsUpdate patch previous =>
      ({ s with settings := patch.elim s.settings s.settings.patched } : AppState).andThen
        [.filterChanged previous, .modeChanged previous]
  | .filterChanged previous =>
      if s.settings.wallpaperFilter = previous.wallpaperFilter then s.done
      else s.andThen [.resetShuffleRound]
  | .modeChanged previous =>
      if s.settings.queueMode = previous.queueMode then s.done
      else s.andThen ((Mode.fromStr s.settings.queueMode).toList.map .setMode)
  | .resetShuffleRound => ({ s with queue := s.queue.resetShuffleRound } : AppState).done
  | .setMode mode => ({ s with queue := s.queue.setMode mode } : AppState).done
  | .persistMode mode =>
      ({ s with settings := { s.settings with queueMode := mode.asStr } } : AppState).done
  | .writeDb resets =>
      match x with
      | .wrote db => ({ s with db := db } : AppState).andThen [.writeDb resets]
      | .tick => s.andThen (if resets then [.resetShuffleRound] else [])
      -- an error on the way: nothing is reset
      | .fail => s.done
      | _ => none
  | .stepPick delta => s.andThen [.readSorts delta s.settings.wallpaperQueueFilter]
  | .readSorts delta filter => s.andThen [.dispatch delta filter s.settings.wallpaperSorts]
  | .dispatch delta filter sorts =>
      match s.queue.mode with
      | .sequential => s.andThen [.stepSequential delta filter sorts]
      | .random => s.andThen [.stepRandom filter]
      | .shuffle => s.andThen [.stepShuffle delta filter]
  | .stepSequential delta filter sorts =>
      match orderedEntryIds files s.db filter.1 filter.2 sorts with
      | none | some [] => s.done
      | some (id :: ids) => s.andThen [.pickSequential delta (id :: ids)]
  | .pickSequential delta ordered =>
      s.andThen ((ordered[s.queue.nextIndex delta ordered]?).toList.map .apply)
  | .stepRandom filter => s.andThen [.randomItem filter s.queue.lastDbId]
  | .randomItem filter exclude =>
      match x with
      | .draw n => s.andThen (((randomItemByFilter files.index s.db filter.1 filter.2 exclude
          n).bind id).toList.map fun row => .apply (toString row.itemId))
      | _ => none
  | .stepShuffle delta filter =>
      s.andThen [if s.queue.shuffleRound.isEmpty then .listItemIds filter else .walkRound delta]
  | .listItemIds filter =>
      match x with
      | .tick =>
          match listItemIdsByFilter files.index s.db filter.1 filter.2 with
          | none => s.done
          | some [] => (s.answer none).done
          | some (id :: ids) => s.andThen [.buildRound (id :: ids)]
      | .fail => s.done
      | _ => none
  | .buildRound ids =>
      match x with
      | .now nanos =>
          let queue := { s.queue.buildShuffleRound nanos ids.toArray s.queue.lastDbId 0 with
            shufflePos := 0 }
          let s := { s with queue := queue }
          s.andThen s.pick
      | _ => none
  | .walkRound delta =>
      match x with
      | .now nanos =>
          let s := { s with queue := s.queue.walk nanos delta }
          s.andThen s.pick
      | _ => none
  | .fetch pick =>
      match x with
      | .tick =>
          let row := getItemWithLibrary s.db pick
          (s.answer row).andThen (row.toList.map fun row => .apply (toString row.itemId))
      | .fail => s.done
      | _ => none
  | .apply entryId =>
      match x with
      | .tick =>
          let queue := { s.queue with
            current := some entryId
            lastDbId := entryId.toNat? }
          ({ s with queue := queue } : AppState).done
      | .fail => s.done
      | _ => none
  | .requestApply entryId =>
      match x with
      | .located id =>
          let queue := { s.queue with
            current := some entryId
            lastDbId := id.or s.queue.lastDbId }
          ({ s with queue := queue } : AppState).done
      | .fail => s.done
      | _ => none

def queueSemantics (files : Files) :
    Semantics AppState QueueCall QueueChoice QueueRequest Empty where
  exec x _ c s := c.exec files x s
  accept q s := some (s, { stack := match q with
    | .settingsSet patch => [.settingsSet patch]
    | .setMode mode => [.setMode mode, .persistMode mode]
    | .changeDb resets => [.writeDb resets]
    | .step delta => [.stepPick delta]
    | .wallpaperApply entryId => [.requestApply entryId]
    | .restore => (Mode.fromStr s.settings.queueMode).toList.map .setMode })
  act e _ := nomatch e

abbrev QueuePool := Pool AppState QueueCall

abbrev QueueLabel := Label QueueChoice QueueRequest Empty

/-- The daemon has started with the settings and the database it found. -/
def startQueue (settings : GlobalSettings) (db : Db) : QueuePool :=
  ⟨⟨settings, db, default, []⟩, []⟩

end Waywallen
