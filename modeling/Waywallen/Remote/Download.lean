import Mathlib.Algebra.Group.Nat.Defs
import Waywallen.Library.TaskPool
import Waywallen.Remote.Names

/-!
# Remote downloads

A download asks the plugin of its source for a file, fetches it, writes the metadata next to it and
records it as an item of the library that belongs to the source. An uninstall removes the files of
the items that the database lists under the source and an id, and the items. Downloads run side by
side, with uninstalls and with what the rest of the daemon does to the database and the files.
-/

namespace Waywallen

open TaskPool UnixPath

abbrev Bytes := List UInt8

/-- What a plugin answers to a download. -/
structure DiscoverDownload where
  wpType : String
  url : String
  filename : String
  title : String
  previewUrl : String
  description : String
  tags : List String
  externalId : String
  size : Option Int
  width : Option ℕ
  height : Option ℕ
  contentRating : Option String
  deriving DecidableEq

/-- A download once the plugin has answered. -/
structure RemoteJob where
  source : String
  id : String
  info : DiscoverDownload
  deriving DecidableEq

/-- Where an item was recorded, and by a download of which source. -/
structure RemotePlace where
  source : String
  library : String
  path : String
  deriving DecidableEq

/-- A row to be removed: the item and its file. -/
abbrev RemoteRow := ℕ × PathBuf

/-- What the daemon is started with. -/
structure RemoteWorld where
  /-- The data directory. -/
  base : PathBuf
  toLowercase : String → String
  /-- The text of a sidecar. -/
  sidecarData : DiscoverDownload → Bytes
  /-- The metadata of a library with the mark that it belongs to a source. -/
  markManaged : String → String

/-- The database and the files, with the history of what has been done to them. -/
structure RemoteState where
  db : Db
  files : HashMap PathBuf Bytes
  /-- The downloads whose file was asked for. -/
  answered : List RemoteJob := []
  fetched : List (RemoteJob × Bytes) := []
  /-- The files written by the downloads of a source. -/
  written : List (String × PathBuf) := []
  recorded : List RemotePlace := []
  /-- The libraries that the user has added. -/
  registered : List String := []
  /-- The files removed by the uninstalls of a source. -/
  removed : List (String × PathBuf) := []
  /-- The downloads reported as done. -/
  done : List RemoteJob := []

inductive RemoteCall
  | callDownload (source id : String)
  | downloadFile (job : RemoteJob)
  | renameFile (job : RemoteJob) (bytes : Bytes)
  | writeSidecar (job : RemoteJob)
  | renameSidecar (job : RemoteJob)
  | selectPlugin (job : RemoteJob)
  | updatePlugin (job : RemoteJob) (pluginId : ℕ) (version : String)
  | insertPlugin (job : RemoteJob) (version : String)
  | findLibrary (job : RemoteJob) (pluginId : ℕ)
  | addLibrary (job : RemoteJob) (pluginId : ℕ)
  | setManaged (job : RemoteJob) (library : Library)
  | upsertItem (job : RemoteJob) (library : Library)
  | reloadItem (job : RemoteJob) (library : Library) (rel : PathBuf)
  | tagItem (job : RemoteJob) (itemId : ℕ)
  | reportDone (job : RemoteJob)
  | findSource (source id : String)
  | listItems (source id : String) (pluginId : ℕ)
  | removeFile (source : String) (rows : List RemoteRow)
  | removeSidecar (source : String) (row : RemoteRow) (rows : List RemoteRow)
  | deleteItem (source : String) (row : RemoteRow) (rows : List RemoteRow)

/-- What a call finds outside the program, as far as it asks for it. -/
structure RemoteChoice where
  /-- The call fails, and with it the task. -/
  fails : Bool := false
  answer : DiscoverDownload := ⟨"", "", "", "", "", "", [], "", none, none, none, none⟩
  /-- The body of the response, unless the transfer breaks off. -/
  body : Option Bytes := none
  uuid : Uuid := ⟨[], List.not_mem_nil⟩
  version : String := "0.0.0"
  now : Int := 0
  /-- What the tags of an item meet in the database. -/
  outside : Outside := ⟨fun _ => 0, fun _ => false, id⟩

inductive RemoteRequest
  /-- The source may be left out; `discovered` is the first one that can be searched. -/
  | remoteDownload (sourceId id : String) (discovered : Option String)
  | remoteUninstall (sourceId id : String) (discovered : Option String)

/-- What the rest of the daemon and the user do to the database and the files. -/
inductive RemoteSignal
  | insertPlugin (name version : String)
  | updatePluginVersion (pluginId : ℕ) (version : String)
  /-- The user adds a library. -/
  | libraryAdd (pluginName path : String)
  /-- A scan comes with a library. -/
  | syncLibrary (pluginId : ℕ) (path : String)
  | libraryRemove (libraryId : ℕ)
  | syncItem (ty : String) (now : Int) (args : ItemUpsertArgs)
  | deleteItems (p : Item → Bool)
  | writeFile (path : PathBuf) (bytes : Bytes)
  | deleteFile (path : PathBuf)

abbrev RemotePool := Pool RemoteState RemoteCall

abbrev RemoteLabel := Label RemoteChoice RemoteRequest RemoteSignal

namespace RemoteJob

variable (w : RemoteWorld) (job : RemoteJob)

def dir : PathBuf := remoteContentDir w.base job.source

def filename : PathBuf := safeRemoteFilename job.info.filename job.id

/-- Where the file goes. -/
def target : PathBuf := joinPath (job.dir w) job.filename

/-- Where the file is below its directory. -/
def rel : Option PathBuf :=
  (stripPrefix (job.target w) (job.dir w)).filter fun rel => rel ≠ []

def displayName : String :=
  if trim job.info.title = "" then
    ((fileName (job.target w)).map String.ofList).getD "Remote wallpaper"
  else job.info.title

def upsertArgs (library : Library) (rel : PathBuf) : ItemUpsertArgs where
  pluginId := library.pluginId
  libraryId := library.id
  path := String.ofList rel
  ty := job.info.wpType
  displayName := job.displayName w
  previewPath := none
  description := if trim job.info.description = "" then none else some job.info.description
  externalId := if trim job.info.externalId = "" then none else some job.info.externalId
  size := job.info.size
  width := job.info.width.bind fun v => if v < 2 ^ 31 then some (v : Int) else none
  height := job.info.height.bind fun v => if v < 2 ^ 31 then some (v : Int) else none
  contentRating := job.info.contentRating.filter fun v => trim v ≠ ""

end RemoteJob

namespace RemoteJob

variable {w : RemoteWorld} {job : RemoteJob}

theorem proper_filename : Proper job.filename := proper_safeRemoteFilename ..

theorem dir_ne_nil : job.dir w ≠ [] := remoteContentDir_ne_nil _ _

theorem target_eq : job.target w = job.dir w ++ '/' :: job.filename :=
  joinPath_remoteContentDir w.base job.source proper_filename.noSep

theorem below_target : Below (job.dir w) (job.target w) := ⟨_, proper_filename, target_eq⟩

theorem below_partPath (uuid : Uuid) : Below (job.dir w) (partPath (job.target w) uuid) :=
  below_target.temp dir_ne_nil (by decide) (by decide) (by decide) uuid

theorem below_sidecarTempPath (uuid : Uuid) :
    Below (job.dir w) (sidecarTempPath (job.target w) uuid) :=
  below_target.sidecar.temp dir_ne_nil (by decide) (by decide) (by decide) uuid

/-- The target is a file of its directory, whatever the plugin answers. -/
theorem rel_eq : job.rel w = some job.filename := by
  have hstrip : stripPrefix (job.target w) (job.dir w) = some job.filename := by
    rw [target_eq, stripPrefix_append dir_ne_nil proper_filename]
  rw [rel, hstrip, Option.filter_some, if_pos (decide_eq_true proper_filename.nonempty)]

/-- The row of a download leads to its file. -/
theorem joinPath_place : joinPath (String.ofList (job.dir w)).toList
    (String.ofList job.filename).toList = job.target w := by
  rw [String.toList_ofList, String.toList_ofList, target]

end RemoteJob

namespace RemoteState

variable (s : RemoteState)

/-- The task is over, with its work done or with an error. -/
def stop : Option (Outcome RemoteState RemoteCall) := some { shared := s }

def andThen (call : RemoteCall) : Option (Outcome RemoteState RemoteCall) :=
  some { shared := s, next := [call] }

/-- A download of the source writes a file. -/
def wrote (source : String) (path : PathBuf) : RemoteState :=
  { s with written := s.written ++ [(source, path)] }

def place (path : PathBuf) (bytes : Bytes) : RemoteState :=
  { s with files := s.files.insert path bytes }

/-- An uninstall removes a file; one that is not there is none to remove. -/
def remove (source : String) (path : PathBuf) : RemoteState :=
  if s.files.containsKey path then
    { s with files := s.files.erase path, removed := s.removed ++ [(source, path)] }
  else s

/-- Give an item its tags; what was done before an error stays. -/
def tag (o : Outside) (itemId : ℕ) (names : List String) : Bool × Db :=
  match (upsertTags o names >>= fun tags => replaceItemTags o itemId (tags.map Tag.id)).run
      { db := s.db, asked := 0, upserted := [] } with
  | .ok _ session => (true, session.db)
  | .error _ session => (false, session.db)

section

variable {s : RemoteState} {call : RemoteCall} {o : Outcome RemoteState RemoteCall}

theorem stop_eq (h : s.stop = some o) : o = { shared := s } := (Option.some_inj.1 h).symm

theorem andThen_eq (h : s.andThen call = some o) : o = { shared := s, next := [call] } :=
  (Option.some_inj.1 h).symm

end

end RemoteState

namespace RemoteCall

/-- What a call does that does not fail. -/
def perform (w : RemoteWorld) (x : RemoteChoice) (c : RemoteCall) (s : RemoteState) :
    Option (Outcome RemoteState RemoteCall) :=
  match c with
  | callDownload source id =>
      if trim x.answer.url = "" then s.stop
      else
        let job := ⟨source, id, x.answer⟩
        { s with answered := s.answered ++ [job] }.andThen (downloadFile job)
  -- the temporary file is removed again when the transfer breaks off
  | downloadFile job =>
      let s := s.wrote job.source (partPath (job.target w) x.uuid)
      match x.body with
      | some bytes =>
          { s with fetched := s.fetched ++ [(job, bytes)] }.andThen (renameFile job bytes)
      | none => s.stop
  | renameFile job bytes =>
      ((s.place (job.target w) bytes).wrote job.source (job.target w)).andThen (writeSidecar job)
  | writeSidecar job =>
      (s.wrote job.source (sidecarTempPath (job.target w) x.uuid)).andThen (renameSidecar job)
  | renameSidecar job =>
      let path := sidecarPath (job.target w)
      ((s.place path (w.sidecarData job.info)).wrote job.source path).andThen (selectPlugin job)
  | selectPlugin job =>
      if trim job.info.wpType = "" then s.stop
      else
        match s.db.plugins.find job.source with
        | some plugin =>
            if plugin.version = x.version then s.andThen (findLibrary job plugin.id)
            else s.andThen (updatePlugin job plugin.id x.version)
        | none => s.andThen (insertPlugin job x.version)
  | updatePlugin job pluginId version =>
      { s with db := s.db.updatePluginVersion pluginId version }.andThen (findLibrary job pluginId)
  | insertPlugin job version =>
      match s.db.insertPlugin job.source version with
      | some (plugin, db) => { s with db }.andThen (findLibrary job plugin.id)
      | none => s.stop
  | findLibrary job pluginId =>
      match s.db.libraries.find (pluginId, String.ofList (job.dir w)) with
      | some library => s.andThen (setManaged job library)
      | none => s.andThen (addLibrary job pluginId)
  | addLibrary job pluginId =>
      match s.db.insertLibrary pluginId (String.ofList (job.dir w)) with
      | some (library, db) => { s with db }.andThen (setManaged job library)
      | none => s.stop
  | setManaged job library =>
      match s.db.libraries.rows.find? fun l => l.id = library.id with
      | some row =>
          { s with db := s.db.setLibraryMetadata row.id (w.markManaged row.metadata) }.andThen
            (upsertItem job library)
      | none => s.stop
  | upsertItem job library =>
      match job.rel w with
      | some rel =>
          match s.db.upsertItem (w.toLowercase job.info.wpType) x.now
              (job.upsertArgs w library rel) with
          | some db =>
              let place : RemotePlace :=
                ⟨job.source, String.ofList (job.dir w), String.ofList rel⟩
              { s with db, recorded := s.recorded ++ [place] }.andThen (reloadItem job library rel)
          | none => s.stop
      | none => s.stop
  | reloadItem job library rel =>
      match s.db.items.find (library.id, String.ofList rel) with
      | some item => s.andThen (tagItem job item.id)
      | none => s.stop
  | tagItem job itemId =>
      match s.tag x.outside itemId job.info.tags with
      | (true, db) => { s with db }.andThen (reportDone job)
      | (false, db) => { s with db }.stop
  | reportDone job => { s with done := s.done ++ [job] }.stop
  | findSource source id =>
      if id = "" then s.stop
      else
        match s.db.plugins.find source with
        | some plugin => s.andThen (listItems source id plugin.id)
        | none => s.stop
  | listItems source id pluginId =>
      s.andThen (removeFile source ((s.db.itemsOf pluginId id).map fun row =>
        (row.1.id, joinPath row.2.path.toList row.1.path.toList)))
  | removeFile _ [] => s.stop
  | removeFile source (row :: rows) =>
      (s.remove source row.2).andThen (removeSidecar source row rows)
  | removeSidecar source row rows =>
      (s.remove source (sidecarPath row.2)).andThen (deleteItem source row rows)
  | deleteItem source row rows =>
      { s with db := s.db.deleteItems fun i => i.id = row.1 }.andThen (removeFile source rows)

/-- One call of a task; a failure ends the task. -/
def exec (w : RemoteWorld) (x : RemoteChoice) (c : RemoteCall) (s : RemoteState) :
    Option (Outcome RemoteState RemoteCall) :=
  if x.fails then s.stop else c.perform w x s

end RemoteCall

/-- The source a request is about. -/
def resolveRemoteSourceId (sourceId : String) (discovered : Option String) : Option String :=
  if trim sourceId ≠ "" then some sourceId else discovered

namespace RemoteState

/-- Downloads are cancelled when another one of the same name is started. -/
def accept (q : RemoteRequest) (s : RemoteState) :
    Option (RemoteState × TaskPool.Task RemoteCall) :=
  match q with
  | .remoteDownload sourceId id discovered =>
      match resolveRemoteSourceId sourceId discovered with
      | some source =>
          if trim id = "" then none
          else some (s, { stack := [.callDownload source id], cancellable := true })
      | none => none
  | .remoteUninstall sourceId id discovered =>
      (resolveRemoteSourceId sourceId discovered).map fun source =>
        (s, { stack := [.findSource source id] })

def act (e : RemoteSignal) (s : RemoteState) : Option RemoteState :=
  match e with
  | .insertPlugin name version => (s.db.insertPlugin name version).map fun r => { s with db := r.2 }
  | .updatePluginVersion pluginId version =>
      some { s with db := s.db.updatePluginVersion pluginId version }
  | .libraryAdd pluginName path =>
      (s.db.plugins.find pluginName).bind fun plugin =>
        (s.db.insertLibrary plugin.id path).map fun r =>
          { s with db := r.2, registered := s.registered ++ [path] }
  | .syncLibrary pluginId path =>
      (s.db.insertLibrary pluginId path).map fun r => { s with db := r.2 }
  | .libraryRemove libraryId => some { s with db := s.db.removeLibrary libraryId }
  | .syncItem ty now args => (s.db.upsertItem ty now args).map fun db => { s with db }
  | .deleteItems p => some { s with db := s.db.deleteItems p }
  | .writeFile path bytes => some (s.place path bytes)
  | .deleteFile path => some { s with files := s.files.erase path }

def semantics (w : RemoteWorld) :
    Semantics RemoteState RemoteCall RemoteChoice RemoteRequest RemoteSignal where
  exec x _ c s := c.exec w x s
  accept := accept
  act := act

/-- The pool before the first request. -/
def start (db : Db) (files : HashMap PathBuf Bytes) : RemotePool := ⟨{ db, files }, []⟩

def Run (w : RemoteWorld) (db : Db) (files : HashMap PathBuf Bytes) (ls : List RemoteLabel)
    (p : RemotePool) : Prop :=
  Transition.run (semantics w).step (start db files) ls = some p

end RemoteState

end Waywallen
