import Waywallen.Library.Evolves
import Waywallen.Store.Sync

/-!
# Refreshing the source plugins

A refresh reads the libraries of each plugin, scans all plugins, and then syncs what the scan
collected, plugin by plugin.
-/

namespace Waywallen

/-- What a refresh finds outside the program. The syncs run one after the other; each one is given
the part of the clock and of the database failures that it meets. -/
structure Surroundings where
  pathExists : String → Bool
  canonicalize : String → Option String
  scan : String → List String → ScanResult
  listing : Outside
  sync : String → Outside
  groupOrder : GroupOrder

/-- The paths without those that lead to the same directory as an earlier one. -/
def dedupPathsByCanonical (canonicalize : String → Option String) : List String → List String →
    List String
  | _, [] => []
  | seen, p :: paths =>
    let canon := (canonicalize p).getD p
    if canon ∈ seen then dedupPathsByCanonical canonicalize seen paths
    else p :: dedupPathsByCanonical canonicalize (canon :: seen) paths

/-- The library paths under the ids of their plugins. -/
def librariesByPluginId (libs : List Library) : HashMap ℕ (List String) :=
  libs.foldl (fun byId l =>
    byId.insert l.pluginId ((byId.lookup l.pluginId).getD [] ++ [l.path])) ∅

/-- Look up the names of the plugins; one whose lookup fails is left out. -/
def nameLibraries (o : Outside) : List (Sigma fun _ : ℕ => List String) →
    HashMap String (List String) → SessionM (HashMap String (List String))
  | [], byName => return byName
  | ⟨pid, paths⟩ :: rest, byName => do
    match ← tryCatch (findPluginById o pid) fun _ => pure none with
    | some p => nameLibraries o rest (byName.insert p.name paths)
    | none => nameLibraries o rest byName

def librariesByPluginName (o : Outside) : SessionM (HashMap String (List String)) := do
  let libs ← listLibraries o
  nameLibraries o (librariesByPluginId libs).entries ∅

section

variable (w : Surroundings) (infos : HashMap String PluginInfo)

/-- Start to count the steps of a function anew. -/
def restart : SessionM Unit :=
  modify fun s => { s with asked := 0 }

/-- Sync the plugins in turn; the error of one is swallowed. -/
def syncEach (libsByPlugin : HashMap String (List String)) (snapshot : List WallpaperEntry) :
    List (String × PluginInfo) → SessionM Unit
  | [] => pure ()
  | (name, info) :: plugins => do
    let entries := snapshot.filter fun e => e.pluginName = name
    let present := ((libsByPlugin.lookup name).getD []).filter w.pathExists
    restart
    tryCatch (do let _ ← syncPluginEntries (w.sync name) w.groupOrder name info.version entries
                          present)
      fun _ => pure ()
    syncEach libsByPlugin snapshot plugins

/-- The plugins that can be scanned, in the order of their names. -/
def sourcePlugins : List (String × PluginInfo) :=
  (sourceNames infos).filterMap fun name => (infos.lookup name).map fun info => (name, info)

def refreshSourcesInner : SessionM ℕ := do
  let libsByPlugin ← librariesByPluginName w.listing
  let libsForScan := libsByPlugin.mapValues (dedupPathsByCanonical w.canonicalize [])
  let snapshot := finalState (scanAll infos w.scan libsForScan) []
  syncEach w libsByPlugin snapshot (sourcePlugins infos)
  return snapshot.length

end

/-! ## A refresh on a database -/

/-- The session of a refresh that starts from `db`. -/
def Session.new (db : Db) : Session :=
  ⟨db, 0, []⟩

/-- What a refresh leaves behind. -/
def refreshed (w : Surroundings) (infos : HashMap String PluginInfo) (db : Db) : Session :=
  finalState (refreshSourcesInner w infos) (.new db)

end Waywallen
