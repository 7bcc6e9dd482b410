import Mathlib.Data.List.Sort
import Waywallen.Library.HashMap

/-!
# Scanning the source plugins

A scan calls into a plugin, which raises an error or returns a table of rows. The rows become
entries one by one, and a malformed row ends the scan with an error when the rows before it have
been taken. The error of a plugin is swallowed: its entries stay and the next plugin is scanned.
-/

namespace Waywallen

/-- A wallpaper as a plugin describes it; its identity is assigned by the database. -/
structure WallpaperEntry where
  name : String
  wpType : String
  resource : String
  preview : Option String
  pluginName : String
  libraryRoot : String
  description : Option String
  tags : List String
  externalId : Option String
  size : Option Int
  width : Option ℕ
  height : Option ℕ
  contentRating : Option String
  deriving DecidableEq, Repr

/-- A row of a scan result; a field is `none` when it is missing or of another type. -/
structure LuaRow where
  name : Option String
  wpType : Option String
  resource : Option String
  preview : Option String := none
  libraryRoot : Option String := none
  description : Option String := none
  tags : Option (List String) := none
  externalId : Option String := none
  size : Option Int := none
  width : Option ℕ := none
  height : Option ℕ := none
  contentRating : Option String := none
  deriving DecidableEq, Repr

/-- What the scan function of a plugin does: it raises an error or returns a sequence, where `none`
stands for an element that is no table. -/
inductive ScanResult
  | raised (message : String)
  | returned (rows : List (Option LuaRow))
  deriving DecidableEq, Repr

/-- A loaded plugin; `source` tells whether it can be scanned. -/
structure PluginInfo where
  version : String
  source : Bool
  deriving DecidableEq, Repr

/-- The entries collected so far and an error. -/
abbrev ScanM := EStateM String (List WallpaperEntry)

def requireString (value : Option String) (key context : String) : ScanM String :=
  match value with
  | some s => return s
  | none => throw s!"{context}.{key} required"

/-- The entry of one row. -/
def takeRow (name : String) (row : Option LuaRow) : ScanM Unit := do
  let some tbl := row | throw "lua: error converting Lua value to table"
  let entryName ← requireString tbl.name "name" "module.source.scan result"
  let wpType ← requireString tbl.wpType "wp_type" "module.source.scan result"
  let resource ← requireString tbl.resource "resource" "module.source.scan result"
  modify fun entries => entries ++
    [{ name := entryName, wpType, resource, preview := tbl.preview, pluginName := name,
       libraryRoot := tbl.libraryRoot.getD "", description := tbl.description,
       tags := tbl.tags.getD [], externalId := tbl.externalId, size := tbl.size,
       width := tbl.width, height := tbl.height, contentRating := tbl.contentRating }]

def takeRows (name : String) : List (Option LuaRow) → ScanM Unit
  | [] => pure ()
  | row :: rows => do
    takeRow name row
    takeRows name rows

/-- The plugins that can be scanned, by their names. -/
def sourceNames (infos : HashMap String PluginInfo) : List String :=
  (infos.entries.filterMap fun e => if e.2.source then some e.1 else none).insertionSort (· ≤ ·)

section

variable (infos : HashMap String PluginInfo) (scan : String → List String → ScanResult)

/-- Scan one plugin; `libraries` is what it may ask for. -/
def scanPlugin (name : String) (libraries : List String) : ScanM Unit :=
  match infos.lookup name with
  | none => throw s!"source plugin '{name}' not found"
  | some info =>
    if info.source then
      match scan name libraries with
      | .raised message => throw message
      | .returned rows => takeRows name rows
    else pure ()

def scanEach (libsByPlugin : HashMap String (List String)) : List String → ScanM Unit
  | [] => pure ()
  | name :: names => do
    tryCatch (scanPlugin infos scan name ((libsByPlugin.lookup name).getD [])) fun _ => pure ()
    scanEach libsByPlugin names

/-- Scan every plugin into an empty list of entries. -/
def scanAll (libsByPlugin : HashMap String (List String)) : ScanM Unit := do
  set ([] : List WallpaperEntry)
  scanEach infos scan libsByPlugin (sourceNames infos)

end

end Waywallen
