import Mathlib.Algebra.Group.Nat.Defs
import Mathlib.Data.Int.ConditionallyCompleteOrder
import Mathlib.Order.ConditionallyCompleteLattice.Basic
import Waywallen.Library.UnixPath
import Waywallen.Store.Repo
import Waywallen.Store.Scan

/-!
# Syncing one plugin

The entries of a plugin are grouped by the library they name and written to the database; the rows
of the libraries that are present and were not written in this round are deleted.
-/

namespace Waywallen

/-- The path of a resource below a library root. -/
def relativeUnderRoot (root resource : String) : Option String :=
  let root := root.toList.rdropWhile (· = '/')
  (UnixPath.stripPrefix resource.toList root).map fun rest =>
    String.ofList (rest.dropWhile (· = '/'))

/-- The library root and the path of an entry that is not dropped. -/
def WallpaperEntry.place (entry : WallpaperEntry) : Option (String × String) :=
  if entry.libraryRoot = "" then none
  else match relativeUnderRoot entry.libraryRoot entry.resource with
    | some rel => if rel = "" then none else some (entry.libraryRoot, rel)
    | none => none

/-- The entries with their paths, by library root. -/
abbrev Grouped := HashMap String (List (String × WallpaperEntry))

def group (entries : List WallpaperEntry) : Grouped :=
  entries.foldl (fun grouped entry =>
    match entry.place with
    | some (root, rel) => grouped.insert root ((grouped.lookup root).getD [] ++ [(rel, entry)])
    | none => grouped) ∅

structure SyncSummary where
  itemsUpserted : ℕ := 0
  itemsDeleted : ℕ := 0
  dropped : ℕ := 0
  deriving DecidableEq, Repr

/-- A `u32` that fits in an `i32`. -/
def toI32 (v : ℕ) : Option Int :=
  if v < 2 ^ 31 then some v else none

/-- The order in which a hash map of groups is iterated. -/
structure GroupOrder where
  order : Grouped → List (Sigma fun _ : String => List (String × WallpaperEntry))
  perm : ∀ grouped, (order grouped).Perm grouped.entries

theorem perm_entries (grouped : Grouped) : grouped.entries.Perm grouped.entries :=
  .refl _

/-- A clock that shows one more each time does not go back. -/
theorem monotone_countFrom (t : ℕ) : Monotone fun n : ℕ => (t : Int) + n :=
  fun _ _ h => Int.add_le_add_left (Int.ofNat_le.2 h) _

section

variable (o : Outside) (pluginId : ℕ) (tagIds : HashMap String ℕ)

def syncItem (library : Library) (root rel : String) (entry : WallpaperEntry) :
    SessionM Unit := do
  let previewRel := (entry.preview.bind (relativeUnderRoot root)).filter (· ≠ "")
  let persisted ← upsertItem o
    { pluginId, libraryId := library.id, path := rel, ty := entry.wpType,
      displayName := entry.name, previewPath := previewRel, description := entry.description,
      externalId := entry.externalId, size := entry.size, width := entry.width.bind toI32,
      height := entry.height.bind toI32, contentRating := entry.contentRating }
  replaceItemTags o persisted.id
    (entry.tags.filterMap fun t => tagIds.lookup (o.toLowercase (trim t)))

def syncItems (library : Library) (root : String) : List (String × WallpaperEntry) → SessionM Unit
  | [] => pure ()
  | (rel, entry) :: items => do
    syncItem o pluginId tagIds library root rel entry
    syncItems library root items

def findOrAddLibrary (path : String) : SessionM Library := do
  match ← findLibrary o pluginId path with
  | some existing => return existing
  | none => addLibrary o pluginId path

def syncGroups :
    List (Sigma fun _ : String => List (String × WallpaperEntry)) → SessionM Unit
  | [] => pure ()
  | ⟨root, items⟩ :: groups => do
    let library ← findOrAddLibrary o pluginId root
    syncItems o pluginId tagIds library root items
    syncGroups groups

/-- Delete what is older than `seenBefore` in the libraries that are present. -/
def sweep (presentLibraries : List String) (seenBefore : Int) : SessionM ℕ := do
  let libraries ← listLibrariesByPlugin o pluginId
  let presentIds := (libraries.filter fun l => l.path ∈ presentLibraries).map Library.id
  deleteItemsSyncedBefore o presentIds seenBefore

end

/-- Write the entries of a plugin; the time is the one before anything was written. -/
def writePluginEntries (o : Outside) (g : GroupOrder) (name version : String)
    (entries : List WallpaperEntry) : SessionM (Int × SourcePlugin) := do
  let seenBefore ← nowMs o
  let plugin ← withContext s!"upsert plugin={name}" (upsertPlugin o name version)
  let tags ← upsertTags o (entries.flatMap WallpaperEntry.tags)
  let tagIds : HashMap String ℕ :=
    tags.foldl (fun ids t => ids.insert (o.toLowercase t.name) t.id) ∅
  syncGroups o plugin.id tagIds (g.order (group entries))
  return (seenBefore, plugin)

def syncPluginEntries (o : Outside) (g : GroupOrder) (name version : String)
    (entries : List WallpaperEntry) (presentLibraries : List String) :
    SessionM (SyncSummary × SourcePlugin) := do
  let (seenBefore, plugin) ← writePluginEntries o g name version entries
  let deleted ← sweep o plugin.id presentLibraries seenBefore
  -- every entry that has a place was written, or the sync would have ended
  return ({ itemsUpserted := (entries.filterMap WallpaperEntry.place).length
            itemsDeleted := deleted
            dropped := entries.countP fun entry => entry.place.isNone }, plugin)

end Waywallen
