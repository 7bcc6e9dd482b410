import Waywallen.Store.Sync

/-!
# Reading the files of the items

A pass of the background task reads the size and the modification time of the files of new items,
and the dimensions of pictures and videos. It writes what it has read in batches, each in one
transaction; a batch that fails is dropped as a whole.
-/

namespace Waywallen

/-- The size of a file and the time of its last change in milliseconds. -/
structure FileStat where
  size : Int
  modifiedAt : Int
  deriving DecidableEq, Repr

structure MediaMeta where
  width : Option ℕ
  height : Option ℕ
  deriving DecidableEq, Repr

/-! ## Columns -/

namespace Item

variable (i : Item)

def updateStat (stat : FileStat) (now : Int) : Item :=
  let changed := some stat.size ≠ i.size ∨ some stat.modifiedAt ≠ i.modifiedAt
  { i with
    size := if changed then some stat.size else i.size
    modifiedAt := if changed then some stat.modifiedAt else i.modifiedAt
    updateAt := if changed then now else i.updateAt
    statAt := some now }

/-- A dimension that was not found stays as it was. -/
def updateMedia (found : MediaMeta) (now : Int) : Item :=
  let newWidth := ((found.width.bind toI32).or i.width).getD 0
  let newHeight := ((found.height.bind toI32).or i.height).getD 0
  let changed := some newWidth ≠ i.width ∨ some newHeight ≠ i.height
  { i with
    width := if changed then some newWidth else i.width
    height := if changed then some newHeight else i.height
    updateAt := if changed then now else i.updateAt
    probedAt := some now }

def needsStat : Bool :=
  i.size.isNone || i.statAt.isNone

/-- Extensions are compared without regard to the case of ASCII letters. -/
def hasExtension (ext : String) : Bool :=
  (('.' :: ext.toList).map Char.toLower).isSuffixOf (i.path.toList.map Char.toLower)

/-- Pictures and videos without dimensions, and those that changed after they were last probed. -/
def needsProbe (probableExts : List String) : Bool :=
  (i.ty = "image" || i.ty = "video") && probableExts.any i.hasExtension &&
    (i.width.isNone || i.height.isNone || i.probedAt.isNone || i.modifiedAt.isNone ||
      match i.probedAt, i.modifiedAt with
      | some probed, some modified => probed < modified
      | _, _ => false)

end Item

namespace Db

/-- Change the columns of the item with the given id that are neither unique nor a reference. -/
def updateItem (db : Db) (id : ℕ) (f : Item → Item) (hid : ∀ i, (f i).id = i.id)
    (hkey : ∀ i, Item.schema.key (f i) = Item.schema.key i)
    (hplugin : ∀ i, (f i).pluginId = i.pluginId) : Db :=
  let update : Item.schema.Update :=
    ⟨fun i => if i.id = id then f i else i, fun i => by split; exacts [hid i, rfl],
      fun i => by split; exacts [hkey i, rfl]⟩
  { db with
    items := db.items.map update
    item_plugin := fun i hi => by
      obtain ⟨j, hj, rfl⟩ := Table.mem_map.1 hi
      obtain ⟨p, hp, he⟩ := db.item_plugin j hj
      refine ⟨p, hp, he.trans ?_⟩
      dsimp only [update]
      split
      · exact (hplugin j).symm
      · rfl
    item_library := fun i hi => by
      obtain ⟨j, hj, rfl⟩ := Table.mem_map.1 hi
      obtain ⟨l, hl, he⟩ := db.item_library j hj
      exact ⟨l, hl, he.trans (congrArg Prod.fst (update.key_apply j)).symm⟩ }

def updateItemStat (db : Db) (id : ℕ) (stat : FileStat) (now : Int) : Db :=
  db.updateItem id (Item.updateStat · stat now) (fun _ => rfl) (fun _ => rfl) fun _ => rfl

def updateItemMedia (db : Db) (id : ℕ) (found : MediaMeta) (now : Int) : Db :=
  db.updateItem id (Item.updateMedia · found now) (fun _ => rfl) (fun _ => rfl) fun _ => rfl

def withLibraryPath (db : Db) (items : List Item) : List (Item × String) :=
  items.filterMap fun i =>
    (db.libraries.rows.find? fun l => l.id = i.libraryId).map fun l => (i, l.path)

end Db

/-! ## Database calls -/

section

variable (o : Outside)

def findItem (id : ℕ) : SessionM (Option Item) :=
  select o s!"reload item id={id}" fun db => db.items.rows.find? fun i => i.id = id

/-- Whether the size or the time is another one than before. -/
def updateItemStat (id : ℕ) (stat : FileStat) : SessionM Bool := do
  match ← findItem o id with
  | none => throw s!"item id={id} disappeared before stat write"
  | some existing =>
    let now ← nowMs o
    execute o s!"update item stat id={id}" fun db => some (db.updateItemStat id stat now)
    return some stat.size ≠ existing.size ∨ some stat.modifiedAt ≠ existing.modifiedAt

def updateItemMedia (id : ℕ) (found : MediaMeta) : SessionM Unit := do
  match ← findItem o id with
  | none => throw s!"item id={id} disappeared before probe write"
  | some _ =>
    let now ← nowMs o
    execute o s!"update item media id={id}" fun db => some (db.updateItemMedia id found now)

def listItemsNeedingStat : SessionM (List (Item × String)) :=
  select o "select items needing stat" fun db =>
    db.withLibraryPath (db.items.rows.filter Item.needsStat)

def listItemsNeedingProbe (probableExts : List String) : SessionM (List (Item × String)) :=
  select o "select items needing media probe" fun db =>
    db.withLibraryPath (db.items.rows.filter fun i => i.needsProbe probableExts)

/-- Nothing of a transaction stays when one of its calls fails. -/
def transaction {α : Type} (m : SessionM α) : SessionM α := fun s =>
  let whole : SessionM α := do
    select o "begin probe tx" fun _ => ()
    let a ← m
    select o "commit probe tx" fun _ => ()
    return a
  match whole s with
  | .ok a s' => .ok a s'
  | .error e s' => .error e { s' with db := s.db }

end

/-! ## A pass -/

def commitBatch : ℕ := 32

def probableExts : List String :=
  ["mp4", "mkv", "webm", "mov", "avi", "png", "jpg", "jpeg", "webp", "gif", "bmp", "tiff", "tif",
    "avif"]

structure ProbeStats where
  statDone : ℕ := 0
  statChanged : ℕ := 0
  mediaProbed : ℕ := 0
  gainedDimensions : ℕ := 0
  writeErrors : ℕ := 0
  deriving DecidableEq, Repr

structure WorkItem where
  item : Item
  libPath : String
  doStat : Bool
  doProbe : Bool
  deriving DecidableEq

structure PendingWrite where
  id : ℕ
  stat : Option FileStat
  media : Option MediaMeta
  deriving DecidableEq

/-- What a pass finds on the disk. -/
structure Disk where
  statFile : String → Option FileStat
  probeMedia : String → MediaMeta

/-- The order in which a hash map of work is iterated. -/
structure WorkOrder where
  order : HashMap ℕ WorkItem → List WorkItem
  perm : ∀ work, (order work).Perm work.values

def joinTrimmed (root rel : String) : String :=
  let root := root.toList.rdropWhile (· = '/')
  let rel := rel.toList.dropWhile (· = '/')
  String.ofList (if rel = [] then root else root ++ '/' :: rel)

def mergeWork (statRows probeRows : List (Item × String)) : HashMap ℕ WorkItem :=
  let work : HashMap ℕ WorkItem :=
    statRows.foldl (fun work r => work.insert r.1.id ⟨r.1, r.2, true, false⟩) ∅
  probeRows.foldl (fun work r =>
    match work.lookup r.1.id with
    | some w => work.insert r.1.id { w with doProbe := true }
    | none => work.insert r.1.id ⟨r.1, r.2, false, true⟩) work

namespace WorkItem

variable (w : WorkItem) (disk : Disk)

def abs : String :=
  joinTrimmed w.libPath w.item.path

def statResult : Option FileStat :=
  if w.doStat then disk.statFile w.abs else none

def mediaResult : Option MediaMeta :=
  if w.doProbe then some (disk.probeMedia w.abs) else none

/-- What is to be written for the item, if anything was read. -/
def write : Option PendingWrite :=
  if w.statResult disk = none ∧ w.mediaResult disk = none then none
  else some ⟨w.item.id, w.statResult disk, w.mediaResult disk⟩

end WorkItem

section

variable (o : Outside)

def writeStat (id : ℕ) : Option FileStat → ProbeStats → SessionM ProbeStats
  | none, delta => return delta
  | some stat, delta => do
    let changed ← updateItemStat o id stat
    return { delta with
      statDone := delta.statDone + 1
      statChanged := delta.statChanged + if changed then 1 else 0 }

def writeMedia (id : ℕ) : Option MediaMeta → ProbeStats → SessionM ProbeStats
  | none, delta => return delta
  | some found, delta => do
    updateItemMedia o id found
    return { delta with mediaProbed := delta.mediaProbed + 1 }

/-- Write what was read, and count the writes. -/
def writePending : List PendingWrite → ProbeStats → SessionM ProbeStats
  | [], delta => return delta
  | pw :: pending, delta => do
    let delta ← writeStat o pw.id pw.stat delta
    let delta ← writeMedia o pw.id pw.media delta
    writePending pending delta

def flushPending (pending : List PendingWrite) (stats : ProbeStats) : SessionM ProbeStats :=
  if pending = [] then return stats
  else tryCatch (transaction o (writePending o pending stats)) fun _ =>
    return { stats with writeErrors := stats.writeErrors + pending.length }

def drain (disk : Disk) :
    List WorkItem → List PendingWrite → ProbeStats → SessionM ProbeStats
  | [], pending, stats => flushPending o pending stats
  | w :: work, pending, stats => do
    let gained := (w.mediaResult disk).any fun found => found.width.isSome || found.height.isSome
    let stats :=
      { stats with gainedDimensions := stats.gainedDimensions + if gained then 1 else 0 }
    match w.write disk with
    | none => drain disk work pending stats
    | some pw =>
      let pending := pending ++ [pw]
      if commitBatch ≤ pending.length then
        let stats ← flushPending o pending stats
        drain disk work [] stats
      else drain disk work pending stats

def runPending (g : WorkOrder) (disk : Disk) : SessionM ProbeStats := do
  let statRows ← listItemsNeedingStat o
  let probeRows ← listItemsNeedingProbe o probableExts
  drain o disk (g.order (mergeWork statRows probeRows)) [] {}

end

end Waywallen
