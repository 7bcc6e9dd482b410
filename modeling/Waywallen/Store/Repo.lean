import Mathlib.Data.List.DropRight
import Mathlib.Data.List.Sort
import Waywallen.Library.HashMap
import Waywallen.Library.Table

/-!
# The database

The tables that a refresh of the source plugins reads and writes, with their foreign keys, and the
functions of the repository on them. Every function makes one database call after the other; a
call may fail, and then it changes nothing and ends the function with an error.
-/

namespace Waywallen

structure SourcePlugin where
  id : ℕ
  name : String
  version : String
  deriving DecidableEq, Repr

structure Library where
  id : ℕ
  pluginId : ℕ
  path : String
  metadata : String
  deriving DecidableEq, Repr

/-- A wallpaper; times are milliseconds since the epoch. -/
structure Item where
  id : ℕ
  pluginId : ℕ
  libraryId : ℕ
  path : String
  ty : String
  displayName : String
  previewPath : Option String
  description : Option String
  externalId : Option String
  size : Option Int
  width : Option Int
  height : Option Int
  contentRating : Option String
  createAt : Int
  updateAt : Int
  syncAt : Int
  probedAt : Option Int
  modifiedAt : Option Int
  statAt : Option Int
  userPropertyOverrides : Option String
  wallpaperLayoutOverride : Option String
  deriving DecidableEq, Repr

structure Tag where
  id : ℕ
  name : String
  deriving DecidableEq, Repr

structure PlaylistItem where
  id : ℕ
  playlistId : ℕ
  entryId : ℕ
  position : ℕ
  deriving DecidableEq, Repr

def SourcePlugin.schema : Schema SourcePlugin String :=
  ⟨SourcePlugin.id, SourcePlugin.name⟩

def Library.schema : Schema Library (ℕ × String) :=
  ⟨Library.id, fun l => (l.pluginId, l.path)⟩

def Item.schema : Schema Item (ℕ × String) :=
  ⟨Item.id, fun i => (i.libraryId, i.path)⟩

/-- Tag names are compared without regard to the case of ASCII letters. -/
def Tag.schema : Schema Tag String :=
  ⟨Tag.id, fun t => t.name.toLower⟩

structure Db where
  plugins : Table SourcePlugin.schema
  libraries : Table Library.schema
  items : Table Item.schema
  tags : Table Tag.schema
  /-- Item and tag. -/
  itemTags : List (ℕ × ℕ)
  playlistItems : List PlaylistItem
  library_plugin : ∀ l ∈ libraries, ∃ p ∈ plugins, p.id = l.pluginId
  item_plugin : ∀ i ∈ items, ∃ p ∈ plugins, p.id = i.pluginId
  item_library : ∀ i ∈ items, ∃ l ∈ libraries, l.id = i.libraryId

/-- The columns of an item that an upsert gives. -/
structure ItemUpsertArgs where
  pluginId : ℕ
  libraryId : ℕ
  path : String
  ty : String
  displayName : String
  previewPath : Option String
  description : Option String
  externalId : Option String
  size : Option Int
  width : Option Int
  height : Option Int
  contentRating : Option String

namespace Db

def empty : Db where
  plugins := .empty _
  libraries := .empty _
  items := .empty _
  tags := .empty _
  itemTags := []
  playlistItems := []
  library_plugin _ h := absurd h List.not_mem_nil
  item_plugin _ h := absurd h List.not_mem_nil
  item_library _ h := absurd h List.not_mem_nil

/-- Insert a plugin, unless its name is taken. -/
def insertPlugin (db : Db) (name version : String) : Option (SourcePlugin × Db) :=
  let new : SourcePlugin.schema.New name := ⟨fun n => ⟨n, name, version⟩, fun _ => rfl, fun _ => rfl⟩
  match h : db.plugins.insert new with
  | none => none
  | some (p, plugins) =>
    have keep (q : SourcePlugin) (hq : q ∈ db.plugins) : q ∈ plugins :=
      ((Table.insert_eq_some h).2.2 q).2 (.inl hq)
    some (p,
      { db with
        plugins
        library_plugin := fun l hl =>
          let ⟨q, hq, he⟩ := db.library_plugin l hl
          ⟨q, keep q hq, he⟩
        item_plugin := fun i hi =>
          let ⟨q, hq, he⟩ := db.item_plugin i hi
          ⟨q, keep q hq, he⟩ })

/-- Set the version of the plugin with the given id. -/
def updatePluginVersion (db : Db) (id : ℕ) (version : String) : Db :=
  let update : SourcePlugin.schema.Update :=
    ⟨fun p => { p with version := if p.id = id then version else p.version }, fun _ => rfl,
      fun _ => rfl⟩
  { db with
    plugins := db.plugins.map update
    library_plugin := fun l hl =>
      let ⟨p, hp, he⟩ := db.library_plugin l hl
      ⟨_, Table.mem_map.2 ⟨p, hp, rfl⟩, he⟩
    item_plugin := fun i hi =>
      let ⟨p, hp, he⟩ := db.item_plugin i hi
      ⟨_, Table.mem_map.2 ⟨p, hp, rfl⟩, he⟩ }

/-- Insert a library of an existing plugin, unless the plugin has the path already. -/
def insertLibrary (db : Db) (pluginId : ℕ) (path : String) : Option (Library × Db) :=
  if hp : ∃ p ∈ db.plugins.rows, p.id = pluginId then
    let new : Library.schema.New (pluginId, path) :=
      ⟨fun n => ⟨n, pluginId, path, "\x7b\x7d"⟩, fun _ => rfl, fun _ => rfl⟩
    match h : db.libraries.insert new with
    | none => none
    | some (l, libraries) =>
      have hins := Table.insert_eq_some h
      some (l,
        { db with
          libraries
          library_plugin := fun k hk => by
            rcases (hins.2.2 k).1 hk with hk | rfl
            · exact db.library_plugin k hk
            · rw [hins.2.1]
              exact hp
          item_library := fun i hi =>
            let ⟨k, hk, he⟩ := db.item_library i hi
            ⟨k, (hins.2.2 k).2 (.inl hk), he⟩ })
  else none

/-- Insert an item or, when its library has the path already, refresh its columns; media metadata
that is not given stays. -/
def upsertItem (db : Db) (ty : String) (now : Int) (args : ItemUpsertArgs) : Option Db :=
  if hp : ∃ p ∈ db.plugins.rows, p.id = args.pluginId then
    if hl : ∃ l ∈ db.libraries.rows, l.id = args.libraryId then
      let new : Item.schema.New (args.libraryId, args.path) :=
        ⟨fun n => ⟨n, args.pluginId, args.libraryId, args.path, ty, args.displayName,
          args.previewPath, args.description, args.externalId, args.size, args.width, args.height,
          args.contentRating, now, now, now, none, none, none, none, none⟩, fun _ => rfl,
          fun _ => rfl⟩
      let update : Item.schema.Update :=
        ⟨fun i =>
          { i with
            ty
            pluginId := args.pluginId
            displayName := args.displayName
            previewPath := args.previewPath
            description := args.description
            externalId := args.externalId
            updateAt := now
            syncAt := now
            size := args.size <|> i.size
            width := args.width <|> i.width
            height := args.height <|> i.height
            contentRating := args.contentRating <|> i.contentRating }, fun _ => rfl, fun _ => rfl⟩
      some
        { db with
          items := db.items.upsert new update
          item_plugin := fun i hi => by
            rcases Table.mem_upsert.1 hi with ⟨hi, -⟩ | ⟨j, -, -, rfl⟩ | ⟨-, rfl⟩
            · exact db.item_plugin i hi
            · exact hp
            · exact hp
          item_library := fun i hi => by
            rcases Table.mem_upsert.1 hi with ⟨hi, -⟩ | ⟨j, hj, -, rfl⟩ | ⟨-, rfl⟩
            · exact db.item_library i hi
            · exact db.item_library j hj
            · exact hl }
    else none
  else none

/-- Delete items, with the playlist entries and tags that refer to them. -/
def deleteItems (db : Db) (p : Item → Bool) : Db :=
  let gone := (db.items.rows.filter p).map Item.id
  { db with
    items := db.items.delete p
    itemTags := db.itemTags.filter fun t => t.1 ∉ gone
    playlistItems := db.playlistItems.filter fun e => e.entryId ∉ gone
    item_plugin := fun i hi => db.item_plugin i (Table.mem_delete.1 hi).1
    item_library := fun i hi => db.item_library i (Table.mem_delete.1 hi).1 }

/-- Set the metadata of the library with the given id. -/
def setLibraryMetadata (db : Db) (id : ℕ) (metadata : String) : Db :=
  let update : Library.schema.Update :=
    ⟨fun l => { l with metadata := if l.id = id then metadata else l.metadata }, fun _ => rfl,
      fun _ => rfl⟩
  { db with
    libraries := db.libraries.map update
    library_plugin := fun l hl => by
      obtain ⟨k, hk, rfl⟩ := Table.mem_map.1 hl
      exact db.library_plugin k hk
    item_library := fun i hi =>
      let ⟨l, hl, he⟩ := db.item_library i hi
      ⟨_, Table.mem_map.2 ⟨l, hl, rfl⟩, he⟩ }

/-- Delete a library with its items. -/
def removeLibrary (db : Db) (id : ℕ) : Db :=
  let rest := db.deleteItems fun i => i.libraryId = id
  { rest with
    libraries := rest.libraries.delete fun l => l.id = id
    library_plugin := fun l hl => rest.library_plugin l (Table.mem_delete.1 hl).1
    item_library := fun i hi => by
      obtain ⟨l, hl, he⟩ := rest.item_library i hi
      have hne := (Table.mem_delete.1 hi).2
      refine ⟨l, Table.mem_delete.2 ⟨hl, ?_⟩, he⟩
      rwa [he] }

/-- The items of a plugin with an external id, each with its library. -/
def itemsOf (db : Db) (pluginId : ℕ) (externalId : String) : List (Item × Library) :=
  let rows := (db.items.rows.filter fun i =>
    i.pluginId = pluginId ∧ i.externalId = some externalId).insertionSort fun i j =>
      i.libraryId < j.libraryId ∨ i.libraryId = j.libraryId ∧ i.path ≤ j.path
  rows.filterMap fun i => (db.libraries.rows.find? fun l => l.id = i.libraryId).map (i, ·)

def listItemsByPluginExternalId (db : Db) (pluginName externalId : String) :
    List (Item × Library) :=
  if externalId = "" then []
  else
    match db.plugins.find pluginName with
    | some plugin => db.itemsOf plugin.id externalId
    | none => []

def hasItemByPluginExternalId (db : Db) (pluginName externalId : String) : Bool :=
  db.listItemsByPluginExternalId pluginName externalId ≠ []

def insertTag (db : Db) (name : String) : Option (Tag × Db) :=
  let new : Tag.schema.New name.toLower := ⟨fun n => ⟨n, name⟩, fun _ => rfl, fun _ => rfl⟩
  (db.tags.insert new).map fun r => (r.1, { db with tags := r.2 })

/-- Give an item the tags `ids` and no others. -/
def replaceItemTags (db : Db) (itemId : ℕ) (ids : List ℕ) : Db :=
  { db with
    itemTags := db.itemTags.filter (fun t => t.1 ≠ itemId) ++ ids.dedup.map fun id => (itemId, id) }

end Db

/-! ## Database calls -/

/-- What a function finds outside the program at its successive steps. -/
structure Outside where
  /-- The wall clock in milliseconds. -/
  now : ℕ → Int
  /-- Whether the database call made at this step fails. -/
  fails : ℕ → Bool
  /-- Lower case by the rules of Unicode. -/
  toLowercase : String → String

/-- The database as a function works on it; `asked` counts the steps of the function and `upserted`
lists the ids of the items it wrote. -/
structure Session where
  db : Db
  asked : ℕ
  upserted : List ℕ

abbrev SessionM := EStateM String Session

/-- One database call; `none` is a violated constraint. -/
def call {α : Type} (o : Outside) (context : String) (f : Db → Option (α × Db)) : SessionM α :=
  fun s =>
    match (if o.fails s.asked then none else f s.db) with
    | none => .error context { s with asked := s.asked + 1 }
    | some (a, db) => .ok a { s with db, asked := s.asked + 1 }

/-- A call that only reads. -/
def select {α : Type} (o : Outside) (context : String) (f : Db → α) : SessionM α :=
  call o context fun db => some (f db, db)

/-- A call that only writes. -/
def execute (o : Outside) (context : String) (f : Db → Option Db) : SessionM Unit :=
  call o context fun db => (f db).map fun db => ((), db)

def nowMs (o : Outside) : SessionM Int :=
  fun s => .ok (o.now s.asked) { s with asked := s.asked + 1 }

def withContext {α : Type} (context : String) (m : SessionM α) : SessionM α :=
  tryCatch m fun e => throw s!"{context}: {e}"

section

variable {α : Type} {o : Outside} {context : String} {s s' : Session} {a : α}

theorem of_call_ok {f : Db → Option (α × Db)} (h : call o context f s = .ok a s') :
    ∃ db, f s.db = some (a, db) ∧ s' = ⟨db, s.asked + 1, s.upserted⟩ := by
  unfold call at h
  split at h
  · cases h
  · rename_i a' db heq
    obtain ⟨rfl, rfl⟩ := EStateM.Result.ok.inj h
    refine ⟨db, ?_, rfl⟩
    by_cases hfails : o.fails s.asked = true
    · rw [if_pos hfails] at heq
      cases heq
    · rwa [if_neg hfails] at heq

theorem of_call_error {f : Db → Option (α × Db)} {e : String}
    (h : call o context f s = .error e s') :
    s' = ⟨s.db, s.asked + 1, s.upserted⟩ ∧ (o.fails s.asked = true ∨ f s.db = none) := by
  unfold call at h
  split at h
  · rename_i heq
    obtain ⟨-, rfl⟩ := EStateM.Result.error.inj h
    refine ⟨rfl, ?_⟩
    by_cases hfails : o.fails s.asked = true
    · exact .inl hfails
    · exact .inr (by rwa [if_neg hfails] at heq)
  · cases h

/-- A call that violates no constraint ends with an error only when it fails. -/
theorem fails_of_call_error {f : Db → Option (α × Db)} {e : String}
    (h : call o context f s = .error e s') (hf : f s.db ≠ none) :
    s'.db = s.db ∧ ∃ n, o.fails n = true := by
  obtain ⟨rfl, hor⟩ := of_call_error h
  exact ⟨rfl, _, hor.resolve_right hf⟩

theorem of_select_ok {f : Db → α} (h : select o context f s = .ok a s') :
    a = f s.db ∧ s' = ⟨s.db, s.asked + 1, s.upserted⟩ := by
  obtain ⟨db, heq, rfl⟩ := of_call_ok h
  obtain ⟨rfl, rfl⟩ := Prod.mk.inj (Option.some_inj.1 heq)
  exact ⟨rfl, rfl⟩

end

/-! ## Plugins and libraries -/

def upsertPlugin (o : Outside) (name version : String) : SessionM SourcePlugin := do
  match ← select o s!"select plugin name={name}" fun db => db.plugins.find name with
  | some existing =>
    if existing.version = version then
      return existing
    execute o s!"update plugin version name={name}" fun db =>
      some (db.updatePluginVersion existing.id version)
    return { existing with version }
  | none => call o s!"insert plugin name={name}" fun db => db.insertPlugin name version

def findPluginById (o : Outside) (id : ℕ) : SessionM (Option SourcePlugin) :=
  select o s!"select plugin id={id}" fun db => db.plugins.rows.find? fun p => p.id = id

def addLibrary (o : Outside) (pluginId : ℕ) (path : String) : SessionM Library :=
  call o s!"insert library plugin={pluginId} path={path}" fun db => db.insertLibrary pluginId path

def findLibrary (o : Outside) (pluginId : ℕ) (path : String) : SessionM (Option Library) :=
  select o s!"select library plugin={pluginId} path={path}" fun db =>
    db.libraries.find (pluginId, path)

def listLibrariesByPlugin (o : Outside) (pluginId : ℕ) : SessionM (List Library) :=
  select o s!"select libraries plugin={pluginId}" fun db =>
    (db.libraries.rows.filter fun l => l.pluginId = pluginId).insertionSort fun l k =>
      l.path ≤ k.path

def listLibraries (o : Outside) : SessionM (List Library) :=
  select o "select libraries" fun db => db.libraries.rows

/-! ## Items and tags -/

/-- Note the item with the given unique column among those written. -/
def recordUpsert (key : ℕ × String) : SessionM Unit :=
  modify fun s => { s with upserted := s.upserted ++ ((s.db.items.find key).map Item.id).toList }

def upsertItem (o : Outside) (args : ItemUpsertArgs) : SessionM Item := do
  let tyNorm := o.toLowercase args.ty
  let now ← nowMs o
  execute o s!"upsert item lib={args.libraryId} path={args.path}" fun db =>
    db.upsertItem tyNorm now args
  recordUpsert (args.libraryId, args.path)
  match ← select o s!"reload item lib={args.libraryId} path={args.path}" fun db =>
      db.items.find (args.libraryId, args.path) with
  | some item => return item
  | none => throw "reloaded item missing after upsert"

/-- Delete the items of the given libraries that were last synced before a time. -/
def deleteItemsSyncedBefore (o : Outside) (libraryIds : List ℕ) (before : Int) : SessionM ℕ := do
  if libraryIds = [] then
    return 0
  let stale (i : Item) : Bool := i.libraryId ∈ libraryIds && i.syncAt < before
  call o "sweep stale items by sync_at" fun db =>
    some (db.items.rows.countP stale, db.deleteItems stale)

/-- White space by the rules of Unicode. -/
def isWhitespace (c : Char) : Bool :=
  let n := c.toNat
  9 ≤ n && n ≤ 13 || n = 0x20 || n = 0x85 || n = 0xa0 || n = 0x1680 || 0x2000 ≤ n && n ≤ 0x200a ||
    n = 0x2028 || n = 0x2029 || n = 0x202f || n = 0x205f || n = 0x3000

def trim (s : String) : String :=
  String.ofList ((s.toList.dropWhile isWhitespace).rdropWhile isWhitespace)

/-- The trimmed names, without empty ones and without those seen in another case before. -/
def uniqueTags (toLowercase : String → String) : List String → List String → List String
  | _, [] => []
  | seen, name :: names =>
    let trimmed := trim name
    let key := toLowercase trimmed
    if trimmed = "" ∨ key ∈ seen then uniqueTags toLowercase seen names
    else trimmed :: uniqueTags toLowercase (key :: seen) names

def upsertTag (o : Outside) (name : String) : SessionM Tag := do
  match ← select o s!"select tag name={name}" fun db => db.tags.find name.toLower with
  | some tag => return tag
  | none => call o s!"insert tag name={name}" fun db => db.insertTag name

def upsertTags (o : Outside) (names : List String) : SessionM (List Tag) :=
  (uniqueTags o.toLowercase [] names).mapM (upsertTag o)

/-- The tags of an item are replaced by one transaction, which takes effect when it ends. -/
def replaceItemTags (o : Outside) (itemId : ℕ) (ids : List ℕ) : SessionM Unit := do
  select o "begin tx" fun _ => ()
  select o s!"clear item_tag item={itemId}" fun _ => ()
  if ids ≠ [] then
    select o s!"insert item_tag item={itemId}" fun _ => ()
  execute o "commit tx" fun db => some (db.replaceItemTags itemId ids)

end Waywallen
