import Mathlib.Algebra.Ring.Int.Defs
import Mathlib.Data.List.Sort
import Waywallen.Library.Transition
import Waywallen.Queue.State
import Waywallen.Store.Repo

/-!
# The playlists in the database

A playlist is a row, and each of its entries is a row that refers to it and to an item of the
library and has a position. What these rows stand for is a shelf: under each id a name, a mode, an
interval and a list of different items. The calls answer as the shelf does, also when they fail,
and when a playlist is deleted between the two statements of a call.
-/

namespace Waywallen

structure PlaylistRow where
  id : ℕ
  name : String
  mode : Mode
  intervalSecs : ℤ
  createdAt : ℤ
  updatedAt : ℤ
deriving DecidableEq

inductive PlaylistError where
  | notFound (id : ℕ)
  | insertItem (playlistId entryId : ℕ)
  | database
deriving DecidableEq

/-- The tables of the playlists, with the ids of the item table. -/
structure PlaylistDb where
  playlists : List PlaylistRow := []
  /-- The last id given to a row. Ids are not used again. -/
  lastPlaylist : ℕ := 0
  playlistItems : List PlaylistItem := []
  lastPlaylistItem : ℕ := 0
  items : List ℕ := []
  id_unique : (playlists.map (·.id)).Nodup := by exact List.nodup_nil
  id_le : ∀ p ∈ playlists, p.id ≤ lastPlaylist := by exact List.forall_mem_nil _
  position_unique : (playlistItems.map fun r => (r.playlistId, r.position)).Nodup := by
    exact List.nodup_nil
  entry_unique : (playlistItems.map fun r => (r.playlistId, r.entryId)).Nodup := by
    exact List.nodup_nil
  row_playlist : ∀ r ∈ playlistItems, r.playlistId ∈ playlists.map (·.id) := by
    exact List.forall_mem_nil _
  row_item : ∀ r ∈ playlistItems, r.entryId ∈ items := by exact List.forall_mem_nil _

namespace PlaylistDb

variable (db : PlaylistDb)

/-! ## Statements -/

def insertPlaylist (name : String) (mode : Mode) (intervalSecs nowMs : ℤ) : ℕ × PlaylistDb :=
  let id := db.lastPlaylist + 1
  (id, { db with
    playlists := db.playlists ++ [⟨id, name, mode, intervalSecs, nowMs, nowMs⟩]
    lastPlaylist := id
    id_unique := by
      rw [List.map_append, List.nodup_append]
      refine ⟨db.id_unique, List.nodup_singleton _, fun a ha b hb => ?_⟩
      obtain ⟨p, hp, rfl⟩ := List.mem_map.1 ha
      rw [List.mem_singleton.1 hb]
      exact Nat.ne_of_lt (Nat.lt_succ_of_le (db.id_le p hp))
    id_le := fun p hp => (List.mem_append.1 hp).elim (fun hp => Nat.le_succ_of_le (db.id_le p hp))
      fun hp => (List.mem_singleton.1 hp) ▸ le_rfl
    row_playlist := fun r hr => by
      rw [List.map_append]
      exact List.mem_append_left _ (db.row_playlist r hr) })

/-- Change columns of the row with the given id. -/
def updatePlaylist (id : ℕ) (f : PlaylistRow → PlaylistRow) (hf : ∀ p, (f p).id = p.id) :
    PlaylistDb :=
  have hmap : (db.playlists.map fun p => if p.id = id then f p else p).map (·.id) =
      db.playlists.map (·.id) := by
    rw [List.map_map]
    refine List.map_congr_left fun p _ => ?_
    rw [Function.comp_apply]
    split
    · exact hf p
    · rfl
  { db with
    playlists := db.playlists.map fun p => if p.id = id then f p else p
    id_unique := hmap ▸ db.id_unique
    id_le := fun p hp => by
      obtain ⟨q, hq, heq⟩ := List.mem_map.1
        (hmap ▸ List.mem_map_of_mem hp : p.id ∈ db.playlists.map (·.id))
      exact heq ▸ db.id_le q hq
    row_playlist := fun r hr => hmap ▸ db.row_playlist r hr }

/-- Delete a playlist and the rows that refer to it. -/
def deletePlaylist (id : ℕ) : PlaylistDb :=
  { db with
    playlists := db.playlists.filter (·.id ≠ id)
    playlistItems := db.playlistItems.filter (·.playlistId ≠ id)
    id_unique := db.id_unique.sublist (List.filter_sublist.map _)
    id_le := fun p hp => db.id_le p (List.mem_of_mem_filter hp)
    position_unique := db.position_unique.sublist (List.filter_sublist.map _)
    entry_unique := db.entry_unique.sublist (List.filter_sublist.map _)
    row_playlist := fun r hr => by
      obtain ⟨p, hp, heq⟩ := List.mem_map.1 (db.row_playlist r (List.mem_of_mem_filter hr))
      have hne := of_decide_eq_true (List.mem_filter.1 hr).2
      exact List.mem_map.2 ⟨p, List.mem_filter.2 ⟨hp, decide_eq_true (heq ▸ hne)⟩, heq⟩
    row_item := fun r hr => db.row_item r (List.mem_of_mem_filter hr) }

def clearItems (id : ℕ) : PlaylistDb :=
  { db with
    playlistItems := db.playlistItems.filter (·.playlistId ≠ id)
    position_unique := db.position_unique.sublist (List.filter_sublist.map _)
    entry_unique := db.entry_unique.sublist (List.filter_sublist.map _)
    row_playlist := fun r hr => db.row_playlist r (List.mem_of_mem_filter hr)
    row_item := fun r hr => db.row_item r (List.mem_of_mem_filter hr) }

/-- Insert an entry, if it keeps the keys of the table. -/
def insertItem (playlistId entryId position : ℕ) : Option PlaylistDb :=
  if h : (playlistId ∈ db.playlists.map (·.id) ∧ entryId ∈ db.items) ∧
      (playlistId, position) ∉ db.playlistItems.map (fun r => (r.playlistId, r.position)) ∧
      (playlistId, entryId) ∉ db.playlistItems.map fun r => (r.playlistId, r.entryId) then
    have hnodup {α : Type} {l : List α} {a : α} (hl : l.Nodup) (ha : a ∉ l) : (l ++ [a]).Nodup :=
      List.nodup_append.2 ⟨hl, List.nodup_singleton a, fun b hb c hc => by
        rw [List.mem_singleton.1 hc]
        rintro rfl
        exact ha hb⟩
    some { db with
      playlistItems := db.playlistItems ++
        [⟨db.lastPlaylistItem + 1, playlistId, entryId, position⟩]
      lastPlaylistItem := db.lastPlaylistItem + 1
      position_unique := by
        rw [List.map_append]
        exact hnodup db.position_unique h.2.1
      entry_unique := by
        rw [List.map_append]
        exact hnodup db.entry_unique h.2.2
      row_playlist := fun r hr => (List.mem_append.1 hr).elim (db.row_playlist r) fun hr =>
        (List.mem_singleton.1 hr) ▸ h.1.1
      row_item := fun r hr => (List.mem_append.1 hr).elim (db.row_item r) fun hr =>
        (List.mem_singleton.1 hr) ▸ h.1.2 }
  else none

/-! ## Calls -/

def insertItems (playlistId : ℕ) : List ℕ → ℕ → PlaylistDb → Except PlaylistError PlaylistDb
  | [], _, db => .ok db
  | entryId :: entryIds, pos, db =>
      match db.insertItem playlistId entryId pos with
      | none => .error (.insertItem playlistId entryId)
      | some db => insertItems playlistId entryIds (pos + 1) db

def create (name : String) (mode : Mode) (intervalSecs : UInt32) (nowMs : ℤ)
    (entryIds : List ℕ) : Except PlaylistError (ℕ × PlaylistDb) :=
  let pl := db.insertPlaylist name mode intervalSecs.toNat nowMs
  (insertItems pl.1 entryIds 0 pl.2).map fun db => (pl.1, db)

def get (id : ℕ) : Option PlaylistRow := db.playlists.find? (·.id = id)

def require (id : ℕ) : Except PlaylistError PlaylistRow :=
  match db.get id with
  | none => .error (.notFound id)
  | some p => .ok p

def setItems (id : ℕ) (entryIds : List ℕ) (nowMs : ℤ) : Except PlaylistError PlaylistDb :=
  match db.require id with
  | .error e => .error e
  | .ok pl => (insertItems id entryIds 0 (db.clearItems id)).map fun db =>
      db.updatePlaylist pl.id (fun p => { p with updatedAt := nowMs }) fun _ => rfl

/-- The playlist is deleted; the number of rows that are. -/
def delete (id : ℕ) : ℕ × PlaylistDb :=
  (db.playlists.countP (·.id = id), db.deletePlaylist id)

/-- What `rename`, `set_mode` and `set_interval` set. -/
inductive Change where
  | rename (name : String)
  | setMode (mode : Mode)
  | setInterval (secs : UInt32)
deriving DecidableEq

def Change.apply (c : Change) (nowMs : ℤ) (p : PlaylistRow) : PlaylistRow :=
  match c with
  | .rename name => { p with name := name, updatedAt := nowMs }
  | .setMode mode => { p with mode := mode, updatedAt := nowMs }
  | .setInterval secs => { p with intervalSecs := secs.toNat, updatedAt := nowMs }

theorem Change.id_apply (c : Change) (nowMs : ℤ) (p : PlaylistRow) : (c.apply nowMs p).id = p.id := by
  cases c <;> rfl

/-- The second statement of these calls. It fails if there is no row to update any more. -/
def update (id : ℕ) (c : Change) (nowMs : ℤ) : Except PlaylistError PlaylistDb :=
  match db.get id with
  | none => .error .database
  | some _ => .ok (db.updatePlaylist id (c.apply nowMs) (c.id_apply nowMs))

def entryIds (id : ℕ) : List ℕ :=
  ((db.playlistItems.filter (·.playlistId = id)).insertionSort
    fun r s => r.position ≤ s.position).map (·.entryId)

structure Summary where
  id : ℕ
  name : String
  mode : Mode
  intervalSecs : UInt32
  itemCount : UInt32
deriving DecidableEq

/-- An interval that does not fit is shown as zero. -/
def shownInterval (secs : ℤ) : UInt32 :=
  if 0 ≤ secs ∧ secs < 2 ^ 32 then UInt32.ofNat secs.toNat else 0

def list : List Summary :=
  (db.playlists.insertionSort fun p q => q.id ≤ p.id).map fun p =>
    ⟨p.id, p.name, p.mode, shownInterval p.intervalSecs,
      UInt32.ofNat (db.playlistItems.countP (·.playlistId = p.id))⟩

/-! ## What else happens to the tables -/

/-- An item of the library is inserted. -/
def addItem (id : ℕ) : PlaylistDb :=
  { db with
    items := id :: db.items
    row_item := fun r hr => List.mem_cons_of_mem _ (db.row_item r hr) }

/-- Items are deleted, with the entries that refer to them. -/
def deleteItems (gone : List ℕ) : PlaylistDb :=
  { db with
    items := db.items.filter (· ∉ gone)
    playlistItems := db.playlistItems.filter (·.entryId ∉ gone)
    position_unique := db.position_unique.sublist (List.filter_sublist.map _)
    entry_unique := db.entry_unique.sublist (List.filter_sublist.map _)
    row_playlist := fun r hr => db.row_playlist r (List.mem_of_mem_filter hr)
    row_item := fun r hr => List.mem_filter.2
      ⟨db.row_item r (List.mem_of_mem_filter hr), (List.mem_filter.1 hr).2⟩ }

end PlaylistDb

/-! ## The shelf -/

structure Playlist where
  name : String
  mode : Mode
  intervalSecs : UInt32
  items : List ℕ
deriving DecidableEq

/-- What the tables stand for. -/
@[ext] structure Shelf where
  playlists : ℕ → Option Playlist
  last : ℕ
  items : List ℕ

namespace Shelf

variable (s : Shelf)

def set (id : ℕ) (p : Option Playlist) : Shelf :=
  { s with playlists := Function.update s.playlists id p }

/-- The first of the entries that is no item or has come before. -/
def firstBad (items : List ℕ) : List ℕ → List ℕ → Option ℕ
  | _, [] => none
  | before, e :: es => if e ∈ items ∧ e ∉ before then firstBad items (before ++ [e]) es else some e

def create (name : String) (mode : Mode) (intervalSecs : UInt32) (entryIds : List ℕ) :
    Except PlaylistError (ℕ × Shelf) :=
  match firstBad s.items [] entryIds with
  | some e => .error (.insertItem (s.last + 1) e)
  | none => .ok (s.last + 1,
      { s.set (s.last + 1) (some ⟨name, mode, intervalSecs, entryIds⟩) with last := s.last + 1 })

def setItems (id : ℕ) (entryIds : List ℕ) : Except PlaylistError Shelf :=
  match s.playlists id, firstBad s.items [] entryIds with
  | none, _ => .error (.notFound id)
  | some _, some e => .error (.insertItem id e)
  | some p, none => .ok (s.set id (some { p with items := entryIds }))

def delete (id : ℕ) : ℕ × Shelf :=
  (if (s.playlists id).isSome then 1 else 0, s.set id none)

def require (id : ℕ) : Except PlaylistError Unit :=
  if (s.playlists id).isSome then .ok () else .error (.notFound id)

def change (c : PlaylistDb.Change) (p : Playlist) : Playlist :=
  match c with
  | .rename name => { p with name := name }
  | .setMode mode => { p with mode := mode }
  | .setInterval secs => { p with intervalSecs := secs }

def update (id : ℕ) (c : PlaylistDb.Change) : Except PlaylistError Shelf :=
  match s.playlists id with
  | none => .error .database
  | some p => .ok (s.set id (some (change c p)))

/-- The newest playlist comes first. -/
def list : List PlaylistDb.Summary :=
  (List.range (s.last + 1)).reverse.filterMap fun id => (s.playlists id).map fun p =>
    ⟨id, p.name, p.mode, p.intervalSecs, UInt32.ofNat p.items.length⟩

def addItem (id : ℕ) : Shelf := { s with items := id :: s.items }

def deleteItems (gone : List ℕ) : Shelf where
  playlists id := (s.playlists id).map fun p => { p with items := p.items.filter (· ∉ gone) }
  last := s.last
  items := s.items.filter (· ∉ gone)

end Shelf

namespace PlaylistDb

variable {db db' : PlaylistDb} {id : ℕ} {es : List ℕ}

/-- The rows of a playlist. -/
def rows (db : PlaylistDb) (id : ℕ) : List PlaylistItem :=
  db.playlistItems.filter (·.playlistId = id)

def shelf (db : PlaylistDb) : Shelf where
  playlists id := (db.get id).map fun p =>
    ⟨p.name, p.mode, shownInterval p.intervalSecs, db.entryIds id⟩
  last := db.lastPlaylist
  items := db.items

/-- The rows of a playlist are in the order of their positions, and the playlists in the order in
which they were created. -/
structure Ordered (db : PlaylistDb) : Prop where
  rows : ∀ id, (db.rows id).Pairwise fun r s => r.position < s.position
  playlists : db.playlists.Pairwise fun p q => p.id < q.id

theorem Ordered.entryIds (h : db.Ordered) (id : ℕ) :
    db.entryIds id = (db.rows id).map (·.entryId) := by
  rw [PlaylistDb.entryIds, List.Pairwise.insertionSort_eq]
  · rfl
  · exact (h.rows id).imp Nat.le_of_lt

theorem shownInterval_toNat (secs : UInt32) : shownInterval secs.toNat = secs := by
  rw [shownInterval, if_pos ⟨Int.natCast_nonneg _, by have := secs.toNat_lt; omega⟩,
    Int.toNat_natCast, UInt32.ofNat_toNat]

/-! ## Inserting entries -/

theorem insertItem_eq_some {e pos : ℕ} (h : db.insertItem id e pos = some db') :
    (id ∈ db.playlists.map (·.id) ∧ e ∈ db.items ∧ e ∉ (db.rows id).map (·.entryId)) ∧
      db'.playlists = db.playlists ∧ db'.lastPlaylist = db.lastPlaylist ∧ db'.items = db.items ∧
      db'.playlistItems = db.playlistItems ++ [⟨db.lastPlaylistItem + 1, id, e, pos⟩] := by
  rw [insertItem] at h
  split at h
  · rename_i hkeys
    cases h
    refine ⟨⟨hkeys.1.1, hkeys.1.2, fun hmem => hkeys.2.2 ?_⟩, rfl, rfl, rfl, rfl⟩
    obtain ⟨r, hr, rfl⟩ := List.mem_map.1 hmem
    obtain ⟨hr, hid⟩ := List.mem_filter.1 hr
    exact List.mem_map.2 ⟨r, hr, Prod.ext (of_decide_eq_true hid) rfl⟩
  · cases h

theorem insertItem_eq_none {e pos : ℕ} (hid : id ∈ db.playlists.map (·.id))
    (hpos : ∀ r ∈ db.rows id, r.position < pos) (h : db.insertItem id e pos = none) :
    e ∉ db.items ∨ e ∈ (db.rows id).map (·.entryId) := by
  rw [insertItem] at h
  split at h
  · cases h
  · rename_i hkeys
    by_contra hnot
    obtain ⟨he, hnew⟩ := not_or.1 hnot
    refine hkeys ⟨⟨hid, not_not.1 he⟩, fun hmem => ?_, fun hmem => hnew ?_⟩
    · obtain ⟨r, hr, heq⟩ := List.mem_map.1 hmem
      obtain ⟨hrid, hrpos⟩ := Prod.mk.inj heq
      exact absurd hrpos (Nat.ne_of_lt (hpos r (List.mem_filter.2 ⟨hr, decide_eq_true hrid⟩)))
    · obtain ⟨r, hr, heq⟩ := List.mem_map.1 hmem
      obtain ⟨hrid, hre⟩ := Prod.mk.inj heq
      exact List.mem_map.2 ⟨r, List.mem_filter.2 ⟨hr, decide_eq_true hrid⟩, hre⟩

theorem rows_append (db : PlaylistDb) (row : PlaylistItem) (j : ℕ)
    (h : db'.playlistItems = db.playlistItems ++ [row]) :
    db'.rows j = if row.playlistId = j then db.rows j ++ [row] else db.rows j := by
  rw [rows, h, List.filter_append, List.filter_singleton]
  by_cases hj : row.playlistId = j
  · rw [if_pos hj, decide_eq_true hj]
    rfl
  · rw [if_neg hj, decide_eq_false hj]
    exact List.append_nil _

/-- Entries are inserted in order behind those that are there, unless one of them cannot be. -/
theorem insertItems_spec {pos : ℕ} (hid : id ∈ db.playlists.map (·.id))
    (hord : (db.rows id).Pairwise fun r s => r.position < s.position)
    (hpos : ∀ r ∈ db.rows id, r.position < pos) :
    match Shelf.firstBad db.items ((db.rows id).map (·.entryId)) es with
    | some e => insertItems id es pos db = .error (.insertItem id e)
    | none => ∃ db', insertItems id es pos db = .ok db' ∧ db'.playlists = db.playlists ∧
        db'.lastPlaylist = db.lastPlaylist ∧ db'.items = db.items ∧
        (∀ j, j ≠ id → db'.rows j = db.rows j) ∧
        (db'.rows id).map (·.entryId) = (db.rows id).map (·.entryId) ++ es ∧
        (db'.rows id).Pairwise fun r s => r.position < s.position := by
  induction es generalizing db pos with
  | nil => exact ⟨db, rfl, rfl, rfl, rfl, fun _ _ => rfl, (List.append_nil _).symm, hord⟩
  | cons e es ih =>
    rw [Shelf.firstBad, insertItems]
    cases hinsert : db.insertItem id e pos with
    | none =>
      have hbad : ¬ (e ∈ db.items ∧ e ∉ (db.rows id).map (·.entryId)) := fun hgood =>
        (insertItem_eq_none hid hpos hinsert).elim (· hgood.1) hgood.2
      rw [if_neg hbad]
    | some mid =>
      obtain ⟨⟨-, hgood⟩, hplaylists, hlast, hitems, hrows⟩ := insertItem_eq_some hinsert
      have hother (j : ℕ) (hj : j ≠ id) : mid.rows j = db.rows j := by
        rw [rows_append db _ j hrows, if_neg hj.symm]
      have hself := rows_append db _ id hrows
      rw [if_pos rfl] at hself
      rw [if_pos hgood]
      have hsorted : (mid.rows id).Pairwise fun r s => r.position < s.position := by
        rw [hself, List.pairwise_append]
        refine ⟨hord, List.pairwise_singleton _ _, fun r hr r' hr' => ?_⟩
        rw [List.mem_singleton.1 hr']
        exact hpos r hr
      have hlt : ∀ r ∈ mid.rows id, r.position < pos + 1 := fun r hr => by
        rw [hself, List.mem_append] at hr
        obtain hr | hr := hr
        · exact Nat.lt_succ_of_lt (hpos r hr)
        · rw [List.mem_singleton.1 hr]
          exact Nat.lt_succ_self pos
      have hmid := ih (hplaylists ▸ hid) hsorted hlt
      rw [hself, List.map_append, List.map_singleton, hitems] at hmid
      cases hbad : Shelf.firstBad db.items ((db.rows id).map (·.entryId) ++ [e]) es with
      | some e' =>
        rw [hbad] at hmid
        exact hmid
      | none =>
        rw [hbad] at hmid
        obtain ⟨last, hok, hplaylists', hlast', hitems', hother', hids, hsorted⟩ := hmid
        refine ⟨last, hok, hplaylists'.trans hplaylists, hlast'.trans hlast, hitems',
          fun j hj => (hother' j hj).trans (hother j hj), ?_, hsorted⟩
        rw [hids, List.append_assoc]
        rfl

/-! ## The rows of the playlists -/

theorem get_id {p : PlaylistRow} (h : db.get id = some p) : p.id = id := by
  have hfound := List.find?_some h
  exact of_decide_eq_true hfound

theorem mem_ids (h : (db.get id).isSome = true) : id ∈ db.playlists.map (·.id) := by
  obtain ⟨p, hp⟩ := Option.isSome_iff_exists.1 h
  exact List.mem_map.2 ⟨p, List.mem_of_find?_eq_some hp, get_id hp⟩

theorem get_eq_none (h : db.lastPlaylist < id) : db.get id = none := by
  refine List.find?_eq_none.2 fun p hp heq => ?_
  have hle := db.id_le p hp
  have heq := of_decide_eq_true heq
  omega

theorem rows_eq_nil (h : db.lastPlaylist < id) : db.rows id = [] := by
  refine List.filter_eq_nil_iff.2 fun r hr heq => ?_
  obtain ⟨p, hp, hid⟩ := List.mem_map.1 (db.row_playlist r hr)
  have hle := db.id_le p hp
  have heq := of_decide_eq_true heq
  omega

theorem get_insertPlaylist (name : String) (mode : Mode) (secs now : ℤ) (id : ℕ) :
    (db.insertPlaylist name mode secs now).2.get id =
      if id = db.lastPlaylist + 1 then some ⟨id, name, mode, secs, now, now⟩ else db.get id := by
  rw [get, insertPlaylist, List.find?_append]
  split
  · rename_i heq
    subst heq
    have hnone : db.get (db.lastPlaylist + 1) = none := get_eq_none (Nat.lt_succ_self _)
    rw [get] at hnone
    rw [hnone, Option.none_or]
    exact List.find?_cons_of_pos (decide_eq_true rfl)
  · rename_i hne
    rw [List.find?_cons_of_neg fun h => hne (of_decide_eq_true h).symm, List.find?_nil,
      Option.or_none]
    rfl

theorem get_updatePlaylist {f : PlaylistRow → PlaylistRow} (hf : ∀ p, (f p).id = p.id) (j : ℕ) :
    (db.updatePlaylist id f hf).get j = if j = id then (db.get id).map f else db.get j := by
  have hid (p : PlaylistRow) : (if p.id = id then f p else p).id = p.id := by
    split
    · exact hf p
    · rfl
  have hsame : ((fun p : PlaylistRow => decide (p.id = j)) ∘
      fun p => if p.id = id then f p else p) = fun p => decide (p.id = j) := by
    funext p
    rw [Function.comp_apply, hid]
  rw [get, updatePlaylist, List.find?_map, hsame]
  change (db.get j).map _ = _
  cases hj : db.get j with
  | none =>
    split
    · rename_i heq
      rw [← heq, hj]
      rfl
    · rfl
  | some p =>
    rw [Option.map_some, get_id hj]
    split
    · rename_i heq
      rw [← heq, hj]
      rfl
    · rfl

theorem get_deletePlaylist (j : ℕ) :
    (db.deletePlaylist id).get j = if j = id then none else db.get j := by
  rw [get, deletePlaylist, List.find?_filter]
  split
  · rename_i heq
    subst heq
    refine List.find?_eq_none.2 fun p _ => ?_
    simp
  · rename_i hne
    have hsame : (fun p : PlaylistRow => decide (decide (p.id ≠ id) = true ∧
        decide (p.id = j) = true)) = fun p => decide (p.id = j) := by
      funext p
      by_cases hp : p.id = j
      · simp [hp, hne]
      · simp [hp]
    rw [hsame]
    rfl

/-! ## The calls -/

theorem shelf_playlists (db : PlaylistDb) (id : ℕ) : db.shelf.playlists id =
    (db.get id).map fun p => ⟨p.name, p.mode, shownInterval p.intervalSecs, db.entryIds id⟩ :=
  rfl

theorem shelf_ext {s : Shelf} (hget : ∀ j, (db.get j).map (fun p =>
      (⟨p.name, p.mode, shownInterval p.intervalSecs, db.entryIds j⟩ : Playlist)) = s.playlists j)
    (hlast : db.lastPlaylist = s.last) (hitems : db.items = s.items) : db.shelf = s :=
  Shelf.ext (funext hget) hlast hitems

/-- The entries of a playlist, once they are inserted where there were none. -/
theorem insertItems_empty (h : db.Ordered) (hid : id ∈ db.playlists.map (·.id))
    (hnil : db.rows id = []) :
    match Shelf.firstBad db.items [] es with
    | some e => insertItems id es 0 db = .error (.insertItem id e)
    | none => ∃ db', insertItems id es 0 db = .ok db' ∧ db'.playlists = db.playlists ∧
        db'.lastPlaylist = db.lastPlaylist ∧ db'.items = db.items ∧ db'.Ordered ∧
        ∀ j, db'.entryIds j = if j = id then es else db.entryIds j := by
  have hspec := @insertItems_spec db id es 0 hid (h.rows id) (by rw [hnil]; nofun)
  rw [hnil, List.map_nil] at hspec
  cases hbad : Shelf.firstBad db.items [] es with
  | some e =>
    rw [hbad] at hspec
    exact hspec
  | none =>
    rw [hbad] at hspec
    obtain ⟨db', hok, hplaylists, hlast, hitems, hother, hids, hsorted⟩ := hspec
    have hordered : db'.Ordered := by
      refine ⟨fun j => ?_, hplaylists ▸ h.playlists⟩
      by_cases hj : j = id
      · exact hj ▸ hsorted
      · rw [hother j hj]
        exact h.rows j
    refine ⟨db', hok, hplaylists, hlast, hitems, hordered, fun j => ?_⟩
    rw [hordered.entryIds, h.entryIds]
    split
    · rename_i hj
      rw [hj, hids, List.nil_append]
    · rename_i hj
      rw [hother j hj]

theorem Ordered.insertPlaylist (h : db.Ordered) (name : String) (mode : Mode) (secs now : ℤ) :
    (db.insertPlaylist name mode secs now).2.Ordered where
  rows := h.rows
  playlists := by
    refine List.pairwise_append.2 ⟨h.playlists, List.pairwise_singleton _ _, fun p hp q hq => ?_⟩
    rw [List.mem_singleton.1 hq]
    exact Nat.lt_succ_of_le (db.id_le p hp)

theorem create_spec (h : db.Ordered) (name : String) (mode : Mode) (secs : UInt32) (now : ℤ)
    (es : List ℕ) :
    (db.create name mode secs now es).map (fun r => (r.1, r.2.shelf)) =
        db.shelf.create name mode secs es ∧
      ∀ r, db.create name mode secs now es = .ok r → r.2.Ordered := by
  have hnil : (db.insertPlaylist name mode secs.toNat now).2.rows (db.lastPlaylist + 1) = [] :=
    show db.rows _ = [] from rows_eq_nil (Nat.lt_succ_self _)
  have hget := @get_insertPlaylist db name mode secs.toNat now
  have hordered := h.insertPlaylist name mode secs.toNat now
  have hid : db.lastPlaylist + 1 ∈
      (db.insertPlaylist name mode secs.toNat now).2.playlists.map (·.id) :=
    mem_ids (by rw [hget, if_pos rfl]; rfl)
  have hspec := @insertItems_empty _ _ es hordered hid hnil
  have hcreate : db.create name mode secs now es =
      (insertItems (db.lastPlaylist + 1) es 0 (db.insertPlaylist name mode secs.toNat now).2).map
        fun db' => (db.lastPlaylist + 1, db') := rfl
  have hitems : (db.insertPlaylist name mode secs.toNat now).2.items = db.items := rfl
  have hshelf : db.shelf.items = db.items := rfl
  rw [hitems] at hspec
  rw [hcreate, Shelf.create, hshelf]
  cases hfirst : Shelf.firstBad db.items [] es with
  | some e =>
    rw [hfirst] at hspec
    rw [hspec]
    exact ⟨rfl, nofun⟩
  | none =>
    rw [hfirst] at hspec
    obtain ⟨db', hok, hplaylists, hlast, hitems', hordered', hids⟩ := hspec
    rw [hok]
    refine ⟨congrArg (fun t => Except.ok (db.lastPlaylist + 1, t)) ?_, ?_⟩
    · refine shelf_ext (fun j => ?_) hlast hitems'
      change (db'.get j).map _ = Function.update db.shelf.playlists (db.lastPlaylist + 1) _ j
      rw [Function.update_apply, hids]
      have hgetj : db'.get j = (db.insertPlaylist name mode secs.toNat now).2.get j := by
        rw [get, get, hplaylists]
      rw [hgetj, hget]
      split
      · rw [Option.map_some, shownInterval_toNat]
      · rfl
    · rintro _ ⟨⟩
      exact hordered'

theorem Ordered.clearItems (h : db.Ordered) (id : ℕ) : (db.clearItems id).Ordered where
  rows j := by
    rw [PlaylistDb.rows, PlaylistDb.clearItems, List.filter_comm]
    exact (h.rows j).filter _
  playlists := h.playlists

theorem rows_clearItems (j : ℕ) :
    (db.clearItems id).rows j = if j = id then [] else db.rows j := by
  rw [rows, clearItems, List.filter_filter]
  split
  · rename_i hj
    refine List.filter_eq_nil_iff.2 fun r _ => ?_
    simp [hj]
  · rename_i hj
    refine List.filter_congr fun r _ => ?_
    by_cases hr : r.playlistId = j
    · simp [hr, hj]
    · simp [hr]

theorem Ordered.updatePlaylist (h : db.Ordered) {f : PlaylistRow → PlaylistRow}
    (hf : ∀ p, (f p).id = p.id) : (db.updatePlaylist id f hf).Ordered where
  rows := h.rows
  playlists := by
    refine List.pairwise_map.2 (h.playlists.imp fun {p q} hpq => ?_)
    have hid (p : PlaylistRow) : (if p.id = id then f p else p).id = p.id := by
      split
      · exact hf p
      · rfl
    rwa [hid, hid]

theorem setItems_spec (h : db.Ordered) (id : ℕ) (es : List ℕ) (now : ℤ) :
    (db.setItems id es now).map shelf = db.shelf.setItems id es ∧
      ∀ db', db.setItems id es now = .ok db' → db'.Ordered := by
  rw [setItems, require, Shelf.setItems]
  cases hget : db.get id with
  | none =>
    have hnone : db.shelf.playlists id = none := by
      rw [shelf_playlists, hget]
      rfl
    rw [hnone]
    exact ⟨rfl, nofun⟩
  | some p =>
    have hsome : db.shelf.playlists id =
        some ⟨p.name, p.mode, shownInterval p.intervalSecs, db.entryIds id⟩ := by
      rw [shelf_playlists, hget]
      rfl
    have hordered := h.clearItems id
    have hnil : (db.clearItems id).rows id = [] := by rw [rows_clearItems, if_pos rfl]
    have hid : id ∈ (db.clearItems id).playlists.map (·.id) :=
      mem_ids (show (db.get id).isSome = true by rw [hget]; rfl)
    have hspec := @insertItems_empty _ _ es hordered hid hnil
    have hitems : (db.clearItems id).items = db.items := rfl
    have hshelf : db.shelf.items = db.items := rfl
    rw [hitems] at hspec
    rw [hsome, hshelf]
    cases hfirst : Shelf.firstBad db.items [] es with
    | some e =>
      rw [hfirst] at hspec
      simp only [hspec]
      exact ⟨rfl, nofun⟩
    | none =>
      rw [hfirst] at hspec
      obtain ⟨db', hok, hplaylists, hlast, hitems', hordered', hids⟩ := hspec
      simp only [hok]
      refine ⟨congrArg Except.ok ?_, ?_⟩
      · refine shelf_ext (fun j => ?_) hlast hitems'
        change ((db'.updatePlaylist p.id _ _).get j).map _ =
          Function.update db.shelf.playlists id _ j
        have hentries : (db'.updatePlaylist p.id (fun p => { p with updatedAt := now })
            fun _ => rfl).entryIds j = db'.entryIds j := rfl
        have hgetj (j : ℕ) : db'.get j = db.get j := by
          rw [get, get, hplaylists]
          rfl
        have hold (hj : j ≠ id) : (db.clearItems id).entryIds j = db.entryIds j := by
          rw [hordered.entryIds, h.entryIds, rows_clearItems, if_neg hj]
        rw [get_updatePlaylist, hentries, get_id hget, hids, hgetj, hgetj, hget,
          Function.update_apply]
        by_cases hj : j = id
        · rw [if_pos hj, if_pos hj, if_pos hj]
          rfl
        · rw [if_neg hj, if_neg hj, if_neg hj, hold hj]
          rfl
      · rintro _ ⟨⟩
        exact hordered'.updatePlaylist _

theorem isSome_get (db : PlaylistDb) (id : ℕ) :
    (db.get id).isSome = true ↔ id ∈ db.playlists.map (·.id) := by
  refine ⟨mem_ids, fun h => ?_⟩
  obtain ⟨p, hp, heq⟩ := List.mem_map.1 h
  exact List.find?_isSome.2 ⟨p, hp, decide_eq_true heq⟩

theorem isSome_shelf (db : PlaylistDb) (id : ℕ) :
    (db.shelf.playlists id).isSome = (db.get id).isSome := by
  rw [shelf_playlists, Option.isSome_map]

theorem delete_spec (h : db.Ordered) (id : ℕ) :
    ((db.delete id).1, (db.delete id).2.shelf) = db.shelf.delete id ∧ (db.delete id).2.Ordered := by
  have hordered : (db.deletePlaylist id).Ordered :=
    ⟨(h.clearItems id).rows, h.playlists.filter _⟩
  refine ⟨Prod.ext ?_ ?_, hordered⟩
  · rw [delete, Shelf.delete, isSome_shelf]
    have hcount : db.playlists.countP (·.id = id) = (db.playlists.map (·.id)).count id := by
      rw [List.count, List.countP_map]
      refine List.countP_congr fun p _ => ?_
      simp
    rw [hcount, db.id_unique.count]
    exact if_congr (isSome_get db id).symm rfl rfl
  · refine shelf_ext (fun j => ?_) rfl rfl
    change ((db.deletePlaylist id).get j).map _ = Function.update db.shelf.playlists id none j
    rw [get_deletePlaylist, Function.update_apply]
    split
    · rfl
    · rename_i hj
      rw [shelf_playlists]
      change (db.get j).map (fun p => (⟨p.name, p.mode, shownInterval p.intervalSecs,
        (db.deletePlaylist id).entryIds j⟩ : Playlist)) = _
      rw [hordered.entryIds, h.entryIds]
      change (db.get j).map (fun p => (⟨p.name, p.mode, shownInterval p.intervalSecs,
        ((db.clearItems id).rows j).map (·.entryId)⟩ : Playlist)) = _
      rw [rows_clearItems, if_neg hj]

theorem require_spec (db : PlaylistDb) (id : ℕ) :
    (db.require id).map (fun _ => ()) = db.shelf.require id := by
  rw [require, Shelf.require, isSome_shelf]
  cases db.get id with
  | none => rfl
  | some p => rfl

theorem update_spec (h : db.Ordered) (id : ℕ) (c : Change) (now : ℤ) :
    (db.update id c now).map shelf = db.shelf.update id c ∧
      ∀ db', db.update id c now = .ok db' → db'.Ordered := by
  rw [update, Shelf.update, shelf_playlists]
  cases hget : db.get id with
  | none => exact ⟨rfl, nofun⟩
  | some p =>
    refine ⟨congrArg Except.ok (shelf_ext (fun j => ?_) rfl rfl), ?_⟩
    · have hentries : (db.updatePlaylist id (c.apply now) (c.id_apply now)).entryIds j =
          db.entryIds j := rfl
      change _ = Function.update db.shelf.playlists id _ j
      rw [get_updatePlaylist, hentries, hget, Function.update_apply]
      split
      · rename_i hj
        subst hj
        cases c <;> simp [Change.apply, Shelf.change, shownInterval_toNat]
      · rfl
    · rintro _ ⟨⟩
      exact h.updatePlaylist _

theorem deleteItems_spec (h : db.Ordered) (gone : List ℕ) :
    (db.deleteItems gone).shelf = db.shelf.deleteItems gone ∧ (db.deleteItems gone).Ordered := by
  have hrows (j : ℕ) : (db.deleteItems gone).rows j = (db.rows j).filter (·.entryId ∉ gone) := by
    rw [rows, rows, deleteItems, List.filter_comm]
  have hordered : (db.deleteItems gone).Ordered :=
    ⟨fun j => by rw [hrows]; exact (h.rows j).filter _, h.playlists⟩
  refine ⟨shelf_ext (fun j => ?_) rfl rfl, hordered⟩
  change (db.get j).map _ = (db.shelf.playlists j).map _
  rw [shelf_playlists, Option.map_map, hordered.entryIds, h.entryIds, hrows]
  refine congrArg (fun f => (db.get j).map f) (funext fun p => ?_)
  rw [Function.comp_apply, List.filter_map]
  rfl

/-! ## The answers -/

/-- The rows from the newest to the oldest. -/
theorem filterMap_get (h : db.Ordered) :
    (List.range (db.lastPlaylist + 1)).reverse.filterMap db.get = db.playlists.reverse := by
  refine List.Pairwise.eq_of_mem_iff (r := fun p q : PlaylistRow => q.id < p.id) ?_ ?_ fun p => ?_
  · refine List.pairwise_filterMap.2 ?_
    refine (List.pairwise_reverse.2 List.pairwise_lt_range).imp fun {i j} hij p hp q hq => ?_
    rwa [get_id hp, get_id hq]
  · exact List.pairwise_reverse.2 h.playlists
  · rw [List.mem_filterMap, List.mem_reverse]
    constructor
    · rintro ⟨id, -, hget⟩
      exact List.mem_of_find?_eq_some hget
    · intro hp
      have hrange : p.id ∈ (List.range (db.lastPlaylist + 1)).reverse :=
        List.mem_reverse.2 (List.mem_range.2 (Nat.lt_succ_of_le (db.id_le p hp)))
      refine ⟨p.id, hrange, ?_⟩
      obtain ⟨q, hq⟩ := Option.isSome_iff_exists.1
        ((isSome_get db p.id).2 (List.mem_map_of_mem hp))
      rw [hq, (List.inj_on_of_nodup_map db.id_unique) (List.mem_of_find?_eq_some hq) hp (get_id hq)]

theorem list_spec (h : db.Ordered) : db.list = db.shelf.list := by
  have htotal : Std.Total fun p q : PlaylistRow => q.id ≤ p.id := ⟨fun p q => Nat.le_total q.id p.id⟩
  have htrans : IsTrans PlaylistRow fun p q => q.id ≤ p.id := ⟨fun _ _ _ hpq hqr => hqr.trans hpq⟩
  have hsorted : db.playlists.insertionSort (fun p q => q.id ≤ p.id) = db.playlists.reverse := by
    refine List.Perm.eq_of_pairwise (fun p q hp hq hqp hpq => ?_) (List.pairwise_insertionSort _ _)
      ((List.pairwise_reverse.2 h.playlists).imp Nat.le_of_lt)
      ((List.perm_insertionSort _ _).trans (List.reverse_perm _).symm)
    exact List.inj_on_of_nodup_map db.id_unique ((List.mem_insertionSort _).1 hp)
      (List.mem_reverse.1 hq) (Nat.le_antisymm hpq hqp)
  rw [list, hsorted, ← filterMap_get h, List.map_filterMap, Shelf.list]
  refine List.filterMap_congr fun id _ => ?_
  rw [shelf_playlists, Option.map_map]
  refine Option.map_congr fun p hp => ?_
  rw [Function.comp_apply, h.entryIds, List.length_map, get_id hp, rows,
    List.countP_eq_length_filter]

theorem entryIds_spec (h : db.Ordered) (id : ℕ) :
    db.entryIds id = ((db.shelf.playlists id).map (·.items)).getD [] := by
  rw [shelf_playlists, Option.map_map]
  cases hget : db.get id with
  | some p => rfl
  | none =>
    rw [h.entryIds, rows, List.filter_eq_nil_iff.2]
    · rfl
    intro r hr heq
    have hmem := (isSome_get db id).2 (of_decide_eq_true heq ▸ db.row_playlist r hr)
    rw [hget] at hmem
    cases hmem

end PlaylistDb

/-! ## The run -/

/-- A call, or one of the two statements of a call that changes a playlist. A broken database fails
at one of the statements. -/
inductive RepoLabel where
  | create (name : String) (mode : Mode) (intervalSecs : UInt32) (nowMs : ℤ) (entryIds : List ℕ)
    (broken : Bool)
  | setItems (id : ℕ) (entryIds : List ℕ) (nowMs : ℤ) (broken : Bool)
  | delete (id : ℕ) (broken : Bool)
  | require (id : ℕ) (c : PlaylistDb.Change) (nowMs : ℤ) (broken : Bool)
  | update (i : ℕ) (broken : Bool)
  | entryIds (id : ℕ)
  | list
  | addItem (id : ℕ)
  | deleteItems (gone : List ℕ)

inductive RepoAnswer where
  | created (id : ℕ)
  | deleted (rows : ℕ)
  | done
  | failed (e : PlaylistError)
  | items (ids : List ℕ)
  | summaries (l : List PlaylistDb.Summary)
deriving DecidableEq

/-- What keeps playlists. -/
structure PlaylistStore (σ : Type) where
  create : String → Mode → UInt32 → ℤ → List ℕ → σ → Except PlaylistError (ℕ × σ)
  setItems : ℕ → List ℕ → ℤ → σ → Except PlaylistError σ
  delete : ℕ → σ → ℕ × σ
  require : ℕ → σ → Except PlaylistError Unit
  update : ℕ → PlaylistDb.Change → ℤ → σ → Except PlaylistError σ
  entryIds : ℕ → σ → List ℕ
  list : σ → List PlaylistDb.Summary
  addItem : ℕ → σ → σ
  deleteItems : List ℕ → σ → σ

def PlaylistDb.repo : PlaylistStore PlaylistDb where
  create name mode secs now es db := db.create name mode secs now es
  setItems id es now db := db.setItems id es now
  delete id db := db.delete id
  require id db := (db.require id).map fun _ => ()
  update id c now db := db.update id c now
  entryIds id db := db.entryIds id
  list db := db.list
  addItem id db := db.addItem id
  deleteItems gone db := db.deleteItems gone

def Shelf.repo : PlaylistStore Shelf where
  create name mode secs _ es s := s.create name mode secs es
  setItems id es _ s := s.setItems id es
  delete id s := s.delete id
  require id s := s.require id
  update id c _ s := s.update id c
  entryIds id s := ((s.playlists id).map (·.items)).getD []
  list s := s.list
  addItem id s := s.addItem id
  deleteItems gone s := s.deleteItems gone

structure RepoState (σ : Type) where
  store : σ
  /-- The calls that have found the playlist they are to change. -/
  changing : List (ℕ × PlaylistDb.Change × ℤ) := []
  answers : List RepoAnswer := []

namespace RepoState

variable {σ τ : Type} (s : RepoState σ)

def answer (a : RepoAnswer) : RepoState σ := { s with answers := s.answers ++ [a] }

/-- The answer to a call. A call that fails is rolled back. -/
def conclude {α : Type} (broken : Bool) (r : Except PlaylistError α) (ok : α → RepoState σ) :
    RepoState σ :=
  match broken, r with
  | true, _ => s.answer (.failed .database)
  | false, .error e => s.answer (.failed e)
  | false, .ok a => ok a

def map (f : σ → τ) : RepoState τ := ⟨f s.store, s.changing, s.answers⟩

end RepoState

namespace PlaylistStore

variable {σ : Type} (S : PlaylistStore σ)

def step (s : RepoState σ) : RepoLabel → Option (RepoState σ)
  | .create name mode secs now es broken =>
      some (s.conclude broken (S.create name mode secs now es s.store) fun r =>
        { s with store := r.2 }.answer (.created r.1))
  | .setItems id es now broken =>
      some (s.conclude broken (S.setItems id es now s.store) fun store =>
        { s with store := store }.answer .done)
  | .delete id broken =>
      some (s.conclude broken (.ok (S.delete id s.store)) fun r =>
        { s with store := r.2 }.answer (.deleted r.1))
  | .require id c now broken =>
      some (s.conclude broken (S.require id s.store) fun _ =>
        { s with changing := s.changing ++ [(id, c, now)] })
  | .update i broken =>
      s.changing[i]?.map fun call =>
        let s := { s with changing := s.changing.eraseIdx i }
        s.conclude broken (S.update call.1 call.2.1 call.2.2 s.store) fun store =>
          { s with store := store }.answer .done
  | .entryIds id => some (s.answer (.items (S.entryIds id s.store)))
  | .list => some (s.answer (.summaries (S.list s.store)))
  | .addItem id => some { s with store := S.addItem id s.store }
  | .deleteItems gone => some { s with store := S.deleteItems gone s.store }

end PlaylistStore

namespace PlaylistDb

variable {s t : RepoState PlaylistDb} {l : RepoLabel}

theorem map_conclude {α β : Type} (s : RepoState PlaylistDb) (broken : Bool)
    {r : Except PlaylistError α} {r' : Except PlaylistError β} {g : α → β} (hr : r.map g = r')
    {ok : α → RepoState PlaylistDb} {ok' : β → RepoState Shelf}
    (hok : ∀ a, (ok a).map shelf = ok' (g a)) :
    (s.conclude broken r ok).map shelf = (s.map shelf).conclude broken r' ok' := by
  subst hr
  cases broken
  · cases r
    · rfl
    · exact hok _
  · rfl

theorem conclude_ordered {α : Type} {broken : Bool} {r : Except PlaylistError α}
    {ok : α → RepoState PlaylistDb} (h : s.store.Ordered)
    (hok : ∀ a, r = .ok a → (ok a).store.Ordered) : (s.conclude broken r ok).store.Ordered := by
  cases broken
  · cases r
    · exact h
    · exact hok _ rfl
  · exact h

theorem step_ordered (h : s.store.Ordered) (hstep : repo.step s l = some t) : t.store.Ordered := by
  cases l with
  | create name mode secs now es broken =>
    cases hstep
    exact conclude_ordered h (create_spec h name mode secs now es).2
  | setItems id es now broken =>
    cases hstep
    exact conclude_ordered h (setItems_spec h id es now).2
  | delete id broken =>
    cases hstep
    refine conclude_ordered h ?_
    rintro _ ⟨⟩
    exact (delete_spec h id).2
  | require id c now broken =>
    cases hstep
    exact conclude_ordered h fun _ _ => h
  | update i broken =>
    obtain ⟨call, -, rfl⟩ := Option.map_eq_some_iff.1 hstep
    exact conclude_ordered (show ({ s with changing := s.changing.eraseIdx i } :
      RepoState PlaylistDb).store.Ordered from h)
      (update_spec h call.1 call.2.1 call.2.2).2
  | entryIds id =>
    cases hstep
    exact h
  | list =>
    cases hstep
    exact h
  | addItem id =>
    cases hstep
    exact ⟨h.rows, h.playlists⟩
  | deleteItems gone =>
    cases hstep
    exact (deleteItems_spec h gone).2

/-- Each statement does to the tables what it does to the shelf, and answers the same. -/
theorem step_shelf (s : RepoState PlaylistDb) (l : RepoLabel) (h : s.store.Ordered) :
    (repo.step s l).map (·.map shelf) = Shelf.repo.step (s.map shelf) l := by
  cases l with
  | create name mode secs now es broken =>
    exact congrArg some (map_conclude s broken (create_spec h name mode secs now es).1 fun _ => rfl)
  | setItems id es now broken =>
    exact congrArg some (map_conclude s broken (setItems_spec h id es now).1 fun _ => rfl)
  | delete id broken =>
    have hdelete : (Except.ok (s.store.delete id) : Except PlaylistError _).map
        (fun r => (r.1, r.2.shelf)) = .ok (s.store.shelf.delete id) :=
      congrArg Except.ok (delete_spec h id).1
    exact congrArg some (map_conclude s broken hdelete fun _ => rfl)
  | require id c now broken =>
    have hrequire : (repo.require id s.store).map (fun found => found) =
        s.store.shelf.require id := by
      rw [← require_spec]
      change Except.map _ (Except.map _ (s.store.require id)) = _
      cases s.store.require id <;> rfl
    exact congrArg some (map_conclude s broken hrequire fun _ => rfl)
  | update i broken =>
    change Option.map _ (Option.map _ s.changing[i]?) = Option.map _ s.changing[i]?
    rw [Option.map_map]
    refine congrArg (fun f => Option.map f s.changing[i]?) (funext fun call => ?_)
    exact map_conclude _ broken (update_spec h call.1 call.2.1 call.2.2).1 fun _ => rfl
  | entryIds id =>
    exact congrArg (fun ids => some ((s.map shelf).answer (.items ids))) (entryIds_spec h id)
  | list => exact congrArg (fun l => some ((s.map shelf).answer (.summaries l))) (list_spec h)
  | addItem id => rfl
  | deleteItems gone =>
    exact congrArg (fun store => some { s.map shelf with store := store })
      (deleteItems_spec h gone).1

/-- The tables answer as the shelf does, in every run of the calls, whichever of them fail and
whatever happens to the library. -/
theorem run_shelf (ls : List RepoLabel) :
    (Transition.run repo.step { store := {} } ls).map (·.map shelf) =
      Transition.run Shelf.repo.step { store := ⟨fun _ => none, 0, []⟩ } ls :=
  Transition.map_run (fun _ _ _ h hstep => step_ordered h hstep) step_shelf
    ⟨fun _ => List.Pairwise.nil, List.Pairwise.nil⟩ ls

end PlaylistDb

end Waywallen
