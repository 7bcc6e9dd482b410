import Waywallen.Library.Evolves
import Waywallen.Store.Sync

/-!
# What a sync writes before its sweep

Until it deletes the stale rows, a sync only adds rows and refreshes the rows of its plugin at the
places of its entries. Each of its steps is specified by this relation, which composes.
-/

namespace Waywallen

/-- The columns of an item that no upsert touches. -/
structure Item.SameRow (j i : Item) : Prop where
  id : j.id = i.id
  libraryId : j.libraryId = i.libraryId
  path : j.path = i.path
  userPropertyOverrides : j.userPropertyOverrides = i.userPropertyOverrides
  wallpaperLayoutOverride : j.wallpaperLayoutOverride = i.wallpaperLayoutOverride

theorem Item.SameRow.refl (i : Item) : i.SameRow i :=
  ⟨rfl, rfl, rfl, rfl, rfl⟩

theorem Item.SameRow.trans {k j i : Item} (h : k.SameRow j) (h' : j.SameRow i) : k.SameRow i :=
  ⟨h.1.trans h'.1, h.2.trans h'.2, h.3.trans h'.3, h.4.trans h'.4, h.5.trans h'.5⟩

/-- The library `l` belongs to the plugin called `name`. -/
def Db.Owns (db : Db) (name : String) (l : Library) : Prop :=
  l ∈ db.libraries ∧ ∃ p ∈ db.plugins, p.id = l.pluginId ∧ p.name = name

section

variable (name : String) (seen : Int) (places : List (String × String))

/-- The item was synced at `seen` or later, at one of the places. -/
def Db.Wrote (db : Db) (j : Item) : Prop :=
  seen ≤ j.syncAt ∧ ∃ l, db.Owns name l ∧ l.id = j.libraryId ∧ (l.path, j.path) ∈ places

/-- The part of a sync from `s` to `s'` deletes nothing and writes only rows of its plugin. -/
structure Written (s s' : Session) : Prop where
  plugins : ∀ p ∈ s.db.plugins, ∃ q ∈ s'.db.plugins, q.id = p.id ∧ q.name = p.name
  libraries : ∀ l ∈ s.db.libraries, l ∈ s'.db.libraries
  playlistItems : s'.db.playlistItems = s.db.playlistItems
  kept : ∀ i ∈ s.db.items, ∃ j ∈ s'.db.items, j.SameRow i ∧
    (j = i ∨ s'.db.Wrote name seen places j)
  only : ∀ j ∈ s'.db.items, j ∈ s.db.items ∨ s'.db.Wrote name seen places j
  upserted : ∀ n ∈ s'.upserted, n ∈ s.upserted ∨
    ∃ j ∈ s'.db.items, j.id = n ∧ s'.db.Wrote name seen places j

end

variable {name : String} {seen : Int} {places : List (String × String)} {s s' t : Session}

theorem Written.owns (h : Written name seen places s s') {n : String} {l : Library}
    (hl : s.db.Owns n l) : s'.db.Owns n l := by
  obtain ⟨hmem, p, hp, hid, hname⟩ := hl
  obtain ⟨q, hq, hqid, hqname⟩ := h.plugins p hp
  exact ⟨h.libraries l hmem, q, hq, hqid.trans hid, hqname.trans hname⟩

theorem Written.wrote (h : Written name seen places s s') {j : Item}
    (hj : s.db.Wrote name seen places j) : s'.db.Wrote name seen places j := by
  obtain ⟨hseen, l, hl, hid, hmem⟩ := hj
  exact ⟨hseen, l, h.owns hl, hid, hmem⟩

/-- A step that leaves the database and the list of written items alone. -/
theorem Written.of_eq (hdb : s'.db = s.db) (hup : s'.upserted = s.upserted) :
    Written name seen places s s' where
  plugins p hp := ⟨p, hdb ▸ hp, rfl, rfl⟩
  libraries l hl := hdb ▸ hl
  playlistItems := by rw [hdb]
  kept i hi := ⟨i, hdb ▸ hi, .refl i, .inl rfl⟩
  only j hj := .inl (hdb ▸ hj)
  upserted n hn := .inl (hup ▸ hn)

instance : Std.Refl (Written name seen places) :=
  ⟨fun _ => .of_eq rfl rfl⟩

theorem Written.trans (h : Written name seen places s s') (h' : Written name seen places s' t) :
    Written name seen places s t where
  plugins p hp := by
    obtain ⟨q, hq, hid, hname⟩ := h.plugins p hp
    obtain ⟨r, hr, hid', hname'⟩ := h'.plugins q hq
    exact ⟨r, hr, hid'.trans hid, hname'.trans hname⟩
  libraries l hl := h'.libraries l (h.libraries l hl)
  playlistItems := h'.playlistItems.trans h.playlistItems
  kept i hi := by
    obtain ⟨j, hj, hsame, hor⟩ := h.kept i hi
    obtain ⟨k, hk, hsame', rfl | hw⟩ := h'.kept j hj
    · exact ⟨k, hk, hsame'.trans hsame, hor.imp id h'.wrote⟩
    · exact ⟨k, hk, hsame'.trans hsame, .inr hw⟩
  only k hk := by
    rcases h'.only k hk with hj | hw
    · exact (h.only k hj).imp id h'.wrote
    · exact .inr hw
  upserted n hn := by
    rcases h'.upserted n hn with hn | hw
    · rcases h.upserted n hn with hn | ⟨j, hj, hid, hw⟩
      · exact .inl hn
      · obtain ⟨k, hk, hsame, rfl | hw'⟩ := h'.kept j hj
        · exact .inr ⟨k, hk, hid, h'.wrote hw⟩
        · exact .inr ⟨k, hk, hsame.id.trans hid, hw'⟩
    · exact .inr hw

instance : IsTrans Session (Written name seen places) :=
  ⟨fun _ _ _ => .trans⟩

/-- A part of the sync as a step of the relation; it ends with an error only when a database call
failed. -/
abbrev Writes (o : Outside) (name : String) (seen : Int) (places : List (String × String))
    {α : Type} (P : Session → Prop) (m : SessionM α) (Q : α → Session → Prop) : Prop :=
  Evolves (Written name seen places) (∃ n, o.fails n = true) P m Q

/-! ## Calls -/

section

variable {o : Outside} {α : Type} {P : Session → Prop} {Q : α → Session → Prop}

theorem writes_call {context : String} {f : Db → Option (α × Db)}
    (h : ∀ s, P s → ∃ a db, f s.db = some (a, db) ∧
      Written name seen places s ⟨db, s.asked + 1, s.upserted⟩ ∧
      Q a ⟨db, s.asked + 1, s.upserted⟩) :
    Writes o name seen places P (call o context f) Q := by
  intro s hs
  obtain ⟨a, db, hf, hw, hq⟩ := h s hs
  by_cases hfail : o.fails s.asked = true
  · simp only [call, hfail, if_true]
    exact ⟨.of_eq rfl rfl, s.asked, hfail⟩
  · simp only [call, hfail, hf]
    exact ⟨hw, hq⟩

theorem writes_select {context : String} {f : Db → α}
    (h : ∀ s, P s → Q (f s.db) ⟨s.db, s.asked + 1, s.upserted⟩) :
    Writes o name seen places P (select o context f) Q :=
  writes_call fun s hs => ⟨f s.db, s.db, rfl, .of_eq rfl rfl, h s hs⟩

theorem writes_nowMs {Q : Int → Session → Prop}
    (h : ∀ s, P s → Q (o.now s.asked) ⟨s.db, s.asked + 1, s.upserted⟩) :
    Writes o name seen places P (nowMs o) Q :=
  fun s hs => ⟨.of_eq rfl rfl, h s hs⟩

end

/-! ## Plugins, libraries and tags -/

/-- A plugin with the given id and name is registered. -/
def Db.HasPlugin (db : Db) (id : ℕ) (name : String) : Prop :=
  ∃ p ∈ db.plugins, p.id = id ∧ p.name = name

theorem Written.hasPlugin (h : Written name seen places s s') {id : ℕ} {n : String}
    (hp : s.db.HasPlugin id n) : s'.db.HasPlugin id n := by
  obtain ⟨p, hp, hid, hname⟩ := hp
  obtain ⟨q, hq, hqid, hqname⟩ := h.plugins p hp
  exact ⟨q, hq, hqid.trans hid, hqname.trans hname⟩

theorem Db.of_insertPlugin {db db' : Db} {name version : String} {p : SourcePlugin}
    (h : db.insertPlugin name version = some (p, db')) : p.name = name ∧
      (∀ q, q ∈ db'.plugins ↔ q ∈ db.plugins ∨ q = p) ∧ db'.libraries = db.libraries ∧
      db'.items = db.items ∧ db'.playlistItems = db.playlistItems := by
  unfold insertPlugin at h
  dsimp only at h
  split at h
  · cases h
  · rename_i p' plugins hins
    obtain ⟨rfl, rfl⟩ := Prod.mk.inj (Option.some_inj.1 h)
    obtain ⟨-, hp, hmem⟩ := Table.insert_eq_some hins
    exact ⟨by rw [hp], hmem, rfl, rfl, rfl⟩

theorem Db.exists_insertPlugin {db : Db} {name : String} (version : String)
    (h : db.plugins.find name = none) : ∃ p db', db.insertPlugin name version = some (p, db') := by
  unfold insertPlugin
  dsimp only
  split
  · rename_i hnone
    exact absurd h (Table.insert_eq_none.1 hnone)
  · exact ⟨_, _, rfl⟩

theorem Db.of_insertLibrary {db db' : Db} {pluginId : ℕ} {path : String} {l : Library}
    (h : db.insertLibrary pluginId path = some (l, db')) :
    db.libraries.find (pluginId, path) = none ∧ (l.pluginId, l.path) = (pluginId, path) ∧
      (∀ m, m ∈ db'.libraries ↔ m ∈ db.libraries ∨ m = l) ∧ db'.plugins = db.plugins ∧
      db'.items = db.items ∧ db'.playlistItems = db.playlistItems := by
  unfold insertLibrary at h
  split at h
  · dsimp only at h
    split at h
    · cases h
    · rename_i l' libraries hins
      obtain ⟨rfl, rfl⟩ := Prod.mk.inj (Option.some_inj.1 h)
      obtain ⟨hfind, hl, hmem⟩ := Table.insert_eq_some hins
      exact ⟨hfind, by rw [hl], hmem, rfl, rfl, rfl⟩
  · cases h

theorem Db.exists_insertLibrary {db : Db} {pluginId : ℕ} {path : String}
    (hp : ∃ p ∈ db.plugins.rows, p.id = pluginId)
    (h : db.libraries.find (pluginId, path) = none) :
    ∃ l db', db.insertLibrary pluginId path = some (l, db') := by
  unfold insertLibrary
  rw [dif_pos hp]
  dsimp only
  split
  · rename_i hnone
    exact absurd h (Table.insert_eq_none.1 hnone)
  · exact ⟨_, _, rfl⟩

theorem Written.of_plugins {db : Db} {n : ℕ}
    (hp : ∀ p ∈ s.db.plugins, ∃ q ∈ db.plugins, q.id = p.id ∧ q.name = p.name)
    (hl : ∀ l ∈ s.db.libraries, l ∈ db.libraries) (hi : db.items = s.db.items)
    (he : db.playlistItems = s.db.playlistItems) :
    Written name seen places s ⟨db, n, s.upserted⟩ where
  plugins := hp
  libraries := hl
  playlistItems := he
  kept i h := ⟨i, hi ▸ h, .refl i, .inl rfl⟩
  only _ h := .inl (hi ▸ h)
  upserted _ h := .inl h

variable {o : Outside}

theorem writes_upsertPlugin {n version : String} :
    Writes o name seen places (fun _ => True) (upsertPlugin o n version)
      fun p s => s.db.HasPlugin p.id n := by
  refine .bind (Q := fun r s => r = s.db.plugins.find n) (writes_select fun s _ => rfl) ?_
  rintro (_ | p)
  · refine writes_call fun s hs => ?_
    obtain ⟨p, db, hdb⟩ := Db.exists_insertPlugin version hs.symm
    obtain ⟨hname, hmem, hl, hi, he⟩ := Db.of_insertPlugin hdb
    exact ⟨p, db, hdb, .of_plugins (fun q hq => ⟨q, (hmem q).2 (.inl hq), rfl, rfl⟩)
      (fun l h => hl ▸ h) hi he, p, (hmem p).2 (.inr rfl), rfl, hname⟩
  · have hhas (s : Session) (h : some p = s.db.plugins.find n) : s.db.HasPlugin p.id n :=
      ⟨p, (Table.find_eq_some.1 h.symm).1, rfl, (Table.find_eq_some.1 h.symm).2⟩
    dsimp only
    split
    · exact .pure hhas
    · refine .bind (Q := fun _ s => s.db.HasPlugin p.id n) (writes_call fun s hs => ?_)
        fun _ => .pure fun s hs => hs
      have hw : Written name seen places s
          ⟨s.db.updatePluginVersion p.id version, s.asked + 1, s.upserted⟩ :=
        .of_plugins (fun q hq => ⟨_, Table.mem_map.2 ⟨q, hq, rfl⟩, rfl, rfl⟩) (fun l h => h) rfl rfl
      exact ⟨(), _, rfl, hw, hw.hasPlugin (hhas s hs)⟩

theorem writes_findOrAddLibrary {pluginId : ℕ} {path n : String} :
    Writes o name seen places (fun s => s.db.HasPlugin pluginId n)
      (findOrAddLibrary o pluginId path)
      fun l s => s.db.Owns n l ∧ l.pluginId = pluginId ∧ l.path = path := by
  refine .bind (Q := fun r s => r = s.db.libraries.find (pluginId, path) ∧
    s.db.HasPlugin pluginId n) (writes_select fun s hs => ⟨rfl, hs⟩) ?_
  rintro (_ | l)
  · refine writes_call fun s hs => ?_
    obtain ⟨hfind, p, hp, hid, hname⟩ := hs
    obtain ⟨l, db, hdb⟩ := Db.exists_insertLibrary ⟨p, hp, hid⟩ hfind.symm
    obtain ⟨-, hkey, hmem, hpl, hi, he⟩ := Db.of_insertLibrary hdb
    obtain ⟨hpid, hpath⟩ := Prod.mk.inj hkey
    exact ⟨l, db, hdb, .of_plugins (fun q hq => ⟨q, hpl ▸ hq, rfl, rfl⟩)
      (fun k hk => (hmem k).2 (.inl hk)) hi he,
      ⟨(hmem l).2 (.inr rfl), p, hpl ▸ hp, hid.trans hpid.symm, hname⟩, hpid, hpath⟩
  · refine .pure fun s hs => ?_
    obtain ⟨hfind, p, hp, hid, hname⟩ := hs
    obtain ⟨hmem, hkey⟩ := Table.find_eq_some.1 hfind.symm
    have hpid : l.pluginId = pluginId := congrArg Prod.fst hkey
    exact ⟨⟨hmem, p, hp, hid.trans hpid.symm, hname⟩, hpid, congrArg Prod.snd hkey⟩

/-- A call that changes none of the tables the relation reads. -/
theorem writes_tags {context : String} {α : Type} {f : Db → Option (α × Db)}
    (h : ∀ db, ∃ a db', f db = some (a, db') ∧ db'.plugins = db.plugins ∧
      db'.libraries = db.libraries ∧ db'.items = db.items ∧
      db'.playlistItems = db.playlistItems) :
    Writes o name seen places (fun _ => True) (call o context f) fun _ _ => True := by
  refine writes_call fun s _ => ?_
  obtain ⟨a, db, hf, hp, hl, hi, he⟩ := h s.db
  exact ⟨a, db, hf, .of_plugins (fun q hq => ⟨q, hp ▸ hq, rfl, rfl⟩) (fun l h => hl ▸ h) hi he,
    trivial⟩

theorem writes_upsertTag {n : String} :
    Writes o name seen places (fun _ => True) (upsertTag o n) fun _ _ => True := by
  refine .bind (Q := fun r s => r = s.db.tags.find n.toLower) (writes_select fun s _ => rfl) ?_
  rintro (_ | tag)
  · refine writes_call fun s hs => ?_
    obtain ⟨r, hr⟩ := Option.ne_none_iff_exists'.1 fun hnone =>
      Table.insert_eq_none (f := ⟨fun i => ⟨i, n⟩, fun _ => rfl, fun _ => rfl⟩).1 hnone hs.symm
    exact ⟨r.1, _, Option.map_eq_some_iff.2 ⟨r, hr, rfl⟩,
      .of_plugins (fun q hq => ⟨q, hq, rfl, rfl⟩) (fun l h => h) rfl rfl, trivial⟩
  · exact .pure fun _ _ => trivial

theorem writes_mapM {α β : Type} {f : α → SessionM β} {l : List α}
    (h : ∀ a, Writes o name seen places (fun _ => True) (f a) fun _ _ => True) :
    Writes o name seen places (fun _ => True) (l.mapM f) fun _ _ => True := by
  induction l with
  | nil => exact .pure fun _ _ => trivial
  | cons a l ih =>
    rw [List.mapM_cons]
    exact .bind (h a) fun _ => .bind ih fun _ => .pure fun _ _ => trivial

theorem writes_upsertTags {names : List String} :
    Writes o name seen places (fun _ => True) (upsertTags o names) fun _ _ => True :=
  writes_mapM fun _ => writes_upsertTag

theorem writes_replaceItemTags {id : ℕ} {ids : List ℕ} :
    Writes o name seen places (fun _ => True) (replaceItemTags o id ids) fun _ _ => True := by
  have hskip (context : String) :
      Writes o name seen places (fun _ => True) (select o context fun _ => ()) fun _ _ => True :=
    writes_select fun _ _ => trivial
  have hcommit : Writes o name seen places (fun _ => True)
      (execute o "commit tx" fun db => some (db.replaceItemTags id ids)) fun _ _ => True :=
    writes_tags fun db => ⟨(), _, rfl, rfl, rfl, rfl, rfl⟩
  refine .bind (hskip _) fun _ => .bind (hskip _) fun _ => ?_
  split
  · exact .bind (hskip _) fun _ => hcommit
  · exact hcommit

/-! ## Items -/

/-- The item at `rel` in the library `l` was synced at `seen` or later. -/
def Db.Fresh (db : Db) (seen : Int) (l : Library) (rel : String) : Prop :=
  ∃ j ∈ db.items, j.libraryId = l.id ∧ j.path = rel ∧ seen ≤ j.syncAt

theorem Written.fresh (h : Written name seen places s s') {l : Library} {rel : String}
    (hs : s.db.Fresh seen l rel) : s'.db.Fresh seen l rel := by
  obtain ⟨j, hj, hlib, hrel, hseen⟩ := hs
  obtain ⟨k, hk, hsame, hor⟩ := h.kept j hj
  refine ⟨k, hk, hsame.libraryId.trans hlib, hsame.path.trans hrel, ?_⟩
  rcases hor with rfl | hw
  · exact hseen
  · exact hw.1

/-- The library of the plugin at a place has a fresh item there. -/
def Db.Placed (db : Db) (name : String) (seen : Int) (place : String × String) : Prop :=
  ∃ l, db.Owns name l ∧ l.path = place.1 ∧ db.Fresh seen l place.2

theorem Written.placed (h : Written name seen places s s') {place : String × String}
    (hs : s.db.Placed name seen place) : s'.db.Placed name seen place := by
  obtain ⟨l, hl, hpath, hfresh⟩ := hs
  exact ⟨l, h.owns hl, hpath, h.fresh hfresh⟩

/-- What an upsert of an item does to the table of items. -/
theorem Db.upsertItem_eq_some {db : Db} (ty : String) (now : Int) {args : ItemUpsertArgs}
    (hp : ∃ p ∈ db.plugins.rows, p.id = args.pluginId)
    (hl : ∃ l ∈ db.libraries.rows, l.id = args.libraryId) :
    ∃ db', db.upsertItem ty now args = some db' ∧ db'.plugins = db.plugins ∧
      db'.libraries = db.libraries ∧ db'.playlistItems = db.playlistItems ∧
      (∀ i ∈ db.items, ∃ j ∈ db'.items, j.SameRow i ∧
        (j = i ∨ i.libraryId = args.libraryId ∧ i.path = args.path ∧ j.syncAt = now)) ∧
      (∃ j ∈ db'.items, j.libraryId = args.libraryId ∧ j.path = args.path ∧ j.syncAt = now) ∧
      ∀ j ∈ db'.items, j ∈ db.items ∨
        j.libraryId = args.libraryId ∧ j.path = args.path ∧ j.syncAt = now := by
  unfold Db.upsertItem
  rw [dif_pos hp, dif_pos hl]
  refine ⟨_, rfl, rfl, rfl, rfl, fun i hi => ?_, ?_, fun j hj => ?_⟩
  · by_cases hkey : Item.schema.key i = (args.libraryId, args.path)
    · have hlib : i.libraryId = args.libraryId := congrArg Prod.fst hkey
      have hpath : i.path = args.path := congrArg Prod.snd hkey
      exact ⟨_, Table.mem_upsert.2 (.inr (.inl ⟨i, hi, hkey, rfl⟩)), ⟨rfl, rfl, rfl, rfl, rfl⟩,
        .inr ⟨hlib, hpath, rfl⟩⟩
    · exact ⟨i, Table.mem_upsert.2 (.inl ⟨hi, hkey⟩), .refl i, .inl rfl⟩
  · rcases hfind : db.items.find (args.libraryId, args.path) with _ | i
    · exact ⟨_, Table.mem_upsert.2 (.inr (.inr ⟨hfind, rfl⟩)), rfl, rfl, rfl⟩
    · obtain ⟨hi, hkey⟩ := Table.find_eq_some.1 hfind
      exact ⟨_, Table.mem_upsert.2 (.inr (.inl ⟨i, hi, hkey, rfl⟩)), congrArg Prod.fst hkey,
        congrArg Prod.snd hkey, rfl⟩
  · rcases Table.mem_upsert.1 hj with ⟨hj, -⟩ | ⟨i, -, hkey, rfl⟩ | ⟨-, rfl⟩
    · exact .inl hj
    · exact .inr ⟨congrArg Prod.fst hkey, congrArg Prod.snd hkey, rfl⟩
    · exact .inr ⟨rfl, rfl, rfl⟩

/-- The library `l` is the plugin's and `rel` is one of the places below it. -/
structure Session.Ready (s : Session) (name : String) (places : List (String × String))
    (l : Library) (rel : String) : Prop where
  owns : s.db.Owns name l
  place : (l.path, rel) ∈ places

theorem Written.ready (h : Written name seen places s s') {l : Library} {rel : String}
    (hs : s.Ready name places l rel) : s'.Ready name places l rel :=
  ⟨h.owns hs.owns, hs.place⟩

theorem writes_execute_upsertItem {context ty : String} {now : Int} {args : ItemUpsertArgs}
    {l : Library} {rel : String} (hseen : seen ≤ now) (hpid : args.pluginId = l.pluginId)
    (hlib : args.libraryId = l.id) (hrel : args.path = rel) :
    Writes o name seen places (fun s => s.Ready name places l rel)
      (execute o context fun db => db.upsertItem ty now args)
      fun _ s => s.Ready name places l rel ∧ s.db.Fresh seen l rel := by
  refine writes_call fun s hs => ?_
  obtain ⟨hmem, p, hp, hid, hname⟩ := hs.owns
  obtain ⟨db, hdb, hpl, hl, he, hkept, ⟨j, hj, hjlib, hjpath, hjsync⟩, honly⟩ :=
    Db.upsertItem_eq_some ty now ⟨p, hp, hid.trans hpid.symm⟩
      ⟨l, hmem, hlib.symm⟩
  have howns : db.Owns name l := ⟨hl ▸ hmem, p, hpl ▸ hp, hid, hname⟩
  have hwrote (k : Item) (hklib : k.libraryId = args.libraryId) (hkpath : k.path = args.path)
      (hk : k.syncAt = now) : db.Wrote name seen places k :=
    ⟨hk ▸ hseen, l, howns, (hklib.trans hlib).symm, (hkpath.trans hrel) ▸ hs.place⟩
  refine ⟨(), db, Option.map_eq_some_iff.2 ⟨db, hdb, rfl⟩,
    ⟨fun q hq => ⟨q, hpl ▸ hq, rfl, rfl⟩, fun k hk => hl ▸ hk, he, fun i hi => ?_, fun k hk => ?_,
      fun n hn => .inl hn⟩,
    ⟨howns, hs.place⟩, j, hj, hjlib.trans hlib, hjpath.trans hrel, hjsync ▸ hseen⟩
  · obtain ⟨k, hk, hsame, rfl | ⟨hilib, hipath, hsync⟩⟩ := hkept i hi
    · exact ⟨k, hk, hsame, .inl rfl⟩
    · exact ⟨k, hk, hsame, .inr
        (hwrote k (hsame.libraryId.trans hilib) (hsame.path.trans hipath) hsync)⟩
  · exact (honly k hk).imp id fun h => hwrote k h.1 h.2.1 h.2.2

/-- The item at the unique column of a fresh item is this item. -/
theorem Db.Fresh.find {db : Db} {l : Library} {rel : String} (h : db.Fresh seen l rel) :
    ∃ j, db.items.find (l.id, rel) = some j ∧ seen ≤ j.syncAt := by
  obtain ⟨j, hj, hlib, hpath, hseen⟩ := h
  exact ⟨j, Table.find_eq_some.2 ⟨hj, by rw [← hlib, ← hpath]; rfl⟩, hseen⟩

theorem writes_recordUpsert {l : Library} {rel : String} :
    Writes o name seen places (fun s => s.Ready name places l rel ∧ s.db.Fresh seen l rel)
      (recordUpsert (l.id, rel))
      fun _ s => s.Ready name places l rel ∧ s.db.Fresh seen l rel := by
  rintro s ⟨hready, hfresh⟩
  obtain ⟨j, hfind, hseen⟩ := hfresh.find
  obtain ⟨hj, hkey⟩ := Table.find_eq_some.1 hfind
  refine ⟨⟨fun p hp => ⟨p, hp, rfl, rfl⟩, fun l hl => hl, rfl, fun i hi => ⟨i, hi, .refl i,
    .inl rfl⟩, fun i hi => .inl hi, fun n hn => ?_⟩, ⟨hready.owns, hready.place⟩, hfresh⟩
  rcases List.mem_append.1 hn with hn | hn
  · exact .inl hn
  · rw [hfind] at hn
    refine .inr ⟨j, hj, (List.mem_singleton.1 hn).symm, hseen, l, hready.owns,
      (congrArg Prod.fst hkey).symm, ?_⟩
    have hpath : j.path = rel := congrArg Prod.snd hkey
    exact hpath ▸ hready.place

variable {l : Library} {rel : String} (hclock : ∀ n, seen ≤ o.now n)

include hclock

theorem writes_upsertItem {args : ItemUpsertArgs} (hpid : args.pluginId = l.pluginId)
    (hlib : args.libraryId = l.id) (hrel : args.path = rel) :
    Writes o name seen places (fun s => s.Ready name places l rel) (upsertItem o args)
      fun _ s => s.db.Fresh seen l rel := by
  refine .bind (Q := fun now s => s.Ready name places l rel ∧ seen ≤ now)
    (writes_nowMs fun s hs => ⟨⟨hs.owns, hs.place⟩, hclock _⟩) fun now => ?_
  by_cases hnow : seen ≤ now
  · refine .bind ((writes_execute_upsertItem hnow hpid hlib hrel).mono (fun s hs => hs.1)
      fun _ _ h => h) fun _ => ?_
    rw [hlib, hrel]
    refine .bind writes_recordUpsert fun _ => ?_
    refine .bind (Q := fun r s => r = s.db.items.find (l.id, rel) ∧
      s.db.Fresh seen l rel) (writes_select fun s hs => ⟨rfl, hs.2⟩) ?_
    rintro (_ | item)
    · rintro s ⟨hnone, hfresh⟩
      obtain ⟨j, hfind, -⟩ := hfresh.find
      rw [hfind] at hnone
      cases hnone
    · exact .pure fun s hs => hs.2
  · exact fun s hs => absurd hs.2 hnow

theorem writes_syncItem {pluginId : ℕ} {tagIds : HashMap String ℕ} {root : String}
    {entry : WallpaperEntry} (hpid : pluginId = l.pluginId) :
    Writes o name seen places (fun s => s.Ready name places l rel)
      (syncItem o pluginId tagIds l root rel entry) fun _ s => s.db.Fresh seen l rel :=
  .bind (writes_upsertItem hclock hpid rfl rfl) fun _ =>
    ((writes_replaceItemTags.frame fun _ _ hw hs => hw.fresh hs).mono
      (fun _ hs => ⟨trivial, hs⟩) fun _ _ hs => hs.2)

theorem writes_syncItems {pluginId : ℕ} {tagIds : HashMap String ℕ} {root : String}
    {items : List (String × WallpaperEntry)} (hpid : pluginId = l.pluginId)
    (hplaces : ∀ e ∈ items, (l.path, e.1) ∈ places) :
    Writes o name seen places (fun s => s.db.Owns name l)
      (syncItems o pluginId tagIds l root items)
      fun _ s => s.db.Owns name l ∧ ∀ e ∈ items, s.db.Fresh seen l e.1 := by
  induction items with
  | nil => exact .pure fun s hs => ⟨hs, by simp⟩
  | cons e items ih =>
    have hitem : Writes o name seen places (fun s => s.db.Owns name l)
        (syncItem o pluginId tagIds l root e.1 e.2)
        fun _ s => s.db.Fresh seen l e.1 ∧ s.db.Owns name l :=
      ((writes_syncItem hclock hpid).frame fun _ _ hw hs => hw.owns hs).mono
        (fun _ hs => ⟨⟨hs, hplaces e (.head _)⟩, hs⟩) fun _ _ hs => hs
    have hrest := (ih fun e he => hplaces e (.tail _ he)).frame
      (F := fun s => s.db.Fresh seen l e.1) fun _ _ hw hs => hw.fresh hs
    refine .bind hitem fun _ => hrest.mono (fun _ hs => hs.symm) fun _ s hs => ⟨hs.1.1, ?_⟩
    intro e' he'
    rcases List.mem_cons.1 he' with rfl | he'
    · exact hs.2
    · exact hs.1.2 e' he'

/-- The places of a group. -/
def placesOf (groups : List (Sigma fun _ : String => List (String × WallpaperEntry))) :
    List (String × String) :=
  groups.flatMap fun g => g.2.map fun e => (g.1, e.1)

theorem writes_syncGroups {pluginId : ℕ} {tagIds : HashMap String ℕ}
    {groups : List (Sigma fun _ : String => List (String × WallpaperEntry))}
    (hplaces : ∀ place ∈ placesOf groups, place ∈ places) :
    Writes o name seen places (fun s => s.db.HasPlugin pluginId name)
      (syncGroups o pluginId tagIds groups)
      fun _ s => s.db.HasPlugin pluginId name ∧
        ∀ place ∈ placesOf groups, s.db.Placed name seen place := by
  induction groups with
  | nil => exact .pure fun s hs => ⟨hs, by simp [placesOf]⟩
  | cons g groups ih =>
    obtain ⟨root, items⟩ := g
    have hhere : ∀ e ∈ items, (root, e.1) ∈ places := fun e he =>
      hplaces _ (List.mem_flatMap.2 ⟨_, .head _, List.mem_map_of_mem he⟩)
    have hthere : ∀ place ∈ placesOf groups, place ∈ places := fun place hp =>
      hplaces place (List.mem_append_right _ hp)
    have hlibrary : Writes o name seen places (fun s => s.db.HasPlugin pluginId name)
        (findOrAddLibrary o pluginId root) fun l s =>
          (s.db.Owns name l ∧ l.pluginId = pluginId ∧ l.path = root) ∧
            s.db.HasPlugin pluginId name :=
      (writes_findOrAddLibrary.frame fun _ _ hw hs => hw.hasPlugin hs).mono
        (fun _ hs => ⟨hs, hs⟩) fun _ _ hs => hs
    refine .bind hlibrary fun l s hs => ?_
    obtain ⟨⟨howns, hpid, rfl⟩, hplugin⟩ := hs
    have hitems : Writes o name seen places
        (fun s => s.db.Owns name l ∧ s.db.HasPlugin pluginId name)
        (syncItems o pluginId tagIds l l.path items)
        fun _ s => s.db.HasPlugin pluginId name ∧
          ∀ e ∈ items, s.db.Placed name seen (l.path, e.1) :=
      ((writes_syncItems hclock hpid.symm hhere).frame fun _ _ hw hs => hw.hasPlugin hs).mono
        (fun _ hs => hs) fun _ _ hs => ⟨hs.2, fun e he => ⟨l, hs.1.1, rfl, hs.1.2 e he⟩⟩
    have hrest := (ih hthere).frame
      (F := fun s => ∀ e ∈ items, s.db.Placed name seen (l.path, e.1)) fun _ _ hw hs e he =>
        hw.placed (hs e he)
    refine (Evolves.bind hitems fun _ => hrest.mono (fun _ hs => hs) ?_) s ⟨howns, hplugin⟩
    rintro _ s ⟨⟨hplugin, hall⟩, hnew⟩
    refine ⟨hplugin, fun place hp => ?_⟩
    rcases List.mem_append.1 hp with hp | hp
    · obtain ⟨e, he, rfl⟩ := List.mem_map.1 hp
      exact hnew e he
    · exact hall place hp

end Waywallen
