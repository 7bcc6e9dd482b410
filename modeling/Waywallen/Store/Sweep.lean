import Waywallen.Store.Refresh
import Waywallen.Store.Written

/-!
# Which rows a refresh deletes

A sync deletes a row of its plugin when the library of the row is present, the row is at none of
the places of the entries, and it was last synced before the sync started. A refresh deletes what
its syncs delete, whether or not the scans succeeded.
-/

namespace Waywallen

variable {o : Outside} {name : String} {seen : Int} {places : List (String × String)}
  {s s' t : Session}

/-! ## The places of the entries -/

theorem mem_placesOf {grouped : Grouped} {place : String × String} :
    place ∈ placesOf grouped.entries ↔
      ∃ items, grouped.lookup place.1 = some items ∧ ∃ e ∈ items, e.1 = place.2 := by
  rw [placesOf, List.mem_flatMap]
  constructor
  · rintro ⟨g, hg, hp⟩
    obtain ⟨e, he, rfl⟩ := List.mem_map.1 hp
    exact ⟨g.2, (List.mem_dlookup_iff grouped.nodupKeys).2 hg, e, he, rfl⟩
  · rintro ⟨items, hlookup, e, he, hrel⟩
    exact ⟨⟨place.1, items⟩, (List.mem_dlookup_iff grouped.nodupKeys).1 hlookup,
      List.mem_map.2 ⟨e, he, by rw [hrel]⟩⟩

theorem mem_placesOf_foldl {entries : List WallpaperEntry} {grouped : Grouped}
    {place : String × String} :
    place ∈ placesOf (entries.foldl (fun grouped entry =>
      match entry.place with
      | some (root, rel) => grouped.insert root ((grouped.lookup root).getD [] ++ [(rel, entry)])
      | none => grouped) grouped).entries ↔
      place ∈ placesOf grouped.entries ∨ place ∈ entries.filterMap WallpaperEntry.place := by
  induction entries generalizing grouped with
  | nil => simp
  | cons entry entries ih =>
    rw [List.foldl_cons, ih]
    rcases hp : entry.place with _ | ⟨root, rel⟩
    · rw [List.filterMap_cons_none hp]
    · rw [List.filterMap_cons_some hp, List.mem_cons, ← or_assoc]
      refine or_congr_left ?_
      rw [mem_placesOf, mem_placesOf]
      obtain ⟨a, b⟩ := place
      simp only [HashMap.lookup_insert_eq, Prod.mk.injEq]
      by_cases ha : a = root
      · subst ha
        rcases hl : grouped.lookup a with _ | items
        · simp [eq_comm]
        · simp [eq_comm, exists_or]
      · simp [ha]

/-- The groups have the places of the entries. -/
theorem mem_placesOf_order (g : GroupOrder) {entries : List WallpaperEntry}
    {place : String × String} :
    place ∈ placesOf (g.order (group entries)) ↔
      place ∈ entries.filterMap WallpaperEntry.place := by
  have hperm := ((g.perm (group entries)).flatMap_right fun g => g.2.map fun e => (g.1, e.1))
  rw [placesOf, hperm.mem_iff]
  exact mem_placesOf_foldl.trans (by simp [placesOf])

/-! ## One sync -/

theorem writes_withContext {context : String} {α : Type} {P : Session → Prop} {m : SessionM α}
    {Q : α → Session → Prop} (h : Writes o name seen places P m Q) :
    Writes o name seen places P (withContext context m) Q := by
  intro s hs
  have hrun := h s hs
  rw [withContext, tryCatch_apply]
  rcases hm : m s with ⟨a, s'⟩ | ⟨e, s'⟩
  · rw [hm] at hrun
    exact hrun
  · rw [hm] at hrun
    exact hrun

theorem writes_writePluginEntries {g : GroupOrder} {version : String}
    {entries : List WallpaperEntry} (hclock : Monotone o.now) :
    Writes o name (o.now 0) (entries.filterMap WallpaperEntry.place) (fun s => s.asked = 0)
      (writePluginEntries o g name version entries)
      fun r s => r.1 = o.now 0 ∧ s.db.HasPlugin r.2.id name ∧
        ∀ place ∈ entries.filterMap WallpaperEntry.place, s.db.Placed name (o.now 0) place := by
  have hseen (n : ℕ) : o.now 0 ≤ o.now n := hclock n.zero_le
  refine .bind (Q := fun t _ => t = o.now 0) (writes_nowMs fun s hs => by rw [hs]) fun t => ?_
  by_cases ht : t = o.now 0
  · subst ht
    refine .bind ((writes_withContext writes_upsertPlugin).mono (fun _ _ => trivial)
      fun _ _ h => h) fun plugin => ?_
    have htags : Writes o name (o.now 0) (entries.filterMap WallpaperEntry.place)
        (fun s => s.db.HasPlugin plugin.id name)
        (upsertTags o (entries.flatMap WallpaperEntry.tags))
        fun _ s => s.db.HasPlugin plugin.id name :=
      (writes_upsertTags.frame fun _ _ hw hs => hw.hasPlugin hs).mono
        (fun _ hs => ⟨trivial, hs⟩) fun _ _ hs => hs.2
    refine .bind htags fun tags => .bind (writes_syncGroups hseen fun place hp =>
      (mem_placesOf_order g).1 hp) fun _ => .pure fun s hs => ⟨rfl, hs.1, fun place hp => ?_⟩
    exact hs.2 place ((mem_placesOf_order g).2 hp)
  · exact fun s hs => absurd hs ht

/-- The item is in a present library of the plugin and was last synced before `seen`. -/
def Db.Stale (db : Db) (name : String) (seen : Int) (present : List String) (j : Item) : Prop :=
  j.syncAt < seen ∧ ∃ l, db.Owns name l ∧ l.id = j.libraryId ∧ l.path ∈ present

/-- The sweep deletes the stale items, and the playlist entries that refer to them. -/
structure Session.Swept (name : String) (seen : Int) (present : List String) (s s' : Session) :
    Prop where
  plugins : s'.db.plugins = s.db.plugins
  libraries : s'.db.libraries = s.db.libraries
  items : ∀ j, j ∈ s'.db.items ↔ j ∈ s.db.items ∧ ¬s.db.Stale name seen present j
  playlistItems : ∀ e ∈ s.db.playlistItems,
    (∀ j ∈ s.db.items, j.id = e.entryId → ¬s.db.Stale name seen present j) →
      e ∈ s'.db.playlistItems
  upserted : s'.upserted = s.upserted

theorem Db.HasPlugin.id_eq {db : Db} {n m : ℕ} {name : String} (h : db.HasPlugin n name)
    (h' : db.HasPlugin m name) : n = m := by
  obtain ⟨p, hp, rfl, rfl⟩ := h
  obtain ⟨q, hq, rfl, hname⟩ := h'
  rw [Table.key_injective hp hq hname.symm]

theorem Db.owns_iff {db : Db} {n : ℕ} {l : Library} (h : db.HasPlugin n name) :
    db.Owns name l ↔ l ∈ db.libraries ∧ l.pluginId = n := by
  constructor
  · rintro ⟨hl, hp⟩
    exact ⟨hl, Db.HasPlugin.id_eq hp h⟩
  · rintro ⟨hl, rfl⟩
    exact ⟨hl, h⟩

theorem finalState_call {α : Type} {context : String} {f : Db → Option (α × Db)} :
    finalState (call o context f) s =
      { s with
        db := ((if o.fails s.asked then none else f s.db).map Prod.snd).getD s.db
        asked := s.asked + 1 } := by
  rw [finalState, call]
  rcases (if o.fails s.asked then none else f s.db) with _ | ⟨a, db⟩ <;> rfl

/-- What the deletion of the stale items does. -/
theorem Session.Swept.deleteItems {n : ℕ} {present : List String} {stale : Item → Bool}
    (h : ∀ j ∈ s.db.items, stale j = true ↔ s.db.Stale name seen present j) :
    s.Swept name seen present ⟨s.db.deleteItems stale, n, s.upserted⟩ where
  plugins := rfl
  libraries := rfl
  items j := by
    refine Table.mem_delete.trans (and_congr_right fun hj => ?_)
    rw [← h j hj, Bool.not_eq_true]
  playlistItems e he hkept := by
    refine List.mem_filter.2 ⟨he, ?_⟩
    rw [decide_eq_true_iff]
    intro hgone
    obtain ⟨j, hj, hid⟩ := List.mem_map.1 hgone
    rw [List.mem_filter] at hj
    exact hkept j hj.1 hid ((h j hj.1).1 hj.2)
  upserted := rfl

/-- The sweep deletes the stale items, or a database call fails and it deletes nothing. -/
theorem swept_of_sweep (o : Outside) (seen : Int) (present : List String) {pluginId : ℕ}
    (hplugin : s.db.HasPlugin pluginId name) :
    (∃ n, o.fails n = true) ∧ (∃ n, finalState (sweep o pluginId present seen) s =
        ⟨s.db, n, s.upserted⟩) ∨
      s.Swept name seen present (finalState (sweep o pluginId present seen) s) := by
  set libs := (s.db.libraries.rows.filter fun l => l.pluginId = pluginId).insertionSort
    fun l k => l.path ≤ k.path with hlibs
  set ids := (libs.filter fun l => l.path ∈ present).map Library.id with hids
  have hmem (n : ℕ) : n ∈ ids ↔ ∃ l, s.db.Owns name l ∧ l.id = n ∧ l.path ∈ present := by
    simp only [hids, hlibs, List.mem_map, List.mem_filter, List.mem_insertionSort,
      decide_eq_true_eq, Db.owns_iff hplugin]
    exact ⟨fun ⟨l, ⟨hl, hp⟩, hid⟩ => ⟨l, hl, hid, hp⟩, fun ⟨l, hl, hid, hp⟩ => ⟨l, ⟨hl, hp⟩, hid⟩⟩
  have hstale (j : Item) : (decide (j.libraryId ∈ ids) && decide (j.syncAt < seen)) = true ↔
      s.db.Stale name seen present j := by
    rw [Bool.and_eq_true, decide_eq_true_iff, decide_eq_true_iff, hmem, and_comm]
    rfl
  by_cases h₀ : o.fails s.asked = true
  · refine .inl ⟨⟨_, h₀⟩, s.asked + 1, ?_⟩
    simp [finalState, sweep, bind_apply, listLibrariesByPlugin, select, call, h₀]
  have hrun : finalState (sweep o pluginId present seen) s =
      finalState (deleteItemsSyncedBefore o ids seen) ⟨s.db, s.asked + 1, s.upserted⟩ := by
    simp [finalState, sweep, bind_apply, listLibrariesByPlugin, select, call, h₀, hids, hlibs]
  rw [hrun, deleteItemsSyncedBefore]
  by_cases hnil : ids = []
  · rw [if_pos hnil]
    refine .inr ⟨rfl, rfl, fun j => ?_, fun e he _ => he, rfl⟩
    have hnot : ¬s.db.Stale name seen present j := fun hj => by
      have h := (hstale j).2 hj
      simp [hnil] at h
    exact ⟨fun hj => ⟨hj, hnot⟩, fun hj => hj.1⟩
  · rw [if_neg hnil, finalState_call]
    by_cases h₁ : o.fails (s.asked + 1) = true
    · refine .inl ⟨⟨_, h₁⟩, s.asked + 2, ?_⟩
      rw [if_pos h₁]
      rfl
    · refine .inr ?_
      rw [if_neg h₁]
      exact .deleteItems fun j _ => hstale j

/-- A sync from `s` to `s'` writes at the places and sweeps, or a database call fails and it deletes
nothing. -/
def Synced (o : Outside) (name : String) (places : List (String × String)) (present : List String)
    (s s' : Session) : Prop :=
  (∃ n, o.fails n = true) ∧ Written name (o.now 0) places s s' ∨
    ∃ t, Written name (o.now 0) places s t ∧
      (∀ place ∈ places, t.db.Placed name (o.now 0) place) ∧ t.Swept name (o.now 0) present s'

theorem synced_syncPluginEntries {g : GroupOrder} {version : String}
    {entries : List WallpaperEntry} {present : List String} (hclock : Monotone o.now)
    (hs : s.asked = 0) :
    Synced o name (entries.filterMap WallpaperEntry.place) present s
      (finalState (syncPluginEntries o g name version entries present) s) := by
  have hwrite : Writes o name (o.now 0) _ (fun s => s.asked = 0)
      (writePluginEntries o g name version entries) _ := writes_writePluginEntries hclock
  rcases hwrite.finalState_bind hs with ⟨hw, hfail⟩ | ⟨⟨t, plugin⟩, s', hfinal, hw, ht, hplugin, hp⟩
  · exact .inl ⟨hfail, hw⟩
  · dsimp only at ht hplugin
    subst ht
    have hsweep := swept_of_sweep o (o.now 0) present hplugin
    rw [syncPluginEntries, hfinal]
    dsimp only
    rw [finalState_bind_pure]
    rcases hsweep with ⟨hfail, n, hn⟩ | hswept
    · rw [hn]
      exact .inl ⟨hfail, hw.trans (.of_eq rfl rfl)⟩
    · exact .inr ⟨s', hw, hp, hswept⟩

/-! ## One row -/

/-- The item `i` is in the library `l` of the plugin called `name`. -/
structure Db.Holds (db : Db) (name : String) (l : Library) (i : Item) : Prop where
  mem : i ∈ db.items
  owns : db.Owns name l
  id : l.id = i.libraryId

theorem Db.exists_holds {db : Db} {i : Item} (hi : i ∈ db.items) : ∃ n l, db.Holds n l i := by
  obtain ⟨l, hl, hid⟩ := db.item_library i hi
  obtain ⟨p, hp, hpid⟩ := db.library_plugin l hl
  exact ⟨p.name, l, hi, ⟨hl, p, hp, hpid, rfl⟩, hid⟩

theorem Db.Owns.unique {db : Db} {m n : String} {l k : Library} (hl : db.Owns m l)
    (hk : db.Owns n k) (h : l.id = k.id) : m = n ∧ l = k := by
  have hlk := Table.id_injective hl.1 hk.1 h
  subst hlk
  obtain ⟨-, p, hp, hpid, rfl⟩ := hl
  obtain ⟨-, q, hq, hqid, rfl⟩ := hk
  rw [Table.id_injective hp hq (hpid.trans hqid.symm)]
  exact ⟨rfl, rfl⟩

/-- Writing keeps a row, and changes it only when it is one of the plugin's at a place. -/
theorem Written.holds {m : String} {l : Library} {i : Item} (h : Written name seen places s s')
    (hi : s.db.Holds m l i) : ∃ j, s'.db.Holds m l j ∧ j.SameRow i ∧
      (j = i ∨ m = name ∧ seen ≤ j.syncAt ∧ (l.path, i.path) ∈ places) := by
  obtain ⟨j, hj, hsame, hor⟩ := h.kept i hi.mem
  refine ⟨j, ⟨hj, h.owns hi.owns, hi.id.trans hsame.libraryId.symm⟩, hsame, hor.imp id ?_⟩
  rintro ⟨hseen, k, hk, hid, hplace⟩
  obtain ⟨rfl, rfl⟩ := (h.owns hi.owns).unique hk ((hi.id.trans hsame.libraryId.symm).trans hid.symm)
  exact ⟨rfl, hseen, hsame.path ▸ hplace⟩

theorem Session.Swept.owns {present : List String} (h : s.Swept name seen present s') {m : String}
    {l : Library} (hl : s.db.Owns m l) : s'.db.Owns m l := by
  obtain ⟨hl, p, hp, hpid⟩ := hl
  exact ⟨h.libraries ▸ hl, p, h.plugins ▸ hp, hpid⟩

/-- What makes an item of the library stale. -/
theorem Db.Holds.stale_iff {db : Db} {m : String} {l : Library} {i : Item}
    {present : List String} (h : db.Holds m l i) :
    db.Stale name seen present i ↔ m = name ∧ l.path ∈ present ∧ i.syncAt < seen := by
  constructor
  · rintro ⟨hsync, k, hk, hid, hpath⟩
    obtain ⟨rfl, rfl⟩ := h.owns.unique hk (h.id.trans hid.symm)
    exact ⟨rfl, hpath, hsync⟩
  · rintro ⟨rfl, hpath, hsync⟩
    exact ⟨hsync, l, h.owns, h.id, hpath⟩

/-- The row `i` has become `j`, and the playlist entries that refer to it are still there. -/
structure Db.Carries (db db' : Db) (m : String) (l : Library) (i j : Item) : Prop where
  holds : db'.Holds m l j
  same : j.SameRow i
  playlistItems : ∀ e ∈ db.playlistItems, e.entryId = i.id → e ∈ db'.playlistItems

theorem Db.Carries.trans {db db' db'' : Db} {m : String} {l : Library} {i j k : Item}
    (h : db.Carries db' m l i j) (h' : db'.Carries db'' m l j k) : db.Carries db'' m l i k where
  holds := h'.holds
  same := h'.same.trans h.same
  playlistItems e he hid := h'.playlistItems e (h.playlistItems e he hid) (hid.trans h.same.id.symm)

variable {m : String} {l : Library} {i : Item} {present : List String}

theorem Session.Swept.carries (h : s.Swept name seen present s') (hi : s.db.Holds m l i)
    (hstale : ¬s.db.Stale name seen present i) : s.db.Carries s'.db m l i i where
  holds := ⟨(h.items i).2 ⟨hi.mem, hstale⟩, h.owns hi.owns, hi.id⟩
  same := .refl i
  playlistItems e he hid := h.playlistItems e he fun j hj hje => by
    rw [Table.id_injective hj hi.mem (hje.trans hid)]
    exact hstale

/-- A sync leaves the rows of other plugins as they are. -/
theorem Synced.carries_of_ne (h : Synced o name places present s s') (hi : s.db.Holds m l i)
    (hne : m ≠ name) : s.db.Carries s'.db m l i i := by
  have hwritten (t : Session) (hw : Written name (o.now 0) places s t) :
      s.db.Carries t.db m l i i := by
    obtain ⟨j, hj, hsame, rfl | ⟨hm, -⟩⟩ := hw.holds hi
    · exact ⟨hj, hsame, fun e he _ => hw.playlistItems ▸ he⟩
    · exact absurd hm hne
  rcases h with ⟨-, hw⟩ | ⟨t, hw, -, hswept⟩
  · exact hwritten s' hw
  · have ht := hwritten t hw
    exact ht.trans (hswept.carries ht.holds fun hstale => hne (ht.holds.stale_iff.1 hstale).1)

/-- A sync keeps a row of its plugin when the library is not present, when the row is at one of the
places, or when it is not older than the start of the sync. -/
theorem Synced.carries_of_spared (h : Synced o name places present s s')
    (hi : s.db.Holds name l i)
    (hspared : l.path ∉ present ∨ (l.path, i.path) ∈ places ∨ o.now 0 ≤ i.syncAt) :
    ∃ j, s.db.Carries s'.db name l i j := by
  have hwritten (t : Session) (hw : Written name (o.now 0) places s t) :
      ∃ j, s.db.Carries t.db name l i j ∧ (j = i ∨ o.now 0 ≤ j.syncAt) := by
    obtain ⟨j, hj, hsame, hor⟩ := hw.holds hi
    exact ⟨j, ⟨hj, hsame, fun e he _ => hw.playlistItems ▸ he⟩, hor.imp id fun h => h.2.1⟩
  rcases h with ⟨-, hw⟩ | ⟨t, hw, hplaced, hswept⟩
  · obtain ⟨j, hj, -⟩ := hwritten s' hw
    exact ⟨j, hj⟩
  · obtain ⟨j, hj, hor⟩ := hwritten t hw
    refine ⟨j, hj.trans (hswept.carries hj.holds fun hstale => ?_)⟩
    obtain ⟨-, hpath, hsync⟩ := hj.holds.stale_iff.1 hstale
    rcases hspared with hnot | hplace | hnew
    · exact hnot hpath
    · obtain ⟨k, hk, hkpath, i', hi', hlib, hrel, hseen⟩ := hplaced _ hplace
      obtain ⟨q, hq, hqid, hqname⟩ := hk.2
      obtain ⟨p, hp, hpid, hpname⟩ := hj.holds.owns.2
      have hpq : p = q := Table.key_injective hp hq (hpname.trans hqname.symm)
      have hkey : Library.schema.key k = Library.schema.key l :=
        Prod.ext (hqid.symm.trans ((congrArg _ hpq).symm.trans hpid)) hkpath
      have hkl := Table.key_injective hk.1 hj.holds.owns.1 hkey
      have hij : i' = j := Table.key_injective hi' hj.holds.mem
        (Prod.ext (hlib.trans ((congrArg _ hkl).trans hj.holds.id)) (hrel.trans hj.same.path.symm))
      rw [hij] at hseen
      exact absurd hsync (not_lt.2 hseen)
    · rcases hor with rfl | hseen
      · exact absurd hsync (not_lt.2 hnew)
      · exact absurd hsync (not_lt.2 hseen)

/-- Otherwise the row is deleted, unless a database call fails. -/
theorem Synced.not_kept (h : Synced o name places present s s') (hfails : ∀ n, o.fails n = false)
    (hi : s.db.Holds name l i) (hpath : l.path ∈ present) (hplace : (l.path, i.path) ∉ places)
    (hsync : i.syncAt < o.now 0) : ¬∃ j ∈ s'.db.items, j.SameRow i := by
  rintro ⟨j, hj, hsame⟩
  rcases h with ⟨⟨n, hn⟩, -⟩ | ⟨t, hw, -, hswept⟩
  · rw [hfails n] at hn
    cases hn
  · obtain ⟨k, hk, hksame, rfl | ⟨-, -, hmem⟩⟩ := hw.holds hi
    · obtain ⟨hj, hstale⟩ := (hswept.items j).1 hj
      rw [Table.id_injective hj hk.mem hsame.id] at hstale
      exact hstale (hk.stale_iff.2 ⟨rfl, hpath, hsync⟩)
    · exact hplace hmem

theorem Synced.owns (h : Synced o name places present s s') (hl : s.db.Owns m l) :
    s'.db.Owns m l := by
  rcases h with ⟨-, hw⟩ | ⟨t, hw, -, hswept⟩
  · exact hw.owns hl
  · exact hswept.owns (hw.owns hl)

/-- A row after a sync was there before, or it is in a library of the plugin. -/
theorem Synced.mem_items (h : Synced o name places present s s') {j : Item}
    (hj : j ∈ s'.db.items) : j ∈ s.db.items ∨ ∃ k, s'.db.Holds name k j := by
  have hwritten (t : Session) (hw : Written name (o.now 0) places s t) (hj : j ∈ t.db.items) :
      j ∈ s.db.items ∨ ∃ k, t.db.Holds name k j :=
    (hw.only j hj).imp id fun ⟨_, k, hk, hid, _⟩ => ⟨k, hj, hk, hid⟩
  rcases h with ⟨-, hw⟩ | ⟨t, hw, -, hswept⟩
  · exact hwritten s' hw hj
  · refine (hwritten t hw ((hswept.items j).1 hj).1).imp id ?_
    rintro ⟨k, -, hk, hid⟩
    exact ⟨k, hj, hswept.owns hk, hid⟩

/-- What a sync has written is there when it ends. -/
theorem Synced.upserted (h : Synced o name places present s s') {n : ℕ} (hn : n ∈ s'.upserted) :
    n ∈ s.upserted ∨ ∃ k j, s'.db.Holds name k j ∧ j.id = n := by
  have hwritten (t : Session) (hw : Written name (o.now 0) places s t) (hn : n ∈ t.upserted) :
      n ∈ s.upserted ∨ ∃ k j, t.db.Holds name k j ∧ j.id = n ∧ o.now 0 ≤ j.syncAt :=
    (hw.upserted n hn).imp id fun ⟨j, hj, hid, hseen, k, hk, hkid, _⟩ =>
      ⟨k, j, ⟨hj, hk, hkid⟩, hid, hseen⟩
  rcases h with ⟨-, hw⟩ | ⟨t, hw, -, hswept⟩
  · exact (hwritten s' hw hn).imp id fun ⟨k, j, hj, hid, _⟩ => ⟨k, j, hj, hid⟩
  · refine (hwritten t hw (hswept.upserted ▸ hn)).imp id ?_
    rintro ⟨k, j, hj, hid, hseen⟩
    exact ⟨k, j, (hswept.carries hj fun hstale => not_lt.2 hseen hstale.1).holds, hid⟩

end Waywallen
