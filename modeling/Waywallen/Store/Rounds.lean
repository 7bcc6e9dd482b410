import Waywallen.Library.Best
import Waywallen.Library.Transition
import Waywallen.Store.Probe
import Waywallen.Store.Rows

/-!
# Rounds of syncs

The plugin is synced again and again, and between the rounds the files of the items are read. After
each round the rows of the libraries that are present are those of the entries of the round; a row
whose entry comes back keeps its id and the time at which it was created.
-/

namespace Waywallen

/-! ## The entries at a place -/

def entriesAt (entries : List WallpaperEntry) (place : String × String) : List WallpaperEntry :=
  entries.filter fun e => e.place = some place

def WallpaperEntry.placed (e : WallpaperEntry) : Option PlacedEntry :=
  e.place.map fun place => (place.1, place.2, e)

section

variable {entries : List WallpaperEntry} {pluginId : ℕ}

theorem group_eq : group entries = (entries.filterMap WallpaperEntry.placed).foldl
    (Best.push (fun w => w.1) fun w => w.2) ∅ := by
  rw [List.foldl_filterMap, group]
  congr 1
  funext grouped e
  rw [WallpaperEntry.placed]
  cases e.place <;> rfl

theorem writesAt_eq (ws : List PlacedEntry) (k : RowKey) : writesAt pluginId ws k =
    ((ws.filter fun w => w.1 = k.2.1).filter
      fun w => pluginId = k.1 ∧ w.2.1 = k.2.2).map fun w => w.2.2 := by
  rw [writesAt, List.filter_filter]
  congr 2
  funext w
  obtain ⟨a, b, c⟩ := k
  simp only [Prod.mk.injEq, Bool.decide_and]
  cases decide (pluginId = a) <;> cases decide (w.1 = b) <;> simp

theorem writesAt_placed (k : RowKey) :
    writesAt pluginId (entries.filterMap WallpaperEntry.placed) k =
      if pluginId = k.1 then entriesAt entries k.2 else [] := by
  induction entries with
  | nil => simp [writesAt, entriesAt]
  | cons e entries ih =>
    cases hp : e.place with
    | none =>
      have hplaced : e.placed = none := by rw [WallpaperEntry.placed, hp, Option.map_none]
      rw [List.filterMap_cons_none hplaced, ih, entriesAt, entriesAt,
        List.filter_cons_of_neg (by simp [hp])]
    | some place =>
      obtain ⟨root, rel⟩ := place
      have hplaced : e.placed = some (root, rel, e) := by
        rw [WallpaperEntry.placed, hp, Option.map_some]
      have hcons : writesAt pluginId ((root, rel, e) :: entries.filterMap WallpaperEntry.placed) k =
          (if (pluginId, root, rel) = k then [e] else []) ++
            writesAt pluginId (entries.filterMap WallpaperEntry.placed) k := by
        rw [writesAt, List.filter_cons, writesAt]
        by_cases hk : (pluginId, root, rel) = k <;> simp [hk]
      rw [List.filterMap_cons_some hplaced, hcons, ih, entriesAt, entriesAt]
      obtain ⟨a, b⟩ := k
      by_cases ha : pluginId = a
      · subst ha
        by_cases hb : (root, rel) = b <;> simp [hp, hb]
      · simp [ha]

/-- The groups keep the order of the entries at a place. -/
theorem writesAt_placedOf (g : GroupOrder) (k : RowKey) :
    writesAt pluginId (placedOf (g.order (group entries))) k =
      if pluginId = k.1 then entriesAt entries k.2 else [] := by
  have hroot : (placedOf (g.order (group entries))).filter (fun w => w.1 = k.2.1) =
      (entries.filterMap WallpaperEntry.placed).filter fun w => w.1 = k.2.1 := by
    rw [placedOf, Best.filter_flatMap_entries (g.perm _), group_eq, Best.lookup_foldl_push,
      HashMap.lookup_empty, Option.getD_none, List.nil_append, List.map_map]
    refine (List.map_congr_left fun w hw => ?_).trans (List.map_id _)
    have hw : w.1 = k.2.1 := of_decide_eq_true (List.mem_filter.1 hw).2
    exact Prod.ext hw.symm rfl
  rw [writesAt_eq, hroot, ← writesAt_eq, writesAt_placed]

end

/-! ## One round -/

/-- What a sync of the plugin called `name` makes of the database `db`. -/
structure RoundDone (o : Outside) (name : String) (entries : List WallpaperEntry)
    (present : List String) (db db' : Db) (summary : SyncSummary) : Prop where
  /-- The rows of a present library are at the places of entries. -/
  only : ∀ l j, db'.Holds name l j → l.path ∈ present → entriesAt entries (l.path, j.path) ≠ []
  placed : ∀ e ∈ entries, ∀ place ∈ e.place, ∃ l j, db'.Holds name l j ∧ (l.path, j.path) = place
  unique : ∀ l j j', db'.Holds name l j → db'.Holds name l j' → j.path = j'.path → j = j'
  /-- A row at a place has the columns of the last entry, and the last values that are not null. -/
  follows : ∀ l j, db'.Holds name l j → entriesAt entries (l.path, j.path) ≠ [] →
    j.Follows o l.pluginId l.path (entriesAt entries (l.path, j.path))
      (db.rowAt (l.pluginId, l.path, j.path))
  untouched : ∀ l j, db'.Holds name l j → entriesAt entries (l.path, j.path) = [] → j ∈ db.items
  others : ∀ m l i, db.Holds m l i → m ≠ name → db'.Holds m l i
  kept : ∀ l i, db.Holds name l i → entriesAt entries (l.path, i.path) ≠ [] ∨ l.path ∉ present →
    ∃ j, db'.Holds name l j ∧ j.SameRow i ∧ j.createAt = i.createAt
  dropped : summary.dropped = entries.countP fun e => e.place.isNone
  counted : summary.itemsUpserted + summary.dropped = entries.length

section

variable {o : Outside} {g : GroupOrder} {name version : String} {entries : List WallpaperEntry}
  {present : List String} {s t s' : Session} {pluginId : ℕ} {l : Library} {i j : Item}

/-- A sweep ends, if no call fails. -/
theorem exists_sweep_ok (present : List String) (hfails : ∀ n, o.fails n = false) (seen : Int)
    (s : Session) :
    ∃ n s', sweep o pluginId present seen s = .ok n s' ∧ s.asked ≤ s'.asked := by
  cases h : sweep o pluginId present seen s with
  | ok n s' =>
    obtain ⟨libraries, t, hlist, h⟩ := exists_of_bind_ok h
    rw [listLibrariesByPlugin] at hlist
    obtain ⟨-, rfl⟩ := of_select_ok hlist
    refine ⟨n, s', rfl, ?_⟩
    unfold deleteItemsSyncedBefore at h
    dsimp only at h
    split at h
    · obtain ⟨-, rfl⟩ := EStateM.Result.ok.inj h
      exact Nat.le_succ _
    · obtain ⟨db, -, rfl⟩ := of_call_ok h
      exact (Nat.le_succ _).trans (Nat.le_succ _)
  | error e s' =>
    exfalso
    have hcall {α : Type} {context : String} {f : Db → Option (α × Db)} {t : Session}
        (h : call o context f t = .error e s') (hf : f t.db ≠ none) : False := by
      obtain ⟨-, n, hn⟩ := fails_of_call_error h hf
      rw [hfails n] at hn
      cases hn
    rw [sweep, listLibrariesByPlugin] at h
    rcases or_of_bind_error h with h | ⟨libraries, t, -, h⟩
    · exact hcall h (Option.some_ne_none _)
    · unfold deleteItemsSyncedBefore at h
      dsimp only at h
      split at h
      · cases h
      · exact hcall h (Option.some_ne_none _)

/-- A row that was found under the id of the plugin was the plugin's. -/
theorem Written.holds_of_rowAt {seen : Int} {places : List (String × String)} {root rel : String}
    (h : Written name seen places s t) (hplugin : t.db.HasPlugin pluginId name)
    (hrow : s.db.rowAt (pluginId, root, rel) = some i) :
    ∃ l, s.db.Holds name l i ∧ l.path = root ∧ i.path = rel := by
  obtain ⟨l, hl, hlk, hi, hik⟩ := Db.rowAt_eq_some.1 hrow
  obtain ⟨hlplugin, hlpath⟩ := Prod.mk.inj hlk
  obtain ⟨hilib, hipath⟩ := Prod.mk.inj hik
  obtain ⟨p, hp, hpid⟩ := s.db.library_plugin l hl
  obtain ⟨q, hq, hqid, hqname⟩ := h.plugins p hp
  obtain ⟨q', hq', hqid', rfl⟩ := hplugin
  have hqq : q = q' := Table.id_injective hq hq' (by
    show q.id = q'.id
    rw [hqid, hpid, hlplugin, hqid'])
  exact ⟨l, ⟨hi, ⟨hl, p, hp, hpid, by rw [← hqname, hqq]⟩, hilib.symm⟩, hlpath, hipath⟩

/-- The rows of the plugin after the entries were written. -/
theorem rowAfter_of_writes (hfollows : s.Follows o pluginId (placedOf (g.order (group entries))) t)
    (hplugin : t.db.HasPlugin pluginId name) (hj : t.db.Holds name l j) :
    RowAfter o t.asked (l.pluginId, l.path, j.path) (entriesAt entries (l.path, j.path))
      (s.db.rowAt (l.pluginId, l.path, j.path)) (some j) := by
  have hpid : l.pluginId = pluginId := ((Db.owns_iff hplugin).1 hj.owns).2
  have h := hfollows (l.pluginId, l.path, j.path)
  rwa [writesAt_placedOf, if_pos hpid.symm, Db.rowAt_of_mem hj.owns.1 hj.mem hj.id] at h

/-- The entries are written, if no call fails. -/
theorem exists_write_ok (g : GroupOrder) (name version : String) (entries : List WallpaperEntry)
    (hclock : Monotone o.now) (hfails : ∀ n, o.fails n = false) (hs : s.asked = 0) :
    ∃ plugin t, writePluginEntries o g name version entries s = .ok (o.now 0, plugin) t ∧
      Written name (o.now 0) (entries.filterMap WallpaperEntry.place) s t ∧
      t.db.HasPlugin plugin.id name ∧
      (∀ place ∈ entries.filterMap WallpaperEntry.place, t.db.Placed name (o.now 0) place) ∧
      s.Follows o plugin.id (placedOf (g.order (group entries))) t := by
  have hwrite : Writes o name (o.now 0) _ (fun s => s.asked = 0)
      (writePluginEntries o g name version entries) _ := writes_writePluginEntries hclock
  have hrows : Ensures (fun t => t = s) (writePluginEntries o g name version entries)
      fun r => s.Follows o r.2.id (placedOf (g.order (group entries))) := ensures_writePluginEntries
  have hwrite := hwrite s hs
  have hrows := hrows s rfl
  cases h : writePluginEntries o g name version entries s with
  | error e t =>
    rw [h] at hwrite
    obtain ⟨-, n, hn⟩ := hwrite
    rw [hfails n] at hn
    cases hn
  | ok r t =>
    rw [h] at hwrite hrows
    obtain ⟨seen, plugin⟩ := r
    obtain ⟨hw, rfl, hplugin, hplaced⟩ := hwrite
    exact ⟨plugin, t, rfl, hw, hplugin, hplaced, hrows.2⟩

theorem Session.Swept.holds_iff {seen : Int} (h : s.Swept name seen present s') {m : String} :
    s'.db.Holds m l j ↔ s.db.Holds m l j ∧ ¬ s.db.Stale name seen present j := by
  constructor
  · rintro ⟨hj, ⟨hl, p, hp, hpid⟩, hid⟩
    obtain ⟨hj, hstale⟩ := (h.items j).1 hj
    exact ⟨⟨hj, ⟨h.libraries ▸ hl, p, h.plugins ▸ hp, hpid⟩, hid⟩, hstale⟩
  · rintro ⟨hj, hstale⟩
    exact ⟨(h.items j).2 ⟨hj.mem, hstale⟩, h.owns hj.owns, hj.id⟩

/-- What the entries and the sweep after them have done. -/
theorem RoundDone.of_swept {summary : SyncSummary} (hclock : Monotone o.now)
    (hwritten : Written name (o.now 0) (entries.filterMap WallpaperEntry.place) s t)
    (hplugin : t.db.HasPlugin pluginId name)
    (hplaced : ∀ place ∈ entries.filterMap WallpaperEntry.place, t.db.Placed name (o.now 0) place)
    (hfollows : s.Follows o pluginId (placedOf (g.order (group entries))) t)
    (hswept : t.Swept name (o.now 0) present s')
    (hold : ∀ l i, s.db.Holds name l i → i.syncAt < o.now 0)
    (hdropped : summary.dropped = entries.countP fun e => e.place.isNone)
    (hupserted : summary.itemsUpserted = (entries.filterMap WallpaperEntry.place).length) :
    RoundDone o name entries present s.db s'.db summary where
  only l j hj hpresent hnil := by
    obtain ⟨hj, hstale⟩ := hswept.holds_iff.1 hj
    rcases rowAfter_of_writes hfollows hplugin hj with ⟨-, hrow⟩ | ⟨hne, -⟩
    · have hpid := ((Db.owns_iff hplugin).1 hj.owns).2
      obtain ⟨k, hk, -⟩ := hwritten.holds_of_rowAt hplugin (hpid ▸ hrow.symm)
      exact hstale (hj.stale_iff.2 ⟨rfl, hpresent, hold k j hk⟩)
    · exact hne hnil
  placed e he place hplace := by
    obtain ⟨l, hl, hpath, j, hj, hlib, hrel, hseen⟩ :=
      hplaced place (List.mem_filterMap.2 ⟨e, he, hplace⟩)
    have hholds : t.db.Holds name l j := ⟨hj, hl, hlib.symm⟩
    refine ⟨l, j, hswept.holds_iff.2 ⟨hholds, fun hstale => ?_⟩, by rw [hpath, hrel]⟩
    exact absurd (hholds.stale_iff.1 hstale).2.2 (not_lt.2 hseen)
  unique l j j' hj hj' hpath :=
    Table.key_injective hj.mem hj'.mem (Prod.ext (hj.id.symm.trans hj'.id) hpath)
  follows l j hj hne := by
    obtain ⟨hj, -⟩ := hswept.holds_iff.1 hj
    rcases rowAfter_of_writes hfollows hplugin hj with ⟨hnil, -⟩ | ⟨-, j', hj', h, -⟩
    · exact absurd hnil hne
    · obtain rfl := Option.some_inj.1 hj'
      exact h
  untouched l j hj hnil := by
    obtain ⟨hj, -⟩ := hswept.holds_iff.1 hj
    rcases rowAfter_of_writes hfollows hplugin hj with ⟨-, hrow⟩ | ⟨hne, -⟩
    · obtain ⟨-, -, -, hmem, -⟩ := Db.rowAt_eq_some.1 hrow.symm
      exact hmem
    · exact absurd hnil hne
  others m l i hi hne := by
    obtain ⟨j, hj, -, rfl | ⟨hname, -⟩⟩ := hwritten.holds hi
    · exact hswept.holds_iff.2 ⟨hj, fun hstale => hne (hj.stale_iff.1 hstale).1⟩
    · exact absurd hname hne
  kept l i hi hor := by
    obtain ⟨j, hj, hsame, -⟩ := hwritten.holds hi
    have hrow := rowAfter_of_writes hfollows hplugin hj
    rw [hsame.path, Db.rowAt_of_mem hi.owns.1 hi.mem hi.id] at hrow
    rcases hrow with ⟨hnil, heq⟩ | ⟨-, j', hj', h, n, -, hsync⟩
    · obtain rfl := Option.some_inj.1 heq
      have habsent : l.path ∉ present := hor.resolve_left (not_not.2 hnil)
      exact ⟨j, hswept.holds_iff.2 ⟨hj, fun hstale => habsent (hj.stale_iff.1 hstale).2.1⟩,
        .refl j, rfl⟩
    · obtain rfl := Option.some_inj.1 hj'
      have hfresh : o.now 0 ≤ j.syncAt := hsync ▸ hclock n.zero_le
      exact ⟨j, hswept.holds_iff.2 ⟨hj, fun hstale => absurd (hj.stale_iff.1 hstale).2.2
        (not_lt.2 hfresh)⟩, hsame, h.createAt i rfl⟩
  dropped := hdropped
  counted := by
    rw [hupserted, hdropped, List.length_filterMap_eq_countP,
      List.length_eq_countP_add_countP fun e => e.place.isSome]
    refine congrArg _ (List.countP_congr fun e _ => ?_)
    cases e.place <;> simp

theorem roundDone (g : GroupOrder) (version : String) (present : List String)
    (hclock : Monotone o.now) (hfails : ∀ n, o.fails n = false) (hs : s.asked = 0)
    (hold : ∀ l i, s.db.Holds name l i → i.syncAt < o.now 0) :
    ∃ summary plugin s', syncPluginEntries o g name version entries present s =
        .ok (summary, plugin) s' ∧
      RoundDone o name entries present s.db s'.db summary ∧
      ∀ l j, s'.db.Holds name l j → j.syncAt ≤ o.now s'.asked := by
  obtain ⟨plugin, t, hrun, hwritten, hplugin, hplaced, hfollows⟩ :=
    exists_write_ok g name version entries hclock hfails hs
  obtain ⟨n, s', hsweep, hasked⟩ := exists_sweep_ok present hfails (o.now 0) t
  have hswept : t.Swept name (o.now 0) present s' := by
    have h := swept_of_sweep o (o.now 0) present hplugin
    rw [finalState, hsweep] at h
    rcases h with ⟨⟨n, hn⟩, -⟩ | h
    · rw [hfails n] at hn
      cases hn
    · exact h
  refine ⟨⟨(entries.filterMap WallpaperEntry.place).length, n,
    entries.countP fun e => e.place.isNone⟩, plugin, s', ?_, ?_, fun l j hj => ?_⟩
  · rw [syncPluginEntries, bind_apply, hrun]
    dsimp only
    rw [bind_apply, hsweep]
    rfl
  · exact .of_swept hclock hwritten hplugin hplaced hfollows hswept hold rfl rfl
  · obtain ⟨hj, -⟩ := hswept.holds_iff.1 hj
    rcases rowAfter_of_writes hfollows hplugin hj with ⟨-, hrow⟩ | ⟨-, j', hj', -, m, hm, hsync⟩
    · have hpid := ((Db.owns_iff hplugin).1 hj.owns).2
      obtain ⟨k, hk, -⟩ := hwritten.holds_of_rowAt hplugin (hpid ▸ hrow.symm)
      exact (hold k j hk).le.trans (hclock (Nat.zero_le _))
    · obtain rfl := Option.some_inj.1 hj'
      exact hsync ▸ hclock (hm.le.trans hasked)

end

/-! ## Runs -/

/-- One round of the plugin; the clock does not go back in it, and all database calls succeed. -/
structure SyncRound where
  outside : Outside
  order : GroupOrder
  version : String
  entries : List WallpaperEntry
  present : List String
  clock : Monotone outside.now
  succeeds : ∀ n, outside.fails n = false

def SyncRound.sync (r : SyncRound) (name : String) : SessionM (SyncSummary × SourcePlugin) :=
  syncPluginEntries r.outside r.order name r.version r.entries r.present

/-- A round, or a write of the background task that reads the files of the items. -/
inductive SyncEvent
  | round (r : SyncRound)
  | stat (id : ℕ) (stat : FileStat) (now : Int)
  | media (id : ℕ) (found : MediaMeta) (now : Int)

/-- The database and the time at which the last round ended. -/
structure SyncState where
  db : Db
  clock : Int

/-- A round starts after the last one has ended. -/
def SyncState.step (name : String) (σ : SyncState) : SyncEvent → Option SyncState
  | .round r =>
    if σ.clock < r.outside.now 0 then
      let s := finalState (r.sync name) (.new σ.db)
      some ⟨s.db, r.outside.now s.asked⟩
    else none
  | .stat id stat now => some { σ with db := σ.db.updateItemStat id stat now }
  | .media id found now => some { σ with db := σ.db.updateItemMedia id found now }

/-- The rows of the plugin were last synced before the last round ended. -/
def SyncState.Settled (name : String) (σ : SyncState) : Prop :=
  ∀ l i, σ.db.Holds name l i → i.syncAt ≤ σ.clock

/-- The round has an entry at the path, or the library is not present in it. -/
def SyncRound.Spares (r : SyncRound) (l : Library) (rel : String) : Prop :=
  entriesAt r.entries (l.path, rel) ≠ [] ∨ l.path ∉ r.present

/-- The row `j` is the row `i` at another time. -/
structure Item.Continues (j i : Item) : Prop where
  same : j.SameRow i
  createAt : j.createAt = i.createAt

section

variable {name : String} {σ σ' σ₀ : SyncState} {l : Library} {i j : Item}

theorem Db.holds_updateItem {db : Db} {id : ℕ} {f : Item → Item} {hid : ∀ i, (f i).id = i.id}
    {hkey : ∀ i, Item.schema.key (f i) = Item.schema.key i}
    {hplugin : ∀ i, (f i).pluginId = i.pluginId} {m : String} :
    (db.updateItem id f hid hkey hplugin).Holds m l j ↔
      ∃ i, db.Holds m l i ∧ (if i.id = id then f i else i) = j := by
  have hlib (i : Item) : (if i.id = id then f i else i).libraryId = i.libraryId := by
    split
    · exact congrArg Prod.fst (hkey i)
    · rfl
  constructor
  · rintro ⟨hj, howns, hjid⟩
    obtain ⟨i, hi, rfl⟩ := Table.mem_map.1 hj
    exact ⟨i, ⟨hi, howns, hjid.trans (hlib i)⟩, rfl⟩
  · rintro ⟨i, ⟨hi, howns, hiid⟩, rfl⟩
    exact ⟨Table.mem_map.2 ⟨i, hi, rfl⟩, howns, hiid.trans (hlib i).symm⟩

/-- A write to the columns that the sync does not stamp. -/
theorem SyncState.Settled.updateItem {id : ℕ} {f : Item → Item} {hid : ∀ i, (f i).id = i.id}
    {hkey : ∀ i, Item.schema.key (f i) = Item.schema.key i}
    {hplugin : ∀ i, (f i).pluginId = i.pluginId} (hsync : ∀ i, (f i).syncAt = i.syncAt)
    (h : σ.Settled name) :
    SyncState.Settled name { σ with db := σ.db.updateItem id f hid hkey hplugin } := by
  intro l j hj
  have hj' : (σ.db.updateItem id f hid hkey hplugin).Holds name l j := hj
  obtain ⟨i, hi, rfl⟩ := Db.holds_updateItem.1 hj'
  split
  · exact (hsync i).trans_le (h l i hi)
  · exact h l i hi

theorem SyncState.Settled.round (h : σ.Settled name) {r : SyncRound}
    (hr : σ.clock < r.outside.now 0) :
    ∃ summary plugin s', r.sync name (.new σ.db) = .ok (summary, plugin) s' ∧
      RoundDone r.outside name r.entries r.present σ.db s'.db summary ∧
      ∀ l j, s'.db.Holds name l j → j.syncAt ≤ r.outside.now s'.asked :=
  roundDone r.order r.version r.present r.clock r.succeeds rfl fun l i hi =>
    (h l i hi).trans_lt hr

theorem SyncState.Settled.step (h : σ.Settled name) {e : SyncEvent}
    (he : σ.step name e = some σ') : σ'.Settled name := by
  cases e with
  | round r =>
    rw [SyncState.step] at he
    split at he
    · rename_i hr
      obtain rfl := Option.some_inj.1 he
      obtain ⟨summary, plugin, s', hrun, -, hsettled⟩ := h.round hr
      rw [finalState, hrun]
      exact hsettled
    · cases he
  | stat id stat now =>
    obtain rfl := Option.some_inj.1 he
    exact h.updateItem fun _ => rfl
  | media id found now =>
    obtain rfl := Option.some_inj.1 he
    exact h.updateItem fun _ => rfl

theorem Item.Continues.refl (i : Item) : i.Continues i :=
  ⟨.refl i, rfl⟩

theorem Item.Continues.trans {k : Item} (h : k.Continues j) (h' : j.Continues i) :
    k.Continues i :=
  ⟨h.same.trans h'.same, h.createAt.trans h'.createAt⟩

theorem Db.continues_updateItem {db : Db} {id : ℕ} {f : Item → Item} (hid : ∀ i, (f i).id = i.id)
    (hkey : ∀ i, Item.schema.key (f i) = Item.schema.key i)
    (hplugin : ∀ i, (f i).pluginId = i.pluginId) (hf : ∀ i, (f i).Continues i)
    (hi : db.Holds name l i) :
    ∃ j, (db.updateItem id f hid hkey hplugin).Holds name l j ∧ j.Continues i := by
  refine ⟨_, Db.holds_updateItem.2 ⟨i, hi, rfl⟩, ?_⟩
  split
  · exact hf i
  · exact .refl i

/-- One event keeps a row that the round spares. -/
theorem SyncState.Settled.continues (h : σ.Settled name) {e : SyncEvent}
    (he : σ.step name e = some σ') (hi : σ.db.Holds name l i)
    (hspared : ∀ r, e = .round r → r.Spares l i.path) :
    ∃ j, σ'.db.Holds name l j ∧ j.Continues i := by
  cases e with
  | round r =>
    rw [SyncState.step] at he
    split at he
    · rename_i hr
      obtain rfl := Option.some_inj.1 he
      obtain ⟨summary, plugin, s', hrun, hdone, -⟩ := h.round hr
      rw [finalState, hrun]
      obtain ⟨j, hj, hsame, hcreate⟩ := hdone.kept l i hi (hspared r rfl)
      exact ⟨j, hj, hsame, hcreate⟩
    · cases he
  | stat id stat now =>
    obtain rfl := Option.some_inj.1 he
    exact Db.continues_updateItem (f := (Item.updateStat · stat now)) (fun _ => rfl) (fun _ => rfl)
      (fun _ => rfl) (fun _ => ⟨⟨rfl, rfl, rfl, rfl, rfl⟩, rfl⟩) hi
  | media id found now =>
    obtain rfl := Option.some_inj.1 he
    exact Db.continues_updateItem (f := (Item.updateMedia · found now)) (fun _ => rfl) (fun _ => rfl)
      (fun _ => rfl) (fun _ => ⟨⟨rfl, rfl, rfl, rfl, rfl⟩, rfl⟩) hi

/-- In every run of rounds and background writes, each round leaves the rows of its entries, and a
row keeps its id and the time of its creation as long as the rounds spare it. -/
theorem rounds_done {es : List SyncEvent} (hold : σ₀.Settled name)
    (h : Transition.run (SyncState.step name) σ₀ es = some σ) :
    (∀ r : SyncRound, σ.clock < r.outside.now 0 → ∃ summary plugin s',
      r.sync name (.new σ.db) = .ok (summary, plugin) s' ∧
        RoundDone r.outside name r.entries r.present σ.db s'.db summary) ∧
    ∀ l i, σ₀.db.Holds name l i → (∀ r, SyncEvent.round r ∈ es → r.Spares l i.path) →
      ∃ j, σ.db.Holds name l j ∧ j.Continues i := by
  constructor
  · intro r hr
    have hsettled : σ.Settled name := Transition.invariant (fun _ _ _ h => h.step) hold h
    obtain ⟨summary, plugin, s', hrun, hdone, -⟩ := hsettled.round hr
    exact ⟨summary, plugin, s', hrun, hdone⟩
  · intro l i hi hspared
    induction es generalizing σ₀ i with
    | nil =>
      obtain rfl := Option.some_inj.1 h
      exact ⟨i, hi, .refl i⟩
    | cons e es ih =>
      obtain ⟨σ₁, he, h⟩ := (Transition.run_cons_eq_some _).1 h
      obtain ⟨j, hj, hji⟩ := hold.continues he hi fun r hr =>
        hspared r (hr ▸ List.mem_cons_self)
      obtain ⟨k, hk, hkj⟩ := ih (hold.step he) h j hj fun r hr =>
        hji.same.path ▸ hspared r (List.mem_cons_of_mem _ hr)
      exact ⟨k, hk, hkj.trans hji⟩

end

def placedPicture (name : String) : WallpaperEntry where
  name := name
  wpType := "image"
  resource := s!"/w/{name}"
  preview := none
  pluginName := "image"
  libraryRoot := "/w"
  description := none
  tags := []
  externalId := none
  size := none
  width := none
  height := none
  contentRating := none

def pictureRound (t : ℕ) (names : List String) : SyncRound where
  outside := ⟨fun n => t + n, fun _ => false, String.toLower⟩
  order := ⟨fun grouped => grouped.entries, perm_entries⟩
  version := "0.1"
  entries := names.map placedPicture
  present := ["/w"]
  clock := monotone_countFrom t
  succeeds _ := rfl

/-- The second picture is gone in the second round. -/
def pictureRounds : SyncState :=
  Transition.reached (SyncState.step "image") ⟨.empty, 0⟩
    [.round (pictureRound 1000 ["a.png", "b.png"]), .stat 1 ⟨5, 7⟩ 1500,
      .round (pictureRound 2000 ["a.png"])] (by decide +kernel)

theorem rounds_done_pictures : ∃ summary plugin s',
    (pictureRound 3000 ["b.png", "a.png"]).sync "image" (.new pictureRounds.db) =
        .ok (summary, plugin) s' ∧
      RoundDone (pictureRound 3000 []).outside "image" (["b.png", "a.png"].map placedPicture)
        ["/w"] pictureRounds.db s'.db summary :=
  (rounds_done (fun l i h => absurd h.mem List.not_mem_nil)
    (Transition.run_reached _ _)).1 (pictureRound 3000 ["b.png", "a.png"]) (by decide +kernel)

end Waywallen
