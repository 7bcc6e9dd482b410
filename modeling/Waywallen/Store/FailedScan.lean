import Waywallen.Store.Sweep

/-!
# Refreshes with failed scans

A refresh syncs a plugin whether or not its scan succeeded, so a row that the plugin did not return
before the error is deleted like a row that is gone from the disk.
-/

namespace Waywallen

/-! ## What the scan collects -/

/-- A row adds one entry of the plugin, or it is an error; the entries there already do not
matter. -/
theorem takeRow_apply (name : String) (row : Option LuaRow) :
    (∃ e, ∀ entries, takeRow name row entries = .error e entries) ∨
      ∃ entry, entry.pluginName = name ∧
        ∀ entries, takeRow name row entries = .ok () (entries ++ [entry]) := by
  rcases row with _ | ⟨_ | n, _ | t, _ | r, _⟩
  all_goals first
    | exact .inl ⟨_, fun _ => rfl⟩
    | exact .inr ⟨_, rfl, fun _ => rfl⟩

/-- A computation that adds entries of one plugin, independently of those there already. -/
structure Adds (name : String) (m : ScanM Unit) (added : List WallpaperEntry) : Prop where
  finalState : ∀ entries, finalState m entries = entries ++ added
  pluginName : ∀ e ∈ added, e.pluginName = name

theorem adds_takeRows (name : String) (rows : List (Option LuaRow)) :
    ∃ added, Adds name (takeRows name rows) added := by
  induction rows with
  | nil => exact ⟨[], fun entries => (List.append_nil entries).symm, by simp⟩
  | cons row rows ih =>
    obtain ⟨added, hadded⟩ := ih
    rcases takeRow_apply name row with ⟨e, he⟩ | ⟨entry, hname, hentry⟩
    · refine ⟨[], fun entries => ?_, by simp⟩
      rw [takeRows, finalState, bind_apply, he, List.append_nil]
    · refine ⟨entry :: added, fun entries => ?_, ?_⟩
      · have h := hadded.finalState (entries ++ [entry])
        rw [finalState] at h
        rw [takeRows, finalState, bind_apply, hentry]
        dsimp only
        rw [h, List.append_assoc, List.singleton_append]
      · simpa [hname] using hadded.pluginName

section

variable (infos : HashMap String PluginInfo) (scan : String → List String → ScanResult)

theorem adds_scanPlugin (name : String) (libraries : List String) :
    Adds name (scanPlugin infos scan name libraries)
      (finalState (scanPlugin infos scan name libraries) []) := by
  have h : ∃ added, Adds name (scanPlugin infos scan name libraries) added := by
    have hskip (m : ScanM Unit) (hm : ∀ entries, finalState m entries = entries) :
        ∃ added, Adds name m added :=
      ⟨[], fun entries => by rw [hm, List.append_nil], by simp⟩
    rw [scanPlugin]
    rcases infos.lookup name with _ | info
    · exact hskip _ fun _ => rfl
    · dsimp only
      split
      · rcases scan name libraries with message | rows
        · exact hskip _ fun _ => rfl
        · exact adds_takeRows name rows
      · exact hskip _ fun _ => rfl
  obtain ⟨added, hadded⟩ := h
  rw [hadded.finalState, List.nil_append]
  exact hadded

theorem finalState_scanEach (libs : HashMap String (List String)) (names : List String)
    (entries : List WallpaperEntry) :
    finalState (scanEach infos scan libs names) entries = entries ++ names.flatMap fun name =>
      finalState (scanPlugin infos scan name ((libs.lookup name).getD [])) [] := by
  induction names generalizing entries with
  | nil => exact (List.append_nil entries).symm
  | cons name names ih =>
    have hadds := (adds_scanPlugin infos scan name ((libs.lookup name).getD [])).finalState entries
    rw [scanEach, finalState_swallow, ih, hadds, List.flatMap_cons, List.append_assoc]

theorem nodup_sourceNames : (sourceNames infos).Nodup := by
  rw [sourceNames, (List.perm_insertionSort _ _).nodup_iff]
  have hkeys : (infos.entries.map Sigma.fst).Nodup := infos.nodupKeys
  refine (List.Sublist.nodup ?_ hkeys)
  induction infos.entries with
  | nil => exact .slnil
  | cons e es ih =>
    rw [List.map_cons]
    rcases hs : e.2.source with _ | _
    · simpa [hs] using ih.cons _
    · simpa [hs] using ih.cons_cons e.1

theorem mem_sourceNames {name : String} :
    name ∈ sourceNames infos ↔ ∃ info, infos.lookup name = some info ∧ info.source = true := by
  rw [sourceNames, List.mem_insertionSort, List.mem_filterMap]
  constructor
  · rintro ⟨e, he, hname⟩
    rw [Option.ite_none_right_eq_some, Option.some_inj] at hname
    obtain ⟨hsource, rfl⟩ := hname
    exact ⟨e.2, (List.mem_dlookup_iff infos.nodupKeys).2 he, hsource⟩
  · rintro ⟨info, hlookup, hsource⟩
    exact ⟨⟨name, info⟩, (List.mem_dlookup_iff infos.nodupKeys).1 hlookup, if_pos hsource⟩

theorem filter_flatMap_of_nodup {α β : Type} [DecidableEq β] {f : β → List α} {p : α → β}
    {l : List β} {b : β} (hl : l.Nodup) (hb : b ∈ l) (hp : ∀ b, ∀ a ∈ f b, p a = b) :
    (l.flatMap f).filter (fun a => p a = b) = f b := by
  induction l with
  | nil => cases hb
  | cons c l ih =>
    obtain ⟨hc, hl⟩ := List.nodup_cons.1 hl
    rw [List.flatMap_cons, List.filter_append]
    rcases List.mem_cons.1 hb with rfl | hb
    · have hrest : (l.flatMap f).filter (fun a => p a = b) = [] := by
        refine List.filter_eq_nil_iff.2 fun a ha => ?_
        obtain ⟨d, hd, had⟩ := List.mem_flatMap.1 ha
        rw [hp d a had, decide_eq_true_iff]
        rintro rfl
        exact hc hd
      rw [hrest, List.append_nil, List.filter_eq_self]
      exact fun a ha => by simp [hp b a ha]
    · have hfirst : (f c).filter (fun a => p a = b) = [] := by
        refine List.filter_eq_nil_iff.2 fun a ha => ?_
        rw [hp c a ha, decide_eq_true_iff]
        rintro rfl
        exact hc hb
      rw [hfirst, List.nil_append, ih hl hb]

/-- The entries of a plugin in the result of a scan of all plugins. -/
theorem filter_scanAll (libs : HashMap String (List String)) {name : String}
    (hname : name ∈ sourceNames infos) :
    (finalState (scanAll infos scan libs) []).filter (fun e => e.pluginName = name) =
      finalState (scanPlugin infos scan name ((libs.lookup name).getD [])) [] := by
  have hall : finalState (scanAll infos scan libs) [] =
      finalState (scanEach infos scan libs (sourceNames infos)) [] := rfl
  rw [hall, finalState_scanEach, List.nil_append]
  exact filter_flatMap_of_nodup (nodup_sourceNames infos) hname fun b =>
    (adds_scanPlugin infos scan b _).pluginName

end

/-! ## The syncs of a refresh -/

variable {w : Surroundings} {libs : HashMap String (List String)}
  {snapshot : List WallpaperEntry} {plugins : List (String × PluginInfo)} {s : Session}
  {m : String} {l : Library} {i : Item}

/-- The registered roots of the plugin that exist. -/
def presentRoots (w : Surroundings) (libs : HashMap String (List String)) (name : String) :
    List String :=
  ((libs.lookup name).getD []).filter w.pathExists

/-- The places of the entries of the plugin. -/
def placesFor (snapshot : List WallpaperEntry) (name : String) : List (String × String) :=
  (snapshot.filter fun e => e.pluginName = name).filterMap WallpaperEntry.place

theorem finalState_syncEach_cons (hclock : ∀ name, Monotone (w.sync name).now) {name : String}
    {info : PluginInfo} :
    ∃ s', Synced (w.sync name) name (placesFor snapshot name) (presentRoots w libs name)
        { s with asked := 0 } s' ∧
      finalState (syncEach w libs snapshot ((name, info) :: plugins)) s =
        finalState (syncEach w libs snapshot plugins) s' := by
  set sync := syncPluginEntries (w.sync name) w.groupOrder name info.version
    (snapshot.filter fun e => e.pluginName = name) (presentRoots w libs name) with hsync
  have hsynced : Synced (w.sync name) name (placesFor snapshot name) (presentRoots w libs name)
      { s with asked := 0 } (finalState sync { s with asked := 0 }) :=
    synced_syncPluginEntries (hclock name) rfl
  refine ⟨_, hsynced, ?_⟩
  have hswallow := finalState_swallow (do let _ ← sync; pure ()) (syncEach w libs snapshot plugins)
    { s with asked := 0 }
  rw [finalState_bind_pure] at hswallow
  exact hswallow

/-- The row is not in the way of the sweep of its plugin. -/
def SparedBy (w : Surroundings) (libs : HashMap String (List String))
    (snapshot : List WallpaperEntry) (m : String) (l : Library) (i : Item) : Prop :=
  l.path ∉ presentRoots w libs m ∨ (l.path, i.path) ∈ placesFor snapshot m ∨
    (w.sync m).now 0 ≤ i.syncAt

theorem carries_syncEach (hclock : ∀ name, Monotone (w.sync name).now)
    (hnames : (plugins.map Prod.fst).Nodup) (hi : s.db.Holds m l i)
    (hspared : m ∈ plugins.map Prod.fst → SparedBy w libs snapshot m l i) :
    ∃ j, s.db.Carries (finalState (syncEach w libs snapshot plugins) s).db m l i j := by
  induction plugins generalizing s i with
  | nil => exact ⟨i, hi, .refl i, fun e he _ => he⟩
  | cons p plugins ih =>
    obtain ⟨name, info⟩ := p
    obtain ⟨s', hsync, hfinal⟩ := finalState_syncEach_cons (w := w) (s := s) hclock
    rw [hfinal]
    obtain ⟨hname, hrest⟩ := List.nodup_cons.1 hnames
    by_cases hm : m = name
    · subst hm
      obtain ⟨j, hj⟩ := hsync.carries_of_spared hi (hspared (.head _))
      obtain ⟨k, hk⟩ := ih hrest hj.holds fun h => absurd h hname
      exact ⟨k, hj.trans hk⟩
    · have hj := hsync.carries_of_ne hi hm
      obtain ⟨k, hk⟩ := ih hrest hj.holds fun h => hspared (.tail _ h)
      exact ⟨k, hj.trans hk⟩

/-- A row that is gone does not come back by the sync of another plugin. -/
theorem absent_syncEach (hclock : ∀ name, Monotone (w.sync name).now)
    (hm : m ∉ plugins.map Prod.fst) (hl : s.db.Owns m l) (hid : l.id = i.libraryId)
    (habsent : ¬∃ j ∈ s.db.items, j.SameRow i) :
    ¬∃ j ∈ (finalState (syncEach w libs snapshot plugins) s).db.items, j.SameRow i := by
  induction plugins generalizing s with
  | nil => exact habsent
  | cons p plugins ih =>
    obtain ⟨name, info⟩ := p
    obtain ⟨s', hsync, hfinal⟩ := finalState_syncEach_cons (w := w) (s := s) hclock
    rw [hfinal]
    rw [List.map_cons, List.mem_cons, not_or] at hm
    refine ih hm.2 (hsync.owns hl) ?_
    rintro ⟨j, hj, hsame⟩
    rcases hsync.mem_items hj with hj | ⟨k, hk⟩
    · exact habsent ⟨j, hj, hsame⟩
    · have hkl : k.id = l.id := hk.id.trans (hsame.libraryId.trans hid.symm)
      exact hm.1 ((hsync.owns hl).unique hk.owns hkl.symm).1

theorem not_kept_syncEach (hclock : ∀ name, Monotone (w.sync name).now)
    (hfails : ∀ name n, (w.sync name).fails n = false) (hnames : (plugins.map Prod.fst).Nodup)
    (hi : s.db.Holds m l i) (hm : m ∈ plugins.map Prod.fst)
    (hswept : ¬SparedBy w libs snapshot m l i) :
    ¬∃ j ∈ (finalState (syncEach w libs snapshot plugins) s).db.items, j.SameRow i := by
  induction plugins generalizing s with
  | nil => cases hm
  | cons p plugins ih =>
    obtain ⟨name, info⟩ := p
    obtain ⟨s', hsync, hfinal⟩ := finalState_syncEach_cons (w := w) (s := s) hclock
    rw [hfinal]
    obtain ⟨hname, hrest⟩ := List.nodup_cons.1 hnames
    by_cases hmn : m = name
    · subst hmn
      simp only [SparedBy, not_or, not_not, not_le] at hswept
      have habsent := hsync.not_kept (hfails m) hi hswept.1 hswept.2.1 hswept.2.2
      exact absent_syncEach hclock hname (hsync.owns hi.owns) hi.id habsent
    · have hj := hsync.carries_of_ne hi hmn
      exact ih hrest hj.holds ((List.mem_cons.1 hm).resolve_left hmn)

/-- The written items are there when the syncs end. -/
theorem upserted_syncEach (hclock : ∀ name, Monotone (w.sync name).now)
    (hnames : (plugins.map Prod.fst).Nodup)
    (hs : ∀ n ∈ s.upserted, ∃ m l i, s.db.Holds m l i ∧ i.id = n ∧ m ∉ plugins.map Prod.fst) :
    ∀ n ∈ (finalState (syncEach w libs snapshot plugins) s).upserted,
      ∃ i ∈ (finalState (syncEach w libs snapshot plugins) s).db.items, i.id = n := by
  induction plugins generalizing s with
  | nil =>
    intro n hn
    obtain ⟨m, l, i, hi, hid, -⟩ := hs n hn
    exact ⟨i, hi.mem, hid⟩
  | cons p plugins ih =>
    obtain ⟨name, info⟩ := p
    obtain ⟨s', hsync, hfinal⟩ := finalState_syncEach_cons (w := w) (s := s) hclock
    rw [hfinal]
    obtain ⟨hname, hrest⟩ := List.nodup_cons.1 hnames
    refine ih hrest fun n hn => ?_
    rcases hsync.upserted hn with hn | ⟨k, j, hj, hid⟩
    · obtain ⟨m, l, i, hi, hid, hm⟩ := hs n hn
      rw [List.map_cons, List.mem_cons, not_or] at hm
      exact ⟨m, l, i, (hsync.carries_of_ne hi hm.1).holds, hid, hm.2⟩
    · exact ⟨name, k, j, hj, hid, hname⟩

/-! ## A whole refresh -/

/-- A part of the refresh that only reads the database. -/
structure OnlyReads (s s' : Session) : Prop where
  db : s'.db = s.db
  upserted : s'.upserted = s.upserted

instance : Std.Refl OnlyReads :=
  ⟨fun _ => ⟨rfl, rfl⟩⟩

instance : IsTrans Session OnlyReads :=
  ⟨fun _ _ _ h h' => ⟨h'.db.trans h.db, h'.upserted.trans h.upserted⟩⟩

theorem onlyReads_select {o : Outside} {α : Type} {context : String} {f : Db → α} :
    Evolves OnlyReads True (fun _ => True) (select o context f) fun _ _ => True := by
  intro s _
  rw [select, call]
  rcases o.fails s.asked <;> exact ⟨⟨rfl, rfl⟩, trivial⟩

theorem onlyReads_nameLibraries {o : Outside} (groups : List (Sigma fun _ : ℕ => List String))
    (byName : HashMap String (List String)) :
    Evolves OnlyReads True (fun _ => True) (nameLibraries o groups byName) fun _ _ => True := by
  induction groups generalizing byName with
  | nil => exact .pure fun _ _ => trivial
  | cons g groups ih =>
    obtain ⟨pid, paths⟩ := g
    have hfind : Evolves OnlyReads True (fun _ => True)
        (tryCatch (findPluginById o pid) fun _ => pure none) fun _ _ => True :=
      .tryCatch onlyReads_select (fun _ _ _ _ => trivial) fun _ => .pure fun _ _ => trivial
    refine .bind hfind ?_
    rintro (_ | p)
    · exact ih _
    · exact ih _

theorem onlyReads_librariesByPluginName {o : Outside} :
    Evolves OnlyReads True (fun _ => True) (librariesByPluginName o) fun _ _ => True :=
  .bind onlyReads_select fun _ => onlyReads_nameLibraries _ _

variable {infos : HashMap String PluginInfo} {db : Db}

/-- The libraries that the refresh has read; none when it could not. -/
def listed (w : Surroundings) (db : Db) : HashMap String (List String) :=
  match librariesByPluginName w.listing (.new db) with
  | .ok libs _ => libs
  | .error _ _ => ∅

/-- What the scan of a plugin is given. -/
def scanLibraries (w : Surroundings) (db : Db) (name : String) : List String :=
  (((listed w db).mapValues (dedupPathsByCanonical w.canonicalize [])).lookup name).getD []

/-- The plugin is scanned and its scan ends with an error. -/
def scanFails (w : Surroundings) (infos : HashMap String PluginInfo) (db : Db) (name : String) :
    Bool :=
  name ∈ sourceNames infos &&
    match scanPlugin infos w.scan name (scanLibraries w db name) [] with
    | .ok _ _ => false
    | .error _ _ => true

/-- The entries of the rows that were taken from the plugin, before an error if there was one. -/
def collected (w : Surroundings) (infos : HashMap String PluginInfo) (db : Db) (name : String) :
    List WallpaperEntry :=
  finalState (scanPlugin infos w.scan name (scanLibraries w db name)) []

theorem map_fst_sourcePlugins : (sourcePlugins infos).map Prod.fst = sourceNames infos := by
  rw [sourcePlugins, List.map_filterMap]
  refine (List.filterMap_congr fun name hname => ?_).trans List.filterMap_some
  obtain ⟨info, hinfo, -⟩ := (mem_sourceNames infos).1 hname
  rw [hinfo]
  rfl

/-- A refresh runs the syncs on the database it has read, or it ends before them. -/
theorem refreshed_eq (w : Surroundings) (infos : HashMap String PluginInfo) (db : Db) :
    ∃ s snapshot, OnlyReads (.new db) s ∧
    (∀ name ∈ sourceNames infos, placesFor snapshot name =
      (collected w infos db name).filterMap WallpaperEntry.place) ∧
    (refreshed w infos db = finalState
        (syncEach w (listed w db) snapshot (sourcePlugins infos)) s ∨
      refreshed w infos db = s ∧ listed w db = ∅) := by
  have hread := onlyReads_librariesByPluginName (o := w.listing) (.new db) trivial
  have hplaces (name : String) (hname : name ∈ sourceNames infos) :
      placesFor (finalState (scanAll infos w.scan
        ((listed w db).mapValues (dedupPathsByCanonical w.canonicalize []))) []) name =
      (collected w infos db name).filterMap WallpaperEntry.place := by
    rw [placesFor, filter_scanAll infos w.scan _ hname]
    rfl
  rcases hlist : librariesByPluginName w.listing (.new db) with ⟨libs, s⟩ | ⟨e, s⟩
  · rw [hlist] at hread
    refine ⟨s, _, hread.1, hplaces, .inl ?_⟩
    have hlisted : listed w db = libs := by rw [listed, hlist]
    rw [refreshed, refreshSourcesInner, finalState, bind_apply, hlist, hlisted]
    exact finalState_bind_pure _ _ s
  · rw [hlist] at hread
    refine ⟨s, _, hread.1, hplaces, .inr ⟨?_, by rw [listed, hlist]⟩⟩
    rw [refreshed, refreshSourcesInner, finalState, bind_apply, hlist]

/-- The row of `i` is still there with its overrides, and so are the playlist entries that refer to
it. -/
structure Db.Keeps (db db' : Db) (i : Item) : Prop where
  row : ∃ j ∈ db'.items, j.SameRow i
  playlistItems : ∀ e ∈ db.playlistItems, e.entryId = i.id → e ∈ db'.playlistItems

/-- The sweep does not reach the row: its library is not a present one of a plugin that can be
scanned, the plugin returned the row, or the row is not older than the sync of the plugin. -/
def Spared (w : Surroundings) (infos : HashMap String PluginInfo) (db : Db) (i : Item) : Prop :=
  ∀ m l, db.Holds m l i → m ∈ sourceNames infos → l.path ∈ presentRoots w (listed w db) m →
    (l.path, i.path) ∈ (collected w infos db m).filterMap WallpaperEntry.place ∨
      (w.sync m).now 0 ≤ i.syncAt

theorem keeps_of_spared (hclock : ∀ name, Monotone (w.sync name).now) (hi : i ∈ db.items)
    (h : Spared w infos db i) : db.Keeps (refreshed w infos db).db i := by
  obtain ⟨s, snapshot, hread, hplaces, hor⟩ := refreshed_eq w infos db
  rcases hor with hfinal | ⟨hfinal, -⟩
  · obtain ⟨m, l, hholds⟩ := Db.exists_holds hi
    have hs : s.db.Holds m l i := hread.db ▸ hholds
    have hspared (hm : m ∈ (sourcePlugins infos).map Prod.fst) :
        SparedBy w (listed w db) snapshot m l i := by
      rw [map_fst_sourcePlugins] at hm
      by_cases hp : l.path ∈ presentRoots w (listed w db) m
      · refine .inr ?_
        rw [hplaces m hm]
        exact h m l hholds hm hp
      · exact .inl hp
    obtain ⟨j, hj⟩ := carries_syncEach hclock
      (map_fst_sourcePlugins ▸ nodup_sourceNames infos) hs hspared
    rw [hfinal]
    exact ⟨⟨j, hj.holds.mem, hj.same⟩, fun e he hid => hj.playlistItems e (hread.db ▸ he) hid⟩
  · rw [hfinal, hread.db]
    exact ⟨⟨i, hi, .refl i⟩, fun e he _ => he⟩

theorem spared_of_keeps (hclock : ∀ name, Monotone (w.sync name).now)
    (hfails : ∀ name n, (w.sync name).fails n = false)
    (h : db.Keeps (refreshed w infos db).db i) : Spared w infos db i := by
  intro m l hholds hm hp
  by_contra hnot
  obtain ⟨s, snapshot, hread, hplaces, hor⟩ := refreshed_eq w infos db
  rcases hor with hfinal | ⟨-, hlisted⟩
  · have hs : s.db.Holds m l i := hread.db ▸ hholds
    rw [hfinal] at h
    refine not_kept_syncEach hclock hfails (map_fst_sourcePlugins ▸ nodup_sourceNames infos) hs
      (map_fst_sourcePlugins ▸ hm) ?_ h.row
    rintro (hpath | hspared)
    · exact hpath hp
    · rw [hplaces m hm] at hspared
      exact hnot hspared
  · rw [hlisted] at hp
    cases hp

/-- Every row of a plugin whose scan fails is kept. -/
def KeepsFailed (w : Surroundings) (infos : HashMap String PluginInfo) (db : Db) : Prop :=
  ∀ p ∈ db.plugins, scanFails w infos db p.name = true → ∀ i ∈ db.items, i.pluginId = p.id →
    db.Keeps (refreshed w infos db).db i

/-- Every row of a plugin whose scan fails is spared. -/
def SparesFailed (w : Surroundings) (infos : HashMap String PluginInfo) (db : Db) : Prop :=
  ∀ p ∈ db.plugins, scanFails w infos db p.name = true → ∀ i ∈ db.items, i.pluginId = p.id →
    Spared w infos db i

/-- A refresh keeps the rows of the plugins whose scans fail exactly when the sweep does not reach
them; the rows that it writes and those of missing libraries it always keeps. -/
theorem keepsFailed_iff (w : Surroundings) (infos : HashMap String PluginInfo) (db : Db)
    (hclock : ∀ name, Monotone (w.sync name).now) :
    (SparesFailed w infos db → KeepsFailed w infos db) ∧
    ((∀ name n, (w.sync name).fails n = false) →
      KeepsFailed w infos db → SparesFailed w infos db) ∧
    (∀ n ∈ (refreshed w infos db).upserted, ∃ i ∈ (refreshed w infos db).db.items, i.id = n) ∧
    ∀ i ∈ db.items, ∀ l ∈ db.libraries, l.id = i.libraryId → w.pathExists l.path = false →
      db.Keeps (refreshed w infos db).db i := by
  refine ⟨fun h p hp hfail i hi hid => keeps_of_spared hclock hi (h p hp hfail i hi hid),
    fun hfails h p hp hfail i hi hid => spared_of_keeps hclock hfails (h p hp hfail i hi hid),
    ?_, fun i hi l hl hid hmissing => keeps_of_spared hclock hi ?_⟩
  · obtain ⟨s, snapshot, hread, -, hor⟩ := refreshed_eq w infos db
    have hnone : s.upserted = [] := hread.upserted
    rcases hor with hfinal | ⟨hfinal, -⟩
    · rw [hfinal]
      refine upserted_syncEach hclock (map_fst_sourcePlugins ▸ nodup_sourceNames infos) ?_
      rw [hnone]
      exact fun n hn => absurd hn List.not_mem_nil
    · rw [hfinal, hnone]
      exact fun n hn => absurd hn List.not_mem_nil
  · intro m k hholds hm hpath
    have hkl : k = l := Table.id_injective hholds.owns.1 hl (hholds.id.trans hid.symm)
    have hexists := (List.mem_filter.1 hpath).2
    rw [hkl, hmissing] at hexists
    cases hexists

/-! ## A directory of pictures -/

/-- The plugin scans one directory; the clock starts at `t` and the database never fails. -/
def pictures (t : ℕ) (result : ScanResult) : Surroundings where
  pathExists path := path = "/w"
  canonicalize := some
  scan _ _ := result
  listing := ⟨fun n => t + n, fun _ => false, String.toLower⟩
  sync _ := ⟨fun n => t + n, fun _ => false, String.toLower⟩
  groupOrder := ⟨fun grouped => grouped.entries, perm_entries⟩

theorem monotone_pictures (t : ℕ) (result : ScanResult) (name : String) :
    Monotone ((pictures t result).sync name).now :=
  monotone_countFrom t

def imagePlugin : HashMap String PluginInfo :=
  (∅ : HashMap String PluginInfo).insert "image" ⟨"0.1", true⟩

def picture (name : String) : Option LuaRow :=
  some { name := some name, wpType := some "image", resource := some s!"/w/{name}",
         libraryRoot := some "/w" }

/-- Both pictures of the directory are in the database. -/
def bothPictures : Db :=
  (refreshed (pictures 1000 (.returned [picture "a.png", picture "b.png"])) imagePlugin .empty).db

theorem keepsFailed_iff_pictures :
    ∃ i ∈ (refreshed (pictures 2000 (.returned [picture "a.png", none])) imagePlugin
      bothPictures).db.items, i.id = 1 :=
  (keepsFailed_iff _ _ _ (monotone_pictures _ _)).2.2.1 1 (by decide +kernel)

/-- The second row of the plugin is malformed, and the second picture is deleted. -/
theorem not_keepsFailed : ¬∀ (w : Surroundings) (infos : HashMap String PluginInfo) (db : Db),
    (∀ name, Monotone (w.sync name).now) → KeepsFailed w infos db := by
  intro h
  have hkeeps := h (pictures 2000 (.returned [picture "a.png", none])) imagePlugin bothPictures
    (monotone_pictures _ _)
  obtain ⟨p, hp, hfail⟩ : ∃ p ∈ bothPictures.plugins.rows, p.id = 1 ∧ scanFails
    (pictures 2000 (.returned [picture "a.png", none])) imagePlugin bothPictures p.name = true := by
    decide +kernel
  obtain ⟨i, hi, hid⟩ : ∃ i ∈ bothPictures.items.rows, i.pluginId = 1 ∧ i.id = 2 := by
    decide +kernel
  obtain ⟨j, hj, hsame⟩ := (hkeeps p hp hfail.2 i hi (hid.1.trans hfail.1.symm)).row
  have hgone : ∀ j ∈ (refreshed (pictures 2000 (.returned [picture "a.png", none])) imagePlugin
    bothPictures).db.items.rows, j.id ≠ 2 := by decide +kernel
  exact hgone j hj (hsame.id.trans hid.2)

end Waywallen
