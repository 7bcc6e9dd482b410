import Waywallen.Remote.Removed
import Waywallen.Store.Written

/-!
# What is installed after downloads

The file of a download goes where its sanitised name says, and its row is keyed by that place, but
what is installed is looked up by the external id. Downloads whose names are left alike by the
sanitiser overwrite each other's file and row; as long as their places differ, every download that
was reported as done stays installed with its own file.
-/

namespace Waywallen

open TaskPool UnixPath

namespace RemoteState

/-- The row of the download is listed under its source and id, and its file is what was fetched for
the download. -/
structure Installed (w : RemoteWorld) (s : RemoteState) (job : RemoteJob) : Prop where
  has : s.db.hasItemByPluginExternalId job.source job.id = true
  file : ∃ row ∈ s.db.listItemsByPluginExternalId job.source job.id,
    row.2.path = String.ofList (job.dir w) ∧ row.1.path = String.ofList job.filename ∧
      ∃ bytes, (job, bytes) ∈ s.fetched ∧
        s.files.lookup (joinPath row.2.path.toList row.1.path.toList) = some bytes

/-- The files and sidecars of two downloads are different files. -/
structure Differ (w : RemoteWorld) (job other : RemoteJob) : Prop where
  target : job.target w ≠ other.target w
  sidecar : job.target w ≠ sidecarPath (other.target w)
  sidecar' : sidecarPath (job.target w) ≠ other.target w

/-- The item is recorded where the download records its own. -/
def RowOf (w : RemoteWorld) (db : Db) (job : RemoteJob) (i : Item) : Prop :=
  i.path = String.ofList job.filename ∧
    ∃ l ∈ db.libraries.rows, l.id = i.libraryId ∧ l.path = String.ofList (job.dir w)

/-- The source and the id a plugin is asked for. -/
def asks : RemoteCall → Option (String × String)
  | .callDownload source id => some (source, id)
  | _ => none

def removes : RemoteCall → Option PathBuf
  | .removeFile _ (row :: _) => some row.2
  | .removeSidecar _ row _ => some (sidecarPath row.2)
  | _ => none

def deletes : RemoteCall → Option ℕ
  | .deleteItem _ row _ => some row.1
  | _ => none

/-- The plugin answers with the id it was asked for and a file unlike those of the other downloads,
and none of them is uninstalled. -/
structure KeepsApart (w : RemoteWorld) (x : RemoteChoice) (s : RemoteState) (c : RemoteCall) :
    Prop where
  answer : ∀ q ∈ asks c, trim x.answer.url ≠ "" →
    x.answer.externalId = q.2 ∧ ∀ job ∈ s.answered, Differ w ⟨q.1, q.2, x.answer⟩ job
  file : ∀ path ∈ removes c, ∀ job ∈ s.answered, path ≠ job.target w
  row : ∀ n ∈ deletes c, ∀ i ∈ s.db.items.rows, i.id = n → ∀ job ∈ s.answered,
    ¬RowOf w s.db job i

/-- Only downloads and uninstalls run, and they keep apart. -/
def RunsApart (w : RemoteWorld) (p : RemotePool) : RemoteLabel → Prop
  | .run i x => ∀ c ∈ p.executed (.run i x : RemoteLabel), KeepsApart w x p.shared c
  | .env _ => False
  | _ => True

end RemoteState

/-! ## Rows that stay -/

namespace Db

/-- The plugins and libraries of `db` are still there, up to versions and metadata. -/
structure Grows (db db' : Db) : Prop where
  plugins : ∀ p ∈ db.plugins, ∃ q ∈ db'.plugins, q.id = p.id ∧ q.name = p.name
  libraries : ∀ l ∈ db.libraries, ∃ k ∈ db'.libraries,
    k.id = l.id ∧ k.pluginId = l.pluginId ∧ k.path = l.path

variable {db db' : Db}

theorem Grows.refl (db : Db) : db.Grows db where
  plugins p hp := ⟨p, hp, rfl, rfl⟩
  libraries l hl := ⟨l, hl, rfl, rfl, rfl⟩

theorem Grows.hasPlugin (h : db.Grows db') {id : ℕ} {name : String} (hp : db.HasPlugin id name) :
    db'.HasPlugin id name := by
  obtain ⟨p, hp, hid, hname⟩ := hp
  obtain ⟨q, hq, hqid, hqname⟩ := h.plugins p hp
  exact ⟨q, hq, hqid.trans hid, hqname.trans hname⟩

theorem Grows.owns (h : db.Grows db') {name : String} {l : Library} (hl : db.Owns name l) :
    ∃ k, db'.Owns name k ∧ k.id = l.id ∧ k.pluginId = l.pluginId ∧ k.path = l.path := by
  obtain ⟨hmem, p, hp, hid, hname⟩ := hl
  obtain ⟨k, hk, hkid, hkplugin, hkpath⟩ := h.libraries l hmem
  obtain ⟨q, hq, hqid, hqname⟩ := h.plugins p hp
  exact ⟨k, ⟨hk, q, hq, hqid.trans (hid.trans hkplugin.symm), hqname.trans hname⟩, hkid, hkplugin,
    hkpath⟩

theorem grows_insertPlugin {name version : String} {p : SourcePlugin}
    (h : db.insertPlugin name version = some (p, db')) : db.Grows db' ∧ db'.items = db.items ∧
      db'.HasPlugin p.id name := by
  obtain ⟨hname, hmem, hl, hi, -⟩ := of_insertPlugin h
  exact ⟨⟨fun q hq => ⟨q, (hmem q).2 (.inl hq), rfl, rfl⟩, fun l hl' => ⟨l, hl ▸ hl', rfl, rfl, rfl⟩⟩,
    hi, p, (hmem p).2 (.inr rfl), rfl, hname⟩

theorem grows_insertLibrary {pluginId : ℕ} {path : String} {l : Library}
    (h : db.insertLibrary pluginId path = some (l, db')) : db.Grows db' ∧ db'.items = db.items ∧
      l ∈ db'.libraries ∧ l.pluginId = pluginId ∧ l.path = path := by
  obtain ⟨-, hkey, hmem, hp, hi, -⟩ := of_insertLibrary h
  exact ⟨⟨fun q hq => ⟨q, hp ▸ hq, rfl, rfl⟩, fun k hk => ⟨k, (hmem k).2 (.inl hk), rfl, rfl, rfl⟩⟩,
    hi, (hmem l).2 (.inr rfl), congrArg Prod.fst hkey, congrArg Prod.snd hkey⟩

theorem grows_updatePluginVersion (db : Db) (id : ℕ) (version : String) :
    db.Grows (db.updatePluginVersion id version) where
  plugins p hp := ⟨_, Table.mem_map.2 ⟨p, hp, rfl⟩, rfl, rfl⟩
  libraries l hl := ⟨l, hl, rfl, rfl, rfl⟩

theorem grows_setLibraryMetadata (db : Db) (id : ℕ) (metadata : String) :
    db.Grows (db.setLibraryMetadata id metadata) where
  plugins p hp := ⟨p, hp, rfl, rfl⟩
  libraries l hl := ⟨_, Table.mem_map.2 ⟨l, hl, rfl⟩, rfl, rfl, rfl⟩

/-- An upsert leaves the rows at other places alone. -/
theorem of_upsertItem {ty : String} {now : Int} {args : ItemUpsertArgs}
    (h : db.upsertItem ty now args = some db') : db'.plugins = db.plugins ∧
      db'.libraries = db.libraries ∧
      (∀ i ∈ db.items, ¬(i.libraryId = args.libraryId ∧ i.path = args.path) → i ∈ db'.items) ∧
      ∃ i ∈ db'.items, i.libraryId = args.libraryId ∧ i.path = args.path ∧
        i.pluginId = args.pluginId ∧ i.externalId = args.externalId := by
  unfold Db.upsertItem at h
  split at h
  · split at h
    · cases h
      refine ⟨rfl, rfl, fun i hi hkey => ?_, ?_⟩
      · refine Table.mem_upsert.2 (.inl ⟨hi, fun heq => hkey ?_⟩)
        exact ⟨congrArg Prod.fst heq, congrArg Prod.snd heq⟩
      · rcases hfind : db.items.find (args.libraryId, args.path) with _ | i
        · exact ⟨_, Table.mem_upsert.2 (.inr (.inr ⟨hfind, rfl⟩)), rfl, rfl, rfl, rfl⟩
        · obtain ⟨hi, hkey⟩ := Table.find_eq_some.1 hfind
          exact ⟨_, Table.mem_upsert.2 (.inr (.inl ⟨i, hi, hkey, rfl⟩)), congrArg Prod.fst hkey,
            congrArg Prod.snd hkey, rfl, rfl⟩
    · cases h
  · cases h

end Db

namespace RemoteState

/-! ## What the downloads rely on -/

/-- The file of the download is what was fetched for it. -/
def Placed (w : RemoteWorld) (s : RemoteState) (job : RemoteJob) : Prop :=
  ∃ bytes, (job, bytes) ∈ s.fetched ∧ s.files.lookup (job.target w) = some bytes

/-- The source has a library with the given columns at the place of the download. -/
def HasLibrary (w : RemoteWorld) (db : Db) (job : RemoteJob) (id pluginId : ℕ) : Prop :=
  ∃ l, db.Owns job.source l ∧ l.id = id ∧ l.pluginId = pluginId ∧
    l.path = String.ofList (job.dir w)

/-- The row of the download. -/
def Listed (w : RemoteWorld) (db : Db) (job : RemoteJob) : Prop :=
  ∃ i ∈ db.items, HasLibrary w db job i.libraryId i.pluginId ∧
    i.path = String.ofList job.filename ∧ i.externalId = some job.id

structure Sound (w : RemoteWorld) (s : RemoteState) : Prop where
  answered : ∀ job ∈ s.answered, trim job.id ≠ "" ∧ job.info.externalId = job.id
  differ : ∀ job ∈ s.answered, ∀ other ∈ s.answered, job.target w = other.target w → job = other
  apart : ∀ job ∈ s.answered, ∀ other ∈ s.answered, job.target w ≠ sidecarPath (other.target w)
  done : ∀ job ∈ s.done, job ∈ s.answered ∧ Placed w s job ∧ Listed w s.db job

/-- What a pending call relies on. -/
def Reached (w : RemoteWorld) (s : RemoteState) : RemoteCall → Prop
  | .callDownload _ id => trim id ≠ ""
  | .downloadFile job => job ∈ s.answered
  | .renameFile job bytes => job ∈ s.answered ∧ (job, bytes) ∈ s.fetched
  | .writeSidecar job | .renameSidecar job | .selectPlugin job | .insertPlugin job _ =>
      job ∈ s.answered ∧ Placed w s job
  | .updatePlugin job pluginId _ | .findLibrary job pluginId | .addLibrary job pluginId =>
      (job ∈ s.answered ∧ Placed w s job) ∧ s.db.HasPlugin pluginId job.source
  | .setManaged job library | .upsertItem job library =>
      (job ∈ s.answered ∧ Placed w s job) ∧ HasLibrary w s.db job library.id library.pluginId
  | .reloadItem job _ _ | .tagItem job _ | .reportDone job =>
      (job ∈ s.answered ∧ Placed w s job) ∧ Listed w s.db job
  | _ => True

/-- A step keeps what the downloads have reached. -/
structure Keeps (w : RemoteWorld) (s s' : RemoteState) : Prop where
  answered : s.answered ⊆ s'.answered
  fetched : s.fetched ⊆ s'.fetched
  placed : ∀ job ∈ s.answered, Placed w s job → Placed w s' job
  grows : s.db.Grows s'.db
  listed : ∀ job ∈ s.answered, Listed w s.db job → Listed w s'.db job

variable {w : RemoteWorld} {s s' : RemoteState} {job : RemoteJob} {c : RemoteCall}

theorem HasLibrary.mono {db db' : Db} {id pluginId : ℕ} (h : HasLibrary w db job id pluginId)
    (hgrows : db.Grows db') : HasLibrary w db' job id pluginId := by
  obtain ⟨l, hl, rfl, rfl, hpath⟩ := h
  obtain ⟨k, hk, hkid, hkplugin, hkpath⟩ := hgrows.owns hl
  exact ⟨k, hk, hkid, hkplugin, hkpath.trans hpath⟩

theorem Listed.mono {db db' : Db} (h : Listed w db job) (hgrows : db.Grows db')
    (hitems : ∀ i ∈ db.items, RowOf w db job i → i ∈ db'.items) : Listed w db' job := by
  obtain ⟨i, hi, hlibrary, hpath, hid⟩ := h
  have hrow : RowOf w db job i := by
    obtain ⟨l, hl, hlid, -, hlpath⟩ := hlibrary
    exact ⟨hpath, l, hl.1, hlid, hlpath⟩
  exact ⟨i, hitems i hi hrow, hlibrary.mono hgrows, hpath, hid⟩

theorem Keeps.refl (w : RemoteWorld) (s : RemoteState) : Keeps w s s :=
  ⟨List.Subset.refl _, List.Subset.refl _, fun _ _ h => h, .refl _, fun _ _ h => h⟩

theorem Reached.mono (h : Reached w s c) (hkeeps : Keeps w s s') : Reached w s' c := by
  have hplaced {job : RemoteJob} (hj : job ∈ s.answered ∧ Placed w s job) :
      job ∈ s'.answered ∧ Placed w s' job :=
    ⟨hkeeps.answered hj.1, hkeeps.placed job hj.1 hj.2⟩
  cases c with
  | downloadFile job => exact hkeeps.answered h
  | renameFile job bytes => exact ⟨hkeeps.answered h.1, hkeeps.fetched h.2⟩
  | writeSidecar job | renameSidecar job | selectPlugin job | insertPlugin job version =>
    exact hplaced h
  | updatePlugin job pluginId version | findLibrary job pluginId | addLibrary job pluginId =>
    exact ⟨hplaced h.1, hkeeps.grows.hasPlugin h.2⟩
  | setManaged job library | upsertItem job library =>
    exact ⟨hplaced h.1, h.2.mono hkeeps.grows⟩
  | reloadItem job library rel | tagItem job itemId | reportDone job =>
    exact ⟨hplaced h.1, hkeeps.listed job h.1.1 h.2⟩
  | _ => exact h

/-- Steps that ask no plugin keep the downloads sound. -/
theorem Sound.mono (h : Sound w s) (hkeeps : Keeps w s s') (hanswered : s'.answered = s.answered)
    (hdone : ∀ job ∈ s'.done, job ∈ s.done ∨ Reached w s (.reportDone job)) : Sound w s' := by
  refine ⟨hanswered ▸ h.answered, hanswered ▸ h.differ, hanswered ▸ h.apart, fun job hj => ?_⟩
  obtain ⟨hmem, hplaced, hlisted⟩ : job ∈ s.answered ∧ Placed w s job ∧ Listed w s.db job := by
    obtain hj | hj := hdone job hj
    · exact h.done job hj
    · exact ⟨hj.1.1, hj.1.2, hj.2⟩
  exact ⟨hkeeps.answered hmem, hkeeps.placed job hmem hplaced, hkeeps.listed job hmem hlisted⟩

/-- What is done and listed is installed. -/
theorem Sound.installed (h : Sound w s) (hj : job ∈ s.done) : Installed w s job := by
  obtain ⟨hmem, ⟨bytes, hfetched, hfile⟩, i, hi, ⟨l, ⟨hl, p, hp, hpid, hname⟩, hlid, hlplugin,
    hlpath⟩, hpath, hid⟩ := h.done job hj
  have hne : job.id ≠ "" := by
    intro hempty
    exact (h.answered job hmem).1 (by rw [hempty]; rfl)
  have hfind : s.db.plugins.find job.source = some p := Table.find_eq_some.2 ⟨hp, hname⟩
  have hlibrary : (s.db.libraries.rows.find? fun l => l.id = i.libraryId) = some l :=
    hlid ▸ Table.find?_id hl
  have hrow : (i, l) ∈ s.db.listItemsByPluginExternalId job.source job.id := by
    rw [Db.listItemsByPluginExternalId, if_neg hne, hfind]
    refine List.mem_filterMap.2 ⟨i, ?_, by rw [hlibrary]; rfl⟩
    rw [List.mem_insertionSort, List.mem_filter]
    exact ⟨hi, decide_eq_true ⟨(hpid.trans hlplugin).symm, hid⟩⟩
  have hjoin : joinPath l.path.toList i.path.toList = job.target w := by
    rw [hlpath, hpath, RemoteJob.joinPath_place]
  exact ⟨decide_eq_true (List.ne_nil_of_mem hrow), (i, l), hrow, hlpath, hpath, bytes, hfetched,
    hjoin ▸ hfile⟩

/-! ## What a call keeps -/

theorem Keeps.of_db {db : Db} (hgrows : s.db.Grows db)
    (hlisted : ∀ job ∈ s.answered, Listed w s.db job → Listed w db job) :
    Keeps w s { s with db } :=
  ⟨List.Subset.refl _, List.Subset.refl _, fun _ _ h => h, hgrows, hlisted⟩

/-- A change of the database that leaves the rows of the downloads where they are. -/
theorem Keeps.of_items {db : Db} (hgrows : s.db.Grows db)
    (hitems : ∀ i ∈ s.db.items, ∀ job ∈ s.answered, RowOf w s.db job i → i ∈ db.items) :
    Keeps w s { s with db } :=
  .of_db hgrows fun job hj h => h.mono hgrows fun i hi => hitems i hi job hj

/-- A change of the files that leaves those of the downloads as they are. -/
theorem Keeps.of_files (hanswered : s'.answered = s.answered) (hfetched : s'.fetched = s.fetched)
    (hdb : s'.db = s.db)
    (hfiles : ∀ job ∈ s.answered, s'.files.lookup (job.target w) = s.files.lookup (job.target w)) :
    Keeps w s s' where
  answered := hanswered ▸ List.Subset.refl _
  fetched := hfetched ▸ List.Subset.refl _
  placed job hj h := by
    obtain ⟨bytes, hmem, hfile⟩ := h
    exact ⟨bytes, hfetched ▸ hmem, (hfiles job hj).trans hfile⟩
  grows := hdb ▸ .refl _
  listed job hj h := hdb ▸ h

theorem keeps_wrote {source : String} {path : PathBuf} : Keeps w s (s.wrote source path) :=
  .of_files rfl rfl rfl fun _ _ => rfl

theorem keeps_remove (source : String) {path : PathBuf}
    (h : ∀ job ∈ s.answered, path ≠ job.target w) : Keeps w s (s.remove source path) := by
  unfold RemoteState.remove
  split
  · refine .of_files rfl rfl rfl fun job hj => ?_
    rw [HashMap.lookup_erase_eq, if_neg (h job hj).symm]
  · exact .refl w s

theorem done_remove {source : String} {path : PathBuf} :
    (s.remove source path).answered = s.answered ∧ (s.remove source path).done = s.done := by
  unfold RemoteState.remove
  split <;> exact ⟨rfl, rfl⟩

/-- The tags of an item are in tables of their own. -/
theorem tag_keeps {o : Outside} {itemId : ℕ} {names : List String} {b : Bool} {db : Db}
    (h : s.tag o itemId names = (b, db)) :
    s.db.Grows db ∧ ∀ i ∈ s.db.items, i ∈ db.items := by
  have hwrites : Writes o "" 0 [] (fun _ => True)
      (upsertTags o names >>= fun tags => replaceItemTags o itemId (tags.map Tag.id))
      fun _ _ => True :=
    .bind writes_upsertTags fun _ => writes_replaceItemTags
  have hrun := hwrites { db := s.db, asked := 0, upserted := [] } trivial
  have hkept {session : Session}
      (hw : Written "" 0 [] { db := s.db, asked := 0, upserted := [] } session) :
      s.db.Grows session.db ∧ ∀ i ∈ s.db.items, i ∈ session.db.items := by
    refine ⟨⟨hw.plugins, fun l hl => ⟨l, hw.libraries l hl, rfl, rfl, rfl⟩⟩, fun i hi => ?_⟩
    obtain ⟨j, hj, -, rfl | ⟨-, l, -, -, hmem⟩⟩ := hw.kept i hi
    · exact hj
    · cases hmem
  simp only [RemoteState.tag, EStateM.run] at h
  split at h
  · rename_i heq
    cases h
    rw [heq] at hrun
    exact hkept hrun.1
  · rename_i heq
    cases h
    rw [heq] at hrun
    exact hkept hrun.1

/-- What a call keeps and what it leaves to the calls it goes on with. -/
structure Advances (w : RemoteWorld) (s : RemoteState) (o : Outcome RemoteState RemoteCall) :
    Prop where
  sound : Sound w o.shared
  keeps : Keeps w s o.shared
  next : ∀ k ∈ o.next, Reached w o.shared k
  spawn : o.spawn = []

variable {o : Outcome RemoteState RemoteCall} {x : RemoteChoice}

theorem advances_stop (ho : s'.stop = some o) (h : Sound w s') (hkeeps : Keeps w s s') :
    Advances w s o := by
  obtain rfl := stop_eq ho
  exact ⟨h, hkeeps, List.forall_mem_nil _, rfl⟩

theorem advances_andThen (ho : s'.andThen c = some o) (h : Sound w s') (hkeeps : Keeps w s s')
    (hc : Reached w s' c) : Advances w s o := by
  obtain rfl := andThen_eq ho
  exact ⟨h, hkeeps, fun k hk => List.mem_singleton.1 hk ▸ hc, rfl⟩

theorem Sound.of_db {db : Db} (h : Sound w s) (hkeeps : Keeps w s { s with db }) :
    Sound w { s with db } :=
  h.mono hkeeps rfl fun _ => .inl

theorem Sound.wrote (h : Sound w s) {source : String} {path : PathBuf} :
    Sound w (s.wrote source path) :=
  h.mono keeps_wrote rfl fun _ => .inl

theorem Sound.place (h : Sound w s) {path : PathBuf} {bytes : Bytes}
    (hkeeps : Keeps w s (s.place path bytes)) : Sound w (s.place path bytes) :=
  h.mono hkeeps rfl fun _ => .inl

theorem Sound.remove (h : Sound w s) {source : String} {path : PathBuf}
    (hkeeps : Keeps w s (s.remove source path)) : Sound w (s.remove source path) :=
  h.mono hkeeps done_remove.1 fun _ hj => .inl (done_remove.2 ▸ hj)

/-- The plugin answers: the download is unlike the others. -/
theorem Sound.answer (h : Sound w s) (hid : trim job.id ≠ "")
    (hexternal : job.info.externalId = job.id) (hdiffer : ∀ other ∈ s.answered, Differ w job other) :
    Sound w { s with answered := s.answered ++ [job] } ∧
      Keeps w s { s with answered := s.answered ++ [job] } := by
  have hkeeps : Keeps w s { s with answered := s.answered ++ [job] } :=
    ⟨List.subset_append_left _ _, List.Subset.refl _, fun _ _ h => h, .refl _, fun _ _ h => h⟩
  have hself : job.target w ≠ sidecarPath (job.target w) := by
    intro heq
    have hlength := congrArg List.length heq
    simp [sidecarPath] at hlength
  refine ⟨⟨fun k hk => ?_, fun k hk l hl heq => ?_, fun k hk l hl => ?_, fun k hk => ?_⟩, hkeeps⟩
  · obtain hk | hk := List.mem_append.1 hk
    · exact h.answered k hk
    · rw [List.mem_singleton.1 hk]
      exact ⟨hid, hexternal⟩
  · obtain hk | hk := List.mem_append.1 hk <;> obtain hl | hl := List.mem_append.1 hl
    · exact h.differ k hk l hl heq
    · exact absurd heq.symm (List.mem_singleton.1 hl ▸ (hdiffer k hk).target)
    · exact absurd heq (List.mem_singleton.1 hk ▸ (hdiffer l hl).target)
    · rw [List.mem_singleton.1 hk, List.mem_singleton.1 hl]
  · obtain hk | hk := List.mem_append.1 hk <;> obtain hl | hl := List.mem_append.1 hl
    · exact h.apart k hk l hl
    · exact List.mem_singleton.1 hl ▸ (hdiffer k hk).sidecar'.symm
    · exact List.mem_singleton.1 hk ▸ (hdiffer l hl).sidecar
    · rw [List.mem_singleton.1 hk, List.mem_singleton.1 hl]
      exact hself
  · obtain ⟨hmem, hrest⟩ := h.done k hk
    exact ⟨List.mem_append_left _ hmem, hrest⟩

/-- The row a download upserts is its own, and no other download has its row there. -/
theorem keeps_upsertItem (h : Sound w s) (hj : job ∈ s.answered) {library : Library}
    (hlibrary : HasLibrary w s.db job library.id library.pluginId) {ty : String} {now : Int}
    {db : Db} (hdb : s.db.upsertItem ty now (job.upsertArgs w library job.filename) = some db) :
    Keeps w s { s with db } ∧ Listed w db job := by
  obtain ⟨hplugins, hlibraries, hkept, i, hi, hlid, hpath, hplugin, hexternal⟩ :=
    Db.of_upsertItem hdb
  have hgrows : s.db.Grows db :=
    ⟨fun p hp => ⟨p, hplugins ▸ hp, rfl, rfl⟩, fun l hl => ⟨l, hlibraries ▸ hl, rfl, rfl, rfl⟩⟩
  obtain ⟨htrim, hid⟩ := h.answered job hj
  have hnew : Listed w db job := by
    refine ⟨i, hi, ?_, hpath, hexternal.trans ?_⟩
    · rw [hlid, hplugin]
      exact hlibrary.mono hgrows
    · rw [RemoteJob.upsertArgs, hid, if_neg htrim]
  refine ⟨.of_db hgrows fun other hother hlisted => ?_, hnew⟩
  by_cases heq : other = job
  · exact heq ▸ hnew
  refine hlisted.mono hgrows fun k hk hrow => hkept k hk ?_
  rintro ⟨hklid, hkpath⟩
  -- the row of another download in the same place would have the same file
  obtain ⟨hopath, l, hl, hlkid, holpath⟩ := hrow
  obtain ⟨m, hm, hmid, -, hmpath⟩ := hlibrary
  obtain rfl : l = m := Table.id_injective hl hm.1 (hlkid.trans (hklid.trans hmid.symm))
  have hdir : other.dir w = job.dir w := String.ofList_injective (holpath.symm.trans hmpath)
  have hname : other.filename = job.filename := String.ofList_injective (hopath.symm.trans hkpath)
  exact heq (h.differ other hother job hj (by rw [RemoteJob.target, hdir, hname]; rfl))

theorem Sound.perform (h : Sound w s) (hc : Reached w s c) (hapart : KeepsApart w x s c)
    (ho : c.perform w x s = some o) : Advances w s o := by
  have hrefl := Keeps.refl w s
  cases c with
  | callDownload source id =>
    rw [RemoteCall.perform] at ho
    split at ho
    · exact advances_stop ho h hrefl
    · rename_i hurl
      obtain ⟨hexternal, hdiffer⟩ := hapart.answer (source, id) rfl hurl
      obtain ⟨hsound, hkeeps⟩ :=
        @Sound.answer w s ⟨source, id, x.answer⟩ h hc hexternal hdiffer
      exact advances_andThen ho hsound hkeeps (List.mem_append_right _ List.mem_cons_self)
  | downloadFile job =>
    simp only [RemoteCall.perform] at ho
    split at ho
    · rename_i bytes hbody
      have hkeeps : Keeps w s { s.wrote job.source (partPath (job.target w) x.uuid) with
          fetched := s.fetched ++ [(job, bytes)] } := by
        refine ⟨List.Subset.refl _, List.subset_append_left _ _, fun _ _ hplaced => ?_, .refl _,
          fun _ _ h => h⟩
        obtain ⟨bytes, hmem, hfile⟩ := hplaced
        exact ⟨bytes, List.mem_append_left _ hmem, hfile⟩
      exact advances_andThen ho (h.mono hkeeps rfl fun _ => .inl) hkeeps
        ⟨hc, List.mem_append_right _ List.mem_cons_self⟩
    · exact advances_stop ho h.wrote keeps_wrote
  | renameFile job bytes =>
    have hkeeps : Keeps w s ((s.place (job.target w) bytes).wrote job.source (job.target w)) := by
      refine ⟨List.Subset.refl _, List.Subset.refl _, fun other hother hplaced => ?_, .refl _,
        fun _ _ h => h⟩
      by_cases heq : other.target w = job.target w
      · rw [h.differ other hother job hc.1 heq]
        exact ⟨bytes, hc.2, AList.lookup_insert _⟩
      · obtain ⟨content, hmem, hfile⟩ := hplaced
        exact ⟨content, hmem, (AList.lookup_insert_ne heq).trans hfile⟩
    exact advances_andThen ho (h.mono hkeeps rfl fun _ => .inl) hkeeps
      ⟨hc.1, bytes, hc.2, AList.lookup_insert _⟩
  | writeSidecar job =>
    exact advances_andThen ho h.wrote keeps_wrote (Reached.mono hc keeps_wrote)
  | renameSidecar job =>
    have hkeeps : Keeps w s ((s.place (sidecarPath (job.target w)) (w.sidecarData job.info)).wrote
        job.source (sidecarPath (job.target w))) :=
      .of_files rfl rfl rfl fun other hother =>
        AList.lookup_insert_ne (h.apart other hother job hc.1)
    exact advances_andThen ho (h.mono hkeeps rfl fun _ => .inl) hkeeps (Reached.mono hc hkeeps)
  | selectPlugin job =>
    rw [RemoteCall.perform] at ho
    split at ho
    · exact advances_stop ho h hrefl
    · split at ho
      · rename_i plugin hfind
        obtain ⟨hmem, hname⟩ := Table.find_eq_some.1 hfind
        split at ho
        · exact advances_andThen ho h hrefl ⟨hc, plugin, hmem, rfl, hname⟩
        · exact advances_andThen ho h hrefl ⟨hc, plugin, hmem, rfl, hname⟩
      · exact advances_andThen ho h hrefl hc
  | updatePlugin job pluginId version =>
    have hkeeps : Keeps w s { s with db := s.db.updatePluginVersion pluginId version } :=
      .of_items (s.db.grows_updatePluginVersion pluginId version) fun _ hi _ _ _ => hi
    exact advances_andThen ho (h.of_db hkeeps) hkeeps (Reached.mono hc hkeeps)
  | insertPlugin job version =>
    rw [RemoteCall.perform] at ho
    split at ho
    · rename_i plugin db hinsert
      obtain ⟨hgrows, hitems, hplugin⟩ := Db.grows_insertPlugin hinsert
      have hkeeps : Keeps w s { s with db } := .of_items hgrows fun _ hi _ _ _ => hitems ▸ hi
      exact advances_andThen ho (h.of_db hkeeps) hkeeps ⟨Reached.mono hc hkeeps, hplugin⟩
    · exact advances_stop ho h hrefl
  | findLibrary job pluginId =>
    rw [RemoteCall.perform] at ho
    split at ho
    · rename_i library hfind
      obtain ⟨hmem, hkey⟩ := Table.find_eq_some.1 hfind
      obtain ⟨hjob, p, hp, hid, hname⟩ := hc
      have hpid : library.pluginId = pluginId := congrArg Prod.fst hkey
      exact advances_andThen ho h hrefl
        ⟨hjob, library, ⟨hmem, p, hp, hid.trans hpid.symm, hname⟩, rfl, rfl,
          congrArg Prod.snd hkey⟩
    · exact advances_andThen ho h hrefl hc
  | addLibrary job pluginId =>
    rw [RemoteCall.perform] at ho
    split at ho
    · rename_i library db hinsert
      obtain ⟨hgrows, hitems, hmem, hpid, hpath⟩ := Db.grows_insertLibrary hinsert
      have hkeeps : Keeps w s { s with db } := .of_items hgrows fun _ hi _ _ _ => hitems ▸ hi
      obtain ⟨hjob, p, hp, hid, hname⟩ := Reached.mono hc hkeeps
      exact advances_andThen ho (h.of_db hkeeps) hkeeps
        ⟨hjob, library, ⟨hmem, p, hp, hid.trans hpid.symm, hname⟩, rfl, rfl, hpath⟩
    · exact advances_stop ho h hrefl
  | setManaged job library =>
    rw [RemoteCall.perform] at ho
    split at ho
    · have hkeeps (id : ℕ) (metadata : String) :
          Keeps w s { s with db := s.db.setLibraryMetadata id metadata } :=
        .of_items (s.db.grows_setLibraryMetadata id metadata) fun _ hi _ _ _ => hi
      exact advances_andThen ho (h.of_db (hkeeps _ _)) (hkeeps _ _) (Reached.mono hc (hkeeps _ _))
    · exact advances_stop ho h hrefl
  | upsertItem job library =>
    rw [RemoteCall.perform, RemoteJob.rel_eq] at ho
    simp only at ho
    split at ho
    · rename_i db hdb
      obtain ⟨hkeeps, hlisted⟩ := keeps_upsertItem h hc.1.1 hc.2 hdb
      have hsound := h.of_db hkeeps
      refine advances_andThen ho ⟨hsound.answered, hsound.differ, hsound.apart, hsound.done⟩
        ⟨hkeeps.answered, hkeeps.fetched, hkeeps.placed, hkeeps.grows, hkeeps.listed⟩ ?_
      exact ⟨hc.1, hlisted⟩
    · exact advances_stop ho h hrefl
  | reloadItem job library rel =>
    rw [RemoteCall.perform] at ho
    split at ho
    · exact advances_andThen ho h hrefl hc
    · exact advances_stop ho h hrefl
  | tagItem job itemId =>
    rw [RemoteCall.perform] at ho
    split at ho
    · rename_i db htag
      obtain ⟨hgrows, hitems⟩ := tag_keeps htag
      have hkeeps : Keeps w s { s with db } := .of_items hgrows fun i hi _ _ _ => hitems i hi
      exact advances_andThen ho (h.of_db hkeeps) hkeeps (Reached.mono hc hkeeps)
    · rename_i db htag
      obtain ⟨hgrows, hitems⟩ := tag_keeps htag
      have hkeeps : Keeps w s { s with db } := .of_items hgrows fun i hi _ _ _ => hitems i hi
      exact advances_stop ho (h.of_db hkeeps) hkeeps
  | reportDone job =>
    have hkeeps : Keeps w s { s with done := s.done ++ [job] } :=
      .of_files rfl rfl rfl fun _ _ => rfl
    refine advances_stop ho (h.mono hkeeps rfl fun other hother => ?_) hkeeps
    obtain hother | hother := List.mem_append.1 hother
    · exact .inl hother
    · exact .inr (List.mem_singleton.1 hother ▸ hc)
  | findSource source id =>
    rw [RemoteCall.perform] at ho
    split at ho
    · exact advances_stop ho h hrefl
    · split at ho
      · exact advances_andThen ho h hrefl trivial
      · exact advances_stop ho h hrefl
  | listItems source id pluginId => exact advances_andThen ho h hrefl trivial
  | removeFile source rows =>
    cases rows with
    | nil => exact advances_stop ho h hrefl
    | cons row rows =>
      have hkeeps := keeps_remove source (hapart.file row.2 rfl)
      exact advances_andThen ho (h.remove hkeeps) hkeeps trivial
  | removeSidecar source row rows =>
    have hkeeps := keeps_remove source (hapart.file (sidecarPath row.2) rfl)
    exact advances_andThen ho (h.remove hkeeps) hkeeps trivial
  | deleteItem source row rows =>
    have hkeeps : Keeps w s { s with db := s.db.deleteItems fun i => i.id = row.1 } := by
      refine .of_items ⟨fun p hp => ⟨p, hp, rfl, rfl⟩, fun l hl => ⟨l, hl, rfl, rfl, rfl⟩⟩
        fun i hi job hj hrow => Table.mem_delete.2 ⟨hi, decide_eq_false fun hid => ?_⟩
      exact hapart.row row.1 rfl i hi hid job hj hrow
    exact advances_andThen ho (h.of_db hkeeps) hkeeps trivial

theorem Sound.exec (h : Sound w s) (hc : Reached w s c) (hapart : KeepsApart w x s c)
    (ho : c.exec w x s = some o) : Advances w s o := by
  rw [RemoteCall.exec] at ho
  split at ho
  · exact advances_stop ho h (.refl w s)
  · exact h.perform hc hapart ho

theorem sound_step : ∀ p l p',
    (Sound w p.shared ∧ ∀ c ∈ TaskPool.calls p.tasks, Reached w p.shared c) → RunsApart w p l →
      (semantics w).step p l = some p' →
        Sound w p'.shared ∧ ∀ c ∈ TaskPool.calls p'.tasks, Reached w p'.shared c := by
  refine Semantics.preserves_pending ?_ ?_ ?_
  · rintro p l i x c o rfl hC hexec h hc ho
    obtain ⟨hsound, hkeeps, hnext, hspawn⟩ := h.exec hc (hC c hexec) ho
    refine ⟨hsound, fun k hk => hk.mono hkeeps, hnext, ?_⟩
    rw [hspawn]
    exact List.forall_mem_nil _
  · rintro p q s t - h hq
    obtain ⟨rfl, hstack⟩ := accept_eq hq
    refine ⟨h, fun k hk => hk, fun k hk => ?_⟩
    obtain ⟨-, id, -, source, -, -, hid, hstack⟩ | ⟨source, id, hstack⟩ := hstack
    · rw [hstack, List.mem_singleton] at hk
      rw [hk]
      exact hid
    · rw [hstack, List.mem_singleton] at hk
      rw [hk]
      trivial
  · rintro p e s hC
    exact hC.elim

variable {db : Db} {files : HashMap PathBuf Bytes} {ls : List RemoteLabel} {p : RemotePool}

/-- Downloads that keep apart stay installed, each with the file that was fetched for it. -/
theorem done_installed (hrun : Run w db files ls p)
    (hapart : Transition.Along (semantics w).step (RunsApart w) (start db files) ls) :
    ∀ job ∈ p.shared.done, Installed w p.shared job := by
  have hstart : Sound w (start db files).shared ∧
      ∀ c ∈ TaskPool.calls (start db files).tasks, Reached w (start db files).shared c :=
    ⟨⟨nofun, nofun, nofun, nofun⟩, List.forall_mem_nil _⟩
  have hsound := (Transition.invariant_of_run sound_step hstart hapart hrun).1
  exact fun job hj => hsound.installed hj

instance (w : RemoteWorld) (job other : RemoteJob) : Decidable (Differ w job other) :=
  decidable_of_iff (job.target w ≠ other.target w ∧ job.target w ≠ sidecarPath (other.target w) ∧
    sidecarPath (job.target w) ≠ other.target w)
    ⟨fun h => ⟨h.1, h.2.1, h.2.2⟩, fun h => ⟨h.1, h.2, h.3⟩⟩

instance (w : RemoteWorld) (db : Db) (job : RemoteJob) (i : Item) : Decidable (RowOf w db job i) :=
  inferInstanceAs (Decidable (_ ∧ ∃ l ∈ db.libraries.rows, _ ∧ _))

instance (w : RemoteWorld) (x : RemoteChoice) (s : RemoteState) (c : RemoteCall) :
    Decidable (KeepsApart w x s c) :=
  decidable_of_iff ((∀ q ∈ asks c, trim x.answer.url ≠ "" →
      x.answer.externalId = q.2 ∧ ∀ job ∈ s.answered, Differ w ⟨q.1, q.2, x.answer⟩ job) ∧
    (∀ path ∈ removes c, ∀ job ∈ s.answered, path ≠ job.target w) ∧
    ∀ n ∈ deletes c, ∀ i ∈ s.db.items.rows, i.id = n → ∀ job ∈ s.answered, ¬RowOf w s.db job i)
    ⟨fun h => ⟨h.1, h.2.1, h.2.2⟩, fun h => ⟨h.1, h.2, h.3⟩⟩

instance (w : RemoteWorld) (p : RemotePool) : (l : RemoteLabel) → Decidable (RunsApart w p l)
  | .run i x =>
      inferInstanceAs (Decidable (∀ c ∈ p.executed (.run i x : RemoteLabel),
        KeepsApart w x p.shared c))
  | .wake _ | .drop _ | .start _ => .isTrue trivial
  | .env _ => .isFalse id

/-- A download of a source whose plugin and library are known. -/
def redownloads (i : ℕ) (source id filename : String) (body : Bytes) : List RemoteLabel :=
  .start (.remoteDownload source id none) :: .run i (pictured id filename) :: fetches i body 10

theorem reaches_two : (Transition.run (semantics hosted).step (start .empty ∅)
    (downloads 0 "wall" "7" "a.png" [1] ++ redownloads 1 "wall" "8" "b.png" [2])).isSome = true := by
  decide +kernel

theorem done_installed_two : (Transition.reached _ _ _ reaches_two).shared.done.length = 2 ∧
    ∀ job ∈ (Transition.reached _ _ _ reaches_two).shared.done,
      Installed hosted (Transition.reached _ _ _ reaches_two).shared job :=
  ⟨by decide +kernel, done_installed (Transition.run_reached _ _) (by decide +kernel)⟩

/-- The id a download is requested for. -/
def requested : RemoteLabel → Option String
  | .start (.remoteDownload _ id _) => some id
  | _ => none

/-- The run consists of downloads of the source with pairwise different ids. -/
structure DownloadsOf (source : String) (ls : List RemoteLabel) : Prop where
  only : ∀ l ∈ ls, (∃ i x, l = .run i x) ∨ ∃ id, l = .start (.remoteDownload source id none)
  nodup : (ls.filterMap requested).Nodup

/-- Downloads of one source, one after the other, whose file names are sanitised alike. -/
def alike : List RemoteLabel :=
  downloads 0 "wall" "7" "a b.png" [1] ++ redownloads 1 "wall" "8" "a:b.png" [2]

theorem downloadsOf_alike : DownloadsOf "wall" alike := by
  have hrun (n i : ℕ) (x : RemoteChoice) : ∀ l ∈ List.replicate n (.run i x : RemoteLabel),
      (∃ i x, l = .run i x) ∨ ∃ id, l = .start (.remoteDownload "wall" id none) :=
    fun l hl => .inl ⟨i, x, List.eq_of_mem_replicate hl⟩
  refine ⟨List.forall_mem_append.2 ⟨?_, ?_⟩, by decide⟩
  · exact List.forall_mem_cons.2 ⟨.inr ⟨_, rfl⟩, List.forall_mem_cons.2 ⟨.inl ⟨_, _, rfl⟩,
      List.forall_mem_cons.2 ⟨.inl ⟨_, _, rfl⟩, hrun 12 0 {}⟩⟩⟩
  · exact List.forall_mem_cons.2 ⟨.inr ⟨_, rfl⟩, List.forall_mem_cons.2 ⟨.inl ⟨_, _, rfl⟩,
      List.forall_mem_cons.2 ⟨.inl ⟨_, _, rfl⟩, hrun 10 1 {}⟩⟩⟩

theorem reaches_alike : (Transition.run (semantics hosted).step (start .empty ∅) alike).isSome =
    true := by
  decide +kernel

theorem not_done_installed : ¬∀ (w : RemoteWorld) (db : Db) (files : HashMap PathBuf Bytes)
    (source : String) (ls : List RemoteLabel) (p : RemotePool), DownloadsOf source ls →
      Run w db files ls p → ∀ job ∈ p.shared.done, Installed w p.shared job := by
  intro h
  have hinstalled := h _ _ _ _ _ _ downloadsOf_alike (Transition.run_reached _ reaches_alike)
  have hdone : (⟨"wall", "7", (pictured "7" "a b.png").answer⟩ : RemoteJob) ∈
      (Transition.reached _ _ _ reaches_alike).shared.done := by
    decide +kernel
  exact absurd (hinstalled _ hdone).has (by decide +kernel)

end RemoteState

end Waywallen
