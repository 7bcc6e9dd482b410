import Waywallen.Remote.Download

/-!
# What an uninstall removes

An uninstall removes the files of the rows it finds under the plugin and the id, whoever recorded
them. As long as these are rows of downloads of the source, only files are removed that such a
download wrote below the directory of the source; and unless the source is called `..`, that lies
below the remote directory.
-/

namespace Waywallen

open TaskPool UnixPath

/-- A library has no files below the remote directory. -/
def ApartFromRemote (w : RemoteWorld) (library : String) : Prop :=
  ∀ path, Inside (remoteRoot w.base) path → stripPrefix path library.toList = none

namespace RemoteState

/-- What is removed was written by downloads of the source below its directory, what these write
lies below the remote directory, and no file of a library that the user has added is removed. -/
structure OnlyOwn (w : RemoteWorld) (s : RemoteState) : Prop where
  removed : ∀ e ∈ s.removed, e ∈ s.written ∧ Inside (remoteContentDir w.base e.1) e.2
  written : ∀ e ∈ s.written, Inside (remoteRoot w.base) e.2
  spared : ∀ e ∈ s.removed, ∀ library ∈ s.registered, stripPrefix e.2 library.toList = none

/-- What a call looks up in the database: a source, an id and the plugin of the source. -/
def lookup : RemoteCall → Option (String × String × ℕ)
  | .listItems source id pluginId => some (source, id, pluginId)
  | _ => none

/-- The rows an uninstall finds were recorded where they are by downloads of the source. -/
def RowsOwn (s : RemoteState) (c : RemoteCall) : Prop :=
  ∀ q ∈ lookup c, ∀ row ∈ s.db.itemsOf q.2.2 q.2.1,
    (⟨q.1, row.2.path, row.1.path⟩ : RemotePlace) ∈ s.recorded

/-- No source is called `..`, and the user adds no library with files below the remote directory. -/
def KeepsOut (w : RemoteWorld) : RemoteLabel → Prop
  | .start (.remoteDownload sourceId _ discovered) =>
      resolveRemoteSourceId sourceId discovered ≠ some ".."
  | .env (.libraryAdd _ path) => ApartFromRemote w path
  | _ => True

structure FindsOwn (w : RemoteWorld) (p : RemotePool) (l : RemoteLabel) : Prop where
  keepsOut : KeepsOut w l
  rows : ∀ c ∈ p.executed l, RowsOwn p.shared c

/-- A download of the source has written the file and its sidecar. -/
structure Stored (s : RemoteState) (source : String) (path : PathBuf) : Prop where
  file : (source, path) ∈ s.written
  sidecar : (source, sidecarPath path) ∈ s.written

structure Traced (w : RemoteWorld) (s : RemoteState) : Prop where
  below : ∀ e ∈ s.written, e.1 ≠ ".." ∧ Below (remoteContentDir w.base e.1) e.2
  recorded : ∀ r ∈ s.recorded, s.Stored r.source (joinPath r.library.toList r.path.toList)
  removed : ∀ e ∈ s.removed, e ∈ s.written
  registered : ∀ library ∈ s.registered, ApartFromRemote w library

/-- What the pending calls rely on. -/
def Holds (w : RemoteWorld) (s : RemoteState) : RemoteCall → Prop
  | .callDownload source _ => source ≠ ".."
  | .downloadFile job | .renameFile job _ => job.source ≠ ".."
  | .writeSidecar job | .renameSidecar job =>
      job.source ≠ ".." ∧ (job.source, job.target w) ∈ s.written
  | .selectPlugin job | .updatePlugin job _ _ | .insertPlugin job _ | .findLibrary job _
  | .addLibrary job _ | .setManaged job _ | .upsertItem job _ =>
      s.Stored job.source (job.target w)
  | .removeFile source rows => ∀ row ∈ rows, s.Stored source row.2
  | .removeSidecar source row rows | .deleteItem source row rows =>
      ∀ r ∈ row :: rows, s.Stored source r.2
  | _ => True

variable {w : RemoteWorld} {s s' : RemoteState} {source : String} {path : PathBuf}
  {c : RemoteCall}

theorem Traced.onlyOwn (h : Traced w s) : OnlyOwn w s := by
  have hinside (e : String × PathBuf) (he : e ∈ s.written) :
      Inside (remoteContentDir w.base e.1) e.2 ∧ Inside (remoteRoot w.base) e.2 := by
    obtain ⟨hsource, name, hname, hpath⟩ := h.below e he
    rw [hpath]
    exact ⟨inside_remoteContentDir w.base e.1 hname, inside_remoteRoot w.base hsource hname⟩
  refine ⟨fun e he => ⟨h.removed e he, (hinside e (h.removed e he)).1⟩,
    fun e he => (hinside e he).2, fun e he library hl => ?_⟩
  exact h.registered library hl e.2 (hinside e (h.removed e he)).2

theorem Stored.mono (h : s.Stored source path) (hsub : s.written ⊆ s'.written) :
    s'.Stored source path :=
  ⟨hsub h.file, hsub h.sidecar⟩

theorem Holds.mono (h : Holds w s c) (hsub : s.written ⊆ s'.written) : Holds w s' c := by
  cases c with
  | writeSidecar job | renameSidecar job => exact ⟨h.1, hsub h.2⟩
  | selectPlugin job | updatePlugin job pluginId version | insertPlugin job version
  | findLibrary job pluginId | addLibrary job pluginId | setManaged job library
  | upsertItem job library => exact Stored.mono h hsub
  | removeFile source rows => exact fun row hrow => (h row hrow).mono hsub
  | removeSidecar source row rows | deleteItem source row rows =>
    exact fun r hr => (h r hr).mono hsub
  | _ => exact h

theorem Traced.wrote (h : Traced w s) (hsource : source ≠ "..")
    (hbelow : Below (remoteContentDir w.base source) path) : Traced w (s.wrote source path) where
  below e he := by
    obtain he | he := List.mem_append.1 he
    · exact h.below e he
    · rw [List.mem_singleton.1 he]
      exact ⟨hsource, hbelow⟩
  recorded r hr := (h.recorded r hr).mono (List.subset_append_left _ _)
  removed e he := List.mem_append_left _ (h.removed e he)
  registered := h.registered

theorem Traced.remove (h : Traced w s) (hmem : (source, path) ∈ s.written) :
    Traced w (s.remove source path) := by
  unfold RemoteState.remove
  split
  · refine ⟨h.below, fun r hr => ⟨(h.recorded r hr).1, (h.recorded r hr).2⟩, fun e he => ?_,
      h.registered⟩
    obtain he | he := List.mem_append.1 he
    · exact h.removed e he
    · rw [List.mem_singleton.1 he]
      exact hmem
  · exact h

@[simp] theorem written_remove : (s.remove source path).written = s.written := by
  unfold RemoteState.remove
  split <;> rfl

theorem subset_written_remove : s.written ⊆ (s.remove source path).written := by simp

/-- Whatever happens to the database, the files and the downloads, the places stay traced. -/
theorem Traced.frame (h : Traced w s) (hwritten : s'.written = s.written)
    (hrecorded : s'.recorded = s.recorded) (hremoved : s'.removed = s.removed)
    (hregistered : s'.registered = s.registered) : Traced w s' := by
  refine ⟨?_, fun r hr => ?_, ?_, ?_⟩
  · rw [hwritten]
    exact h.below
  · rw [hrecorded] at hr
    exact (h.recorded r hr).mono (hwritten ▸ List.Subset.refl _)
  · rw [hremoved, hwritten]
    exact h.removed
  · rw [hregistered]
    exact h.registered

/-- What a call keeps and what it leaves to the calls it goes on with. -/
structure Goes (w : RemoteWorld) (s : RemoteState) (o : Outcome RemoteState RemoteCall) : Prop where
  traced : Traced w o.shared
  subset : s.written ⊆ o.shared.written
  next : ∀ k ∈ o.next, Holds w o.shared k
  spawn : o.spawn = []

variable {o : Outcome RemoteState RemoteCall} {x : RemoteChoice}

theorem goes_stop (ho : s'.stop = some o) (h : Traced w s') (hsub : s.written ⊆ s'.written) :
    Goes w s o := by
  obtain rfl := stop_eq ho
  exact ⟨h, hsub, List.forall_mem_nil _, rfl⟩

theorem goes_andThen (ho : s'.andThen c = some o) (h : Traced w s')
    (hsub : s.written ⊆ s'.written) (hc : Holds w s' c) : Goes w s o := by
  obtain rfl := andThen_eq ho
  exact ⟨h, hsub, fun k hk => List.mem_singleton.1 hk ▸ hc, rfl⟩

theorem Traced.perform (h : Traced w s) (hc : Holds w s c) (hrows : RowsOwn s c)
    (ho : c.perform w x s = some o) : Goes w s o := by
  have hframe (db : Db) : Traced w { s with db } := h.frame rfl rfl rfl rfl
  cases c with
  | callDownload source id =>
    rw [RemoteCall.perform] at ho
    split at ho
    · exact goes_stop ho h (List.Subset.refl _)
    · exact goes_andThen ho (h.frame rfl rfl rfl rfl) (List.Subset.refl _) hc
  | downloadFile job =>
    have hpart := h.wrote hc (RemoteJob.below_partPath x.uuid)
    simp only [RemoteCall.perform] at ho
    split at ho
    · exact goes_andThen ho (hpart.frame rfl rfl rfl rfl) (List.subset_append_left _ _) hc
    · exact goes_stop ho hpart (List.subset_append_left _ _)
  | renameFile job bytes =>
    have hfile := h.wrote hc RemoteJob.below_target
    exact goes_andThen ho (hfile.frame rfl rfl rfl rfl) (List.subset_append_left _ _)
      ⟨hc, List.mem_append_right _ List.mem_cons_self⟩
  | writeSidecar job =>
    have htemp := h.wrote hc.1 (RemoteJob.below_sidecarTempPath x.uuid)
    exact goes_andThen ho htemp (List.subset_append_left _ _)
      ⟨hc.1, List.mem_append_left _ hc.2⟩
  | renameSidecar job =>
    have hsidecar := h.wrote hc.1 RemoteJob.below_target.sidecar
    exact goes_andThen ho (hsidecar.frame rfl rfl rfl rfl) (List.subset_append_left _ _)
      ⟨List.mem_append_left _ hc.2, List.mem_append_right _ List.mem_cons_self⟩
  | selectPlugin job =>
    rw [RemoteCall.perform] at ho
    split at ho
    · exact goes_stop ho h (List.Subset.refl _)
    · split at ho
      · split at ho
        · exact goes_andThen ho h (List.Subset.refl _) hc
        · exact goes_andThen ho h (List.Subset.refl _) hc
      · exact goes_andThen ho h (List.Subset.refl _) hc
  | updatePlugin job pluginId version =>
    exact goes_andThen ho (hframe _) (List.Subset.refl _) ⟨hc.1, hc.2⟩
  | insertPlugin job version =>
    rw [RemoteCall.perform] at ho
    split at ho
    · exact goes_andThen ho (hframe _) (List.Subset.refl _) ⟨hc.1, hc.2⟩
    · exact goes_stop ho h (List.Subset.refl _)
  | findLibrary job pluginId =>
    rw [RemoteCall.perform] at ho
    split at ho
    · exact goes_andThen ho h (List.Subset.refl _) hc
    · exact goes_andThen ho h (List.Subset.refl _) hc
  | addLibrary job pluginId =>
    rw [RemoteCall.perform] at ho
    split at ho
    · exact goes_andThen ho (hframe _) (List.Subset.refl _) ⟨hc.1, hc.2⟩
    · exact goes_stop ho h (List.Subset.refl _)
  | setManaged job library =>
    rw [RemoteCall.perform] at ho
    split at ho
    · exact goes_andThen ho (hframe _) (List.Subset.refl _) ⟨hc.1, hc.2⟩
    · exact goes_stop ho h (List.Subset.refl _)
  | upsertItem job library =>
    rw [RemoteCall.perform, RemoteJob.rel_eq] at ho
    simp only at ho
    split at ho
    · refine goes_andThen ho ⟨h.below, fun r hr => ?_, h.removed, h.registered⟩
        (List.Subset.refl _) trivial
      obtain hr | hr := List.mem_append.1 hr
      · exact ⟨(h.recorded r hr).1, (h.recorded r hr).2⟩
      · rw [List.mem_singleton.1 hr]
        simp only [RemoteJob.joinPath_place]
        exact ⟨hc.1, hc.2⟩
    · exact goes_stop ho h (List.Subset.refl _)
  | reloadItem job library rel =>
    rw [RemoteCall.perform] at ho
    split at ho
    · exact goes_andThen ho h (List.Subset.refl _) trivial
    · exact goes_stop ho h (List.Subset.refl _)
  | tagItem job itemId =>
    rw [RemoteCall.perform] at ho
    split at ho
    · exact goes_andThen ho (hframe _) (List.Subset.refl _) trivial
    · exact goes_stop ho (hframe _) (List.Subset.refl _)
  | reportDone job => exact goes_stop ho (h.frame rfl rfl rfl rfl) (List.Subset.refl _)
  | findSource source id =>
    rw [RemoteCall.perform] at ho
    split at ho
    · exact goes_stop ho h (List.Subset.refl _)
    · split at ho
      · exact goes_andThen ho h (List.Subset.refl _) trivial
      · exact goes_stop ho h (List.Subset.refl _)
  | listItems source id pluginId =>
    refine goes_andThen ho h (List.Subset.refl _) (fun row hrow => ?_)
    -- a row that a download has recorded leads to the file that it wrote
    obtain ⟨found, hfound, rfl⟩ := List.mem_map.1 hrow
    exact h.recorded _ (hrows (source, id, pluginId) rfl found hfound)
  | removeFile source rows =>
    cases rows with
    | nil => exact goes_stop ho h (List.Subset.refl _)
    | cons row rows =>
      refine goes_andThen ho (h.remove (hc row List.mem_cons_self).1)
        subset_written_remove ?_
      exact fun r hr => (hc r hr).mono subset_written_remove
  | removeSidecar source row rows =>
    refine goes_andThen ho (h.remove (hc row List.mem_cons_self).2)
      subset_written_remove ?_
    exact fun r hr => (hc r hr).mono subset_written_remove
  | deleteItem source row rows =>
    exact goes_andThen ho (hframe _) (List.Subset.refl _)
      (fun r hr => ⟨(hc r (List.mem_cons_of_mem _ hr)).1, (hc r (List.mem_cons_of_mem _ hr)).2⟩)

theorem Traced.exec (h : Traced w s) (hc : Holds w s c) (hrows : RowsOwn s c)
    (ho : c.exec w x s = some o) : Goes w s o := by
  rw [RemoteCall.exec] at ho
  split at ho
  · exact goes_stop ho h (List.Subset.refl _)
  · exact h.perform hc hrows ho

/-- The rest of the daemon and the user leave the history of the downloads alone. -/
theorem act_history {e : RemoteSignal} (he : act e s = some s') :
    s'.written = s.written ∧ s'.recorded = s.recorded ∧ s'.removed = s.removed ∧
      ∀ library ∈ s'.registered, library ∈ s.registered ∨
        ∃ pluginName, e = .libraryAdd pluginName library := by
  cases e with
  | libraryAdd pluginName path =>
    obtain ⟨plugin, -, he⟩ := Option.bind_eq_some_iff.1 he
    obtain ⟨r, -, rfl⟩ := Option.map_eq_some_iff.1 he
    refine ⟨rfl, rfl, rfl, fun library hl => ?_⟩
    obtain hl | hl := List.mem_append.1 hl
    · exact .inl hl
    · exact .inr ⟨pluginName, by rw [List.mem_singleton.1 hl]⟩
  | insertPlugin name version | syncLibrary pluginId path | syncItem ty now args =>
    obtain ⟨r, -, rfl⟩ := Option.map_eq_some_iff.1 he
    exact ⟨rfl, rfl, rfl, fun _ => .inl⟩
  | _ =>
    cases he
    exact ⟨rfl, rfl, rfl, fun _ => .inl⟩

/-- A request starts with a call that names its source. -/
theorem accept_eq {q : RemoteRequest} {t : TaskPool.Task RemoteCall}
    (hq : accept q s = some (s', t)) : s' = s ∧ ((∃ sourceId id discovered source,
      q = .remoteDownload sourceId id discovered ∧
        resolveRemoteSourceId sourceId discovered = some source ∧ trim id ≠ "" ∧
          t.stack = [.callDownload source id]) ∨
      ∃ source id, t.stack = [.findSource source id]) := by
  cases q with
  | remoteDownload sourceId id discovered =>
    simp only [accept] at hq
    split at hq
    · rename_i source hsource
      obtain ⟨hid, heq⟩ := Option.ite_none_left_eq_some.1 hq
      cases heq
      exact ⟨rfl, .inl ⟨sourceId, id, discovered, source, rfl, hsource, hid, rfl⟩⟩
    · cases hq
  | remoteUninstall sourceId id discovered =>
    obtain ⟨source, -, heq⟩ := Option.map_eq_some_iff.1 hq
    cases heq
    exact ⟨rfl, .inr ⟨source, id, rfl⟩⟩

theorem traced_step : ∀ p l p',
    (Traced w p.shared ∧ ∀ c ∈ TaskPool.calls p.tasks, Holds w p.shared c) → FindsOwn w p l →
      (semantics w).step p l = some p' →
        Traced w p'.shared ∧ ∀ c ∈ TaskPool.calls p'.tasks, Holds w p'.shared c := by
  refine Semantics.preserves_pending ?_ ?_ ?_
  · rintro p l i x c o rfl hC hexec h hc ho
    obtain ⟨htraced, hsub, hnext, hspawn⟩ := h.exec hc (hC.rows c hexec) ho
    refine ⟨htraced, fun k hk => hk.mono hsub, hnext, ?_⟩
    rw [hspawn]
    exact List.forall_mem_nil _
  · rintro p q s t hC h hq
    obtain ⟨rfl, hstack⟩ := accept_eq hq
    refine ⟨h, fun k hk => hk, fun k hk => ?_⟩
    obtain ⟨sourceId, id, discovered, source, rfl, hsource, -, hstack⟩ | ⟨source, id, hstack⟩ :=
      hstack
    · rw [hstack, List.mem_singleton] at hk
      rw [hk]
      rintro rfl
      exact hC.keepsOut hsource
    · rw [hstack, List.mem_singleton] at hk
      rw [hk]
      trivial
  · rintro p e s hC h he
    obtain ⟨hwritten, hrecorded, hremoved, hregistered⟩ := act_history he
    have hsub : p.shared.written ⊆ s.written := hwritten ▸ List.Subset.refl _
    refine ⟨⟨hwritten ▸ h.below, fun r hr => ?_, ?_, fun library hl => ?_⟩,
      fun k hk => hk.mono hsub⟩
    · rw [hrecorded] at hr
      exact (h.recorded r hr).mono hsub
    · rw [hremoved, hwritten]
      exact h.removed
    · obtain hl | ⟨pluginName, rfl⟩ := hregistered library hl
      · exact h.registered library hl
      · exact hC.keepsOut

variable {db : Db} {files : HashMap PathBuf Bytes} {ls : List RemoteLabel} {p : RemotePool}

/-- In a run that keeps to the rows of the source, `RemoteUninstall` removes only what a
`RemoteDownload` of the source has written, and nothing is written outside the remote directory. -/
theorem removes_only_own (hrun : Run w db files ls p)
    (hown : Transition.Along (semantics w).step (FindsOwn w) (start db files) ls) :
    OnlyOwn w p.shared := by
  have hstart : Traced w (start db files).shared ∧
      ∀ c ∈ TaskPool.calls (start db files).tasks, Holds w (start db files).shared c :=
    ⟨⟨(by rintro _ ⟨⟩), (by rintro _ ⟨⟩), (by rintro _ ⟨⟩), (by rintro _ ⟨⟩)⟩, List.forall_mem_nil _⟩
  exact (Transition.invariant_of_run traced_step hstart hown hrun).1.onlyOwn

instance (s : RemoteState) (c : RemoteCall) : Decidable (RowsOwn s c) :=
  inferInstanceAs (Decidable (∀ q ∈ lookup c, ∀ row ∈ s.db.itemsOf q.2.2 q.2.1,
    (⟨q.1, row.2.path, row.1.path⟩ : RemotePlace) ∈ s.recorded))

/-- A data directory. -/
def hosted : RemoteWorld where
  base := "/data/waywallen".toList
  toLowercase := id
  sidecarData _ := []
  markManaged := id

/-- The answer of a plugin to the download of `id`. -/
def pictured (id filename : String) : RemoteChoice where
  answer := ⟨"image", id, filename, "", "", "", [], id, none, none, none, none⟩

/-- The bytes arrive, and `n` calls follow. -/
def fetches (i : ℕ) (body : Bytes) (n : ℕ) : List RemoteLabel :=
  .run i { body := some body } :: List.replicate n (.run i {})

/-- A download of a new source, which runs as task `i` to its end. -/
def downloads (i : ℕ) (source id filename : String) (body : Bytes) : List RemoteLabel :=
  .start (.remoteDownload source id none) :: .run i (pictured id filename) :: fetches i body 12

/-- An uninstall that finds one row, which runs as task `i` to its end. -/
def uninstalls (i : ℕ) (source id : String) : List RemoteLabel :=
  .start (.remoteUninstall source id none) :: List.replicate 6 (.run i {})

theorem reaches_uninstalled : (Transition.run (semantics hosted).step (start .empty ∅)
    (downloads 0 "wall" "7" "a.png" [1] ++ uninstalls 1 "wall" "7")).isSome = true := by
  decide +kernel

theorem removes_only_own_uninstalled :
    OnlyOwn hosted (Transition.reached _ _ _ reaches_uninstalled).shared := by
  have hrows : Transition.Along (semantics hosted).step
      (fun p l => ∀ c ∈ p.executed l, RowsOwn p.shared c) (start .empty ∅)
      (downloads 0 "wall" "7" "a.png" [1] ++ uninstalls 1 "wall" "7") := by
    decide +kernel
  have hout : ∀ l ∈ downloads 0 "wall" "7" "a.png" [1] ++ uninstalls 1 "wall" "7",
      KeepsOut hosted l := by
    simp [downloads, fetches, uninstalls, KeepsOut, resolveRemoteSourceId]
  exact removes_only_own (Transition.run_reached _ _)
    (((Transition.along_of_forall hout _).and hrows).mono fun _ _ h => ⟨h.1, h.2⟩)

/-- A scan gives a picture of the user an id, as scans do. -/
def scans : List RemoteLabel :=
  [.env (.insertPlugin "wall" "1.0"), .env (.libraryAdd "wall" "/pictures"),
    .env (.writeFile "/pictures/a.png".toList [1]),
    .env (.syncItem "image" 0 ⟨1, 1, "a.png", "image", "a", none, none, some "7", none, none, none,
      none⟩)]

theorem reaches_scanned : (Transition.run (semantics hosted).step (start .empty ∅)
    (scans ++ uninstalls 0 "wall" "7")).isSome = true := by
  decide +kernel

theorem not_removes_only_own : ¬∀ (w : RemoteWorld) (db : Db) (files : HashMap PathBuf Bytes)
    (ls : List RemoteLabel) (p : RemotePool), Run w db files ls p → OnlyOwn w p.shared := by
  intro h
  have hown := h _ _ _ _ _ (Transition.run_reached _ reaches_scanned)
  have hremoved : ("wall", "/pictures/a.png".toList) ∈
      (Transition.reached _ _ _ reaches_scanned).shared.removed := by
    decide +kernel
  have hspared := hown.spared _ hremoved "/pictures" (by decide +kernel)
  exact absurd hspared (by decide +kernel)

end RemoteState

end Waywallen
