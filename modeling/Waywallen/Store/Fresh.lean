import Waywallen.Library.Transition
import Waywallen.Store.FailedScan
import Waywallen.Store.Pass

/-!
# Whether the items follow their files

Files change on the disk, the sources are refreshed and the background task makes its passes, in
any order. A file that changed should be seen in its row after the next refresh and the next pass.
A pass reads a file only once, so that a row that was written keeps what it shows.
-/

namespace Waywallen

/-! ## The system -/

/-- The database next to the files. -/
structure FileState where
  db : Db
  disk : Disk
  /-- When the file at a path last changed. -/
  changedAt : String → Option Int
  /-- When the last refresh that succeeded ended. -/
  refreshedAt : Int
  clock : Int

/-- A pass of the background task; the clock does not go back in it. -/
structure ProbePass where
  outside : Outside
  order : WorkOrder
  clock : Monotone outside.now

inductive FileEvent
  | change (path : String) (stat : Option FileStat) (media : MediaMeta) (now : Int)
  | refresh (w : Surroundings) (infos : HashMap String PluginInfo) (now : Int)
  | pass (p : ProbePass)

def Disk.change (disk : Disk) (path : String) (stat : Option FileStat) (media : MediaMeta) :
    Disk where
  statFile := Function.update disk.statFile path stat
  probeMedia := Function.update disk.probeMedia path media

namespace FileState

variable (σ : FileState)

/-- Each event is later than the one before. A file changes when its size or its time does. -/
def step : FileEvent → Option FileState
  | .change path stat media now =>
    if σ.clock < now ∧ σ.disk.statFile path ≠ stat then
      some { σ with
        disk := σ.disk.change path stat media
        changedAt := Function.update σ.changedAt path (some now)
        clock := now }
    else none
  | .refresh w infos now =>
    if σ.clock < now then
      match refreshSourcesInner w infos (.new σ.db) with
      | .ok _ s => some { σ with db := s.db, refreshedAt := now, clock := now }
      | .error _ s => some { σ with db := s.db, clock := now }
    else none
  | .pass p =>
    if σ.clock < p.outside.now 0 then
      let s := finalState (runPending p.outside p.order σ.disk) (.new σ.db)
      some { σ with db := s.db, clock := p.outside.now s.asked }
    else none

/-- The event is a pass in which no write fails. -/
def Completes : FileEvent → Prop
  | .pass p =>
    match runPending p.outside p.order σ.disk (.new σ.db) with
    | .ok stats _ => stats.writeErrors = 0
    | .error _ _ => False
  | _ => False

/-- The items whose files have changed, with a refresh since then: the row, the file as it is and
the time of the change. -/
def EachDue (P : Item → FileStat → Int → Prop) : Prop :=
  ∀ i ∈ σ.db.items.rows, ∀ path ∈ σ.db.filePath i, ∀ stat ∈ σ.disk.statFile path,
    ∀ t ∈ σ.changedAt path, t < σ.refreshedAt → P i stat t

/-- No change is in the future. -/
def Timely : Prop :=
  ∀ path, ∀ t ∈ σ.changedAt path, t ≤ σ.clock

end FileState

namespace Item

variable (i : Item) (stat : FileStat) (t : Int)

def IsMedia : Prop :=
  i.ty = "image" ∨ i.ty = "video"

/-- The row shows the file, and a picture or video was probed after the change. -/
def IsFresh : Prop :=
  (i.size = some stat.size ∧ i.modifiedAt = some stat.modifiedAt) ∧
    (i.IsMedia → ∃ p ∈ i.probedAt, t < p)

/-- The row is to be read or shows the file, and a picture or video is to be probed or was. -/
def CanBeFresh : Prop :=
  (i.needsStat = true ∨ i.size = some stat.size ∧ i.modifiedAt = some stat.modifiedAt) ∧
    (i.IsMedia → i.needsProbe probableExts = true ∨ ∃ p ∈ i.probedAt, t < p)

instance : Decidable i.IsMedia :=
  inferInstanceAs (Decidable (_ ∨ _))

instance : Decidable (i.CanBeFresh stat t) :=
  inferInstanceAs (Decidable (_ ∧ _))

end Item

namespace FileState

variable {σ σ' σ₀ : FileState}

instance (P : Item → FileStat → Int → Prop) [∀ i stat t, Decidable (P i stat t)] :
    Decidable (σ.EachDue P) :=
  inferInstanceAs (Decidable (∀ i ∈ σ.db.items.rows, _))

instance : (e : FileEvent) → Decidable (σ.Completes e)
  | .pass p =>
    match h : runPending p.outside p.order σ.disk (.new σ.db) with
    | .ok stats _ => decidable_of_iff (stats.writeErrors = 0) (by simp [Completes, h])
    | .error _ _ => .isFalse (by simp [Completes, h])
  | .change .. => .isFalse id
  | .refresh .. => .isFalse id

/-- After the event, if it is a pass that completes, the rows show their files. -/
def FreshAfter (σ : FileState) (e : FileEvent) : Prop :=
  ∀ σ', σ.step e = some σ' → σ.Completes e → σ'.EachDue Item.IsFresh

def CanBeFreshAfter (σ : FileState) (e : FileEvent) : Prop :=
  σ.Completes e → σ.EachDue Item.CanBeFresh

instance (e : FileEvent) : Decidable (σ.CanBeFreshAfter e) :=
  inferInstanceAs (Decidable (_ → _))

/-! ## Runs -/

theorem Timely.step (h : σ.Timely) {e : FileEvent} (he : σ.step e = some σ') : σ'.Timely := by
  have hlater {now : Int} (hnow : σ.clock ≤ now) (path : String) (t : Int)
      (ht : t ∈ σ.changedAt path) : t ≤ now :=
    (h path t ht).trans hnow
  cases e with
  | change path stat media now =>
    rw [FileState.step] at he
    split at he
    · rename_i hnow
      obtain rfl := Option.some_inj.1 he
      intro path' t ht
      dsimp only at ht
      rw [Function.update_apply] at ht
      split at ht
      · exact (Option.mem_some_iff.1 ht).ge
      · exact hlater hnow.1.le path' t ht
    · cases he
  | refresh w infos now =>
    rw [FileState.step] at he
    split at he
    · rename_i hnow
      split at he
      all_goals
        obtain rfl := Option.some_inj.1 he
        exact hlater hnow.le
    · cases he
  | pass p =>
    rw [FileState.step] at he
    split at he
    · rename_i hnow
      obtain rfl := Option.some_inj.1 he
      exact hlater (hnow.le.trans (p.clock (Nat.zero_le _)))
    · cases he

/-- A row after a pass shows its file exactly if it could. -/
theorem isFresh_iff {o : Outside} {disk : Disk} {file : Option String} {i j : Item}
    {stat : FileStat} {t : Int} (h : i.Passed o disk file j)
    (hstat : file.bind disk.statFile = some stat) (ht : ∀ n, t < o.now n) :
    j.IsFresh stat t ↔ i.CanBeFresh stat t := by
  have hmedia : j.IsMedia ↔ i.IsMedia := by
    rw [Item.IsMedia, Item.IsMedia, h.ty]
  refine and_congr ?_ (imp_congr hmedia ?_)
  · cases hneeds : i.needsStat with
    | true => exact iff_of_true (h.stat stat hneeds hstat) (.inl rfl)
    | false =>
      obtain ⟨hsize, hmodified⟩ := h.noStat hneeds
      rw [hsize, hmodified, or_iff_right Bool.false_ne_true]
  · cases hneeds : i.needsProbe probableExts with
    | true =>
      obtain ⟨n, hn⟩ := h.probe hneeds
      exact iff_of_true ⟨_, hn, ht n⟩ (.inl rfl)
    | false => rw [h.noProbe hneeds, or_iff_right Bool.false_ne_true]

/-- The rows after a pass show their files exactly if they could. -/
theorem eachDue_isFresh_iff {o : Outside} {db : Db} {now : Int}
    (hlibraries : db.libraries = σ.db.libraries)
    (hforth : ∀ i ∈ σ.db.items, ∃ j ∈ db.items, i.Passed o σ.disk (σ.db.filePath i) j)
    (hback : ∀ j ∈ db.items, ∃ i ∈ σ.db.items, i.Passed o σ.disk (σ.db.filePath i) j)
    (hlater : ∀ path, ∀ t ∈ σ.changedAt path, ∀ n, t < o.now n) :
    EachDue { σ with db, clock := now } Item.IsFresh ↔ σ.EachDue Item.CanBeFresh := by
  have hpath {i j : Item} (h : i.Passed o σ.disk (σ.db.filePath i) j) :
      db.filePath j = σ.db.filePath i := by
    rw [Db.filePath, Db.filePath, hlibraries, h.same.libraryId, h.same.path]
  have hiff {i j : Item} (h : i.Passed o σ.disk (σ.db.filePath i) j) {path : String}
      {stat : FileStat} {t : Int} (hfile : path ∈ σ.db.filePath i)
      (hstat : stat ∈ σ.disk.statFile path) (ht : t ∈ σ.changedAt path) :
      j.IsFresh stat t ↔ i.CanBeFresh stat t :=
    isFresh_iff h (Option.bind_eq_some_iff.2 ⟨path, hfile, hstat⟩) (hlater path t ht)
  constructor
  · intro h i hi path hfile stat hstat t ht hlt
    obtain ⟨j, hj, hij⟩ := hforth i hi
    exact (hiff hij hfile hstat ht).1 (h j hj path ((hpath hij).trans hfile) stat hstat t ht hlt)
  · intro h j hj path hfile stat hstat t ht hlt
    obtain ⟨i, hi, hij⟩ := hback j hj
    have hfile : path ∈ σ.db.filePath i := (hpath hij).symm.trans hfile
    exact (hiff hij hfile hstat ht).2 (h i hi path hfile stat hstat t ht hlt)

theorem freshAfter_iff (hσ : σ.Timely) {e : FileEvent} (he : σ.step e = some σ') :
    σ.FreshAfter e ↔ σ.CanBeFreshAfter e := by
  have hstep : σ.FreshAfter e ↔ (σ.Completes e → σ'.EachDue Item.IsFresh) := by
    constructor
    · exact fun h => h σ' he
    · intro h σ'' he''
      obtain rfl := Option.some_inj.1 (he.symm.trans he'')
      exact h
  rw [hstep]
  refine imp_congr_right fun hcompletes => ?_
  cases e with
  | change => exact hcompletes.elim
  | refresh => exact hcompletes.elim
  | pass p =>
    rw [FileState.step] at he
    split at he
    case isFalse => cases he
    rename_i hnow
    obtain rfl := Option.some_inj.1 he
    rw [Completes] at hcompletes
    cases hrun : runPending p.outside p.order σ.disk (.new σ.db) with
    | error e s =>
      rw [hrun] at hcompletes
      exact hcompletes.elim
    | ok stats s =>
      rw [hrun] at hcompletes
      obtain ⟨hlibraries, hforth, hback⟩ := passed_of_runPending hrun hcompletes
      rw [finalState, hrun]
      exact eachDue_isFresh_iff hlibraries hforth hback fun path t ht n =>
        ((hσ path t ht).trans_lt hnow).trans_le (p.clock (Nat.zero_le n))

/-- In every run, each pass that completes leaves the rows of the changed files fresh exactly if it
starts with rows that can be. -/
theorem fresh_iff {es : List FileEvent} (hσ₀ : σ₀.Timely)
    (h : Transition.run step σ₀ es = some σ) :
    Transition.Along step FreshAfter σ₀ es ↔ Transition.Along step CanBeFreshAfter σ₀ es := by
  have htimely : Transition.Along step (fun σ _ => σ.Timely) σ₀ es :=
    Transition.along_invariant (fun _ _ _ h _ he => h.step he) hσ₀ (Transition.along_true σ₀ es)
  exact Transition.along_congr h htimely fun σ e σ' hσ he => freshAfter_iff hσ he

def noFiles : FileState where
  db := .empty
  disk := ⟨fun _ => none, fun _ => ⟨none, none⟩⟩
  changedAt _ := none
  refreshedAt := 0
  clock := 0

theorem timely_noFiles : noFiles.Timely :=
  fun _ t ht => absurd ht (Option.not_mem_none t)

def passAt (t : ℕ) : ProbePass where
  outside := ⟨fun n => t + n, fun _ => false, String.toLower⟩
  order := ⟨fun work => work.values, fun _ => .refl _⟩
  clock := monotone_countFrom t

/-- A picture appears, and is found and read. -/
def pictureAppears : List FileEvent :=
  [.change "/w/a.png" (some ⟨5, 500⟩) ⟨some 10, some 20⟩ 500,
    .refresh (pictures 1000 (.returned [picture "a.png"])) imagePlugin 1100, .pass (passAt 2000)]

theorem fresh_iff_pictureAppears : Transition.Along step FreshAfter noFiles pictureAppears :=
  (fresh_iff timely_noFiles (Transition.run_reached step (by decide +kernel))).2
    (by decide +kernel)

/-- Then it is painted over. -/
def pictureChanges : List FileEvent :=
  pictureAppears ++ [.change "/w/a.png" (some ⟨7, 3000⟩) ⟨some 30, some 40⟩ 3000,
    .refresh (pictures 4000 (.returned [picture "a.png"])) imagePlugin 4100]

theorem run_pictureChanges : (Transition.run step noFiles pictureChanges).isSome = true := by
  decide +kernel

def pictureChanged : FileState :=
  Transition.reached step noFiles pictureChanges run_pictureChanges

/-- Neither the file of the picture nor its dimensions are read again. -/
theorem not_fresh : ¬∀ (σ₀ σ : FileState) (es : List FileEvent), σ₀.Timely →
    Transition.run step σ₀ es = some σ → Transition.Along step FreshAfter σ₀ es := by
  intro h
  have hrun : Transition.run step noFiles pictureChanges = some pictureChanged :=
    Transition.run_reached step run_pictureChanges
  have hlast : (pictureChanged.step (.pass (passAt 5000))).isSome = true := by decide +kernel
  have hpass := (Option.some_get hlast).symm
  have hboth : Transition.run step noFiles (pictureChanges ++ [.pass (passAt 5000)]) =
      some ((pictureChanged.step (.pass (passAt 5000))).get hlast) :=
    (Transition.run_append_eq_some step).2
      ⟨_, hrun, (Transition.run_singleton step _ _).trans hpass⟩
  have halong := (Transition.along_append.1 (h noFiles _ _ timely_noFiles hboth)).2 _ hrun
  have htimely : pictureChanged.Timely :=
    Transition.invariant (fun _ _ _ h he => h.step he) timely_noFiles hrun
  exact absurd ((freshAfter_iff htimely hpass).1 (Transition.along_cons.1 halong).1)
    (by decide +kernel)

end FileState

end Waywallen
