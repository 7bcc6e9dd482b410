import Mathlib.Algebra.Group.Nat.Defs
import Waywallen.Library.TaskPool

/-!
# Whether a scan is in progress

Every refresh of the sources sets one flag before it scans and clears it afterwards. Refreshes are
started by a task of the task manager that cancels the one before it, by a task that nobody keeps
track of, and by callers on the bus, so that they may overlap, and some are dropped while they scan.
-/

namespace Waywallen

open TaskPool

inductive GlobalEvent
  | statusChanged
  | syncFinished (count : ℕ)
  | syncFailed (message : String)
  deriving DecidableEq

inductive DaemonPhase
  | starting
  | ready
  deriving DecidableEq

/-- What the UI is told. -/
structure StatusSync where
  scanInProgress : Bool
  activeTaskCount : ℕ
  phase : DaemonPhase
  deriving DecidableEq

structure ScanState where
  scanInProgress : Bool := false
  /-- The events published so far. -/
  events : List GlobalEvent := []
  /-- The tasks of the task manager, and the one that has the key of the scans. -/
  managed : List ℕ := []
  scanRefresh : Option ℕ := none
  runningTasks : ℕ := 0
  daemonReady : Bool := false
  /-- What the UIs have been told so far. -/
  synced : List StatusSync := []

/-- The steps of a refresh, of those who start and stop it and of those who read the flag. -/
inductive ScanCall
  | storeTrue
  | publishStarted
  | refreshSourcesInner
  | storeFalse (result : Except String ℕ)
  | publishResult (result : Except String ℕ)
  | publishStatus
  | loadFlag
  | readKey
  | cancel (id : ℕ)
  | spawnAsync (unique : Bool)
  | writeKey (id : ℕ)
  | spawn
  | shutdown
  | statusSync

/-- Whether the scan goes on, or how it ends. -/
inductive ScanChoice
  | tick
  | finish (result : Except String ℕ)

/-- A request to scan, a change of the files of a library, libraries that were detected, a call on
the bus, the start and the end of the daemon, a cancellation, and a status for a UI. -/
inductive ScanRequest
  | wallpaperScan
  | triggerRescan
  | autoDetected
  | rescan
  | startup
  | cancelTask (id : ℕ)
  | shutdown
  | status

/-- What the rest of the daemon does to what a status tells. -/
inductive ScanSignal
  | tasks (running : ℕ)
  | ready

abbrev ScanPool := Pool ScanState ScanCall

abbrev ScanLabel := Label ScanChoice ScanRequest ScanSignal

namespace ScanState

variable (s : ScanState)

def statusSyncEvent : StatusSync where
  scanInProgress := s.scanInProgress
  activeTaskCount := s.runningTasks
  phase := if s.daemonReady then .ready else .starting

def publish (e : GlobalEvent) : ScanState := { s with events := s.events ++ [e] }

def done : Option (Outcome ScanState ScanCall) := some { shared := s }

def andThen (next : List ScanCall) : Option (Outcome ScanState ScanCall) :=
  some { shared := s, next }

end ScanState

/-- The event that tells how a refresh ended. -/
def finished : Except String ℕ → GlobalEvent
  | .ok count => .syncFinished count
  | .error message => .syncFailed message

/-- The future of `refresh_sources`. -/
def refreshSources : List ScanCall := [.storeTrue]

def ScanCall.exec (x : ScanChoice) (n : ℕ) (c : ScanCall) (s : ScanState) :
    Option (Outcome ScanState ScanCall) :=
  match c with
  | storeTrue => { s with scanInProgress := true }.andThen [publishStarted]
  | publishStarted => (s.publish .statusChanged).andThen [refreshSourcesInner]
  | refreshSourcesInner =>
    match x with
    | .tick => s.andThen [refreshSourcesInner]
    | .finish result => s.andThen [storeFalse result]
  | storeFalse result => { s with scanInProgress := false }.andThen [publishResult result]
  | publishResult result => (s.publish (finished result)).andThen [publishStatus]
  | publishStatus => (s.publish .statusChanged).done
  | loadFlag => s.andThen (if s.scanInProgress then [] else [readKey])
  | readKey => s.andThen ((s.scanRefresh.map cancel).toList ++ [spawnAsync true])
  | cancel id => some { shared := s, abort := if id ∈ s.managed then [id] else [] }
  | spawnAsync unique =>
    some { shared := { s with managed := s.managed ++ [n] }
           next := if unique then [writeKey n] else []
           spawn := [{ stack := refreshSources }] }
  | writeKey id => { s with scanRefresh := some id }.done
  | spawn => some { shared := s, spawn := [{ stack := refreshSources }] }
  | shutdown => some { shared := s, abort := s.managed }
  | statusSync => { s with synced := s.synced ++ [s.statusSyncEvent] }.done

def ScanRequest.task : ScanRequest → TaskPool.Task ScanCall
  | wallpaperScan => { stack := [.readKey] }
  | triggerRescan => { stack := [.loadFlag] }
  | autoDetected => { stack := [.spawn] }
  | rescan => { stack := refreshSources }
  | startup => { stack := [.spawnAsync false] }
  | cancelTask id => { stack := [.cancel id] }
  | shutdown => { stack := [.shutdown] }
  | status => { stack := [.statusSync] }

namespace ScanState

def semantics : Semantics ScanState ScanCall ScanChoice ScanRequest ScanSignal where
  exec x n c s := c.exec x n s
  accept q s := some (s, q.task)
  act
    | .tasks running, s => some { s with runningTasks := running }
    | .ready, s => some { s with daemonReady := true }

def Run (ls : List ScanLabel) (p : ScanPool) : Prop :=
  Transition.run semantics.step ⟨{}, []⟩ ls = some p

/-- The call of a refresh that has set the flag and not cleared it yet. -/
def scans : ScanCall → Bool
  | .publishStarted | .refreshSourcesInner | .storeFalse _ => true
  | _ => false

/-- The refreshes that are running. -/
def running (tasks : List (TaskPool.Task ScanCall)) : ℕ := (calls tasks).countP scans

/-- The flag tells whether a refresh is running. -/
def Right (p : ScanPool) : Prop :=
  p.shared.scanInProgress = decide (0 < running p.tasks)

/-- After the step the flag is right, and so is the status that it has sent. -/
def Tells (p : ScanPool) (l : ScanLabel) : Prop :=
  (∀ p', semantics.step p l = some p' → Right p') ∧
    (p.executed l = some .statusSync →
      p.shared.statusSyncEvent.scanInProgress = decide (0 < running p.tasks))

def clears : ScanCall → Bool
  | .storeFalse _ => true
  | _ => false

/-- A refresh is the only one when it clears the flag, and not the only one when it is dropped. -/
def Undisturbed (p : ScanPool) : ScanLabel → Prop
  | .run i x => (p.executed (.run i x : ScanLabel)).any clears = true → running p.tasks = 1
  | .drop i => ∀ t ∈ p.tasks[i]?, t.stack.countP scans = 0 ∨ t.stack.countP scans < running p.tasks
  | _ => True

instance Undisturbed.decidable (p : ScanPool) : (l : ScanLabel) → Decidable (Undisturbed p l)
  | .run i x => inferInstanceAs (Decidable
      ((p.executed (.run i x : ScanLabel)).any clears = true → running p.tasks = 1))
  | .drop i => inferInstanceAs (Decidable
      (∀ t ∈ p.tasks[i]?, t.stack.countP scans = 0 ∨ t.stack.countP scans < running p.tasks))
  | .wake _ | .start _ | .env _ => .isTrue trivial

/-- What a call stores in the flag. -/
def stores : ScanCall → Option Bool
  | .storeTrue => some true
  | .storeFalse _ => some false
  | _ => none

section

variable {p p' : ScanPool} {l : ScanLabel} {t : TaskPool.Task ScanCall}

/-- The refreshes that a call leaves running in place of its own. -/
theorem exec_effect {x : ScanChoice} {n : ℕ} {c : ScanCall} {s : ScanState}
    {o : Outcome ScanState ScanCall} (ho : c.exec x n s = some o) :
    o.shared.scanInProgress = (stores c).getD s.scanInProgress ∧
      o.next.countP scans + (calls o.spawn).countP scans =
        (stores c).elim (if scans c then 1 else 0) Bool.toNat := by
  cases c with
  | refreshSourcesInner => cases x <;> cases ho <;> exact ⟨rfl, rfl⟩
  | loadFlag =>
    cases ho
    refine ⟨rfl, ?_⟩
    cases s.scanInProgress <;> rfl
  | readKey =>
    cases ho
    refine ⟨rfl, ?_⟩
    cases s.scanRefresh <;> rfl
  | spawnAsync unique =>
    cases ho
    refine ⟨rfl, ?_⟩
    cases unique <;> rfl
  | _ =>
    cases ho
    exact ⟨rfl, rfl⟩

theorem right_resume_iff {i : ℕ} {c : ScanCall} {rest : List ScanCall} {x : ScanChoice}
    {o : Outcome ScanState ScanCall} (hp : Right p) (ht : p.tasks[i]? = some t)
    (hc : t.stack = c :: rest) (ho : c.exec x p.tasks.length p.shared = some o) :
    Right (p.resume i t rest o) ↔ (clears c = true → running p.tasks = 1) := by
  obtain ⟨hflag, hnext⟩ := exec_effect ho
  have hcount : running (p.resume i t rest o).tasks + (if scans c then 1 else 0) =
      running p.tasks + (stores c).elim (if scans c then 1 else 0) Bool.toNat := by
    have hcount := countP_calls_resume ht hc o scans
    rwa [Nat.add_assoc, hnext] at hcount
  have hshared : (p.resume i t rest o).shared = o.shared := rfl
  rw [Right, hshared, hflag]
  cases c with
  | storeTrue =>
    have hmore : running (p.resume i t rest o).tasks = running p.tasks + 1 := by
      simpa [stores, scans] using hcount
    refine iff_of_true ?_ nofun
    rw [hmore, stores, Option.getD_some, decide_eq_true (Nat.succ_pos _)]
  | storeFalse result =>
    have hless : running (p.resume i t rest o).tasks + 1 = running p.tasks := by
      simpa [stores, scans] using hcount
    rw [stores, Option.getD_some, eq_comm, decide_eq_false_iff_not]
    constructor
    · intro hnone _
      omega
    · intro hone
      have hone := hone rfl
      omega
  | _ =>
    have hsame : running (p.resume i t rest o).tasks = running p.tasks := by
      simpa [stores, scans] using hcount
    rw [hsame]
    exact iff_of_true hp nofun

theorem right_iff (hp : Right p) (h : semantics.step p l = some p') :
    Right p' ↔ Undisturbed p l := by
  cases l with
  | run i x =>
    obtain ⟨t, c, rest, o, ht, -, hc, ho, rfl⟩ := Semantics.step_run_eq_some.1 h
    rw [right_resume_iff hp ht hc ho]
    rw [Undisturbed, Pool.executed_run ht hc, Option.any_some]
  | wake i =>
    obtain ⟨t, ht, -, rfl⟩ := Semantics.step_wake_eq_some.1 h
    refine iff_of_true ?_ trivial
    rw [Right, running, calls_wake ht]
    exact hp
  | drop i =>
    obtain ⟨t, ht, -, rfl⟩ := Semantics.step_drop_eq_some.1 h
    have hcount : running (p.replace i t.drop).tasks + t.stack.countP scans = running p.tasks :=
      countP_calls_drop ht scans
    have hscans : Undisturbed p (.drop i) ↔ t.stack.countP scans = 0 ∨
        t.stack.countP scans < running p.tasks := by
      simp [Undisturbed, ht]
    have hshared : (p.replace i t.drop).shared = p.shared := rfl
    rw [hscans, Right, hshared, hp, decide_eq_decide]
    omega
  | start q =>
    obtain ⟨s, t, hq, rfl⟩ := Semantics.step_start_eq_some.1 h
    cases hq
    refine iff_of_true ?_ trivial
    have hnone : q.task.stack.countP scans = 0 := by
      cases q <;> rfl
    rw [Right, running, calls_append, calls_cons, calls_nil, List.append_nil, List.countP_append,
      hnone]
    exact hp
  | env e =>
    obtain ⟨s, hs, rfl⟩ := Semantics.step_env_eq_some.1 h
    refine iff_of_true ?_ trivial
    cases e <;> cases hs <;> exact hp

end

/-- In every run the flag and every status tell of the refreshes that run, exactly as long as no
refresh clears the flag while another one runs, and none is dropped that runs alone. -/
theorem tells_iff {ls : List ScanLabel} {p : ScanPool} (h : Run ls p) :
    Transition.Along semantics.step Tells ⟨{}, []⟩ ls ↔
      Transition.Along semantics.step Undisturbed ⟨{}, []⟩ ls := by
  have hstart : Right ⟨{}, []⟩ := rfl
  rw [← Transition.along_iff_of_step (fun _ _ _ => right_iff) hstart h]
  refine ⟨Transition.Along.mono fun _ _ htells => htells.1, fun hright => ?_⟩
  have hall := Transition.along_invariant (I := Right) (fun _ _ t _ hnext ht => hnext t ht) hstart
    hright
  refine (hright.and hall).mono fun p l hp => ⟨hp.1, fun _ => hp.2⟩

/-- Task 0 starts the scan, task 1 is the scan, which ends well. -/
def scanAlone : List ScanLabel :=
  .start .wallpaperScan :: [.run 0 .tick, .run 0 .tick, .run 0 .tick] ++
    [.run 1 .tick, .run 1 .tick, .run 1 (.finish (.ok 3)), .run 1 .tick, .run 1 .tick,
      .run 1 .tick]

theorem tells_scanAlone : (∃ p, Run scanAlone p ∧
      p.shared.events = [.statusChanged, .syncFinished 3, .statusChanged]) ∧
    Transition.Along semantics.step Tells ⟨{}, []⟩ scanAlone := by
  have hrun : Run scanAlone (Transition.reached semantics.step ⟨{}, []⟩ scanAlone (by decide)) :=
    Transition.run_reached _ _
  exact ⟨⟨_, hrun, by decide⟩, (tells_iff hrun).2 (by decide)⟩

/-- Task 2 starts a scan on its own, task 3, which goes on when the first one has ended. -/
def scansOverlap : List ScanLabel :=
  .start .wallpaperScan :: [.run 0 .tick, .run 0 .tick, .run 0 .tick, .run 1 .tick, .run 1 .tick] ++
    .start .autoDetected :: [.run 2 .tick, .run 3 .tick, .run 3 .tick] ++
      [.run 1 (.finish (.ok 3)), .run 1 .tick, .start .status]

theorem not_tells : ¬ ∀ (ls : List ScanLabel) (p : ScanPool) (l : ScanLabel), Run ls p →
    Tells p l := by
  intro h
  have hrun : Run scansOverlap
      (Transition.reached semantics.step ⟨{}, []⟩ scansOverlap (by decide)) :=
    Transition.run_reached _ _
  have hstatus := (h _ _ (.run 4 .tick) hrun).2 rfl
  exact absurd hstatus (by decide)

end ScanState

end Waywallen
