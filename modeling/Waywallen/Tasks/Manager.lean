import Mathlib.Data.List.Sort
import Waywallen.Library.HashMap
import Waywallen.Library.TaskPool

/-!
# The task manager

Callers submit tasks and cancel them, and one supervisor runs the submitted futures and observes
how they end. The record of a task, its cancellation token, the key it was submitted under and the
events about it are kept in separate places: a submission, a cancellation and the handling of an
ended future each take one lock after the other, so that any other call may fall in between.
-/

namespace Waywallen

open TaskPool

abbrev TaskId := ℕ

inductive TaskState
  | running
  | completed
  | failed (message : String)
  | cancelled
deriving DecidableEq

inductive TaskEvent
  | started (id : TaskId)
  | completed (id : TaskId)
  | failed (id : TaskId) (message : String)
  | cancelled (id : TaskId)
deriving DecidableEq

/-- How a future ends, as the join of it reports. -/
inductive FutureEnd
  | ok
  | err (message : String)
  | panicked
  | aborted
deriving DecidableEq

/-- What is submitted: a blocking function, a future, or a future under a key. -/
inductive Submission (K : Type)
  | blocking
  | async
  | unique (key : K)
deriving DecidableEq

structure TaskManager (K : Type) where
  nextId : TaskId := 1
  records : HashMap TaskId TaskState := ∅
  /-- The events sent so far. -/
  events : List TaskEvent := []
  /-- The tasks whose token is in the map. -/
  cancelTokens : HashMap TaskId Unit := ∅
  /-- The tasks whose token has been cancelled. -/
  cancelled : List TaskId := []
  uniqueKeys : HashMap K TaskId := ∅
  /-- The messages the supervisor has still to receive. -/
  queue : List TaskId := []
  /-- The supervisor has not dropped its end of the channel. -/
  receiving : Bool := true
  /-- The join set: the futures that run, and those that have ended and are not joined yet. -/
  futures : HashMap TaskId (Option FutureEnd) := ∅
  shutdown : Bool := false
  aborting : Bool := false
  /-- The tasks sent to the supervisor under a key so far, in order. -/
  submitted : List (K × TaskId) := []

/-- The calls of the task manager. A `key` is that of the submission a cancellation belongs to. -/
inductive TaskCall (K : Type)
  | readKey (key : K)
  | lookupToken (id : TaskId) (key : Option K)
  | cancelToken (id : TaskId) (key : Option K)
  | markCancelled (id : TaskId) (key : Option K)
  | sendCancelled (id : TaskId) (key : Option K)
  | fetchId (q : Submission K)
  | insertToken (id : TaskId) (q : Submission K)
  | recordStarted (id : TaskId) (q : Submission K)
  | sendStarted (id : TaskId) (q : Submission K)
  | sendMsg (id : TaskId) (q : Submission K)
  | dropToken (id : TaskId) (q : Submission K)
  | finalize (id : TaskId) (q : Submission K)
  | sendFinal (id : TaskId) (q : Submission K)
  | writeKey (key : K) (id : TaskId)
  | supervise
  | drain
  | removeToken (id : TaskId) (observed : TaskState)
  | retainKeys (id : TaskId) (observed : TaskState)
  | checkCancelled (id : TaskId) (observed : TaskState)
  | writeState (id : TaskId) (observed : TaskState)
  | sendObserved (id : TaskId) (observed : TaskState)
deriving DecidableEq

/-- What the code does not decide: which ended future is joined next, and whether the deadline of
the shutdown has passed. -/
inductive TaskChoice
  | tick
  | join (id : TaskId)
  | timeout

inductive TaskRequest (K : Type)
  | submit (q : Submission K)
  | cancel (id : TaskId)

/-- A future ends, or the daemon shuts down. -/
inductive TaskSignal
  | finish (id : TaskId) (e : FutureEnd)
  | shutdown

abbrev TasksPool (K : Type) := Pool (TaskManager K) (TaskCall K)

abbrev TaskLabel (K : Type) := Label TaskChoice (TaskRequest K) TaskSignal

/-- What the join handler takes the end of a future for; a panic or an abort tells it nothing. -/
def FutureEnd.observed : FutureEnd → Option TaskState
  | ok => some .completed
  | err message => some (.failed message)
  | panicked | aborted => none

def TaskState.event (id : TaskId) : TaskState → Option TaskEvent
  | running => none
  | completed => some (.completed id)
  | failed message => some (.failed id message)
  | cancelled => some (.cancelled id)

/-- How many records are kept before finished ones are dropped. -/
def trimFinishedAbove : ℕ := 512

def supervisorGone : String := "supervisor gone"

/-- Drop the oldest finished records until no more than the cap are left. -/
def trimFinished (recs : HashMap TaskId TaskState) : HashMap TaskId TaskState :=
  if recs.keys.length ≤ trimFinishedAbove then recs
  else
    let finished := (recs.entries.filter fun e => e.2 ≠ .running).map Sigma.fst
    ((finished.insertionSort (· ≤ ·)).take (recs.keys.length - trimFinishedAbove)).foldl
      (fun recs id => recs.erase id) recs

namespace TaskManager

variable {K : Type} (s : TaskManager K)

def done : Option (Outcome (TaskManager K) (TaskCall K)) := some { shared := s }

def andThen (next : List (TaskCall K)) : Option (Outcome (TaskManager K) (TaskCall K)) :=
  some { shared := s, next }

/-- Every subscriber is sent the event. -/
def send (e : TaskEvent) : TaskManager K := { s with events := s.events ++ [e] }

/-- One ended future is taken out of the join set and handled. -/
def joinNext (loop : TaskCall K) :
    TaskChoice → Option (Outcome (TaskManager K) (TaskCall K))
  | .join id =>
      match s.futures.lookup id with
      | some (some e) => { s with futures := s.futures.erase id }.andThen
          (e.observed.elim [loop] fun observed => [.removeToken id observed, loop])
      | _ => none
  | _ => none

/-- The supervisor returns: its end of the channel and the join set are dropped. -/
def exit : Option (Outcome (TaskManager K) (TaskCall K)) :=
  { s with receiving := false, queue := [], futures := ∅ }.done

end TaskManager

variable {K : Type} [DecidableEq K]

/-- What follows a cancellation: nothing, or the submission it was made for. -/
def TaskCall.resubmit (key : Option K) : List (TaskCall K) :=
  (key.map fun key => fetchId (.unique key)).toList

/-- What follows the submission of a task. -/
def Submission.thenWrite (id : TaskId) : Submission K → List (TaskCall K)
  | unique key => [.writeKey key id]
  | _ => []

def Submission.key? : Submission K → Option K
  | unique key => some key
  | _ => none

def TaskCall.exec (x : TaskChoice) (c : TaskCall K) (s : TaskManager K) :
    Option (Outcome (TaskManager K) (TaskCall K)) :=
  match c with
  | readKey key =>
      match s.uniqueKeys.lookup key with
      | some prev => s.andThen [lookupToken prev (some key)]
      | none => s.andThen [fetchId (.unique key)]
  | lookupToken id key =>
      if s.cancelTokens.containsKey id then s.andThen [cancelToken id key]
      else s.andThen (resubmit key)
  | cancelToken id key => { s with cancelled := id :: s.cancelled }.andThen [markCancelled id key]
  | markCancelled id key =>
      if s.records.lookup id = some .running then
        { s with records := s.records.modify id fun _ => .cancelled }.andThen [sendCancelled id key]
      else s.andThen (resubmit key)
  | sendCancelled id key => (s.send (.cancelled id)).andThen (resubmit key)
  | fetchId q =>
      { s with nextId := s.nextId + 1 }.andThen
        [if q = Submission.blocking then recordStarted s.nextId q else insertToken s.nextId q]
  | insertToken id q =>
      { s with cancelTokens := s.cancelTokens.insert id () }.andThen [recordStarted id q]
  | recordStarted id q =>
      { s with records := trimFinished (s.records.insert id .running) }.andThen [sendStarted id q]
  | sendStarted id q => (s.send (.started id)).andThen [sendMsg id q]
  | sendMsg id q =>
      if s.receiving then
        { s with
          queue := s.queue ++ [id]
          submitted := s.submitted ++ (q.key?.map (·, id)).toList }.andThen (q.thenWrite id)
      else s.andThen [if q = .blocking then finalize id q else dropToken id q]
  | dropToken id q => { s with cancelTokens := s.cancelTokens.erase id }.andThen [finalize id q]
  | finalize id q =>
      { s with records := s.records.modify id fun _ => .failed supervisorGone }.andThen
        [sendFinal id q]
  | sendFinal id q =>
      (s.send (.failed id supervisorGone)).andThen (q.thenWrite id)
  | writeKey key id => { s with uniqueKeys := s.uniqueKeys.insert key id }.done
  | supervise =>
      -- shutdown comes before a message, and a message before a join
      if s.shutdown then { s with aborting := true }.andThen [drain]
      else
        match s.queue with
        | id :: queue => { s with queue, futures := s.futures.insert id none }.andThen [supervise]
        | [] => s.joinNext supervise x
  | drain =>
      match x with
      | .timeout => s.exit
      | .tick => if s.futures.keys = [] then s.exit else none
      | .join id => s.joinNext drain (.join id)
  | removeToken id observed =>
      { s with cancelTokens := s.cancelTokens.erase id }.andThen [retainKeys id observed]
  | retainKeys id observed =>
      { s with
        uniqueKeys := s.uniqueKeys.retain fun key => s.uniqueKeys.lookup key ≠ some id }.andThen
          [checkCancelled id observed]
  | checkCancelled id observed =>
      if s.records.lookup id = some .cancelled then s.done else s.andThen [writeState id observed]
  | writeState id observed =>
      { s with records := s.records.modify id fun _ => observed }.andThen [sendObserved id observed]
  | sendObserved id observed =>
      { s with events := s.events ++ (observed.event id).toList }.done

def TaskRequest.task : TaskRequest K → TaskPool.Task (TaskCall K)
  | submit (.unique key) => { stack := [.readKey key] }
  | submit q => { stack := [.fetchId q] }
  | cancel id => { stack := [.lookupToken id none] }

namespace TaskManager

/-- A future that runs may end at any time, by an abort only once all have been aborted. -/
def finish (s : TaskManager K) (id : TaskId) (e : FutureEnd) : Option (TaskManager K) :=
  if s.futures.lookup id = some none ∧ (e = .aborted → s.aborting = true) then
    some { s with futures := s.futures.insert id (some e) }
  else none

def semantics : Semantics (TaskManager K) (TaskCall K) TaskChoice (TaskRequest K)
    TaskSignal where
  exec x _ c s := c.exec x s
  accept q s := some (s, q.task)
  act
    | .finish id e, s => s.finish id e
    | .shutdown, s => some { s with shutdown := true }

/-- The supervisor has just been started. -/
def start : TasksPool K where
  shared := {}
  tasks := [{ stack := [.supervise] }]

def Run (ls : List (TaskLabel K)) (p : TasksPool K) : Prop :=
  Transition.run semantics.step start ls = some p

end TaskManager

end Waywallen
