import Waywallen.Library.TaskPool

/-!
# The settings store

The settings in memory, the flag that says that they differ from the file, and the calls that
write them: any number of updates and of `flush_now` calls, and the writer task that waits for a
quiet period. A flush clears the flag, takes a snapshot and writes it to a temporary file that it
renames, all under a lock; when a step of it fails it sets the flag again.
-/

namespace Waywallen

open TaskPool

/-- How settings become the text of a file and are read back. -/
structure SettingsCodec (S T : Type) where
  encode : S → T
  decode : T → Option S
  decode_encode : ∀ s, decode (encode s) = some s

/-- The updates that had completed when `flush_now` was called, by the number of the settings the
last of them left: of those that changed the settings, and of those that found them as they were to
be. -/
structure FlushTicket where
  changed : ℕ
  found : ℕ
deriving DecidableEq

/-- What has happened to a store so far. Nothing it does depends on it. -/
structure StoreHistory (S T : Type) where
  /-- The settings in memory after each change, from the first on. -/
  versions : List S
  /-- The number of the settings of which the last snapshot was taken. -/
  snapshotted : ℕ
  completed : FlushTicket
  /-- What each `flush_now` call was to save, and the file when it returned. -/
  returned : List (FlushTicket × Option T)

structure SettingsStore (S T : Type) where
  inner : S
  dirty : Bool
  /-- The writer has been notified and has not noticed yet. -/
  notified : Bool
  /-- The flush lock is held. -/
  flushing : Bool
  tmp : Option T
  file : Option T
  history : StoreHistory S T

/-- The caller of a flush: the writer, or `flush_now`. -/
abbrev FlushCaller := Option FlushTicket

inductive StoreCall (S T : Type)
  | change (f : S → S)
  | markDirty (version : ℕ)
  | notifyOne (version : ℕ)
  | awaitNotify
  | debounce
  | flushNow
  | loadDirty (caller : FlushCaller)
  | swapDirty (caller : FlushCaller)
  | takeSnapshot (caller : FlushCaller)
  | createDirAll (caller : FlushCaller) (serialized : T)
  | writeTmp (caller : FlushCaller) (serialized : T)
  | renameTmp (caller : FlushCaller)
  /-- A file operation whose flush was dropped; it takes place if it had begun. -/
  | detachedWrite (serialized : T)
  | detachedRename

inductive StoreChoice
  | tick
  | timeout
  | fail
deriving DecidableEq

/-- An update or a `flush_now` call, which may be made by a task that can be cancelled. -/
inductive StoreRequest (S : Type)
  | update (f : S → S)
  | flushNow (cancellable : Bool)

abbrev StorePool (S T : Type) := Pool (SettingsStore S T) (StoreCall S T)

abbrev StoreLabel (S : Type) := Label StoreChoice (StoreRequest S) Empty

namespace SettingsStore

variable {S T : Type}

/-- What the file is read as. -/
inductive FileRead (T : Type)
  | content (text : T)
  | notFound
  | unreadable (text : T)

/-- The store after the file has been read: a file that is missing is written before the store is
shared, one that cannot be read or parsed stays as it is. -/
def loadOrDefault (C : SettingsCodec S T) (default : S) (file : FileRead T) : SettingsStore S T :=
  let store (inner : S) (text : T) (snapshotted : ℕ) : SettingsStore S T :=
    { inner, dirty := false, notified := false, flushing := false, tmp := none, file := some text
      history := ⟨[inner], snapshotted, ⟨0, 0⟩, []⟩ }
  match file with
  | .content text =>
      match C.decode text with
      | some parsed => store parsed text 1
      | none => store default text 0
  | .notFound => store default (C.encode default) 1
  | .unreadable text => store default text 0

variable (s : SettingsStore S T)

def version : ℕ := s.history.versions.length

/-- A flush ends; `flush_now` returns. -/
def finish (caller : FlushCaller) : SettingsStore S T :=
  match caller with
  | none => s
  | some ticket =>
      { s with history := { s.history with returned := s.history.returned ++ [(ticket, s.file)] } }

/-- A step of a flush has failed. -/
def giveUp (caller : FlushCaller) : SettingsStore S T :=
  { s with dirty := true, flushing := false }.finish caller

def done : Option (Outcome (SettingsStore S T) (StoreCall S T)) := some { shared := s }

def andThen (next : List (StoreCall S T)) :
    Option (Outcome (SettingsStore S T) (StoreCall S T)) :=
  some { shared := s, next }

end SettingsStore

variable {S T : Type} [DecidableEq S] (C : SettingsCodec S T)

def StoreCall.exec (x : StoreChoice) (c : StoreCall S T) (s : SettingsStore S T) :
    Option (Outcome (SettingsStore S T) (StoreCall S T)) :=
  match c with
  | change f =>
      if f s.inner = s.inner then
        { s with history.completed.found := max s.history.completed.found s.version }.done
      else
        { s with
          inner := f s.inner
          history.versions := s.history.versions ++ [f s.inner] }.andThen [markDirty (s.version + 1)]
  | markDirty k => { s with dirty := true }.andThen [notifyOne k]
  | notifyOne k =>
      { s with
        notified := true
        history.completed.changed := max s.history.completed.changed k }.done
  | awaitNotify => if s.notified then { s with notified := false }.andThen [debounce] else none
  | debounce =>
      match x with
      | .timeout => s.andThen [loadDirty none, awaitNotify]
      | _ => if s.notified then { s with notified := false }.andThen [debounce] else none
  | flushNow => s.andThen [loadDirty (some s.history.completed)]
  | loadDirty caller => if s.dirty then s.andThen [swapDirty caller] else (s.finish caller).done
  | swapDirty caller =>
      -- the lock is acquired and the flag is swapped without an await in between
      if s.flushing then none
      else if s.dirty then
        { s with dirty := false, flushing := true }.andThen [takeSnapshot caller]
      else (s.finish caller).done
  | takeSnapshot caller =>
      match x with
      | .fail => (s.giveUp caller).done
      | _ => { s with history.snapshotted := s.version }.andThen
          [createDirAll caller (C.encode s.inner)]
  | createDirAll caller serialized =>
      match x with
      | .fail => (s.giveUp caller).done
      | _ => s.andThen [writeTmp caller serialized]
  | writeTmp caller serialized =>
      match x with
      | .fail => (s.giveUp caller).done
      | _ => { s with tmp := some serialized }.andThen [renameTmp caller]
  | renameTmp caller =>
      match x with
      | .fail => (s.giveUp caller).done
      | _ => ({ s with file := s.tmp, tmp := none, flushing := false }.finish caller).done
  | detachedWrite serialized =>
      match x with
      | .fail => s.done
      | _ => { s with tmp := some serialized }.done
  | detachedRename =>
      match x with
      | .fail => s.done
      | _ => { s with file := s.tmp <|> s.file, tmp := none }.done

def StoreRequest.task : StoreRequest S → TaskPool.Task (StoreCall S T)
  | update f => { stack := [.change f] }
  | flushNow cancellable => { stack := [.flushNow], cancellable }

/-- The calls made after the flag has been cleared; the lock is held. -/
def StoreCall.writes : StoreCall S T → Bool
  | takeSnapshot _ | createDirAll _ _ | writeTmp _ _ | renameTmp _ => true
  | _ => false

/-- The task can be dropped before the call: the snapshot follows the swap without an await. -/
def StoreCall.awaits : StoreCall S T → Bool
  | takeSnapshot _ => false
  | _ => true

/-- What is left of a flush that is dropped. -/
def StoreCall.detached : StoreCall S T → List (StoreCall S T)
  | writeTmp _ serialized => [detachedWrite serialized]
  | renameTmp _ => [detachedRename]
  | _ => []

namespace SettingsStore

def semantics : Semantics (SettingsStore S T) (StoreCall S T) StoreChoice (StoreRequest S) Empty where
  exec x _ c s := c.exec C x s
  accept q s := some (s, q.task)
  act e _ := nomatch e

/-- A task that is dropped releases the lock if it holds it. -/
def dropTask (p : StorePool S T) (i : ℕ) (t : TaskPool.Task (StoreCall S T)) :
    StorePool S T where
  shared := { p.shared with flushing := p.shared.flushing && !t.stack.any StoreCall.writes }
  tasks := p.tasks.set i
    { t with stack := t.stack.head?.elim [] StoreCall.detached, cancellable := false }

def step (p : StorePool S T) : StoreLabel S → Option (StorePool S T)
  | .drop i =>
      (p.tasks[i]?.filter fun t => t.cancellable && t.stack.all StoreCall.awaits).map (dropTask p i)
  | .run i x => (semantics C).step p (.run i x)
  | .wake i => (semantics C).step p (.wake i)
  | .start q => (semantics C).step p (.start q)
  | .env e => nomatch e

/-- The store has just been loaded, and the writer waits. -/
def start (default : S) (file : FileRead T) : StorePool S T where
  shared := loadOrDefault C default file
  tasks := [{ stack := [.awaitNotify] }]

def Run (default : S) (file : FileRead T) (ls : List (StoreLabel S)) (p : StorePool S T) : Prop :=
  Transition.run (step C) (start C default file) ls = some p

end SettingsStore

end Waywallen
