import Waywallen.Filter.Duplicates
import Waywallen.Library.Transition
import Waywallen.Library.UnixPrefix
import Waywallen.Queue.Picks

/-!
# The wallpaper the queue goes on from

An apply reads its entry, brings a renderer up and then tells the queue. The apply of the control
interface stores the id that it has. The apply of a request looks the item up again by the path of
its library, which two libraries may share, and keeps the lock of the queue meanwhile.
-/

namespace Waywallen

open Transition

/-- `str::parse` for `i64`. -/
def parseI64 (text : String) : Option ℤ :=
  let (negative, digits) := match text.toList with
    | '-' :: digits => (true, digits)
    | '+' :: digits => (false, digits)
    | digits => (false, digits)
  let magnitude : ℤ := Nat.ofDigitChars 10 digits 0
  let value := if negative then -magnitude else magnitude
  if digits ≠ [] ∧ digits.all Char.isDigit ∧ -2 ^ 63 ≤ value ∧ value < 2 ^ 63 then some value
  else none

def getEntry (db : Db) (itemId : ℤ) : Option LoadedEntry :=
  (db.items.rows.find? fun i => (i.id : ℤ) = itemId).bind db.entryOf

/-- `relative_under_root` of the queue, which compares characters and not components. -/
def Queue.relativeUnderRoot (libraryRoot resource : String) : Option String :=
  let root := libraryRoot.toList.rdropWhile (· = '/')
  if root <+: resource.toList then
    some (String.ofList ((resource.toList.drop root.length).dropWhile (· = '/')))
  else none

inductive ApplyRoute
  /-- `apply_wallpaper_core`. -/
  | control
  /-- `Req::WallpaperApply`. -/
  | request
  deriving DecidableEq

structure PendingApply where
  route : ApplyRoute
  entry : LoadedEntry
  deriving DecidableEq

/-- The two queries of `find_item_by_library_path`. -/
inductive Lookup
  | library (path rel : String)
  | item (libraryId : ℕ) (rel : String)
  deriving DecidableEq

/-- The unique columns of the item, once its library has been found. -/
def Lookup.key : Lookup → Option (ℕ × String)
  | library _ _ => none
  | item libraryId rel => some (libraryId, rel)

structure CursorState where
  db : Db
  queue : QueueState
  /-- The applies that have read their entry and have not come to the queue. -/
  applies : List PendingApply
  /-- What the request that holds the lock of the queue looks for. -/
  lookup : Option Lookup
  /-- The item of the apply that came to the queue last. -/
  applied : Option ℕ

/-- The other accesses to the queue. -/
inductive QueueAccess
  | setMode (mode : Mode)
  | resetShuffleRound
  | buildRound (nanos : UInt64) (ids : List ℕ)
  | walk (nanos : UInt64) (delta : Int32)

def QueueAccess.run (q : QueueState) : QueueAccess → QueueState
  | setMode mode => q.setMode mode
  | resetShuffleRound => q.resetShuffleRound
  | buildRound nanos ids =>
      { q.buildShuffleRound nanos ids.toArray q.lastDbId 0 with shufflePos := 0 }
  | walk nanos delta => q.walk nanos delta

inductive CursorEvent
  /-- An apply is called, and reads the entry. -/
  | load (route : ApplyRoute) (id : String)
  /-- An apply ends with an error, or is aborted. -/
  | abandon (k : ℕ)
  /-- An apply has brought its renderer up, and comes to the queue. -/
  | arrive (k : ℕ)
  /-- The query for the library answers with one of those that have the path; it finds none, or
  fails. -/
  | findLibrary (lib : Option Library)
  /-- The query for the item answers or fails. -/
  | findItem (ok : Bool)
  | access (a : QueueAccess)
  | writeDb (db : Db)

namespace CursorState

def start (db : Db) : CursorState :=
  ⟨db, default, [], none, none⟩

/-- The block of an apply at the queue, up to the first query. -/
def pin (s : CursorState) (k : ℕ) (a : PendingApply) : CursorState :=
  let s := { s with
    applies := s.applies.eraseIdx k
    applied := some a.entry.itemId
    queue := { s.queue with current := some (toString a.entry.itemId) } }
  match a.route with
  | .control => { s with queue := { s.queue with lastDbId := some a.entry.itemId } }
  | .request =>
    if a.entry.libraryRoot = "" then s
    else { s with
      lookup := (Queue.relativeUnderRoot a.entry.libraryRoot a.entry.resource).map
        (.library a.entry.libraryRoot) }

def step (s : CursorState) : CursorEvent → Option CursorState
  | .load route id =>
      match (parseI64 id).bind (getEntry s.db) with
      | none => some s
      | some entry => some { s with applies := s.applies ++ [⟨route, entry⟩] }
  | .abandon k => some { s with applies := s.applies.eraseIdx k }
  | .arrive k =>
      match s.lookup, s.applies[k]? with
      | none, some a => some (s.pin k a)
      | _, _ => none
  | .findLibrary found =>
      match s.lookup, found with
      | some (.library _ _), none => some { s with lookup := none }
      | some (.library path rel), some lib =>
        if lib ∈ s.db.libraries ∧ lib.path = path then
          some { s with lookup := some (.item lib.id rel) }
        else none
      | _, _ => none
  | .findItem ok =>
      match s.lookup with
      | some (.item libraryId rel) =>
        let found := if ok then s.db.items.find (libraryId, rel) else none
        some { s with
          lookup := none
          queue := { s.queue with lastDbId := (found.map Item.id).or s.queue.lastDbId } }
      | _ => none
  | .access a => if s.lookup = none then some { s with queue := a.run s.queue } else none
  | .writeDb db => some { s with db }

end CursorState

/-! ## What the cursor is for -/

/-- The queue goes on from the item `i`, and picks another one where it can. -/
structure CursorState.GoesOnFrom (s : CursorState) (i : ℕ) : Prop where
  lastDbId : s.queue.lastDbId = some i
  current : s.queue.current = some (toString i)
  random : ∀ index filters logics draw row,
    randomItemByFilter index s.db filters logics s.queue.lastDbId draw = some (some row) →
      1 < (s.db.matching index filters logics).length → row.itemId ≠ i
  shuffle : ∀ nanos candidates target, candidates.toList.Nodup → 1 < candidates.size →
    (s.queue.buildShuffleRound nanos candidates s.queue.lastDbId target).shuffleRound[target]? ≠
      some i

/-- When no request holds the lock, the queue goes on from the item that was applied last. -/
def CursorState.Pinned (s : CursorState) : Prop :=
  s.lookup = none → ∀ i, s.applied = some i → s.GoesOnFrom i

/-- In every state of the run the queue goes on from the item that was applied last. -/
def CursorState.StaysPinned (db : Db) (events : List CursorEvent) : Prop :=
  Along step (fun s e => ∀ t, s.step e = some t → t.Pinned) (start db) events

/-- A request finds the row of its item where it looks: its resource is under a root that is not
empty, a library has that path, and the row is in the library that was found, which may be
another one with the same path. When nothing is found, the item was the last one before. -/
def CursorState.Located (s : CursorState) : CursorEvent → Prop
  | .arrive k => ∀ a ∈ s.applies[k]?, a.route = .request →
      (a.entry.libraryRoot ≠ "" ∧
        a.entry.libraryRoot.toList.rdropWhile (· = '/') <+: a.entry.resource.toList) ∨
      s.queue.lastDbId = some a.entry.itemId
  | .findLibrary none => s.queue.lastDbId = s.applied
  | .findItem ok => ∀ key ∈ s.lookup.bind Lookup.key,
      (ok = true ∧ ∃ it ∈ s.db.items.rows, s.applied = some it.id ∧
        (it.libraryId, it.path) = key) ∨
      s.queue.lastDbId = s.applied ∧
        (ok = true → ∀ it ∈ s.db.items.rows, (it.libraryId, it.path) ≠ key)
  | _ => True

instance (s : CursorState) : (e : CursorEvent) → Decidable (s.Located e)
  | .arrive k => inferInstanceAs (Decidable (∀ a ∈ s.applies[k]?, _ → _ ∨ _))
  | .findLibrary none => inferInstanceAs (Decidable (_ = _))
  | .findItem ok => inferInstanceAs (Decidable (∀ key ∈ s.lookup.bind Lookup.key,
      (ok = true ∧ ∃ it ∈ s.db.items.rows, s.applied = some it.id ∧
        (it.libraryId, it.path) = key) ∨
      s.queue.lastDbId = s.applied ∧
        (ok = true → ∀ it ∈ s.db.items.rows, (it.libraryId, it.path) ≠ key)))
  | .findLibrary (some _) | .load _ _ | .abandon _ | .access _ | .writeDb _ =>
      inferInstanceAs (Decidable True)

/-! ## Exactly the located runs keep the cursor -/

section

variable {s t : CursorState} {e : CursorEvent} {q : QueueState} {i k : ℕ}

/-- The other accesses leave the cursor alone. -/
theorem QueueAccess.cursor_run (a : QueueAccess) :
    (a.run q).current = q.current ∧ (a.run q).lastDbId = q.lastDbId := by
  have hbuilt (nanos : UInt64) (candidates : Array ℕ) (avoid : Option ℕ) (target : ℕ) :
      QueueState.Shuffled { q with shuffleRound := candidates }
        (q.buildShuffleRound nanos candidates avoid target) :=
    QueueState.shuffled_buildShuffleRound candidates avoid target
  cases a with
  | setMode mode =>
    show (q.setMode mode).current = _ ∧ (q.setMode mode).lastDbId = _
    unfold QueueState.setMode
    split <;> exact ⟨rfl, rfl⟩
  | resetShuffleRound => exact ⟨rfl, rfl⟩
  | buildRound nanos ids => exact ⟨(hbuilt _ _ _ _).current, (hbuilt _ _ _ _).lastDbId⟩
  | walk nanos delta =>
    show (q.walk nanos delta).current = _ ∧ (q.walk nanos delta).lastDbId = _
    unfold QueueState.walk
    dsimp only
    split
    · exact ⟨(hbuilt _ _ _ _).current, (hbuilt _ _ _ _).lastDbId⟩
    · exact ⟨rfl, rfl⟩

namespace CursorState

/-- Both picks avoid the item whose id is stored. -/
theorem goesOnFrom_iff :
    s.GoesOnFrom i ↔ s.queue.lastDbId = some i ∧ s.queue.current = some (toString i) := by
  constructor
  · exact fun h => ⟨h.lastDbId, h.current⟩
  rintro ⟨hlast, hcurrent⟩
  refine ⟨hlast, hcurrent, ?_, ?_⟩
  · intro index filters logics draw row hrow hmore
    rw [hlast] at hrow
    obtain ⟨rows, hrows, hitems⟩ := randomCandidates_eq (some i)
    rw [randomItemByFilter, hrows] at hrow
    obtain ⟨r, hr, hrow⟩ := Option.bind_eq_some_iff.1 (Option.some_inj.1 hrow)
    obtain ⟨lib, -, rfl⟩ := Option.map_eq_some_iff.1 hrow
    have hmem : r.item ∈ rows.map Row.item := List.mem_map_of_mem (List.mem_of_getElem? hr)
    rw [hitems, List.mem_filter, decide_eq_false (Nat.not_le.2 hmore)] at hmem
    simpa using hmem.2
  · intro nanos candidates target hnodup hmore
    rw [hlast]
    exact QueueState.buildShuffleRound_avoids nanos hnodup hmore

/-- What every run keeps: the text is the id of the applied item, and a request that holds the lock
has come to the queue. -/
structure Tracks (s : CursorState) : Prop where
  current : ∀ i, s.applied = some i → s.queue.current = some (toString i)
  lookup : s.lookup ≠ none → s.applied ≠ none

theorem tracks_start (db : Db) : (start db).Tracks :=
  ⟨fun _ h => absurd h.symm (Option.some_ne_none _), fun h => absurd rfl h⟩

/-- The block of an apply, field by field. -/
theorem pin_eq (s : CursorState) (k : ℕ) (a : PendingApply) : s.pin k a = { s with
    applies := s.applies.eraseIdx k
    applied := some a.entry.itemId
    queue := { s.queue with
      current := some (toString a.entry.itemId)
      lastDbId := if a.route = .control then some a.entry.itemId else s.queue.lastDbId }
    lookup := if a.route = .request ∧ a.entry.libraryRoot ≠ "" then
        (Queue.relativeUnderRoot a.entry.libraryRoot a.entry.resource).map
          (.library a.entry.libraryRoot)
      else s.lookup } := by
  unfold pin
  cases a.route with
  | control => rfl
  | request =>
    by_cases hroot : a.entry.libraryRoot = ""
    · simp [hroot]
    · simp [hroot]

/-- The step has nothing to do with the cursor. -/
structure Silent (s t : CursorState) : Prop where
  applied : t.applied = s.applied
  lookup : t.lookup = s.lookup
  current : t.queue.current = s.queue.current
  lastDbId : t.queue.lastDbId = s.queue.lastDbId

/-- What a step does to the cursor. -/
theorem step_cases (ht : s.step e = some t) :
    (s.Located e ∧ s.Silent t) ∨
    (∃ k a, e = .arrive k ∧ s.lookup = none ∧ s.applies[k]? = some a ∧ t = s.pin k a) ∨
    (∃ path rel, e = .findLibrary none ∧ s.lookup = some (.library path rel) ∧
      t = { s with lookup := none }) ∨
    (∃ path rel lib, e = .findLibrary (some lib) ∧ s.lookup = some (.library path rel) ∧
      lib ∈ s.db.libraries ∧ lib.path = path ∧
      t = { s with lookup := some (.item lib.id rel) }) ∨
    ∃ ok libraryId rel, e = .findItem ok ∧ s.lookup = some (.item libraryId rel) ∧
      t = { s with
        lookup := none
        queue := { s.queue with
          lastDbId := ((if ok then s.db.items.find (libraryId, rel) else none).map Item.id).or
            s.queue.lastDbId } } := by
  cases e with
  | load route id =>
    simp only [step] at ht
    split at ht <;> cases ht <;> exact .inl ⟨trivial, rfl, rfl, rfl, rfl⟩
  | abandon k =>
    cases ht
    exact .inl ⟨trivial, rfl, rfl, rfl, rfl⟩
  | arrive k =>
    simp only [step] at ht
    split at ht
    · rename_i a hlookup ha
      cases ht
      exact .inr (.inl ⟨k, a, rfl, hlookup, ha, rfl⟩)
    · cases ht
  | findLibrary found =>
    simp only [step] at ht
    split at ht
    · rename_i path rel hlookup
      cases ht
      exact .inr (.inr (.inl ⟨path, rel, rfl, hlookup, rfl⟩))
    · rename_i path rel lib hlookup
      split at ht
      · rename_i hlib
        cases ht
        exact .inr (.inr (.inr (.inl ⟨path, rel, lib, rfl, hlookup, hlib.1, hlib.2, rfl⟩)))
      · cases ht
    · cases ht
  | findItem ok =>
    simp only [step] at ht
    split at ht
    · rename_i libraryId rel hlookup
      cases ht
      exact .inr (.inr (.inr (.inr ⟨ok, libraryId, rel, rfl, hlookup, rfl⟩)))
    · cases ht
  | access a =>
    simp only [step] at ht
    split at ht
    · cases ht
      exact .inl ⟨trivial, rfl, rfl, a.cursor_run.1, a.cursor_run.2⟩
    · cases ht
  | writeDb db =>
    cases ht
    exact .inl ⟨trivial, rfl, rfl, rfl, rfl⟩

theorem tracks_step (h : s.Tracks) (ht : s.step e = some t) : t.Tracks := by
  rcases step_cases ht with ⟨-, hs⟩ | ⟨k, a, -, -, -, rfl⟩ | ⟨path, rel, -, hlookup, rfl⟩ |
    ⟨path, rel, lib, -, hlookup, -, -, rfl⟩ | ⟨ok, libraryId, rel, -, hlookup, rfl⟩
  · refine ⟨fun i hi => ?_, fun hlookup => ?_⟩
    · rw [hs.current]
      exact h.current i (hs.applied ▸ hi)
    · rw [hs.applied]
      exact h.lookup (hs.lookup ▸ hlookup)
  · rw [pin_eq]
    refine ⟨fun i hi => ?_, fun _ => Option.some_ne_none _⟩
    rw [← Option.some_inj.1 hi]
  · exact ⟨h.current, fun hne => absurd rfl hne⟩
  · exact ⟨h.current, fun _ => h.lookup (hlookup ▸ Option.some_ne_none _)⟩
  · exact ⟨h.current, fun hne => absurd rfl hne⟩

theorem pinned_iff (h : s.Tracks) :
    s.Pinned ↔ (s.lookup = none → ∀ i, s.applied = some i → s.queue.lastDbId = some i) := by
  refine forall_congr' fun _ => forall_congr' fun i => forall_congr' fun hi => ?_
  rw [goesOnFrom_iff, and_iff_left (h.current i hi)]

theorem relativeUnderRoot_eq_none {libraryRoot resource : String} :
    Queue.relativeUnderRoot libraryRoot resource = none ↔
      ¬ libraryRoot.toList.rdropWhile (· = '/') <+: resource.toList := by
  unfold Queue.relativeUnderRoot
  dsimp only
  split <;> simp [*]

/-- The row with the path in the library is the only one. -/
theorem findItem_iff {items : Table Item.schema} {ok : Bool} {key : ℕ × String}
    {last : Option ℕ} :
    ((if ok then items.find key else none).map Item.id).or last = some i ↔
      (ok = true ∧ ∃ it ∈ items.rows, some i = some it.id ∧ (it.libraryId, it.path) = key) ∨
      last = some i ∧ (ok = true → ∀ it ∈ items.rows, (it.libraryId, it.path) ≠ key) := by
  cases ok with
  | false => simp
  | true =>
    rw [if_pos rfl]
    cases hfind : items.find key with
    | none =>
      have hnone := Table.find_eq_none.1 hfind
      constructor
      · exact fun hlast => .inr ⟨hlast, fun _ => hnone⟩
      · rintro (⟨-, it, hit, -, hrow⟩ | ⟨hlast, -⟩)
        · exact absurd hrow (hnone it hit)
        · exact hlast
    | some row =>
      obtain ⟨hrow, hkey⟩ := Table.find_eq_some.1 hfind
      constructor
      · exact fun hid => .inl ⟨rfl, row, hrow, hid.symm, hkey⟩
      · rintro (⟨-, it, hit, hid, hplace⟩ | ⟨-, hmissing⟩)
        · rw [Table.key_injective hrow hit (hkey.trans hplace.symm), hid]
          rfl
        · exact absurd hkey (hmissing rfl row hrow)

/-- The exactness of one step. -/
theorem pinned_step (h : s.Tracks) (hs : s.Pinned) (ht : s.step e = some t) :
    t.Pinned ↔ s.Located e := by
  rw [pinned_iff (tracks_step h ht)]
  rcases step_cases ht with ⟨hlocated, hsilent⟩ | ⟨k, a, rfl, hfree, ha, rfl⟩ |
    ⟨path, rel, rfl, hlookup, rfl⟩ | ⟨path, rel, lib, rfl, hlookup, -, -, rfl⟩ |
    ⟨ok, libraryId, rel, rfl, hlookup, rfl⟩
  · rw [hsilent.lookup, hsilent.applied, hsilent.lastDbId]
    exact iff_of_true ((pinned_iff h).1 hs) hlocated
  · simp only [pin_eq, Option.some_inj, forall_eq', Located, ha, Option.mem_def]
    cases hroute : a.route with
    | control => simp
    | request =>
      by_cases hroot : a.entry.libraryRoot = ""
      · simp [hroot, hfree]
      · simp [hroot, relativeUnderRoot_eq_none, or_iff_not_imp_left]
  · obtain ⟨i, hi⟩ := Option.ne_none_iff_exists'.1 (h.lookup (hlookup ▸ Option.some_ne_none _))
    simp [Located, hi]
  · exact iff_of_true (fun hne => absurd hne (Option.some_ne_none _)) trivial
  · obtain ⟨i, hi⟩ := Option.ne_none_iff_exists'.1 (h.lookup (hlookup ▸ Option.some_ne_none _))
    simp only [hi, Option.some_inj, forall_eq', forall_const, findItem_iff, Located, hlookup,
      Option.bind_some, Lookup.key, Option.mem_def]

end CursorState

end

namespace CursorState

theorem staysPinned_iff (db : Db) (events : List CursorEvent) (s : CursorState)
    (hrun : run step (start db) events = some s) :
    StaysPinned db events ↔ Along step Located (start db) events := by
  have htracks : Along step (fun s _ => s.Tracks) (start db) events :=
    along_invariant (C := fun _ _ => True) (fun _ _ _ h _ ht => tracks_step h ht) (tracks_start db)
      (along_true _ _)
  have hpinned : (start db).Pinned := fun _ _ h => absurd h.symm (Option.some_ne_none _)
  rw [← along_iff_of_step (I := fun s => s.Tracks ∧ s.Pinned)
    (fun s e t h ht => (and_iff_right (tracks_step h.1 ht)).trans (pinned_step h.1 h.2 ht))
    ⟨tracks_start db, hpinned⟩ hrun]
  refine along_congr hrun htracks fun s e t h ht => ?_
  exact forall_congr' fun u => imp_congr_right fun hu => (and_iff_right (tracks_step h hu)).symm

end CursorState

/-! ## Libraries with paths of their own -/

/-- No two libraries have the same path, and the paths of the items are below these. -/
structure Db.Unshared (db : Db) : Prop where
  path : ∀ l ∈ db.libraries, ∀ l' ∈ db.libraries, l.path = l'.path → l = l'
  root : ∀ l ∈ db.libraries, l.path ≠ ""
  relative : ∀ it ∈ db.items, it.path.toList.head? ≠ some '/'

/-- No query comes back empty, and the rows stay. -/
def CursorEvent.Answered : CursorEvent → Prop
  | .findLibrary none | .findItem false | .writeDb _ => False
  | _ => True

/-- The queue finds the path of an item under the path of its library again. -/
theorem relativeUnderRoot_resourceOf {it : Item} (lib : Library)
    (hpath : it.path.toList.head? ≠ some '/') :
    Queue.relativeUnderRoot lib.path (resourceOf it lib) = some it.path := by
  obtain ⟨slashes, hslashes, -, hjoin⟩ := UnixPath.joinPath_rdropWhile lib.path.toList hpath
  unfold Queue.relativeUnderRoot resourceOf
  dsimp only
  rw [hjoin, String.toList_ofList (l := lib.path.toList.rdropWhile _ ++ (slashes ++ _)),
    if_pos (List.prefix_append _ _), List.drop_left, UnixPath.dropWhile_slashes hslashes hpath,
    String.ofList_toList]

section

variable {db : Db} {s t : CursorState} {e : CursorEvent}

/-- The entry was read from the row of the item in the library. -/
structure ReadFrom (db : Db) (entry : LoadedEntry) (it : Item) (lib : Library) : Prop where
  item : it ∈ db.items
  library : lib ∈ db.libraries
  libraryId : lib.id = it.libraryId
  entry : entry = entryFromItem it lib.path

theorem ReadFrom.relativeUnderRoot {entry : LoadedEntry} {it : Item} {lib : Library}
    (h : ReadFrom db entry it lib) (hdb : db.Unshared) :
    Queue.relativeUnderRoot entry.libraryRoot entry.resource = some it.path := by
  rw [h.entry]
  exact relativeUnderRoot_resourceOf lib (hdb.relative it h.item)

theorem getEntry_eq_some {itemId : ℤ} {entry : LoadedEntry} (h : getEntry db itemId = some entry) :
    ∃ it lib, ReadFrom db entry it lib := by
  obtain ⟨it, hit, hentry⟩ := Option.bind_eq_some_iff.1 h
  obtain ⟨lib, hlib, rfl⟩ := Option.map_eq_some_iff.1 hentry
  have hid : lib.id = it.libraryId := by simpa using List.find?_some hlib
  exact ⟨it, lib, List.mem_of_find?_eq_some hit, List.mem_of_find?_eq_some hlib, hid, rfl⟩

namespace CursorState

/-- The applies have read rows that are still there, and a request looks for the place of its
item. -/
structure Settled (db : Db) (s : CursorState) : Prop where
  rows : s.db = db
  applies : ∀ a ∈ s.applies, ∃ it lib, ReadFrom db a.entry it lib
  lookup : ∀ l ∈ s.lookup, ∃ entry it lib, ReadFrom db entry it lib ∧ s.applied = some it.id ∧
    (l = .library lib.path it.path ∨ l = .item lib.id it.path)

theorem settled_step (hdb : db.Unshared) (hs : s.Settled db) (he : e.Answered)
    (ht : s.step e = some t) : t.Settled db := by
  cases e with
  | load route id =>
    simp only [step] at ht
    split at ht
    · cases ht
      exact hs
    · rename_i entry hentry
      cases ht
      obtain ⟨itemId, -, hget⟩ := Option.bind_eq_some_iff.1 hentry
      refine ⟨hs.rows, fun a ha => ?_, hs.lookup⟩
      rcases List.mem_append.1 ha with ha | ha
      · exact hs.applies a ha
      · rw [List.mem_singleton.1 ha]
        exact hs.rows ▸ getEntry_eq_some hget
  | abandon k =>
    cases ht
    exact ⟨hs.rows, fun a ha => hs.applies a (List.mem_of_mem_eraseIdx ha), hs.lookup⟩
  | arrive k =>
    simp only [step] at ht
    split at ht
    · rename_i a hfree ha
      cases ht
      obtain ⟨it, lib, hread⟩ := hs.applies a (List.mem_of_getElem? ha)
      rw [pin_eq]
      refine ⟨hs.rows, fun b hb => hs.applies b (List.mem_of_mem_eraseIdx hb), fun l hl =>
        ⟨a.entry, it, lib, hread, ?_, .inl ?_⟩⟩
      · show some a.entry.itemId = some it.id
        rw [hread.entry]
        rfl
      · simp only [hfree, hread.relativeUnderRoot hdb, Option.map_some] at hl
        split at hl
        · rw [← Option.some_inj.1 hl, hread.entry]
          rfl
        · cases hl
    · cases ht
  | findLibrary found =>
    simp only [step] at ht
    split at ht
    · exact he.elim
    · rename_i path rel lib hlookup
      split at ht
      · rename_i hlib
        cases ht
        obtain ⟨entry, it, own, hread, happlied, hl | hl⟩ := hs.lookup _ hlookup
        · refine ⟨hs.rows, hs.applies, fun l hl' => ⟨entry, it, own, hread, happlied, .inr ?_⟩⟩
          cases hl
          rw [← Option.some_inj.1 hl', hdb.path lib (hs.rows ▸ hlib.1) own hread.library hlib.2]
        · cases hl
      · cases ht
    · cases ht
  | findItem ok =>
    simp only [step] at ht
    split at ht
    · cases ht
      exact ⟨hs.rows, hs.applies, fun l hl => absurd hl (Option.not_mem_none l)⟩
    · cases ht
  | access a =>
    simp only [step] at ht
    split at ht
    · cases ht
      exact ⟨hs.rows, hs.applies, hs.lookup⟩
    · cases ht
  | writeDb db => exact he.elim

theorem located_of_settled (hdb : db.Unshared) (hs : s.Settled db) (he : e.Answered) :
    s.Located e := by
  cases e with
  | arrive k =>
    intro a ha _
    obtain ⟨it, lib, hread⟩ := hs.applies a (List.mem_of_getElem? ha)
    refine .inl ⟨?_, ?_⟩
    · rw [hread.entry]
      exact hdb.root lib hread.library
    · by_contra hoff
      rw [← relativeUnderRoot_eq_none, hread.relativeUnderRoot hdb] at hoff
      exact absurd hoff (Option.some_ne_none _)
  | findLibrary found =>
    cases found with
    | none => exact he.elim
    | some lib => exact trivial
  | findItem ok =>
    cases ok with
    | false => exact he.elim
    | true =>
      intro key hkey
      obtain ⟨l, hl, hlkey⟩ := Option.bind_eq_some_iff.1 hkey
      obtain ⟨entry, it, lib, hread, happlied, rfl | rfl⟩ := hs.lookup l hl
      · cases hlkey
      · refine .inl ⟨rfl, it, hs.rows ▸ hread.item, happlied, ?_⟩
        rw [← hread.libraryId]
        exact Option.some_inj.1 hlkey
  | load route id | abandon k | access a | writeDb db => exact trivial

/-- Where no two libraries share a path, every request finds the row of its item. -/
theorem staysLocated_of_unshared (hdb : db.Unshared) {events : List CursorEvent}
    (he : ∀ e ∈ events, e.Answered) : Along step Located (start db) events := by
  have hanswered : Along step (fun _ e => e.Answered) (start db) events := along_of_forall he _
  have hstart : (start db).Settled db :=
    ⟨rfl, fun a ha => absurd ha List.not_mem_nil, fun l hl => absurd hl (Option.not_mem_none l)⟩
  have hsettled : Along step (fun s _ => s.Settled db) (start db) events :=
    along_invariant (fun _ _ _ hs he ht => settled_step hdb hs he ht) hstart hanswered
  exact (hsettled.and hanswered).mono fun _ _ h => located_of_settled hdb h.1 h.2

end CursorState

end

namespace CursorState

/-! ## One directory under two plugins -/

/-- A second plugin has the same directory. -/
def sharedDb : Db :=
  let made := do
    let (plugin, db) ← linkedDb.insertPlugin "scene" "1"
    let (library, db) ← db.insertLibrary plugin.id "/pictures"
    db.upsertItem "scene" 7
      { pluginId := plugin.id, libraryId := library.id, path := "sea.png", ty := "scene",
        displayName := "sea.png", previewPath := none, description := none, externalId := none,
        size := none, width := none, height := none, contentRating := none }
  made.getD .empty

/-- A request applies the picture, and the library with the lower id answers. -/
def requested (id : String) : List CursorEvent :=
  [.load .request id, .arrive 0, .findLibrary (some ⟨1, 1, "/pictures", "\x7b\x7d"⟩)]

theorem staysPinned_first :
    StaysPinned sharedDb (requested "1" ++ [.findItem true, .load .control "3", .arrive 0]) :=
  (staysPinned_iff sharedDb _ (reached step (start sharedDb) _ (by decide))
    (run_reached step _)).2 (by decide)

/-- The picture of the second plugin is applied, and the one of the first plugin is stored. -/
theorem not_staysPinned : ¬ ∀ db events s, run step (start db) events = some s →
    StaysPinned db events := by
  intro h
  have hall := h sharedDb (requested "3" ++ [.findItem true])
    (reached step (start sharedDb) _ (by decide)) (run_reached step _)
  obtain ⟨hlast, -⟩ := along_cons.1 ((along_append.1 hall).2
    (reached step (start sharedDb) (requested "3") (by decide)) (run_reached step _))
  have hpinned := hlast ((step _ (.findItem true)).get (by decide)) (Option.some_get _).symm
  exact absurd (hpinned (by decide) 3 (by decide)).lastDbId (by decide)

end CursorState

end Waywallen
