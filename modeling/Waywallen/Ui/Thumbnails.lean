import Mathlib.Data.List.Perm.Basic
import Waywallen.Library.HashMap
import Waywallen.Library.Transition

/-!
# The thumbnail service of the user interface

A card asks for a thumbnail of a file. A cached one is used at once, and for the others there is one
job for each file, which all the cards that wait for it share. Jobs run on a pool of threads; their
results come back through the event loop.
-/

namespace Waywallen

inductive ThumbnailState where
  | idle
  | loading
  | ready
  | failed
deriving DecidableEq

structure ThumbnailRequest where
  source : String := ""
  resource : String := ""
  wpType : String := ""
  state : ThumbnailState := .idle
  cachePath : String := ""
  error : String := ""
  /-- Its inputs are watched from now on. -/
  complete : Bool := false
deriving DecidableEq

/-- What is known of a source file. -/
structure FileInfo where
  mtime : ℕ
  size : ℕ
deriving DecidableEq

structure ResolvedJob where
  jobPath : String
  cachePath : String
  isVideo : Bool
  srcMtime : ℕ
  srcSize : ℕ
deriving DecidableEq

inductive JobPhase where
  | queued
  | running
  /-- The thumbnail is written, and the old one removed. -/
  | renaming
deriving DecidableEq

structure ThumbnailJob where
  job : ResolvedJob
  phase : JobPhase := .queued
deriving DecidableEq

/-- A `finished` signal that the event loop has not handled yet. -/
structure ThumbnailResult where
  key : String
  state : ThumbnailState
  cachePath : String
  error : String
deriving DecidableEq

/-- What the service is built on: how paths are made absolute, the cache file of a path, and how
many threads the pool has. -/
structure ThumbnailConfig where
  absolute : String → String
  cachePathOf : String → String
  maxThreads : ℕ

structure Thumbnails where
  files : HashMap String FileInfo := ∅
  /-- The cache files that exist. -/
  cached : HashMap String Unit := ∅
  requests : HashMap ℕ ThumbnailRequest := ∅
  /-- The requests that wait for a file. -/
  pending : HashMap String (List ℕ) := ∅
  jobs : List ThumbnailJob := []
  results : List ThumbnailResult := []

inductive ThumbnailLabel where
  | create (id : ℕ)
  | componentComplete (id : ℕ)
  | setSource (id : ℕ) (v : String)
  | setResource (id : ℕ) (v : String)
  | setWpType (id : ℕ) (v : String)
  | destroy (id : ℕ)
  /-- A thread takes the first job that waits. -/
  | start (i : ℕ)
  /-- The thumbnail is decoded and written aside. -/
  | unlink (i : ℕ)
  | rename (i : ℕ)
  | fail (i : ℕ) (error : String)
  /-- The event loop handles the first result. -/
  | deliver
  /-- Other programs. -/
  | setFile (path : String) (info : Option FileInfo)
  | setCached (path : String) (present : Bool)

/-- What a request comes to without the thread pool. -/
inductive Resolution where
  | failed (error : String)
  | ready (cachePath : String)
  | miss (job : ResolvedJob)

namespace Thumbnails

variable (conf : ThumbnailConfig) (s : Thumbnails)

/-- The file a thumbnail is made from, and whether it is decoded as a video. -/
def input (r : ThumbnailRequest) : Option (String × Bool) :=
  if r.source ≠ "" then some (conf.absolute r.source, false)
  else if r.resource ≠ "" ∧ (r.wpType = "video" ∨ r.wpType = "image") then
    some (conf.absolute r.resource, r.wpType = "video")
  else none

def tryResolveSync (r : ThumbnailRequest) : Resolution :=
  match input conf r with
  | none => .failed "no preview source"
  | some (path, isVideo) =>
      match s.files.lookup path with
      | none => .failed "source file not found"
      | some info =>
          let cachePath := conf.cachePathOf path
          if s.cached.containsKey cachePath then .ready cachePath
          else .miss ⟨path, cachePath, isVideo, info.mtime, info.size⟩

def setRequest (id : ℕ) (r : ThumbnailRequest) : Thumbnails :=
  { s with requests := s.requests.insert id r }

/-- Adds a request to those that wait for its file, and starts a job if it is the first. -/
def submit (id : ℕ) (job : ResolvedJob) : Thumbnails :=
  match s.pending.lookup job.jobPath with
  | none =>
      { s with
        pending := s.pending.insert job.jobPath [id]
        jobs := s.jobs ++ [{ job := job }] }
  | some subscribers =>
      { s with pending := s.pending.insert job.jobPath (subscribers ++ [id]) }

def cancel (id : ℕ) : Thumbnails :=
  { s with pending := s.pending.mapValues (·.filter (· ≠ id)) }

/-- Resolves a request, or submits it. -/
def resolve (id : ℕ) (r : ThumbnailRequest) : Thumbnails :=
  match s.tryResolveSync conf r with
  | .failed error => s.setRequest id { r with cachePath := "", error := error, state := .failed }
  | .ready path => s.setRequest id { r with cachePath := path, error := "", state := .ready }
  | .miss job =>
      (s.setRequest id { r with cachePath := "", error := "", state := .loading }).submit id job

/-- An input of a request has changed. -/
def changed (id : ℕ) (r : ThumbnailRequest) : Thumbnails :=
  if r.complete then (s.cancel id).resolve conf id r else s.setRequest id r

def applyResult (res : ThumbnailResult) (s : Thumbnails) (id : ℕ) : Thumbnails :=
  { s with requests := s.requests.modify id fun r =>
      { r with cachePath := res.cachePath, error := res.error, state := res.state } }

def onJobFinished (res : ThumbnailResult) : Thumbnails :=
  match s.pending.lookup res.key with
  | none => s
  | some subscribers =>
      subscribers.foldl (applyResult res) { s with pending := s.pending.erase res.key }

def inPhase (phase : JobPhase) (i : ℕ) : Option ThumbnailJob :=
  s.jobs[i]?.filter (·.phase = phase)

def setPhase (i : ℕ) (j : ThumbnailJob) (phase : JobPhase) : Thumbnails :=
  { s with jobs := s.jobs.set i { j with phase := phase } }

/-- The threads of the pool that are at work. -/
def busy : ℕ := s.jobs.countP (·.phase ≠ .queued)

/-- A job ends, and its result is queued. -/
def emit (i : ℕ) (res : ThumbnailResult) : Thumbnails :=
  { s with jobs := s.jobs.eraseIdx i, results := s.results ++ [res] }

def step (s : Thumbnails) : ThumbnailLabel → Option Thumbnails
  | .create id =>
      if s.requests.containsKey id then none else some (s.setRequest id {})
  | .componentComplete id => (s.requests.lookup id).bind fun r =>
      if r.complete then none else some (s.resolve conf id { r with complete := true })
  | .setSource id v => (s.requests.lookup id).map fun r =>
      if r.source = v then s else s.changed conf id { r with source := v }
  | .setResource id v => (s.requests.lookup id).map fun r =>
      if r.resource = v then s else s.changed conf id { r with resource := v }
  | .setWpType id v => (s.requests.lookup id).map fun r =>
      if r.wpType = v then s else s.changed conf id { r with wpType := v }
  | .destroy id =>
      if s.requests.containsKey id then
        some { s.cancel id with requests := s.requests.erase id }
      else none
  | .start i =>
      if s.busy < conf.maxThreads ∧ s.jobs.findIdx? (·.phase = .queued) = some i then
        s.jobs[i]?.map fun j => s.setPhase i j .running
      else none
  | .unlink i => (s.inPhase .running i).map fun j =>
      { s.setPhase i j .renaming with cached := s.cached.erase j.job.cachePath }
  | .rename i => (s.inPhase .renaming i).map fun j =>
      { s.emit i ⟨j.job.jobPath, .ready, j.job.cachePath, ""⟩ with
        cached := s.cached.insert j.job.cachePath () }
  | .fail i error => (s.jobs[i]?.filter (·.phase ≠ .queued)).map fun j =>
      s.emit i ⟨j.job.jobPath, .failed, "", error⟩
  | .deliver =>
      match s.results with
      | [] => none
      | res :: rest => some ({ s with results := rest }.onJobFinished res)
  | .setFile path (some info) => some { s with files := s.files.insert path info }
  | .setFile path none => some { s with files := s.files.erase path }
  | .setCached path true => some { s with cached := s.cached.insert path () }
  | .setCached path false => some { s with cached := s.cached.erase path }

/-! ## One job for each file -/

/-- The files that are worked on, up to the result. -/
def working : List String := s.jobs.map (·.job.jobPath) ++ s.results.map (·.key)

/-- The file that a request is about. -/
def path (r : ThumbnailRequest) : Option String := (input conf r).map Prod.fst

/-- A file is waited for just as long as it is worked on, and is worked on once. -/
structure Works : Prop where
  working : ∀ path, s.pending.containsKey path = true ↔ path ∈ s.working
  nodup : s.working.Nodup
  jobs : ∀ j ∈ s.jobs, j.job.cachePath = conf.cachePathOf j.job.jobPath
  results : ∀ res ∈ s.results, res.state = .failed ∨
    res.state = .ready ∧ res.cachePath = conf.cachePathOf res.key
  busy : s.busy ≤ conf.maxThreads

/-- Those that wait for a file are the requests about it that load, and a request that is ready has
the thumbnail of its file; for the requests that meet the condition. -/
structure Waits (p : ℕ → Prop) : Prop where
  waiting : ∀ path subscribers, s.pending.lookup path = some subscribers → subscribers.Nodup ∧
    ∀ id ∈ subscribers, p id ∧ ∃ r, s.requests.lookup id = some r ∧ r.state = .loading ∧
      r.complete = true ∧ Thumbnails.path conf r = some path
  loading : ∀ id r, p id → s.requests.lookup id = some r → r.state = .loading →
    ∃ path subscribers, Thumbnails.path conf r = some path ∧
      s.pending.lookup path = some subscribers ∧ id ∈ subscribers
  ready : ∀ id r, p id → s.requests.lookup id = some r → r.state = .ready →
    ∃ path, Thumbnails.path conf r = some path ∧ r.cachePath = conf.cachePathOf path
  idle : ∀ id r, p id → s.requests.lookup id = some r → r.complete = false → r.state = .idle

variable {conf} {s t : Thumbnails} {id : ℕ} {r : ThumbnailRequest} {job : ResolvedJob}
  {p : ℕ → Prop}

theorem Works.congr (h : s.Works conf)
    (hpending : ∀ path, t.pending.containsKey path = s.pending.containsKey path)
    (hjobs : t.jobs = s.jobs) (hresults : t.results = s.results) : t.Works conf where
  working path := by
    rw [hpending, Thumbnails.working, hjobs, hresults]
    exact h.working path
  nodup := by
    rw [Thumbnails.working, hjobs, hresults]
    exact h.nodup
  jobs := hjobs ▸ h.jobs
  results := hresults ▸ h.results
  busy := by
    rw [Thumbnails.busy, hjobs]
    exact h.busy

theorem Works.submit (h : s.Works conf) (id : ℕ)
    (hjob : job.cachePath = conf.cachePathOf job.jobPath) : (s.submit id job).Works conf := by
  rw [Thumbnails.submit]
  cases hp : s.pending.lookup job.jobPath with
  | some subscribers =>
    refine h.congr (fun path => ?_) rfl rfl
    rw [HashMap.containsKey_insert]
    by_cases heq : path = job.jobPath
    · rw [heq, (HashMap.containsKey_iff _ _).2 ⟨_, hp⟩]
      simp
    · simp [heq]
  | none =>
    have hnew : job.jobPath ∉ s.working := fun hmem => by
      obtain ⟨subscribers, hsome⟩ := (HashMap.containsKey_iff _ _).1 ((h.working _).2 hmem)
      rw [hp] at hsome
      cases hsome
    have hperm : List.Perm (job.jobPath :: s.working)
        ((s.jobs ++ [(⟨job, .queued⟩ : ThumbnailJob)]).map (·.job.jobPath) ++
          s.results.map (·.key)) := by
      rw [List.map_append, List.append_assoc]
      exact List.perm_middle.symm
    constructor
    case working =>
      intro path
      rw [HashMap.containsKey_insert, Bool.or_eq_true, decide_eq_true_eq, h.working path,
        ← List.mem_cons]
      exact hperm.mem_iff
    case nodup => exact hperm.nodup_iff.1 (List.nodup_cons.2 ⟨hnew, h.nodup⟩)
    case jobs =>
      intro j hj
      obtain hj | hj := List.mem_append.1 hj
      · exact h.jobs j hj
      · rw [List.mem_singleton.1 hj]
        exact hjob
    case results => exact h.results
    case busy =>
      rw [Thumbnails.busy, List.countP_append]
      exact h.busy

theorem containsKey_cancel (path : String) :
    (s.cancel id).pending.containsKey path = s.pending.containsKey path := by
  rw [HashMap.containsKey, HashMap.containsKey, cancel, HashMap.lookup_mapValues, Option.isSome_map]

/-- Nothing waits for a request that was taken aside. -/
theorem Waits.cancel (h : s.Waits conf fun _ => True) (id : ℕ) :
    (s.cancel id).Waits conf (· ≠ id) where
  waiting path subscribers hp := by
    rw [Thumbnails.cancel, HashMap.lookup_mapValues] at hp
    obtain ⟨old, hold, rfl⟩ := Option.map_eq_some_iff.1 hp
    obtain ⟨hnodup, hall⟩ := h.waiting path old hold
    refine ⟨hnodup.filter _, fun k hk => ?_⟩
    obtain ⟨hk, hne⟩ := List.mem_filter.1 hk
    exact ⟨of_decide_eq_true hne, (hall k hk).2⟩
  loading k r hne hk hstate := by
    obtain ⟨path, subscribers, hpath, hp, hmem⟩ := h.loading k r trivial hk hstate
    refine ⟨path, subscribers.filter (· ≠ id), hpath, ?_, List.mem_filter.2 ⟨hmem, by simpa⟩⟩
    rw [Thumbnails.cancel, HashMap.lookup_mapValues, hp]
    rfl
  ready k r _ := h.ready k r trivial
  idle k r _ := h.idle k r trivial

theorem Waits.aside (h : s.Waits conf fun _ => True)
    (hnot : ∀ path subscribers, s.pending.lookup path = some subscribers → id ∉ subscribers) :
    s.Waits conf (· ≠ id) where
  waiting path subscribers hp := by
    obtain ⟨hnodup, hall⟩ := h.waiting path subscribers hp
    refine ⟨hnodup, fun k hk => ⟨?_, (hall k hk).2⟩⟩
    rintro rfl
    exact hnot path subscribers hp hk
  loading k r _ := h.loading k r trivial
  ready k r _ := h.ready k r trivial
  idle k r _ := h.idle k r trivial

/-- A request that was taken aside may change. -/
theorem Waits.congr (h : s.Waits conf p) (hpending : t.pending = s.pending)
    (hrequests : ∀ k, p k → t.requests.lookup k = s.requests.lookup k) : t.Waits conf p where
  waiting path subscribers hp := by
    obtain ⟨hnodup, hall⟩ := h.waiting path subscribers (hpending ▸ hp)
    refine ⟨hnodup, fun k hk => ⟨(hall k hk).1, ?_⟩⟩
    rw [hrequests k (hall k hk).1]
    exact (hall k hk).2
  loading k r hpk hk hstate := by
    rw [hrequests k hpk] at hk
    rw [hpending]
    exact h.loading k r hpk hk hstate
  ready k r hpk hk := h.ready k r hpk (hrequests k hpk ▸ hk)
  idle k r hpk hk := h.idle k r hpk (hrequests k hpk ▸ hk)

/-- A request that does not load comes back. -/
theorem Waits.join (h : s.Waits conf (· ≠ id))
    (hid : ∀ r, s.requests.lookup id = some r → r.state ≠ .loading ∧
      (r.state = .ready →
        ∃ path, Thumbnails.path conf r = some path ∧ r.cachePath = conf.cachePathOf path) ∧
      (r.complete = false → r.state = .idle)) :
    s.Waits conf fun _ => True where
  waiting path subscribers hp := by
    obtain ⟨hnodup, hall⟩ := h.waiting path subscribers hp
    exact ⟨hnodup, fun k hk => ⟨trivial, (hall k hk).2⟩⟩
  loading k r _ hk hstate := by
    by_cases hkid : k = id
    · exact absurd hstate (hid r (hkid ▸ hk)).1
    · exact h.loading k r hkid hk hstate
  ready k r _ hk := by
    by_cases hkid : k = id
    · exact (hid r (hkid ▸ hk)).2.1
    · exact h.ready k r hkid hk
  idle k r _ hk := by
    by_cases hkid : k = id
    · exact (hid r (hkid ▸ hk)).2.2
    · exact h.idle k r hkid hk

theorem lookup_setRequest (s : Thumbnails) (id k : ℕ) (r : ThumbnailRequest) :
    (s.setRequest id r).requests.lookup k = if k = id then some r else s.requests.lookup k :=
  HashMap.lookup_insert_eq ..

theorem Waits.setRequest (h : s.Waits conf (· ≠ id)) (r : ThumbnailRequest) :
    (s.setRequest id r).Waits conf (· ≠ id) :=
  h.congr rfl fun k hk => by rw [lookup_setRequest, if_neg hk]

theorem Waits.joinRequest (h : s.Waits conf (· ≠ id)) (hloading : r.state ≠ .loading)
    (hready : r.state = .ready →
      ∃ path, Thumbnails.path conf r = some path ∧ r.cachePath = conf.cachePathOf path)
    (hidle : r.complete = false → r.state = .idle) :
    (s.setRequest id r).Waits conf fun _ => True := by
  refine (h.setRequest r).join fun r' hr' => ?_
  rw [lookup_setRequest, if_pos rfl] at hr'
  cases hr'
  exact ⟨hloading, hready, hidle⟩

/-- A request that loads comes back, and waits for its file. -/
theorem Waits.submit (h : s.Waits conf (· ≠ id)) (hr : s.requests.lookup id = some r)
    (hstate : r.state = .loading) (hcomplete : r.complete = true)
    (hpath : Thumbnails.path conf r = some job.jobPath) :
    (s.submit id job).Waits conf fun _ => True := by
  obtain ⟨subscribers, hnodup, hall, hsubmit⟩ : ∃ subscribers : List ℕ, subscribers.Nodup ∧
      (∀ k ∈ subscribers, k ≠ id ∧ ∃ r, s.requests.lookup k = some r ∧ r.state = .loading ∧
        r.complete = true ∧ Thumbnails.path conf r = some job.jobPath) ∧
      (s.submit id job).requests = s.requests ∧
      (s.submit id job).pending = s.pending.insert job.jobPath (subscribers ++ [id]) ∧
      ∀ old, s.pending.lookup job.jobPath = some old → old = subscribers := by
    rw [Thumbnails.submit]
    cases hp : s.pending.lookup job.jobPath with
    | none => exact ⟨[], List.nodup_nil, fun k hk => absurd hk List.not_mem_nil, rfl, rfl,
        fun old hold => by cases hold⟩
    | some old =>
      obtain ⟨hnodup, hall⟩ := h.waiting _ _ hp
      exact ⟨old, hnodup, hall, rfl, rfl, fun old' hold => (Option.some_inj.1 hold).symm⟩
  obtain ⟨hrequests, hpending, hold⟩ := hsubmit
  have hlookup {path : String} : (s.submit id job).pending.lookup path =
      if path = job.jobPath then some (subscribers ++ [id]) else s.pending.lookup path := by
    rw [hpending, HashMap.lookup_insert_eq]
  constructor
  case waiting =>
    intro path subs hp
    rw [hlookup] at hp
    rw [hrequests]
    split at hp
    · rename_i heq
      cases hp
      subst heq
      constructor
      · refine List.nodup_append.2 ⟨hnodup, List.nodup_singleton _, fun k hk e he => ?_⟩
        rw [List.mem_singleton.1 he]
        exact (hall k hk).1
      · intro k hk
        obtain hk | hk := List.mem_append.1 hk
        · exact ⟨trivial, (hall k hk).2⟩
        · rw [List.mem_singleton.1 hk]
          exact ⟨trivial, r, hr, hstate, hcomplete, hpath⟩
    · obtain ⟨hnodup', hall'⟩ := h.waiting path subs hp
      exact ⟨hnodup', fun k hk => ⟨trivial, (hall' k hk).2⟩⟩
  case loading =>
    intro k r' _ hk hstate'
    rw [hrequests] at hk
    by_cases hkid : k = id
    · subst hkid
      obtain rfl := Option.some_inj.1 (hk.symm.trans hr)
      refine ⟨job.jobPath, subscribers ++ [k], hpath, ?_, ?_⟩
      · rw [hlookup, if_pos rfl]
      · exact List.mem_append_right _ (List.mem_singleton_self _)
    · obtain ⟨path, subs, hpath', hp, hmem⟩ := h.loading k r' hkid hk hstate'
      by_cases heq : path = job.jobPath
      · subst heq
        refine ⟨_, subscribers ++ [id], hpath', ?_, List.mem_append_left _ (hold _ hp ▸ hmem)⟩
        rw [hlookup, if_pos rfl]
      · refine ⟨path, subs, hpath', ?_, hmem⟩
        rw [hlookup, if_neg heq]
        exact hp
  case ready =>
    intro k r' _ hk hstate'
    rw [hrequests] at hk
    by_cases hkid : k = id
    · subst hkid
      obtain rfl := Option.some_inj.1 (hk.symm.trans hr)
      rw [hstate] at hstate'
      cases hstate'
    · exact h.ready k r' hkid hk hstate'
  case idle =>
    intro k r' _ hk hcomplete'
    rw [hrequests] at hk
    by_cases hkid : k = id
    · subst hkid
      obtain rfl := Option.some_inj.1 (hk.symm.trans hr)
      rw [hcomplete] at hcomplete'
      cases hcomplete'
    · exact h.idle k r' hkid hk hcomplete'

variable (conf) in
/-- Where a request stands that is not submitted, and what job it is submitted with. -/
theorem tryResolveSync_cases (s : Thumbnails) (r : ThumbnailRequest) :
    (∃ error, s.tryResolveSync conf r = .failed error) ∨
    ∃ path, Thumbnails.path conf r = some path ∧
      (s.tryResolveSync conf r = .ready (conf.cachePathOf path) ∨
        ∃ job : ResolvedJob, s.tryResolveSync conf r = .miss job ∧ job.jobPath = path ∧
          job.cachePath = conf.cachePathOf path) := by
  rw [tryResolveSync, Thumbnails.path]
  cases hinput : input conf r with
  | none => exact .inl ⟨_, rfl⟩
  | some p =>
    dsimp only
    cases hfile : s.files.lookup p.1 with
    | none => exact .inl ⟨_, rfl⟩
    | some info =>
      refine .inr ⟨p.1, rfl, ?_⟩
      dsimp only
      split
      · exact .inl rfl
      · exact .inr ⟨_, rfl, rfl, rfl⟩

/-- The requests and the work on their files. -/
def Consistent (conf : ThumbnailConfig) (s : Thumbnails) : Prop :=
  s.Works conf ∧ s.Waits conf fun _ => True

theorem Consistent.resolve (hworks : s.Works conf) (hwaits : s.Waits conf (· ≠ id))
    (hcomplete : r.complete = true) : (s.resolve conf id r).Consistent conf := by
  have hidle (r' : ThumbnailRequest) (hr' : r'.complete = r.complete) :
      r'.complete = false → r'.state = .idle := by
    rw [hr', hcomplete]
    exact fun h => by cases h
  rw [Thumbnails.resolve]
  obtain ⟨error, heq⟩ | ⟨path, hpath, heq | ⟨job, heq, hjob, hcache⟩⟩ :=
    tryResolveSync_cases conf s r
  · rw [heq]
    exact ⟨hworks.congr (fun _ => rfl) rfl rfl,
      hwaits.joinRequest ThumbnailState.noConfusion ThumbnailState.noConfusion (hidle _ rfl)⟩
  · rw [heq]
    exact ⟨hworks.congr (fun _ => rfl) rfl rfl,
      hwaits.joinRequest ThumbnailState.noConfusion (fun _ => ⟨path, hpath, rfl⟩) (hidle _ rfl)⟩
  · rw [heq]
    subst hjob
    let loading : ThumbnailRequest := { r with cachePath := "", error := "", state := .loading }
    have hset : (s.setRequest id loading).Works conf := hworks.congr (fun _ => rfl) rfl rfl
    have hlookup : (s.setRequest id loading).requests.lookup id = some loading := by
      rw [lookup_setRequest, if_pos rfl]
    exact ⟨hset.submit id hcache,
      (hwaits.setRequest loading).submit hlookup rfl hcomplete hpath⟩

theorem Works.cancel (h : s.Works conf) (id : ℕ) : (s.cancel id).Works conf :=
  h.congr containsKey_cancel rfl rfl

theorem Waits.not_waiting (h : s.Waits conf p)
    (hid : ∀ r, s.requests.lookup id = some r → r.state ≠ .loading) {path : String}
    {subscribers : List ℕ} (hp : s.pending.lookup path = some subscribers) : id ∉ subscribers := by
  intro hmem
  obtain ⟨-, r, hr, hstate, -⟩ := (h.waiting path subscribers hp).2 id hmem
  exact hid r hr hstate

theorem Consistent.changed {old : ThumbnailRequest} (h : s.Consistent conf)
    (hold : s.requests.lookup id = some old) (hcomplete : r.complete = old.complete)
    (hstate : r.state = old.state) : (s.changed conf id r).Consistent conf := by
  rw [Thumbnails.changed]
  by_cases hc : r.complete = true
  · rw [if_pos hc]
    exact .resolve (h.1.cancel id) (h.2.cancel id) hc
  · rw [if_neg hc]
    have hidle : old.state = .idle :=
      h.2.idle id old trivial hold (by rw [← hcomplete, Bool.eq_false_iff.2 hc])
    have haside : s.Waits conf (· ≠ id) := h.2.aside fun path subscribers hp =>
      h.2.not_waiting (fun r' hr' => by
        obtain rfl := Option.some_inj.1 (hr'.symm.trans hold)
        rw [hidle]
        exact ThumbnailState.noConfusion) hp
    rw [← hstate] at hidle
    refine ⟨h.1.congr (fun _ => rfl) rfl rfl, haside.joinRequest ?_ ?_ fun _ => hidle⟩
    · rw [hidle]
      exact ThumbnailState.noConfusion
    · rw [hidle]
      exact ThumbnailState.noConfusion

/-! ## Results -/

theorem lookup_applyResult (res : ThumbnailResult) (subscribers : List ℕ) (s : Thumbnails)
    (k : ℕ) : (subscribers.foldl (applyResult res) s).requests.lookup k =
      if k ∈ subscribers then (s.requests.lookup k).map fun r =>
        { r with cachePath := res.cachePath, error := res.error, state := res.state }
      else s.requests.lookup k := by
  induction subscribers generalizing s with
  | nil => simp
  | cons id subscribers ih =>
    rw [List.foldl_cons, ih, applyResult, HashMap.lookup_modify]
    by_cases hk : k = id
    · subst hk
      by_cases hmem : k ∈ subscribers
      · rw [if_pos hmem, if_pos rfl, if_pos List.mem_cons_self, Option.map_map]
        rfl
      · rw [if_neg hmem, if_pos rfl, if_pos List.mem_cons_self]
    · simp [hk]

theorem foldl_applyResult (res : ThumbnailResult) (subscribers : List ℕ) (s : Thumbnails) :
    subscribers.foldl (applyResult res) s =
      { s with requests := (subscribers.foldl (applyResult res) s).requests } := by
  induction subscribers generalizing s with
  | nil => rfl
  | cons id subscribers ih =>
    rw [List.foldl_cons, ih]
    rfl

/-- The requests that waited for a file have its result. -/
theorem Waits.deliver {res : ThumbnailResult} {subscribers : List ℕ}
    (h : s.Waits conf fun _ => True) (hp : s.pending.lookup res.key = some subscribers)
    (hres : res.state = .failed ∨ res.state = .ready ∧ res.cachePath = conf.cachePathOf res.key)
    (hpending : t.pending = s.pending.erase res.key)
    (hrequests : ∀ k, t.requests.lookup k = if k ∈ subscribers then
      (s.requests.lookup k).map fun r =>
        { r with cachePath := res.cachePath, error := res.error, state := res.state }
      else s.requests.lookup k) : t.Waits conf fun _ => True := by
  obtain ⟨-, hall⟩ := h.waiting _ _ hp
  have hnot : res.state ≠ .loading := by
    obtain hres | ⟨hres, -⟩ := hres <;> rw [hres] <;> exact ThumbnailState.noConfusion
  -- a request waits for one file only
  have hother {path : String} {subs : List ℕ} {k : ℕ} (hsubs : t.pending.lookup path = some subs)
      (hk : k ∈ subs) : s.pending.lookup path = some subs ∧ k ∉ subscribers := by
    rw [hpending, HashMap.lookup_erase_eq] at hsubs
    obtain ⟨hne, hsubs⟩ := Option.ite_none_left_eq_some.1 hsubs
    refine ⟨hsubs, fun hmem => hne ?_⟩
    obtain ⟨-, r, hr, -, -, hpath⟩ := (h.waiting _ _ hsubs).2 k hk
    obtain ⟨-, r', hr', -, -, hpath'⟩ := hall k hmem
    obtain rfl := Option.some_inj.1 (hr.symm.trans hr')
    exact Option.some_inj.1 (hpath.symm.trans hpath')
  constructor
  case waiting =>
    intro path subs hsubs
    have hold : s.pending.lookup path = some subs := by
      rw [hpending, HashMap.lookup_erase_eq] at hsubs
      exact (Option.ite_none_left_eq_some.1 hsubs).2
    refine ⟨(h.waiting _ _ hold).1, fun k hk => ⟨trivial, ?_⟩⟩
    rw [hrequests, if_neg (hother hsubs hk).2]
    exact ((h.waiting _ _ hold).2 k hk).2
  case loading =>
    intro k r _ hk hstate
    rw [hrequests] at hk
    split at hk
    · obtain ⟨r', -, rfl⟩ := Option.map_eq_some_iff.1 hk
      exact absurd hstate hnot
    · obtain ⟨path, subs, hpath, hsubs, hmem⟩ := h.loading k r trivial hk hstate
      refine ⟨path, subs, hpath, ?_, hmem⟩
      rw [hpending, HashMap.lookup_erase_eq, if_neg]
      · exact hsubs
      · rintro rfl
        obtain rfl := Option.some_inj.1 (hsubs.symm.trans hp)
        contradiction
  case ready =>
    intro k r _ hk hstate
    rw [hrequests] at hk
    split at hk
    · rename_i hmem
      obtain ⟨-, r', hr', -, -, hpath⟩ := hall k hmem
      rw [hr'] at hk
      cases hk
      refine ⟨res.key, hpath, ?_⟩
      obtain hres | ⟨-, hcache⟩ := hres
      · rw [show res.state = .ready from hstate] at hres
        cases hres
      · exact hcache
    · exact h.ready k r trivial hk hstate
  case idle =>
    intro k r _ hk hcomplete
    rw [hrequests] at hk
    split at hk
    · rename_i hmem
      obtain ⟨-, r', hr', -, htrue, -⟩ := hall k hmem
      rw [hr'] at hk
      cases hk
      rw [show r'.complete = false from hcomplete] at htrue
      cases htrue
    · exact h.idle k r trivial hk hcomplete

theorem Works.deliver {res : ThumbnailResult} {rest : List ThumbnailResult} (h : s.Works conf)
    (hres : s.results = res :: rest) (hjobs : t.jobs = s.jobs) (hresults : t.results = rest)
    (hpending : t.pending = s.pending.erase res.key) : t.Works conf := by
  have hworking : s.working.Perm (res.key :: t.working) := by
    rw [Thumbnails.working, Thumbnails.working, hres, hjobs, hresults]
    exact List.perm_middle
  obtain ⟨hnot, hnodup⟩ := List.nodup_cons.1 (hworking.nodup_iff.1 h.nodup)
  constructor
  case working =>
    intro path
    rw [hpending, HashMap.containsKey_erase, Bool.and_eq_true, decide_eq_true_eq, h.working path,
      hworking.mem_iff, List.mem_cons]
    constructor
    · rintro ⟨hne, rfl | hmem⟩
      · exact absurd rfl hne
      · exact hmem
    · intro hmem
      refine ⟨?_, .inr hmem⟩
      rintro rfl
      exact hnot hmem
  case nodup => exact hnodup
  case jobs => exact hjobs ▸ h.jobs
  case results => exact fun r hr => h.results r (hres ▸ List.mem_cons_of_mem _ (hresults ▸ hr))
  case busy =>
    rw [Thumbnails.busy, hjobs]
    exact h.busy

theorem Consistent.deliver {res : ThumbnailResult} {rest : List ThumbnailResult}
    (h : s.Consistent conf) (hres : s.results = res :: rest) :
    (onJobFinished { s with results := rest } res).Consistent conf := by
  have hmem : res ∈ s.results := hres ▸ List.mem_cons_self
  have hkey : s.pending.containsKey res.key = true :=
    (h.1.working _).2 (List.mem_append_right _ (List.mem_map_of_mem hmem))
  obtain ⟨subscribers, hp⟩ := (HashMap.containsKey_iff _ _).1 hkey
  rw [onJobFinished, hp]
  dsimp only
  rw [foldl_applyResult]
  exact ⟨h.1.deliver hres rfl rfl rfl,
    h.2.deliver hp (h.1.results res hmem) rfl (lookup_applyResult res subscribers _)⟩

/-! ## Jobs -/

/-- A job keeps its file while it goes on. -/
theorem Works.setPhase {i : ℕ} {j : ThumbnailJob} (phase : JobPhase) (h : s.Works conf)
    (hj : s.jobs[i]? = some j) (hbusy : j.phase ≠ .queued ∨ s.busy < conf.maxThreads) :
    (s.setPhase i j phase).Works conf := by
  obtain ⟨hi, rfl⟩ := List.getElem?_eq_some_iff.1 hj
  have hold : s.jobs.Perm (s.jobs[i] :: s.jobs.eraseIdx i) :=
    (List.getElem_cons_eraseIdx_perm hi).symm
  have hnew : (s.setPhase i s.jobs[i] phase).jobs.Perm
      ({ s.jobs[i] with phase := phase } :: s.jobs.eraseIdx i) :=
    List.set_perm_cons_eraseIdx hi _
  have hworking : (s.setPhase i s.jobs[i] phase).working.Perm s.working :=
    .append_right _ ((hnew.map (·.job.jobPath)).trans (hold.map (·.job.jobPath)).symm)
  constructor
  case working => exact fun path => (h.working path).trans hworking.mem_iff.symm
  case nodup => exact hworking.nodup_iff.2 h.nodup
  case jobs =>
    intro x hx
    obtain rfl | hx := List.mem_cons.1 (hnew.mem_iff.1 hx)
    · exact h.jobs s.jobs[i] (List.getElem_mem hi)
    · exact h.jobs x (List.mem_of_mem_eraseIdx hx)
  case results => exact h.results
  case busy =>
    have hle := h.busy
    rw [Thumbnails.busy, hold.countP_eq, List.countP_cons] at hle hbusy
    rw [Thumbnails.busy, hnew.countP_eq, List.countP_cons]
    obtain hrunning | hfree := hbusy
    · rw [if_pos (by simpa using hrunning)] at hle
      split <;> omega
    · split <;> omega

/-- The result of a job stands for the job. -/
theorem Works.emit {i : ℕ} {j : ThumbnailJob} (res : ThumbnailResult) (h : s.Works conf)
    (hj : s.jobs[i]? = some j) (hkey : res.key = j.job.jobPath)
    (hres : res.state = .failed ∨ res.state = .ready ∧ res.cachePath = conf.cachePathOf res.key) :
    (s.emit i res).Works conf := by
  obtain ⟨hi, rfl⟩ := List.getElem?_eq_some_iff.1 hj
  have hold : s.jobs.Perm (s.jobs[i] :: s.jobs.eraseIdx i) :=
    (List.getElem_cons_eraseIdx_perm hi).symm
  have hworking : (s.emit i res).working.Perm s.working := by
    rw [Thumbnails.working, Thumbnails.working, Thumbnails.emit, List.map_append,
      List.map_singleton, hkey, ← List.append_assoc]
    refine List.perm_append_comm.trans ?_
    exact ((hold.map (·.job.jobPath)).append_right _).symm
  constructor
  case working => exact fun path => (h.working path).trans hworking.mem_iff.symm
  case nodup => exact hworking.nodup_iff.2 h.nodup
  case jobs => exact fun x hx => h.jobs x (List.mem_of_mem_eraseIdx hx)
  case results =>
    intro x hx
    obtain hx | hx := List.mem_append.1 hx
    · exact h.results x hx
    · rw [List.mem_singleton.1 hx]
      exact hres
  case busy => exact le_trans (List.eraseIdx_sublist _ _).countP_le h.busy

/-! ## Runs -/

theorem Consistent.congr (h : s.Consistent conf) (hrequests : t.requests = s.requests)
    (hpending : t.pending = s.pending) (hjobs : t.jobs = s.jobs)
    (hresults : t.results = s.results) : t.Consistent conf :=
  ⟨h.1.congr (fun _ => by rw [hpending]) hjobs hresults,
    h.2.congr hpending fun _ _ => by rw [hrequests]⟩

/-- The work may change under the requests. -/
theorem Consistent.works (h : s.Consistent conf) (ht : t.Works conf)
    (hrequests : t.requests = s.requests) (hpending : t.pending = s.pending) :
    t.Consistent conf :=
  ⟨ht, h.2.congr hpending fun _ _ => by rw [hrequests]⟩

theorem inPhase_eq_some {i : ℕ} {j : ThumbnailJob} {phase : JobPhase}
    (h : s.inPhase phase i = some j) : s.jobs[i]? = some j ∧ j.phase = phase := by
  obtain ⟨hj, hphase⟩ := Option.filter_eq_some_iff.1 h
  exact ⟨hj, of_decide_eq_true hphase⟩

theorem Consistent.create (h : s.Consistent conf) (hnew : s.requests.containsKey id = false) :
    (s.setRequest id {}).Consistent conf := by
  have haside : s.Waits conf (· ≠ id) := h.2.aside fun path subscribers hp =>
    h.2.not_waiting (fun r hr => by
      rw [(HashMap.containsKey_iff _ _).2 ⟨r, hr⟩] at hnew
      cases hnew) hp
  exact ⟨h.1.congr (fun _ => rfl) rfl rfl, haside.joinRequest ThumbnailState.noConfusion
    ThumbnailState.noConfusion fun _ => rfl⟩

theorem Consistent.complete (h : s.Consistent conf) (hr : s.requests.lookup id = some r)
    (hcomplete : r.complete ≠ true) :
    (s.resolve conf id { r with complete := true }).Consistent conf := by
  have hidle := h.2.idle id r trivial hr (Bool.eq_false_iff.2 hcomplete)
  have haside : s.Waits conf (· ≠ id) := h.2.aside fun path subscribers hp =>
    h.2.not_waiting (fun r' hr' => by
      obtain rfl := Option.some_inj.1 (hr'.symm.trans hr)
      rw [hidle]
      exact ThumbnailState.noConfusion) hp
  exact .resolve h.1 haside rfl

theorem Consistent.destroy (h : s.Consistent conf) (id : ℕ) :
    Consistent conf { s.cancel id with requests := s.requests.erase id } := by
  have haside : Waits conf { s.cancel id with requests := s.requests.erase id } (· ≠ id) := by
    refine (h.2.cancel id).congr rfl fun k hk => ?_
    dsimp only
    rw [HashMap.lookup_erase_eq, if_neg hk]
    rfl
  refine ⟨(h.1.cancel id).congr (fun _ => rfl) rfl rfl, haside.join fun r hr => ?_⟩
  dsimp only at hr
  rw [HashMap.lookup_erase_eq, if_pos rfl] at hr
  cases hr

theorem Consistent.step {l : ThumbnailLabel} (h : s.Consistent conf)
    (hstep : s.step conf l = some t) : t.Consistent conf := by
  cases l with
  | create id =>
    obtain ⟨hnew, hstep⟩ := Option.ite_none_left_eq_some.1 hstep
    cases hstep
    exact h.create (Bool.eq_false_iff.2 hnew)
  | componentComplete id =>
    obtain ⟨r, hr, hstep⟩ := Option.bind_eq_some_iff.1 hstep
    obtain ⟨hcomplete, hstep⟩ := Option.ite_none_left_eq_some.1 hstep
    cases hstep
    exact h.complete hr hcomplete
  | setSource id v =>
    obtain ⟨r, hr, rfl⟩ := Option.map_eq_some_iff.1 hstep
    split
    · exact h
    · exact h.changed hr rfl rfl
  | setResource id v =>
    obtain ⟨r, hr, rfl⟩ := Option.map_eq_some_iff.1 hstep
    split
    · exact h
    · exact h.changed hr rfl rfl
  | setWpType id v =>
    obtain ⟨r, hr, rfl⟩ := Option.map_eq_some_iff.1 hstep
    split
    · exact h
    · exact h.changed hr rfl rfl
  | destroy id =>
    obtain ⟨-, hstep⟩ := Option.ite_none_right_eq_some.1 hstep
    cases hstep
    exact h.destroy id
  | start i =>
    obtain ⟨⟨hfree, -⟩, hstep⟩ := Option.ite_none_right_eq_some.1 hstep
    obtain ⟨j, hj, rfl⟩ := Option.map_eq_some_iff.1 hstep
    exact h.works (h.1.setPhase .running hj (.inr hfree)) rfl rfl
  | unlink i =>
    obtain ⟨j, hj, rfl⟩ := Option.map_eq_some_iff.1 hstep
    obtain ⟨hj, hphase⟩ := inPhase_eq_some hj
    have hworks := h.1.setPhase .renaming hj (.inl (hphase ▸ JobPhase.noConfusion))
    exact h.works (hworks.congr (fun _ => rfl) rfl rfl) rfl rfl
  | rename i =>
    obtain ⟨j, hj, rfl⟩ := Option.map_eq_some_iff.1 hstep
    obtain ⟨hj, -⟩ := inPhase_eq_some hj
    have hworks := h.1.emit ⟨j.job.jobPath, .ready, j.job.cachePath, ""⟩ hj rfl
      (.inr ⟨rfl, h.1.jobs j (List.mem_of_getElem? hj)⟩)
    exact h.works (hworks.congr (fun _ => rfl) rfl rfl) rfl rfl
  | fail i error =>
    obtain ⟨j, hj, rfl⟩ := Option.map_eq_some_iff.1 hstep
    exact h.works (h.1.emit _ (Option.filter_eq_some_iff.1 hj).1 rfl (.inl rfl)) rfl rfl
  | deliver =>
    cases hres : s.results with
    | nil =>
      simp only [Thumbnails.step, hres] at hstep
      cases hstep
    | cons res rest =>
      simp only [Thumbnails.step, hres] at hstep
      cases hstep
      exact h.deliver hres
  | setFile path info =>
    cases info <;>
    · cases hstep
      exact h.congr rfl rfl rfl rfl
  | setCached path present =>
    cases present <;>
    · cases hstep
      exact h.congr rfl rfl rfl rfl

theorem consistent_init (conf : ThumbnailConfig) : Consistent conf {} := by
  have hnone {K V : Type} [DecidableEq K] {k : K} {v : V} :
      (∅ : HashMap K V).lookup k ≠ some v := by
    rw [HashMap.lookup_empty]
    exact (Option.some_ne_none v).symm
  constructor
  · exact
      { working := fun path => by simp [Thumbnails.working]
        nodup := List.nodup_nil
        jobs := fun j hj => absurd hj List.not_mem_nil
        results := fun res hres => absurd hres List.not_mem_nil
        busy := Nat.zero_le _ }
  · exact
      { waiting := fun _ _ hp => absurd hp hnone
        loading := fun _ _ _ hr => absurd hr hnone
        ready := fun _ _ _ hr => absurd hr hnone
        idle := fun _ _ _ hr => absurd hr hnone }

/-- Two cards show one clip, the second as if it were an image; the first turns to another file
while the job they share is at work. -/
def sharedJob : List ThumbnailLabel :=
  [.setFile "/clip.mp4" (some ⟨1, 100⟩), .setFile "/b.png" (some ⟨2, 50⟩),
    .create 1, .setResource 1 "/clip.mp4", .setWpType 1 "video", .componentComplete 1,
    .create 2, .setSource 2 "/clip.mp4", .componentComplete 2, .start 0,
    .setResource 1 "/b.png", .unlink 0, .rename 0, .deliver]

def plainConfig : ThumbnailConfig := ⟨fun path => path, fun path => "/cache" ++ path, 4⟩

end Thumbnails

end Waywallen
