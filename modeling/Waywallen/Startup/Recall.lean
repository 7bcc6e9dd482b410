import Waywallen.Library.Transition
import Waywallen.Startup.Feed

/-!
# The recall of the last wallpapers

When a display becomes visible, the wallpaper it last showed is put back on it, unless a playlist
has it. Displays that are to get one wallpaper are collected for two seconds and then served
together. The watcher receives the events of the router, and looks at all the displays first of all
and whenever it lags.
-/

namespace Waywallen

/-- The wallpaper of a display, or else the global one. -/
def Settings.resolvedLastWallpaper (s : Settings) (displayKey : String) : Option String :=
  ((s.displayPrefs displayKey).bind (·.lastWallpaper)).or s.lastWallpaper

structure RecallSettings where
  store : Settings
  autoAttachPlaylistId : Option ℤ := none

namespace RecallSettings

variable (s : RecallSettings) (key : String)

def playlistOwned : Bool :=
  (((s.store.displayPrefs key).bind (·.activePlaylistId)).or s.autoAttachPlaylistId).isSome

/-- The wallpaper that a display is filed under. -/
def recalled : Option String :=
  if s.playlistOwned key then none else s.store.resolvedLastWallpaper key

end RecallSettings

/-- What a display was recorded with, when the watcher first saw it. -/
structure Sighting where
  time : ℕ
  ident : DisplayIdent
  settings : RecallSettings

def Sighting.wallpaper (s : Sighting) : Option String := s.settings.recalled s.ident.settingsKey

/-- A wallpaper applied to the displays collected for it. -/
structure Recalled where
  wallpaper : String
  ids : List DisplayId
  time : ℕ
deriving DecidableEq

inductive RecallTask where
  | spawned
  /-- About to look at all the displays. -/
  | snapshotting
  | recording (snaps : List DisplaySnapshot)
  | selecting (deadline : ℕ)
deriving DecidableEq

/-- The displays that the watcher is about to look at. -/
def RecallTask.Shows : RecallTask → DisplayId → Prop
  | .spawned, _ => True
  | .snapshotting, _ => True
  | .recording snaps, d => ∃ snap ∈ snaps, snap.id = d
  | .selecting _, _ => False

/-- The watcher, what it reads and what it has done; times are in milliseconds. -/
structure Recall where
  now : ℕ := 0
  feed : RouterFeed := {}
  settings : RecallSettings
  task : RecallTask := .spawned
  /-- The events that are behind the watcher. -/
  next : ℕ := 0
  /-- The displays seen. The code keeps no more than their ids. -/
  seen : HashMap DisplayId Sighting := ∅
  /-- The deadline of each wallpaper, and the displays collected for it. -/
  pending : HashMap String (ℕ × List DisplayId) := ∅
  applied : List Recalled := []

inductive RecallLabel where
  | router (a : RouterAct)
  | setSettings (s : RecallSettings)
  | tick (n : ℕ)
  | subscribe
  | snapshot (snaps : List DisplaySnapshot)
  | record
  | select
  | recv
  /-- The sleep is over; `due` is the order in which the hash map gives what is due. -/
  | fire (due : List String)

def settle : ℕ := 2000

def idlePark : ℕ := 3600000

namespace Recall

variable (s : Recall)

def nextDeadline : ℕ := ((s.pending.values.map Prod.fst).min?).getD (s.now + idlePark)

/-- Files a display that is seen for the first time. -/
def record (snap : DisplaySnapshot) : Recall :=
  let sighting : Sighting := ⟨s.now, snap.ident, s.settings⟩
  { s with
    seen := s.seen.insert snap.id sighting
    pending := match sighting.wallpaper with
      | none => s.pending
      | some wp =>
          let entry := (s.pending.lookup wp).getD (s.now + settle, [])
          s.pending.insert wp (entry.1, entry.2 ++ [snap.id]) }

def isDue (wp : String) : Bool := (s.pending.lookup wp).any fun p => p.1 ≤ s.now

/-- Removes what is pending for a wallpaper and applies it. -/
def applyPending (wp : String) : Recall :=
  match s.pending.lookup wp with
  | none => s
  | some (_, ids) =>
      { s with pending := s.pending.erase wp, applied := s.applied ++ [⟨wp, ids, s.now⟩] }

def step (s : Recall) : RecallLabel → Option Recall
  | .router a => (s.feed.step a).map fun feed => { s with feed := feed }
  | .setSettings settings => some { s with settings := settings }
  | .tick n => some { s with now := s.now + n }
  | .subscribe =>
      match s.task with
      | .spawned => some { s with next := s.feed.events.subscribe, task := .snapshotting }
      | _ => none
  | .snapshot snaps =>
      match s.task with
      | .snapshotting => if s.feed.Shows snaps then some { s with task := .recording snaps } else none
      | _ => none
  | .record =>
      match s.task with
      | .recording (snap :: rest) =>
          some { if s.seen.containsKey snap.id then s else s.record snap with
            task := .recording rest }
      | _ => none
  | .select =>
      match s.task with
      | .recording [] => some { s with task := .selecting s.nextDeadline }
      | _ => none
  | .recv =>
      match s.task with
      | .selecting _ => (s.feed.events.recv s.next).map fun
          | (.message e, n) => { s with next := n, task := .recording e.shown }
          | (.lagged _, n) => { s with next := n, task := .snapshotting }
      | _ => none
  | .fire due =>
      match s.task with
      | .selecting deadline =>
          if deadline ≤ s.now ∧ due.Perm (s.pending.keys.filter s.isDue) then
            some { due.foldl applyPending s with task := .recording [] }
          else none
      | _ => none

/-! ## The groups -/

/-- The display was seen and is to get the wallpaper, at a time that meets the condition. -/
def Assigned (d : DisplayId) (wp : String) (P : ℕ → Prop) : Prop :=
  ∃ sighting, s.seen.lookup d = some sighting ∧ sighting.wallpaper = some wp ∧ P sighting.time

/-- A group has been collected for at least as long as the watcher waits. -/
structure Filed : Prop where
  time_le : ∀ d sighting, s.seen.lookup d = some sighting → sighting.time ≤ s.now
  /-- A deadline is that of the first display of the group. -/
  pending_ne : ∀ wp deadline ids, s.pending.lookup wp = some (deadline, ids) →
    ids.Nodup ∧ ∃ d ∈ ids, s.Assigned d wp (· + settle = deadline)
  pending_mem : ∀ wp deadline ids, s.pending.lookup wp = some (deadline, ids) →
    ∀ d ∈ ids, s.Assigned d wp (deadline ≤ · + settle)
  applied_ne : ∀ g ∈ s.applied, ∃ d ∈ g.ids, s.Assigned d g.wallpaper (· + settle ≤ g.time)
  applied_mem : ∀ g ∈ s.applied, ∀ d ∈ g.ids, s.Assigned d g.wallpaper (· ≤ g.time)
  nodup : (s.applied.flatMap (·.ids)).Nodup
  apart : ∀ wp deadline ids, s.pending.lookup wp = some (deadline, ids) →
    ∀ d ∈ ids, ∀ g ∈ s.applied, d ∉ g.ids
  placed : ∀ d wp, s.Assigned d wp (fun _ => True) →
    (∃ deadline ids, s.pending.lookup wp = some (deadline, ids) ∧ d ∈ ids) ∨
      ∃ g ∈ s.applied, g.wallpaper = wp ∧ d ∈ g.ids

variable {s} {d : DisplayId} {wp : String} {P Q : ℕ → Prop}

theorem Assigned.mono (h : s.Assigned d wp P) (hPQ : ∀ t, P t → Q t) : s.Assigned d wp Q := by
  obtain ⟨sighting, hseen, hwp, hP⟩ := h
  exact ⟨sighting, hseen, hwp, hPQ _ hP⟩

/-- A display is to get one wallpaper only. -/
theorem Assigned.eq {wp' : String} (h : s.Assigned d wp P) (h' : s.Assigned d wp' Q) :
    wp = wp' := by
  obtain ⟨sighting, hseen, hwp, -⟩ := h
  obtain ⟨sighting', hseen', hwp', -⟩ := h'
  obtain rfl := Option.some_inj.1 (hseen.symm.trans hseen')
  exact Option.some_inj.1 (hwp.symm.trans hwp')

theorem Assigned.containsKey (h : s.Assigned d wp P) : s.seen.containsKey d = true := by
  obtain ⟨sighting, hseen, -⟩ := h
  exact (HashMap.containsKey_iff _ _).2 ⟨sighting, hseen⟩

theorem Filed.tick (h : s.Filed) (n : ℕ) : { s with now := s.now + n }.Filed where
  time_le d sighting hd := Nat.le_add_right_of_le (h.time_le d sighting hd)
  pending_ne := h.pending_ne
  pending_mem := h.pending_mem
  applied_ne := h.applied_ne
  applied_mem := h.applied_mem
  nodup := h.nodup
  apart := h.apart
  placed := h.placed

/-! ### A display is recorded -/

section Record

variable {snap : DisplaySnapshot}

theorem Assigned.record (hnew : s.seen.containsKey snap.id = false) (h : s.Assigned d wp P) :
    (s.record snap).Assigned d wp P := by
  have hne : d ≠ snap.id := by
    rintro rfl
    exact Bool.false_ne_true (hnew.symm.trans h.containsKey)
  obtain ⟨sighting, hseen, hrest⟩ := h
  refine ⟨sighting, ?_, hrest⟩
  rw [Recall.record, HashMap.lookup_insert_eq, if_neg hne, hseen]

/-- The display itself is filed under what the settings say. -/
theorem assigned_record (hwp : s.settings.recalled snap.ident.settingsKey = some wp) (hP : P s.now) :
    (s.record snap).Assigned snap.id wp P := by
  refine ⟨⟨s.now, snap.ident, s.settings⟩, ?_, hwp, hP⟩
  rw [Recall.record, HashMap.lookup_insert_eq, if_pos rfl]

theorem assigned_of_record (h : (s.record snap).Assigned d wp P) :
    s.Assigned d wp P ∨ d = snap.id ∧ s.settings.recalled snap.ident.settingsKey = some wp := by
  obtain ⟨sighting, hseen, hwp, hP⟩ := h
  rw [Recall.record, HashMap.lookup_insert_eq] at hseen
  split at hseen
  · rename_i hd
    cases hseen
    exact .inr ⟨hd, hwp⟩
  · exact .inl ⟨sighting, hseen, hwp, hP⟩

/-- The group the display joins, if it is to get a wallpaper. -/
theorem lookup_record (wp : String) : (s.record snap).pending.lookup wp =
    if s.settings.recalled snap.ident.settingsKey = some wp then
      some (((s.pending.lookup wp).getD (s.now + settle, [])).1,
        ((s.pending.lookup wp).getD (s.now + settle, [])).2 ++ [snap.id])
    else s.pending.lookup wp := by
  rw [Recall.record, Sighting.wallpaper]
  cases s.settings.recalled snap.ident.settingsKey with
  | none => rfl
  | some wp' =>
    rw [HashMap.lookup_insert_eq]
    by_cases heq : wp = wp'
    · subst heq
      rw [if_pos rfl, if_pos rfl]
    · rw [if_neg heq, if_neg fun h => heq (Option.some_inj.1 h).symm]

theorem lookup_record_cases {deadline : ℕ} {ids : List DisplayId}
    (h : (s.record snap).pending.lookup wp = some (deadline, ids)) :
    s.pending.lookup wp = some (deadline, ids) ∨
      s.settings.recalled snap.ident.settingsKey = some wp ∧ ∃ ids₀, ids = ids₀ ++ [snap.id] ∧
        (s.pending.lookup wp = some (deadline, ids₀) ∨ deadline = s.now + settle ∧ ids₀ = []) := by
  rw [lookup_record] at h
  split at h
  · rename_i hwp
    refine .inr ⟨hwp, ?_⟩
    cases hp : s.pending.lookup wp with
    | none =>
      rw [hp] at h
      cases h
      exact ⟨[], rfl, .inr ⟨rfl, rfl⟩⟩
    | some p =>
      rw [hp] at h
      cases h
      exact ⟨p.2, rfl, .inl rfl⟩
  · exact .inl h

theorem Assigned.ne (h : s.Assigned d wp P) (hnew : s.seen.containsKey snap.id = false) :
    d ≠ snap.id := by
  rintro rfl
  exact Bool.false_ne_true (hnew.symm.trans h.containsKey)

theorem Filed.record (h : s.Filed) (hnew : s.seen.containsKey snap.id = false) :
    (s.record snap).Filed where
  time_le d sighting hd := by
    rw [Recall.record, HashMap.lookup_insert_eq] at hd
    split at hd
    · cases hd
      exact le_rfl
    · exact h.time_le d sighting hd
  pending_ne wp deadline ids hp := by
    obtain hold | ⟨hwp, ids₀, rfl, hold | ⟨rfl, rfl⟩⟩ := lookup_record_cases hp
    · obtain ⟨hnodup, d, hd, hassigned⟩ := h.pending_ne wp deadline ids hold
      exact ⟨hnodup, d, hd, hassigned.record hnew⟩
    · obtain ⟨hnodup, d, hd, hassigned⟩ := h.pending_ne wp deadline ids₀ hold
      refine ⟨?_, d, List.mem_append_left _ hd, hassigned.record hnew⟩
      refine List.nodup_append.2 ⟨hnodup, List.nodup_singleton _, fun d' hd' e he => ?_⟩
      rw [List.mem_singleton.1 he]
      exact (h.pending_mem wp deadline ids₀ hold d' hd').ne hnew
    · exact ⟨List.nodup_singleton _, snap.id, List.mem_singleton_self _, assigned_record hwp rfl⟩
  pending_mem wp deadline ids hp d hd := by
    obtain hold | ⟨hwp, ids₀, rfl, hold⟩ := lookup_record_cases hp
    · exact (h.pending_mem wp deadline ids hold d hd).record hnew
    · obtain hd | hd := List.mem_append.1 hd
      · obtain hold | ⟨-, rfl⟩ := hold
        · exact (h.pending_mem wp deadline ids₀ hold d hd).record hnew
        · cases hd
      · rw [List.mem_singleton.1 hd]
        refine assigned_record hwp ?_
        obtain hold | ⟨rfl, -⟩ := hold
        · obtain ⟨-, d', -, sighting, hseen, -, rfl⟩ := h.pending_ne wp deadline ids₀ hold
          exact Nat.add_le_add_right (h.time_le d' sighting hseen) _
        · exact le_rfl
  applied_ne g hg := by
    obtain ⟨d, hd, hassigned⟩ := h.applied_ne g hg
    exact ⟨d, hd, hassigned.record hnew⟩
  applied_mem g hg d hd := (h.applied_mem g hg d hd).record hnew
  nodup := h.nodup
  apart wp deadline ids hp d hd g hg hmem := by
    obtain hold | ⟨-, ids₀, rfl, hold⟩ := lookup_record_cases hp
    · exact h.apart wp deadline ids hold d hd g hg hmem
    · obtain hd | hd := List.mem_append.1 hd
      · obtain hold | ⟨-, rfl⟩ := hold
        · exact h.apart wp deadline ids₀ hold d hd g hg hmem
        · cases hd
      · exact (h.applied_mem g hg d hmem).ne hnew (List.mem_singleton.1 hd)
  placed d wp hassigned := by
    rw [lookup_record]
    obtain hassigned | ⟨rfl, hwp⟩ := assigned_of_record hassigned
    · refine (h.placed d wp hassigned).imp_left ?_
      rintro ⟨deadline, ids, hp, hd⟩
      rw [hp]
      split
      · exact ⟨_, _, rfl, List.mem_append_left _ hd⟩
      · exact ⟨_, _, rfl, hd⟩
    · rw [if_pos hwp]
      exact .inl ⟨_, _, rfl, List.mem_append_right _ (List.mem_singleton_self _)⟩

end Record

/-! ### A group is applied -/

theorem applyPending_cases (s : Recall) (wp : String) :
    s.pending.lookup wp = none ∧ s.applyPending wp = s ∨
      ∃ deadline ids, s.pending.lookup wp = some (deadline, ids) ∧ s.applyPending wp =
        { s with pending := s.pending.erase wp, applied := s.applied ++ [⟨wp, ids, s.now⟩] } := by
  rw [applyPending]
  cases h : s.pending.lookup wp with
  | none => exact .inl ⟨rfl, rfl⟩
  | some p => exact .inr ⟨p.1, p.2, rfl, rfl⟩

theorem Filed.applyPending (h : s.Filed) (hdue : ∀ p, s.pending.lookup wp = some p → p.1 ≤ s.now) :
    (s.applyPending wp).Filed := by
  obtain ⟨-, heq⟩ | ⟨deadline, ids, hp, heq⟩ := applyPending_cases s wp
  · rwa [heq]
  rw [heq]
  have hlookup {wp' : String} {p : ℕ × List DisplayId}
      (hp' : (s.pending.erase wp).lookup wp' = some p) :
      wp' ≠ wp ∧ s.pending.lookup wp' = some p := by
    rw [HashMap.lookup_erase_eq] at hp'
    split at hp'
    · cases hp'
    · rename_i hne
      exact ⟨hne, hp'⟩
  constructor
  case time_le => exact h.time_le
  case pending_ne => exact fun wp' deadline' ids' hp' => h.pending_ne _ _ _ (hlookup hp').2
  case pending_mem => exact fun wp' deadline' ids' hp' => h.pending_mem _ _ _ (hlookup hp').2
  case applied_ne =>
    intro g hg
    obtain hg | hg := List.mem_append.1 hg
    · exact h.applied_ne g hg
    · rw [List.mem_singleton.1 hg]
      obtain ⟨-, d, hd, hassigned⟩ := h.pending_ne _ _ _ hp
      exact ⟨d, hd, hassigned.mono fun t ht => ht.trans_le (hdue _ hp)⟩
  case applied_mem =>
    intro g hg d hd
    obtain hg | hg := List.mem_append.1 hg
    · exact h.applied_mem g hg d hd
    · rw [List.mem_singleton.1 hg] at hd ⊢
      obtain ⟨sighting, hseen, hwp, -⟩ := h.pending_mem _ _ _ hp d hd
      exact ⟨sighting, hseen, hwp, h.time_le d sighting hseen⟩
  case nodup =>
    rw [List.flatMap_append, List.nodup_append]
    refine ⟨h.nodup, by simpa using (h.pending_ne _ _ _ hp).1, fun d hd e he => ?_⟩
    rintro rfl
    obtain ⟨g, hg, hmem⟩ := List.mem_flatMap.1 hd
    exact h.apart _ _ _ hp d (by simpa using he) g hg hmem
  case apart =>
    intro wp' deadline' ids' hp' d hd g hg hmem
    obtain hg | hg := List.mem_append.1 hg
    · exact h.apart _ _ _ (hlookup hp').2 d hd g hg hmem
    · rw [List.mem_singleton.1 hg] at hmem
      exact (hlookup hp').1
        ((h.pending_mem _ _ _ (hlookup hp').2 d hd).eq (h.pending_mem _ _ _ hp d hmem))
  case placed =>
    intro d wp' hassigned
    obtain ⟨deadline', ids', hp', hd⟩ | ⟨g, hg, hgd⟩ := h.placed d wp' hassigned
    · by_cases heq : wp' = wp
      · subst heq
        obtain ⟨rfl, rfl⟩ := Prod.mk.inj (Option.some_inj.1 (hp'.symm.trans hp))
        exact .inr ⟨_, List.mem_append_right _ (List.mem_singleton_self _), rfl, hd⟩
      · refine .inl ⟨deadline', ids', ?_, hd⟩
        rw [HashMap.lookup_erase_eq, if_neg heq]
        exact hp'
    · exact .inr ⟨g, List.mem_append_left _ hg, hgd⟩

theorem lookup_applyPending {p : ℕ × List DisplayId} {wp' : String}
    (h : (s.applyPending wp').pending.lookup wp = some p) : s.pending.lookup wp = some p := by
  obtain ⟨-, heq⟩ | ⟨deadline, ids, -, heq⟩ := applyPending_cases s wp'
  · rwa [heq] at h
  · rw [heq, HashMap.lookup_erase_eq] at h
    split at h
    · cases h
    · exact h

@[simp] theorem now_applyPending (s : Recall) (wp : String) : (s.applyPending wp).now = s.now := by
  obtain ⟨-, heq⟩ | ⟨deadline, ids, -, heq⟩ := applyPending_cases s wp <;> rw [heq]

@[simp] theorem seen_applyPending (s : Recall) (wp : String) :
    (s.applyPending wp).seen = s.seen := by
  obtain ⟨-, heq⟩ | ⟨deadline, ids, -, heq⟩ := applyPending_cases s wp <;> rw [heq]

@[simp] theorem feed_applyPending (s : Recall) (wp : String) :
    (s.applyPending wp).feed = s.feed := by
  obtain ⟨-, heq⟩ | ⟨deadline, ids, -, heq⟩ := applyPending_cases s wp <;> rw [heq]

@[simp] theorem next_applyPending (s : Recall) (wp : String) :
    (s.applyPending wp).next = s.next := by
  obtain ⟨-, heq⟩ | ⟨deadline, ids, -, heq⟩ := applyPending_cases s wp <;> rw [heq]

/-- Of what is pending, only what is due is applied. -/
theorem Filed.fire {due : List String} (h : s.Filed) (hdue : ∀ wp ∈ due, s.isDue wp = true) :
    (due.foldl Recall.applyPending s).Filed := by
  have hall : ∀ wp ∈ due, ∀ p, s.pending.lookup wp = some p → p.1 ≤ s.now := by
    intro wp hwp p hp
    have hany := hdue wp hwp
    rw [isDue, hp, Option.any_some] at hany
    exact of_decide_eq_true hany
  clear hdue
  induction due generalizing s with
  | nil => exact h
  | cons wp due ih =>
    rw [List.foldl_cons]
    refine ih (h.applyPending (hall wp List.mem_cons_self)) fun wp' hwp' p hp => ?_
    rw [now_applyPending]
    exact hall wp' (List.mem_cons_of_mem _ hwp') p (lookup_applyPending hp)

theorem foldl_applyPending (due : List String) (s : Recall) :
    (due.foldl applyPending s).now = s.now ∧ (due.foldl applyPending s).seen = s.seen ∧
      (due.foldl applyPending s).feed = s.feed ∧ (due.foldl applyPending s).next = s.next := by
  induction due generalizing s with
  | nil => exact ⟨rfl, rfl, rfl, rfl⟩
  | cons wp due ih => simpa only [List.foldl_cons, now_applyPending, seen_applyPending,
      feed_applyPending, next_applyPending] using ih (s.applyPending wp)

/-! ## What the watcher knows -/

structure Watching (s : Recall) : Prop where
  truthful : s.feed.Truthful
  next_le : s.next ≤ s.feed.events.sent.length
  covers : s.feed.Covers s.next fun d => s.seen.containsKey d = true ∨ s.task.Shows d
  recording : ∀ snaps, s.task = .recording snaps →
    ∀ snap ∈ snaps, s.feed.Genuine snap.id snap.ident
  seen : ∀ d sighting, s.seen.lookup d = some sighting → s.feed.Genuine d sighting.ident
  deadline : ∀ deadline, s.task = .selecting deadline →
    ∀ wp p, s.pending.lookup wp = some p → deadline ≤ p.1

theorem nextDeadline_le (s : Recall) {p : ℕ × List DisplayId}
    (h : s.pending.lookup wp = some p) : s.nextDeadline ≤ p.1 := by
  have hmem : p.1 ∈ s.pending.values.map Prod.fst :=
    List.mem_map_of_mem ((HashMap.mem_values_iff _ _).2 ⟨wp, h⟩)
  obtain ⟨m, hm⟩ := Option.isSome_iff_exists.1 (List.isSome_min?_of_mem hmem)
  rw [nextDeadline, hm, Option.getD_some]
  exact (List.min?_eq_some_iff.1 hm).2 _ hmem

variable {t : Recall} {l : RecallLabel}

theorem Filed.congr (h : s.Filed) (hnow : t.now = s.now) (hseen : t.seen = s.seen)
    (hpending : t.pending = s.pending) (happlied : t.applied = s.applied) : t.Filed := by
  obtain ⟨now, feed, settings, task, next, seen, pending, applied⟩ := t
  cases hnow
  cases hseen
  cases hpending
  cases happlied
  exact ⟨h.time_le, h.pending_ne, h.pending_mem, h.applied_ne, h.applied_mem, h.nodup, h.apart,
    h.placed⟩

theorem Filed.step (h : s.Filed) (hstep : s.step l = some t) : t.Filed := by
  cases l with
  | router a =>
    obtain ⟨feed, -, rfl⟩ := Option.map_eq_some_iff.1 hstep
    exact h.congr rfl rfl rfl rfl
  | setSettings settings =>
    cases hstep
    exact h.congr rfl rfl rfl rfl
  | tick n =>
    cases hstep
    exact h.tick n
  | subscribe =>
    simp only [Recall.step] at hstep
    split at hstep
    · cases hstep
      exact h.congr rfl rfl rfl rfl
    · cases hstep
  | snapshot snaps =>
    simp only [Recall.step] at hstep
    split at hstep
    · obtain ⟨-, hstep⟩ := Option.ite_none_right_eq_some.1 hstep
      cases hstep
      exact h.congr rfl rfl rfl rfl
    · cases hstep
  | record =>
    simp only [Recall.step] at hstep
    split at hstep
    · rename_i snap rest htask
      cases hstep
      by_cases hseen : s.seen.containsKey snap.id = true
      · simp only [if_pos hseen]
        exact h.congr rfl rfl rfl rfl
      · simp only [if_neg hseen]
        exact (h.record (Bool.eq_false_iff.2 hseen)).congr rfl rfl rfl rfl
    · cases hstep
  | select =>
    simp only [Recall.step] at hstep
    split at hstep
    · cases hstep
      exact h.congr rfl rfl rfl rfl
    · cases hstep
  | recv =>
    simp only [Recall.step] at hstep
    split at hstep
    · obtain ⟨⟨r, n⟩, -, hstep⟩ := Option.map_eq_some_iff.1 hstep
      subst hstep
      cases r <;> exact h.congr rfl rfl rfl rfl
    · cases hstep
  | fire due =>
    simp only [Recall.step] at hstep
    split at hstep
    · obtain ⟨⟨-, hperm⟩, hstep⟩ := Option.ite_none_right_eq_some.1 hstep
      cases hstep
      have hdue : ∀ wp ∈ due, s.isDue wp = true :=
        fun wp hwp => (List.mem_filter.1 (hperm.mem_iff.1 hwp)).2
      exact (h.fire hdue).congr rfl rfl rfl rfl
    · cases hstep

theorem Watching.step (h : s.Watching) (hstep : s.step l = some t) : t.Watching := by
  cases l with
  | router a =>
    obtain ⟨feed, hfeed, rfl⟩ := Option.map_eq_some_iff.1 hstep
    refine ⟨h.truthful.step hfeed, h.next_le.trans (RouterFeed.length_sent_le hfeed),
      h.covers.step h.next_le hfeed, fun snaps hs snap hsnap => ?_, fun d sighting hd => ?_,
      h.deadline⟩
    · exact (h.recording snaps hs snap hsnap).step hfeed
    · exact (h.seen d sighting hd).step hfeed
  | setSettings settings =>
    cases hstep
    exact ⟨h.truthful, h.next_le, h.covers, h.recording, h.seen, h.deadline⟩
  | tick n =>
    cases hstep
    exact ⟨h.truthful, h.next_le, h.covers, h.recording, h.seen, h.deadline⟩
  | subscribe =>
    simp only [Recall.step] at hstep
    split at hstep
    · cases hstep
      exact ⟨h.truthful, le_rfl, fun d _ => .inl (.inr trivial),
        fun _ => RecallTask.noConfusion, h.seen,
          fun _ => RecallTask.noConfusion⟩
    · cases hstep
  | snapshot snaps =>
    simp only [Recall.step] at hstep
    split at hstep
    · obtain ⟨hshows, hstep⟩ := Option.ite_none_right_eq_some.1 hstep
      cases hstep
      refine ⟨h.truthful, h.next_le, hshows.covers.mono fun d hd => .inr hd, ?_, h.seen,
          fun _ => RecallTask.noConfusion⟩
      rintro _ ⟨⟩ snap hsnap
      exact hshows.genuine h.truthful hsnap
    · cases hstep
  | record =>
    simp only [Recall.step] at hstep
    split at hstep
    · rename_i snap rest htask
      cases hstep
      have hcovers : s.feed.Covers s.next fun d =>
          s.seen.containsKey d = true ∨ d = snap.id ∨ ∃ snap ∈ rest, snap.id = d := by
        refine h.covers.mono fun d hd => hd.imp_right fun hs => ?_
        rw [htask] at hs
        obtain ⟨snap', hmem, rfl⟩ := hs
        exact (List.mem_cons.1 hmem).imp (congrArg _) fun hmem => ⟨snap', hmem, rfl⟩
      have hgenuine := h.recording _ htask
      split
      · rename_i hseen
        refine ⟨h.truthful, h.next_le, hcovers.mono fun d hd => ?_, ?_, h.seen,
          fun _ => RecallTask.noConfusion⟩
        · obtain hd | rfl | hd := hd
          · exact .inl hd
          · exact .inl hseen
          · exact .inr hd
        · rintro _ ⟨⟩ snap' hmem
          exact hgenuine snap' (List.mem_cons_of_mem _ hmem)
      · refine ⟨h.truthful, h.next_le, hcovers.mono fun d hd => ?_, ?_, ?_,
          fun _ => RecallTask.noConfusion⟩
        · refine (or_assoc.2 hd).imp_left fun hd => ?_
          rw [Recall.record, HashMap.containsKey_insert, Bool.or_eq_true, decide_eq_true_eq]
          exact hd.symm
        · rintro _ ⟨⟩ snap' hmem
          exact hgenuine snap' (List.mem_cons_of_mem _ hmem)
        · intro d sighting hd
          rw [Recall.record, HashMap.lookup_insert_eq] at hd
          split at hd
          · rename_i heq
            cases hd
            rw [heq]
            exact hgenuine snap List.mem_cons_self
          · exact h.seen d sighting hd
    · cases hstep
  | select =>
    simp only [Recall.step] at hstep
    split at hstep
    · rename_i htask
      cases hstep
      refine ⟨h.truthful, h.next_le, h.covers.mono fun d hd => hd.imp_right fun hs => ?_,
        fun _ => RecallTask.noConfusion,
        h.seen, ?_⟩
      · rw [htask] at hs
        obtain ⟨snap, hsnap, -⟩ := hs
        cases hsnap
      · rintro _ ⟨⟩ wp p hp
        exact s.nextDeadline_le hp
    · cases hstep
  | recv =>
    simp only [Recall.step] at hstep
    split at hstep
    · rename_i deadline htask
      obtain ⟨⟨r, n⟩, hrecv, hstep⟩ := Option.map_eq_some_iff.1 hstep
      subst hstep
      have hle := (Broadcast.le_of_recv hrecv).2
      cases r with
      | message e =>
        refine ⟨h.truthful, hle, (h.covers.message hrecv).mono fun d hd => ?_, ?_, h.seen,
          fun _ => RecallTask.noConfusion⟩
        · rw [htask] at hd
          exact hd.imp_left fun hk => hk.elim id False.elim
        · rintro _ ⟨⟩ snap hsnap
          exact h.truthful.message hrecv hsnap
      | lagged missed =>
        exact ⟨h.truthful, hle, fun d _ => .inl (.inr trivial),
          fun _ => RecallTask.noConfusion, h.seen,
          fun _ => RecallTask.noConfusion⟩
    · cases hstep
  | fire due =>
    simp only [Recall.step] at hstep
    split at hstep
    · rename_i deadline htask
      obtain ⟨⟨-, hperm⟩, hstep⟩ := Option.ite_none_right_eq_some.1 hstep
      cases hstep
      obtain ⟨-, hseen, hfeed, hnext⟩ := foldl_applyPending due s
      refine ⟨?_, ?_, ?_, ?_, ?_, fun _ => RecallTask.noConfusion⟩
      all_goals simp only [hseen, hfeed, hnext]
      · exact h.truthful
      · exact h.next_le
      · refine h.covers.mono fun d hd => hd.imp_right fun hs => ?_
        rw [htask] at hs
        exact hs.elim
      · rintro _ ⟨⟩ snap hsnap
        cases hsnap
      · exact h.seen
    · cases hstep

/-! ## The run -/

/-- Nothing is left to be announced or received, and no deadline has come. -/
def Waiting (s : Recall) : Prop :=
  s.feed.Quiet ∧ s.feed.events.recv s.next = none ∧
    ∃ deadline, s.task = .selecting deadline ∧ s.now < deadline

theorem not_lookup_empty {K V : Type} [DecidableEq K] {k : K} {v : V} :
    (∅ : HashMap K V).lookup k ≠ some v := by
  rw [HashMap.lookup_empty]
  exact (Option.some_ne_none v).symm

theorem filed_init (settings : RecallSettings) : Filed { settings := settings } where
  time_le _ _ h := absurd h not_lookup_empty
  pending_ne _ _ _ h := absurd h not_lookup_empty
  pending_mem _ _ _ h := absurd h not_lookup_empty
  applied_ne _ h := absurd h List.not_mem_nil
  applied_mem _ h := absurd h List.not_mem_nil
  nodup := List.nodup_nil
  apart _ _ _ h := absurd h not_lookup_empty
  placed := fun _ _ ⟨_, h, _⟩ => absurd h not_lookup_empty

theorem watching_init (settings : RecallSettings) : Watching { settings := settings } where
  truthful := RouterFeed.truthful_init
  next_le := Nat.zero_le _
  covers _ _ := .inl (.inr trivial)
  recording _ h := by cases h
  seen _ _ h := absurd h not_lookup_empty
  deadline _ h := by cases h

/-- Every wallpaper is put on displays that are to get it, each one once, not before the first of
them has been there for the time to settle; and when the watcher waits, every display is recorded
under the name it is registered with, and has got its wallpaper if it was there for that time. -/
theorem recalls {settings : RecallSettings} {ls : List RecallLabel}
    (hrun : Transition.run step { settings := settings } ls = some s) :
    (∀ g ∈ s.applied, (∃ d ∈ g.ids, s.Assigned d g.wallpaper (· + settle ≤ g.time)) ∧
      ∀ d ∈ g.ids, s.Assigned d g.wallpaper (· ≤ g.time)) ∧
    (s.applied.flatMap (·.ids)).Nodup ∧
    (s.Waiting → ∀ d ident, s.feed.displays.lookup d = some ident →
      ∃ sighting, s.seen.lookup d = some sighting ∧ sighting.ident = ident ∧
        ∀ wp, sighting.wallpaper = some wp → sighting.time + settle ≤ s.now →
          ∃ g ∈ s.applied, g.wallpaper = wp ∧ d ∈ g.ids) := by
  have hfiled : s.Filed := Transition.invariant (fun _ _ _ hs hstep => hs.step hstep)
    (filed_init settings) hrun
  have hwatching : s.Watching := Transition.invariant (fun _ _ _ hs hstep => hs.step hstep)
    (watching_init settings) hrun
  refine ⟨fun g hg => ⟨hfiled.applied_ne g hg, hfiled.applied_mem g hg⟩, hfiled.nodup, ?_⟩
  rintro ⟨hquiet, hrecv, deadline, htask, hlt⟩ d ident hd
  have hknown := hwatching.covers.told hquiet hrecv (RouterFeed.containsKey_of_lookup hd)
  rw [htask] at hknown
  obtain ⟨sighting, hseen⟩ := (HashMap.containsKey_iff _ _).1 (hknown.resolve_right id)
  refine ⟨sighting, hseen, (hwatching.seen d sighting hseen).2 ident hd, fun wp hwp htime => ?_⟩
  refine (hfiled.placed d wp ⟨sighting, hseen, hwp, trivial⟩).resolve_left ?_
  rintro ⟨deadline', ids, hp, hmem⟩
  obtain ⟨sighting', hseen', -, hle⟩ := hfiled.pending_mem wp deadline' ids hp d hmem
  obtain rfl := Option.some_inj.1 (hseen.symm.trans hseen')
  have hdeadline := hwatching.deadline deadline htask wp _ hp
  dsimp only at hdeadline hle
  omega

/-- Two displays, the second half a second behind the first. -/
def twoDisplays : List RecallLabel :=
  let first : DisplaySnapshot := ⟨1, "eDP-1", none, 1920, 1080, 60000, [], .unknown, default,
    default, .global⟩
  let second : DisplaySnapshot := ⟨2, "DP-2", some "kwin", 2560, 1440, 60000, [], .unknown,
    default, default, .global⟩
  [.router (.registerDisplay first.ident), .subscribe, .snapshot [first],
    .router (.announce first), .record, .select, .router (.send 0), .recv, .record, .select,
    .tick 500, .router (.registerDisplay second.ident), .router (.announce second),
    .router (.send 0), .recv, .record, .select, .tick 1500, .fire ["earth"], .select]

def lastEarth : Recall := { settings := { store := { (default : Settings) with
  lastWallpaper := some "earth" } } }

theorem recalls_twoDisplays :
    ∃ s, Transition.run step lastEarth twoDisplays = some s ∧ s.Waiting ∧
      s.applied = [⟨"earth", [1, 2], 2000⟩] ∧ (s.applied.flatMap (·.ids)).Nodup := by
  refine ⟨Transition.reached step lastEarth twoDisplays (by decide), Transition.run_reached _ _, ?_,
    ?_, (recalls (Transition.run_reached _ _)).2.1⟩
  · exact ⟨by decide, by decide, 3602000, by decide, by decide⟩
  · decide

end Recall

end Waywallen
