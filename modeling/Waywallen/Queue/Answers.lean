import Waywallen.Queue.Steps

/-!
# What a shuffled step answers

A shuffled step should answer with an item that the filter in force accepts, and find the queue
empty only if there is none. The round it walks is a cache, and not everything that changes what the
filter accepts resets it.
-/

namespace Waywallen

open TaskPool

/-- The queue filter of the settings accepts an item of the database with this id. -/
def Accepted (files : Files) (settings : GlobalSettings) (db : Db) (id : ℕ) : Prop :=
  ∃ i ∈ db.matching files.index settings.wallpaperQueueFilter.1 settings.wallpaperQueueFilter.2,
    i.id = id

def AppState.Accepts (files : Files) (s : AppState) (id : ℕ) : Prop :=
  Accepted files s.settings s.db id

/-- A row that was answered satisfies the filter, and none was answered only if none does. -/
def Answer.Correct (files : Files) (a : Answer) : Prop :=
  a.row.elim (∀ id, ¬ Accepted files a.settings a.db id) fun row =>
    Accepted files a.settings a.db row.itemId

def AllCorrect (files : Files) (p : QueuePool) : Prop :=
  ∀ a ∈ p.shared.answers, a.Correct files

/-- What the filter accepts, and the filter itself, are the same. -/
structure SameAccepted (files : Files) (s s' : AppState) : Prop where
  filter : s'.settings.wallpaperQueueFilter = s.settings.wallpaperQueueFilter
  accepts : ∀ id, s'.Accepts files id ↔ s.Accepts files id

/-- A step of the queue between its reading of the filter and its answer. -/
def QueueCall.stepping : QueueCall → Bool
  | .readSorts _ _ | .dispatch _ _ _ | .stepShuffle _ _ | .listItemIds _ | .buildRound _
  | .walkRound _ | .fetch _ => true
  | _ => false

/-- A round is walked only while the filter accepts every item of it, and nothing changes what the
filter accepts while a queue step is under way. -/
structure RoundHolds (files : Files) (p : QueuePool) (l : QueueLabel) : Prop where
  walked : ∀ delta, p.executed l = some (.walkRound delta) →
    ∀ id ∈ p.shared.queue.shuffleRound, p.shared.Accepts files id
  undisturbed : (∃ c ∈ calls p.tasks, c.stepping = true) →
    ∀ p', (queueSemantics files).step p l = some p' → SameAccepted files p.shared p'.shared

section

variable {files : Files} {s s' : AppState}

theorem SameAccepted.refl (s : AppState) : SameAccepted files s s := ⟨rfl, fun _ => .rfl⟩

/-- The ids listed for the filter are those of the items that it accepts. -/
theorem mem_listItemIds {ids : List ℕ} {id : ℕ}
    (h : listItemIdsByFilter files.index s.db s.settings.wallpaperQueueFilter.1
      s.settings.wallpaperQueueFilter.2 = some ids) : id ∈ ids ↔ s.Accepts files id := by
  have hlib : ∀ f ∈ s.settings.wallpaperQueueFilter.1, f.onLibrary = false := by
    by_contra hnot
    push Not at hnot
    have hnone : selectItems files.index s.db (wallpaperFiltersToCondition
        s.settings.wallpaperQueueFilter.1 s.settings.wallpaperQueueFilter.2) = none := by
      rw [selectItems, Sql.Query.run_eq_none_iff, wellFormed_items_iff, not_not,
        namesLibrary_conditions_iff]
      simpa using hnot
    rw [listItemIdsByFilter, hnone] at h
    cases h
  obtain ⟨ids', hids', hperm⟩ :=
    @listItemIds_perm files.index s.db _ s.settings.wallpaperQueueFilter.2 hlib
  obtain rfl := Option.some_inj.1 (hids'.symm.trans h)
  rw [hperm.mem_iff, List.mem_map]
  rfl

/-- The row of an accepted item is found, with its library. -/
theorem getItemWithLibrary_of_accepts {id : ℕ} (h : s.Accepts files id) :
    ∃ row, getItemWithLibrary s.db id = some row ∧ row.itemId = id := by
  obtain ⟨i, hi, rfl⟩ := h
  have hi : i ∈ s.db.items := (List.mem_filter.1 hi).1
  have hfind : (s.db.items.rows.find? fun j => j.id = i.id) = some i := Table.find?_id hi
  obtain ⟨l, hl, hid⟩ := s.db.item_library i hi
  have hlib : s.db.libraryOf i = some l := by
    rw [Db.libraryOf, ← hid]
    exact Table.find?_id hl
  refine ⟨⟨i.id, l.path, i.path⟩, ?_, rfl⟩
  rw [getItemWithLibrary, hfind, Option.bind_some, hlib]
  rfl

/-! ## What the calls of a queue step carry -/

/-- The filter a call carries is the one in force, and the ids it carries are accepted. -/
def QueueCall.Carries (files : Files) (s : AppState) : QueueCall → Prop
  | .readSorts _ filter | .dispatch _ filter _ | .stepShuffle _ filter | .listItemIds filter =>
      filter = s.settings.wallpaperQueueFilter
  | .buildRound ids => ∀ id ∈ ids, s.Accepts files id
  | .fetch pick => s.Accepts files pick
  | _ => True

theorem QueueCall.Carries.congr {c : QueueCall} (h : c.Carries files s)
    (hs : SameAccepted files s s') : c.Carries files s' := by
  cases c <;> simp only [QueueCall.Carries, hs.filter, hs.accepts] at h ⊢ <;> exact h

theorem QueueCall.carries_of_not_stepping {c : QueueCall} (h : c.stepping = false) :
    c.Carries files s := by
  cases c <;> trivial

theorem carries_pick (h : ∀ id ∈ s.queue.shuffleRound, s.Accepts files id) :
    ∀ c ∈ s.pick, c.Carries files s := by
  intro c hc
  obtain ⟨id, hid, rfl⟩ := List.mem_map.1 hc
  exact h id (Array.mem_of_getElem? (Option.mem_toList.1 hid))

/-! ## Step and run -/

theorem mem_walk {nanos : UInt64} {delta : Int32} {q : QueueState} {id : ℕ} :
    id ∈ (q.walk nanos delta).shuffleRound ↔ id ∈ q.shuffleRound := by
  unfold QueueState.walk
  dsimp only
  split
  · exact QueueState.mem_buildShuffleRound
  · rfl

/-- What one call does: the calls it goes on with carry what they should, and what it answers is
correct. -/
structure StepsWell (files : Files) (s : AppState) (o : QueueStep) : Prop where
  next : ∀ k ∈ o.next, k.Carries files o.shared
  spawn : o.spawn = []
  answers : ∀ a ∈ o.shared.answers, a ∈ s.answers ∨ a.Correct files

theorem stepsWell_of_next {s' : AppState} {next : List QueueCall} (hs : s'.answers = s.answers)
    (hnext : ∀ k ∈ next, k.Carries files s') : StepsWell files s { shared := s', next := next } :=
  ⟨hnext, rfl, fun _ ha => .inl (hs ▸ ha)⟩

theorem stepsWell_of_quiet {s' : AppState} {next : List QueueCall} (hs : s'.answers = s.answers)
    (hnext : ∀ k ∈ next, k.stepping = false) :
    StepsWell files s { shared := s', next := next } :=
  stepsWell_of_next hs fun k hk => QueueCall.carries_of_not_stepping (hnext k hk)

theorem stepsWell_answer {row : Option QueueRow} {next : List QueueCall}
    (hrow : (Answer.mk s.settings s.db row).Correct files)
    (hnext : ∀ k ∈ next, k.Carries files (s.answer row)) :
    StepsWell files s { shared := s.answer row, next := next } := by
  refine ⟨hnext, rfl, fun a ha => ?_⟩
  obtain ha | ha := List.mem_append.1 ha
  · exact .inl ha
  · exact .inr (List.mem_singleton.1 ha ▸ hrow)

theorem QueueCall.exec_carries {c : QueueCall} {x : QueueChoice} {o : QueueStep}
    (ho : c.exec files x s = some o) (hc : c.Carries files s)
    (hwalk : ∀ delta, c = .walkRound delta → ∀ id ∈ s.queue.shuffleRound, s.Accepts files id) :
    StepsWell files s o := by
  cases c with
  | stepPick delta =>
    cases ho
    exact stepsWell_of_next rfl (List.forall_mem_singleton.2 rfl)
  | readSorts delta filter =>
    cases ho
    exact stepsWell_of_next rfl (List.forall_mem_singleton.2 hc)
  | dispatch delta filter sorts =>
    have hc : filter = s.settings.wallpaperQueueFilter := hc
    simp only [QueueCall.exec] at ho
    split at ho <;> cases ho
    · exact stepsWell_of_next rfl (List.forall_mem_singleton.2 trivial)
    · exact stepsWell_of_next rfl (List.forall_mem_singleton.2 trivial)
    · exact stepsWell_of_next rfl (List.forall_mem_singleton.2 hc)
  | stepShuffle delta filter =>
    cases ho
    refine stepsWell_of_next rfl (List.forall_mem_singleton.2 ?_)
    split
    · exact hc
    · trivial
  | listItemIds filter =>
    have hc : filter = s.settings.wallpaperQueueFilter := hc
    subst hc
    simp only [QueueCall.exec] at ho
    split at ho
    · split at ho
      · cases ho
        exact stepsWell_of_next rfl nofun
      · rename_i hids
        cases ho
        refine stepsWell_answer (fun id hid => ?_) nofun
        exact absurd ((mem_listItemIds hids).2 hid) List.not_mem_nil
      · rename_i hids
        cases ho
        exact stepsWell_of_next rfl (List.forall_mem_singleton.2 fun id hid =>
          (mem_listItemIds hids).1 hid)
    · cases ho
      exact stepsWell_of_next rfl nofun
    · cases ho
  | buildRound ids =>
    simp only [QueueCall.exec] at ho
    split at ho
    · cases ho
      refine stepsWell_of_next rfl (carries_pick fun id hid => hc id ?_)
      exact List.mem_toArray.1 (QueueState.mem_buildShuffleRound.1 hid)
    · cases ho
  | walkRound delta =>
    simp only [QueueCall.exec] at ho
    split at ho
    · cases ho
      refine stepsWell_of_next rfl (carries_pick fun id hid => ?_)
      exact hwalk delta rfl id (mem_walk.1 hid)
    · cases ho
  | fetch pick =>
    simp only [QueueCall.exec] at ho
    split at ho
    · cases ho
      obtain ⟨row, hrow, hid⟩ := getItemWithLibrary_of_accepts hc
      rw [hrow]
      refine stepsWell_answer ?_ (List.forall_mem_singleton.2 trivial)
      show Accepted files s.settings s.db row.itemId
      rw [hid]
      exact hc
    · cases ho
      exact stepsWell_of_next rfl nofun
    · cases ho
  | _ =>
    simp only [QueueCall.exec, AppState.done, AppState.andThen] at ho
    (repeat' split at ho) <;> cases ho <;>
      exact stepsWell_of_quiet rfl (by simp [QueueCall.stepping])

theorem queueRequest_shared {q : QueueRequest} {t : TaskPool.Task QueueCall}
    (h : (queueSemantics files).accept q s = some (s', t)) : s' = s := by
  cases h
  rfl

/-- No request starts in the middle of a queue step. -/
theorem queueRequest_quiet {q : QueueRequest} {t : TaskPool.Task QueueCall}
    (h : (queueSemantics files).accept q s = some (s', t)) : ∀ c ∈ t.stack, c.stepping = false := by
  cases h
  cases q <;> simp [QueueCall.stepping]

/-- What the queue steps under way carry is right, and so is what was answered. -/
structure AnswersWell (files : Files) (p : QueuePool) : Prop where
  carries : ∀ c ∈ calls p.tasks, c.Carries files p.shared
  answers : ∀ a ∈ p.shared.answers, a.Correct files

/-- The calls that were under way before a step carry what they should after it. -/
theorem AnswersWell.carries_congr {p p' : QueuePool} {l : QueueLabel} (h : AnswersWell files p)
    (hl : RoundHolds files p l) (hstep : (queueSemantics files).step p l = some p')
    {c : QueueCall} (hc : c ∈ calls p.tasks) : c.Carries files p'.shared := by
  by_cases hstepping : c.stepping = true
  · exact (h.carries c hc).congr (hl.undisturbed ⟨c, hc, hstepping⟩ p' hstep)
  · exact QueueCall.carries_of_not_stepping (Bool.eq_false_iff.2 hstepping)

theorem AnswersWell.step {p p' : QueuePool} {l : QueueLabel} (h : AnswersWell files p)
    (hl : RoundHolds files p l) (hstep : (queueSemantics files).step p l = some p') :
    AnswersWell files p' := by
  have hcongr {c : QueueCall} (hc : c ∈ calls p.tasks) : c.Carries files p'.shared :=
    h.carries_congr hl hstep hc
  cases l with
  | run i x =>
    obtain ⟨t, c, rest, o, ht, -, hcs, ho, rfl⟩ := Semantics.step_run_eq_some.1 hstep
    have hc : c ∈ calls p.tasks := mem_calls.2 ⟨t, List.mem_of_getElem? ht, by simp [hcs]⟩
    have hwell := QueueCall.exec_carries ho (h.carries c hc) fun delta hdelta =>
      hl.walked delta (hdelta ▸ Pool.executed_run ht hcs)
    refine ⟨fun k hk => ?_, fun a ha => (hwell.answers a ha).elim (h.answers a) id⟩
    obtain hk | hk | hk := mem_calls_resume ht hcs hk
    · exact hwell.next k hk
    · rw [hwell.spawn] at hk
      cases hk
    · exact hcongr hk
  | wake i =>
    obtain ⟨t, ht, -, rfl⟩ := Semantics.step_wake_eq_some.1 hstep
    refine ⟨fun c hc => ?_, h.answers⟩
    rw [calls_wake ht] at hc
    exact hcongr hc
  | drop i =>
    obtain ⟨t, ht, -, rfl⟩ := Semantics.step_drop_eq_some.1 hstep
    exact ⟨fun c hc => hcongr (mem_calls_drop ht hc), h.answers⟩
  | start q =>
    obtain ⟨s, t, hq, rfl⟩ := Semantics.step_start_eq_some.1 hstep
    refine ⟨fun c hc => ?_, (queueRequest_shared hq).symm ▸ h.answers⟩
    rw [calls_append, List.mem_append] at hc
    obtain hc | hc := hc
    · exact hcongr hc
    · obtain ⟨u, hu, hcu⟩ := mem_calls.1 hc
      obtain rfl := List.mem_singleton.1 hu
      exact QueueCall.carries_of_not_stepping (queueRequest_quiet hq c hcu)
  | env e => cases e

/-- Whenever a shuffled step returns a row, the filter in force accepts it, and it finds the queue
empty only if the filter accepts nothing, in every run that walks a round only while all of it is
accepted, and changes nothing about what is accepted while a queue step is under way. -/
theorem correct_of_roundHolds (files : Files) (settings : GlobalSettings) (db : Db)
    (ls : List QueueLabel) (p : QueuePool)
    (hrun : Transition.run (queueSemantics files).step (startQueue settings db) ls = some p)
    (hholds : Transition.Along (queueSemantics files).step (RoundHolds files)
      (startQueue settings db) ls) : AllCorrect files p := by
  have hstart : AnswersWell files (startQueue settings db) := ⟨nofun, nofun⟩
  exact (Transition.invariant_of_run (fun _ _ _ => AnswersWell.step) hstart hholds hrun).answers

/-! ## Calm steps -/

/-- The call changes neither the settings nor the database. -/
def QueueCall.reads : QueueCall → Bool
  | .settingsUpdate _ _ | .persistMode _ | .writeDb _ => false
  | _ => true

theorem QueueCall.exec_reads {c : QueueCall} {x : QueueChoice} {o : QueueStep}
    (ho : c.exec files x s = some o) (hc : c.reads = true) :
    o.shared.settings = s.settings ∧ o.shared.db = s.db := by
  cases c with
  | settingsUpdate patch previous => cases hc
  | persistMode mode => cases hc
  | writeDb resets => cases hc
  | _ =>
    simp only [QueueCall.exec, AppState.done, AppState.andThen] at ho
    (repeat' split at ho) <;> cases ho <;> exact ⟨rfl, rfl⟩

def QueueCall.walks : QueueCall → Bool
  | .walkRound _ => true
  | _ => false

/-- No round is walked, and nothing is changed in the middle of a queue step. -/
def Calm (p : QueuePool) (l : QueueLabel) : Bool :=
  (p.executed l).all fun c => !c.walks && (c.reads || (calls p.tasks).all fun k => !k.stepping)

theorem sameAccepted_of_eq (hsettings : s'.settings = s.settings) (hdb : s'.db = s.db) :
    SameAccepted files s s' := by
  refine ⟨by rw [hsettings], fun id => ?_⟩
  rw [AppState.Accepts, hsettings, hdb, AppState.Accepts]

theorem roundHolds_of_calm {p : QueuePool} {l : QueueLabel} (h : Calm p l = true) :
    RoundHolds files p l := by
  have hcalm {c : QueueCall} (hc : p.executed l = some c) :
      c.walks = false ∧ (c.reads = true ∨ ∀ k ∈ calls p.tasks, k.stepping = false) := by
    simpa [Calm, hc] using h
  refine ⟨fun delta hdelta => ?_, fun ⟨k, hk, hstepping⟩ p' hstep => ?_⟩
  · cases (hcalm hdelta).1
  · cases l with
    | run i x =>
      obtain ⟨t, c, rest, o, ht, -, hcs, ho, rfl⟩ := Semantics.step_run_eq_some.1 hstep
      obtain hreads | hnone := (hcalm (Pool.executed_run ht hcs)).2
      · obtain ⟨hsettings, hdb⟩ := QueueCall.exec_reads ho hreads
        exact sameAccepted_of_eq hsettings hdb
      · rw [hnone k hk] at hstepping
        cases hstepping
    | wake i =>
      obtain ⟨t, -, -, rfl⟩ := Semantics.step_wake_eq_some.1 hstep
      exact .refl _
    | drop i =>
      obtain ⟨t, -, -, rfl⟩ := Semantics.step_drop_eq_some.1 hstep
      exact .refl _
    | start q =>
      obtain ⟨s, t, hq, rfl⟩ := Semantics.step_start_eq_some.1 hstep
      rw [queueRequest_shared hq]
      exact .refl _
    | env e => cases e

end

/-! ## A queue of one video -/

def shuffledSettings : GlobalSettings := { (default : GlobalSettings) with queueMode := "shuffle" }

/-- Videos are hidden; the rules, if there is one, are about images. -/
def hideVideos (rules : List WallpaperFilterRule) : SettingsPatch where
  wallpaperFilters := rules
  wallpaperFilterLogics := []
  wallpaperSorts := []
  wallpaperSkipTypes := ["video"]
  wallpaperFilterTags := []
  wallpaperSkipContentRatings := []
  queueMode := ""

def runTask (i : ℕ) (xs : List QueueChoice) : List QueueLabel := xs.map (.run i)

/-- The mode is restored, and a step draws a round and answers with the video. -/
def firstStep : List QueueLabel :=
  [.start .restore, .run 0 .tick, .start (.step 1)] ++
    runTask 1 [.tick, .tick, .tick, .tick, .tick, .now 2, .tick]

/-- The settings request, and the reset of the round when the rules have changed. -/
def hides (rules : List WallpaperFilterRule) (n : ℕ) : List QueueLabel :=
  .start (.settingsSet (some (hideVideos rules))) :: runTask 2 (List.replicate n .tick)

/-- The rules change with the hidden types, and the next step finds the queue empty. -/
def hidesByRules : List QueueLabel :=
  firstStep ++ hides [⟨2, 0, some (.stringFilter "image" 1)⟩] 5 ++ .start (.step 1) ::
    runTask 3 (List.replicate 5 .tick)

def hiddenByRules : QueuePool :=
  Transition.reached (queueSemantics plainFiles).step (startQueue shuffledSettings clipDb)
    hidesByRules (by decide +kernel)

theorem correct_of_roundHolds_hiddenByRules :
    AllCorrect plainFiles hiddenByRules :=
  have hcalm : Transition.Along (queueSemantics plainFiles).step (fun p l => Calm p l = true)
      (startQueue shuffledSettings clipDb) hidesByRules := by decide +kernel
  correct_of_roundHolds plainFiles shuffledSettings clipDb hidesByRules hiddenByRules
    (Transition.run_reached ..) (hcalm.mono fun _ _ => roundHolds_of_calm)

/-- Only the toggle hides the videos, and the next step shows one again. -/
def hidesByToggle : List QueueLabel :=
  firstStep ++ hides [] 4 ++ .start (.step 1) ::
    runTask 3 [.tick, .tick, .tick, .tick, .now 2, .tick]

def hiddenByToggle : QueuePool :=
  Transition.reached (queueSemantics plainFiles).step (startQueue shuffledSettings clipDb)
    hidesByToggle (by decide +kernel)

instance (files : Files) (settings : GlobalSettings) (db : Db) (id : ℕ) :
    Decidable (Accepted files settings db id) :=
  inferInstanceAs (Decidable (∃ i ∈ _, _))

/-- A step shows a video although videos are hidden. -/
theorem not_correct_hiddenByToggle :
    ¬ ∀ (files : Files) (settings : GlobalSettings) (db : Db) (ls : List QueueLabel)
      (p : QueuePool), Transition.run (queueSemantics files).step (startQueue settings db) ls =
        some p → AllCorrect files p := by
  intro h
  have hcorrect := h plainFiles shuffledSettings clipDb hidesByToggle hiddenByToggle
    (Transition.run_reached ..)
  have hshown : (hiddenByToggle.shared.answers.any fun a => a.row.any fun row =>
      !decide (Accepted plainFiles a.settings a.db row.itemId)) = true := by decide +kernel
  obtain ⟨a, ha, hrow⟩ := List.any_eq_true.1 hshown
  obtain ⟨row, hrow, hnot⟩ := (Option.any_eq_true _ _).1 hrow
  have haccepted := hcorrect a ha
  rw [Answer.Correct, hrow] at haccepted
  rw [Bool.not_eq_true', decide_eq_false_iff_not] at hnot
  exact hnot haccepted

end Waywallen
