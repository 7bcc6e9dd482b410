import Waywallen.Tasks.Located

/-!
# What is told about a task

The record of a task, the events about it and the announcements of its cancellation that are still
to be sent go through the same stages in every run in which no join fails, no cancellation falls
into a gap of a submission or of the join handler, and no record is dropped too early.
-/

namespace Waywallen

open TaskPool

variable {K : Type}

def TaskEvent.about : TaskEvent → TaskId
  | started id | completed id | failed id _ | cancelled id => id

theorem TaskState.about_of_event {st : TaskState} {id : TaskId} {e : TaskEvent}
    (h : st.event id = some e) : e.about = id := by
  cases st <;> cases h <;> rfl

/-- The task whose cancellation is about to be announced. -/
def TaskCall.announces : TaskCall K → Option TaskId
  | sendCancelled id _ => some id
  | _ => none

/-- What can be seen of a task. -/
structure TaskView where
  record : Option TaskState
  told : List TaskEvent
  announcing : ℕ

namespace TaskView

variable (id : TaskId) (v : TaskView)

def Untold : Prop := v = ⟨none, [], 0⟩

def Recorded : Prop := v = ⟨some .running, [], 0⟩

def Running : Prop := v = ⟨some .running, [.started id], 0⟩

/-- The task runs, or has been cancelled and is told of once. -/
def Live : Prop :=
  v.Running id ∨ v = ⟨some .cancelled, [.started id], 1⟩ ∨
    v = ⟨some .cancelled, [.started id, .cancelled id], 0⟩

/-- The final state has been written and is still to be told; the record may be gone by then. -/
def Written (st : TaskState) : Prop :=
  (v.record = none ∨ v.record = some st) ∧ v.told = [.started id] ∧ v.announcing = 0

/-- The task has been told of to its end, but for the announcement of its cancellation. -/
def Over : Prop :=
  (∃ st e, st.event id = some e ∧ (v.record = none ∨ v.record = some st) ∧
    v.told = [.started id, e] ∧ v.announcing = 0) ∨
      (v.record = none ∨ v.record = some .cancelled) ∧ v.told = [.started id] ∧ v.announcing = 1

/-- The task has been told of to its end, and its record, if it is still there, agrees. -/
def Ended : Prop :=
  ∃ st e, st.event id = some e ∧ (v.record = none ∨ v.record = some st) ∧ v.told = [.started id, e]

/-- A start comes first, and then at most one end. -/
def Reported : Prop := v.told = [] ∨ v.told = [.started id] ∨ v.Ended id

variable {id v}

theorem Live.reported (h : v.Live id) : v.Reported id := by
  rcases h with rfl | rfl | rfl
  · exact .inr (.inl rfl)
  · exact .inr (.inl rfl)
  · exact .inr (.inr ⟨.cancelled, _, rfl, .inr rfl, rfl⟩)

theorem Over.reported (h : v.Over id) : v.Reported id := by
  rcases h with ⟨st, e, he, hrecord, htold, -⟩ | ⟨-, htold, -⟩
  · exact .inr (.inr ⟨st, e, he, hrecord, htold⟩)
  · exact .inr (.inl htold)

theorem Over.ended (h : v.Over id) (hzero : v.announcing = 0) : v.Ended id := by
  rcases h with ⟨st, e, he, hrecord, htold, -⟩ | ⟨-, -, hone⟩
  · exact ⟨st, e, he, hrecord, htold⟩
  · rw [hzero] at hone
    cases hone

theorem Recorded.started (h : v.Recorded) :
    Running id ⟨v.record, v.told ++ [.started id], v.announcing⟩ := by
  rw [h]
  rfl

/-- A running task is cancelled: the announcement is still to be sent. -/
theorem Live.cancel (h : v.Live id) (hrunning : v.record = some .running) :
    Live id ⟨some .cancelled, v.told, v.announcing + 1⟩ := by
  rcases h with rfl | rfl | rfl
  · exact .inr (.inl rfl)
  · cases hrunning
  · cases hrunning

theorem Live.running (h : v.Live id) (hcancelled : v.record ≠ some .cancelled) :
    v.Running id := by
  rcases h with h | rfl | rfl
  · exact h
  · exact absurd rfl hcancelled
  · exact absurd rfl hcancelled

/-- The end of a task that has been cancelled tells nothing more. -/
theorem Live.over (h : v.Live id) (hcancelled : v.record = some .cancelled) : v.Over id := by
  rcases h with rfl | rfl | rfl
  · cases hcancelled
  · exact .inr ⟨.inr rfl, rfl, rfl⟩
  · exact .inl ⟨.cancelled, .cancelled id, rfl, .inr rfl, rfl, rfl⟩

theorem Running.written (h : v.Running id) (st : TaskState) :
    Written id ⟨some st, v.told, v.announcing⟩ st := by
  rw [h]
  exact ⟨.inr rfl, rfl, rfl⟩

theorem Written.over {st : TaskState} {e : TaskEvent} (h : v.Written id st)
    (he : st.event id = some e) : Over id ⟨v.record, v.told ++ [e], v.announcing⟩ := by
  obtain ⟨hrecord, htold, hzero⟩ := h
  refine .inl ⟨st, e, he, hrecord, ?_, hzero⟩
  rw [htold]
  rfl

/-- The cancellation of a task is announced. -/
theorem Live.announce (h : v.Live id) (hpos : v.announcing ≠ 0) :
    Live id ⟨v.record, v.told ++ [.cancelled id], v.announcing - 1⟩ := by
  rcases h with rfl | rfl | rfl
  · exact absurd rfl hpos
  · exact .inr (.inr rfl)
  · exact absurd rfl hpos

theorem Over.announce (h : v.Over id) (hpos : v.announcing ≠ 0) :
    Over id ⟨v.record, v.told ++ [.cancelled id], v.announcing - 1⟩ := by
  rcases h with ⟨st, e, -, -, -, hzero⟩ | ⟨hrecord, htold, hone⟩
  · exact absurd hzero hpos
  · refine .inl ⟨.cancelled, .cancelled id, rfl, hrecord, ?_, ?_⟩
    · rw [htold]
      rfl
    · rw [hone]

theorem Over.not_running (h : v.Over id) : v.record ≠ some .running := by
  intro hrunning
  rcases h with ⟨st, e, he, hrecord | hrecord, -⟩ | ⟨hrecord | hrecord, -⟩ <;>
    cases hrunning.symm.trans hrecord
  cases he

theorem Written.not_running {st : TaskState} (h : v.Written id st)
    (hst : (st.event id).isSome = true) : v.record ≠ some .running := by
  intro hrunning
  rcases h.1 with hrecord | hrecord <;> cases hrunning.symm.trans hrecord
  cases hst

/-- The record of a task that does not run any more is dropped. -/
theorem Over.dropped (h : v.Over id) : Over id ⟨none, v.told, v.announcing⟩ := by
  rcases h with ⟨st, e, he, -, htold, hzero⟩ | ⟨-, htold, hone⟩
  · exact .inl ⟨st, e, he, .inl rfl, htold, hzero⟩
  · exact .inr ⟨.inl rfl, htold, hone⟩

end TaskView

/-- What a call relies on about the task it moves. -/
def TaskCall.Fits (v : TaskView) : TaskCall K → Prop
  | insertToken _ q => v.Untold ∧ q ≠ .blocking
  | recordStarted _ _ => v.Untold
  | sendStarted _ _ => v.Recorded
  | sendMsg id _ | dropToken id _ | finalize id _ => v.Live id
  | sendFinal id _ => v.Written id (.failed supervisorGone)
  | removeToken id st | retainKeys id st | checkCancelled id st => v.Live id ∧ (st.event id).isSome
  | writeState id st => v.Running id ∧ (st.event id).isSome
  | sendObserved id st => v.Written id st ∧ (st.event id).isSome
  | _ => True

namespace TaskManager

/-- The events about a task. -/
def told (s : TaskManager K) (id : TaskId) : List TaskEvent :=
  s.events.filter (·.about = id)

def view (s : TaskManager K) (cs : List (TaskCall K)) (id : TaskId) : TaskView :=
  ⟨s.records.lookup id, s.told id, (cs.filterMap TaskCall.announces).count id⟩

/-- The task is in no place any more. -/
structure Gone (s : TaskManager K) (cs : List (TaskCall K)) (id : TaskId) : Prop where
  calls : ∀ c ∈ cs, c.task ≠ some id
  queue : id ∉ s.queue
  future : s.futures.containsKey id = false

/-- The task has been told of as far as the place it is in says. -/
structure StageAt (s : TaskManager K) (cs : List (TaskCall K)) (id : TaskId) : Prop where
  fresh : s.Fresh id → (s.view cs id).Untold
  calls : ∀ c ∈ cs, c.task = some id → c.Fits (s.view cs id)
  waiting : id ∈ s.queue ∨ s.futures.containsKey id = true → (s.view cs id).Live id
  gone : ¬s.Fresh id → s.Gone cs id → (s.view cs id).Over id

variable {s s' : TaskManager K} {c k : TaskCall K} {cs cs' rest next : List (TaskCall K)}
  {id : TaskId}

/-- A step leaves a task alone. -/
structure Aside (s : TaskManager K) (cs : List (TaskCall K)) (s' : TaskManager K)
    (cs' : List (TaskCall K)) (id : TaskId) : Prop where
  view : s'.view cs' id = s.view cs id
  calls : ∀ c, c.task = some id → (c ∈ cs' ↔ c ∈ cs)
  queue : id ∈ s'.queue ↔ id ∈ s.queue
  future : s'.futures.containsKey id = s.futures.containsKey id
  fresh : s'.Fresh id ↔ s.Fresh id

theorem StageAt.aside (h : StageAt s cs id) (ha : Aside s cs s' cs' id) : StageAt s' cs' id := by
  refine ⟨fun hfresh => ?_, fun c hc hid => ?_, fun hwait => ?_, fun hfresh hgone => ?_⟩
  · rw [ha.view]
    exact h.fresh (ha.fresh.1 hfresh)
  · rw [ha.view]
    exact h.calls c ((ha.calls c hid).1 hc) hid
  · rw [ha.view]
    rw [ha.queue, ha.future] at hwait
    exact h.waiting hwait
  · rw [ha.view]
    refine h.gone (ha.fresh.not.1 hfresh) ⟨fun c hc hid => ?_, ?_, ?_⟩
    · exact hgone.calls c ((ha.calls c hid).2 hc) hid
    · exact ha.queue.not.1 hgone.queue
    · exact ha.future ▸ hgone.future

theorem StageAt.perm (h : StageAt s cs id) (hperm : cs.Perm cs') : StageAt s cs' id := by
  refine h.aside ⟨?_, fun c _ => hperm.mem_iff.symm, .rfl, rfl, .rfl⟩
  rw [view, view, (hperm.filterMap _).count_eq]

/-- Wherever the task is, it has been told of once at most. -/
theorem StageAt.reported (h : StageAt s cs id) : (s.view cs id).Reported id := by
  by_cases hfresh : s.Fresh id
  · exact .inl (congrArg TaskView.told (h.fresh hfresh))
  by_cases hwait : id ∈ s.queue ∨ s.futures.containsKey id = true
  · exact (h.waiting hwait).reported
  by_cases hcall : ∃ c ∈ cs, c.task = some id
  · obtain ⟨c, hc, hid⟩ := hcall
    have hfits := h.calls c hc hid
    cases c with
    | insertToken _ _ => exact .inl (congrArg TaskView.told hfits.1)
    | recordStarted _ _ | sendStarted _ _ => exact .inl (congrArg TaskView.told hfits)
    | sendMsg _ _ | dropToken _ _ | finalize _ _ =>
      obtain rfl := Option.some_inj.1 hid
      exact TaskView.Live.reported hfits
    | removeToken _ _ | retainKeys _ _ | checkCancelled _ _ =>
      obtain rfl := Option.some_inj.1 hid
      exact hfits.1.reported
    | sendFinal _ _ =>
      obtain rfl := Option.some_inj.1 hid
      exact .inr (.inl hfits.2.1)
    | writeState _ _ =>
      obtain rfl := Option.some_inj.1 hid
      exact .inr (.inl (congrArg TaskView.told hfits.1))
    | sendObserved _ _ =>
      obtain rfl := Option.some_inj.1 hid
      exact .inr (.inl hfits.1.2.1)
    | _ => cases hid
  · refine (h.gone hfresh ⟨fun c hc hid => hcall ⟨c, hc, hid⟩, fun hmem => hwait (.inl hmem), ?_⟩).reported
    exact Bool.eq_false_iff.2 fun hkey => hwait (.inr hkey)

theorem told_send {e : TaskEvent} (h : e.about = id) : (s.send e).told id = s.told id ++ [e] := by
  rw [told, send, List.filter_append, List.filter_cons_of_pos (by simpa using h), List.filter_nil]
  rfl

theorem told_send_ne {e : TaskEvent} (h : e.about ≠ id) : (s.send e).told id = s.told id := by
  rw [told, send, List.filter_append, List.filter_cons_of_neg (by simpa using h), List.filter_nil,
    List.append_nil]
  rfl

theorem announcing_of_ne (hc : c.announces ≠ some id) (hnext : ∀ k ∈ next, k.announces ≠ some id) :
    ((next ++ rest).filterMap TaskCall.announces).count id =
      ((c :: rest).filterMap TaskCall.announces).count id := by
  have hnone : (next.filterMap TaskCall.announces).count id = 0 := by
    refine List.count_eq_zero.2 fun hmem => ?_
    obtain ⟨k, hk, hid⟩ := List.mem_filterMap.1 hmem
    exact hnext k hk hid
  rw [List.filterMap_append, List.count_append, hnone, Nat.zero_add]
  cases h : c.announces with
  | none => rw [List.filterMap_cons_none h]
  | some j =>
    rw [List.filterMap_cons_some h, List.count_cons_of_ne]
    rintro rfl
    exact hc h

/-- A call that has to do with another task. -/
theorem Aside.of_call (next : List (TaskCall K))
    (hc : c.task ≠ some id ∧ c.announces ≠ some id)
    (hnext : ∀ k ∈ next, k.task ≠ some id ∧ k.announces ≠ some id)
    (hrecord : s'.records.lookup id = s.records.lookup id) (htold : s'.told id = s.told id)
    (hqueue : id ∈ s'.queue ↔ id ∈ s.queue)
    (hfuture : s'.futures.containsKey id = s.futures.containsKey id)
    (hfresh : s'.Fresh id ↔ s.Fresh id) : Aside s (c :: rest) s' (next ++ rest) id := by
  refine ⟨?_, fun k hid => ?_, hqueue, hfuture, hfresh⟩
  · rw [TaskManager.view, TaskManager.view, hrecord, htold, announcing_of_ne hc.2 fun k hk => (hnext k hk).2]
  · rw [List.mem_append, List.mem_cons]
    constructor
    · rintro (hk | hk)
      · exact absurd hid (hnext k hk).1
      · exact .inr hk
    · rintro (rfl | hk)
      · exact absurd hid hc.1
      · exact .inr hk

theorem announces_of_task {j : TaskId} (h : c.task = some j) : c.announces = none := by
  cases c <;> first | rfl | cases h

theorem ne_of_task {i : TaskId} (hc : c.task = some i) (hid : id ≠ i) :
    c.task ≠ some id ∧ c.announces ≠ some id := by
  refine ⟨fun heq => hid (Option.some_inj.1 (heq.symm.trans hc)), ?_⟩
  rw [announces_of_task hc]
  rintro ⟨⟩

theorem view_send {e : TaskEvent} (next rest : List (TaskCall K)) (he : e.about = id)
    (hc : c.task = some id) (hnext : ∀ k ∈ next, k.announces ≠ some id) :
    (s.send e).view (next ++ rest) id = ⟨(s.view (c :: rest) id).record,
      (s.view (c :: rest) id).told ++ [e], (s.view (c :: rest) id).announcing⟩ := by
  have hannounces : c.announces ≠ some id := by
    rw [announces_of_task hc]
    rintro ⟨⟩
  rw [view, told_send he, announcing_of_ne hannounces hnext]
  rfl

theorem view_modify (next : List (TaskCall K)) (st : TaskState)
    (hrunning : (s.view (c :: rest) id).Running id) (hc : c.task = some id)
    (hnext : ∀ k ∈ next, k.announces ≠ some id) :
    view { s with records := s.records.modify id fun _ => st } (next ++ rest) id =
      ⟨some st, (s.view (c :: rest) id).told, (s.view (c :: rest) id).announcing⟩ := by
  have hannounces : c.announces ≠ some id := by
    rw [announces_of_task hc]
    rintro ⟨⟩
  have hrecord : s.records.lookup id = some .running := congrArg TaskView.record hrunning
  rw [view, announcing_of_ne hannounces hnext, HashMap.lookup_modify, if_pos rfl, hrecord]
  rfl

/-- The task a call hands on to the next. -/
theorem stageAt_moved (h : StageAt s (c :: rest) id) (hp : Placed s (c :: rest))
    (hc : c.task = some id) (hk : k.task = some id)
    (hfit : c.Fits (s.view (c :: rest) id) → k.Fits (s'.view (k :: rest) id))
    (hqueue : s'.queue = s.queue := by rfl) (hfutures : s'.futures = s.futures := by rfl)
    (hnextId : s'.nextId = s.nextId := by rfl) : StageAt s' (k :: rest) id := by
  obtain ⟨hrest, hinQueue, hinFutures⟩ := hp.task hc
  have hnotFresh : ¬s.Fresh id := hp.not_fresh (located_pos_of_mem List.mem_cons_self hc)
  refine ⟨fun hfresh => absurd ?_ hnotFresh, fun c' hc' hid => ?_, fun hwait => ?_,
    fun _ hgone => absurd hk (hgone.calls k List.mem_cons_self)⟩
  · rwa [Fresh, hnextId] at hfresh
  · rcases List.mem_cons.1 hc' with rfl | hc'
    · exact hfit (h.calls c List.mem_cons_self hc)
    · exact absurd hid (hrest c' hc')
  · rw [hqueue, hfutures, HashMap.containsKey, hinFutures] at hwait
    rcases hwait with hwait | hwait
    · exact absurd hwait hinQueue
    · cases hwait

/-- A call hands the task it moves on to the next. -/
theorem stageAt_next {i : TaskId} (h : ∀ j, StageAt s (c :: rest) j) (hp : Placed s (c :: rest))
    (hc : c.task = some i) (hk : k.task = some i)
    (hothers : ∀ j, j ≠ i → s'.records.lookup j = s.records.lookup j ∧ s'.told j = s.told j)
    (hfit : c.Fits (s.view (c :: rest) i) → k.Fits (s'.view (k :: rest) i)) (j : TaskId)
    (hqueue : s'.queue = s.queue := by rfl) (hfutures : s'.futures = s.futures := by rfl)
    (hnextId : s'.nextId = s.nextId := by rfl) : StageAt s' ([k] ++ rest) j := by
  by_cases hj : j = i
  · subst hj
    exact stageAt_moved (h j) hp hc hk hfit hqueue hfutures hnextId
  · refine (h j).aside (Aside.of_call [k] (ne_of_task hc hj) (fun l hl => ?_)
      (hothers j hj).1 (hothers j hj).2 (hqueue ▸ .rfl) (hfutures ▸ rfl) ?_)
    · rw [List.mem_singleton.1 hl]
      exact ne_of_task hk hj
    · rw [Fresh, Fresh, hnextId]

/-- A call lets go of its task, of which everything has been told. -/
theorem stageAt_over {i : TaskId} (next : List (TaskCall K))
    (h : ∀ j, StageAt s (c :: rest) j) (hp : Placed s (c :: rest))
    (hc : c.task = some i) (hnext : ∀ k ∈ next, k.task = none ∧ k.announces = none)
    (hothers : ∀ j, j ≠ i → s'.records.lookup j = s.records.lookup j ∧ s'.told j = s.told j)
    (hover : c.Fits (s.view (c :: rest) i) → (s'.view (next ++ rest) i).Over i) (j : TaskId)
    (hqueue : s'.queue = s.queue := by rfl) (hfutures : s'.futures = s.futures := by rfl)
    (hnextId : s'.nextId = s.nextId := by rfl) : StageAt s' (next ++ rest) j := by
  have hfresh (j : TaskId) : s'.Fresh j ↔ s.Fresh j := by rw [Fresh, Fresh, hnextId]
  have hnone (k : TaskCall K) (hk : k ∈ next) (j : TaskId) :
      k.task ≠ some j ∧ k.announces ≠ some j := by
    rw [(hnext k hk).1, (hnext k hk).2]
    exact ⟨(by rintro ⟨⟩), (by rintro ⟨⟩)⟩
  by_cases hj : j = i
  · subst hj
    obtain ⟨hrest, hinQueue, hinFutures⟩ := hp.task hc
    have hnotFresh : ¬s.Fresh j := hp.not_fresh (located_pos_of_mem List.mem_cons_self hc)
    refine ⟨fun hf => absurd ((hfresh j).1 hf) hnotFresh, fun c' hc' hid => ?_,
      fun hwait => ?_, fun _ _ => hover ((h j).calls c List.mem_cons_self hc)⟩
    · rcases List.mem_append.1 hc' with hc' | hc'
      · exact absurd hid (hnone c' hc' j).1
      · exact absurd hid (hrest c' hc')
    · rw [hqueue, hfutures, HashMap.containsKey, hinFutures] at hwait
      rcases hwait with hwait | hwait
      · exact absurd hwait hinQueue
      · cases hwait
  · exact (h j).aside (Aside.of_call _ (ne_of_task hc hj) (fun k hk => hnone k hk j)
      (hothers j hj).1 (hothers j hj).2 (hqueue ▸ .rfl) (hfutures ▸ rfl) (hfresh j))

/-- A call that moves no task and tells nothing. -/
theorem stageAt_idle (next : List (TaskCall K)) (h : ∀ j, StageAt s (c :: rest) j)
    (hc : c.task = none ∧ c.announces = none)
    (hnext : ∀ k ∈ next, k.task = none ∧ k.announces = none) (j : TaskId)
    (hqueue : s'.queue = s.queue := by rfl) (hfutures : s'.futures = s.futures := by rfl)
    (hnextId : s'.nextId = s.nextId := by rfl) (hrecords : s'.records = s.records := by rfl)
    (hevents : s'.events = s.events := by rfl) : StageAt s' (next ++ rest) j := by
  have hnone (k : TaskCall K) (hk : k.task = none ∧ k.announces = none) :
      k.task ≠ some j ∧ k.announces ≠ some j := by
    rw [hk.1, hk.2]
    exact ⟨(by rintro ⟨⟩), (by rintro ⟨⟩)⟩
  refine (h j).aside (Aside.of_call _ (hnone c hc) (fun k hk => hnone k (hnext k hk)) ?_ ?_
    (hqueue ▸ .rfl) (hfutures ▸ rfl) ?_)
  · rw [hrecords]
  · rw [told, told, hevents]
  · rw [Fresh, Fresh, hnextId]

/-- What is seen of a task changes while the task stays where it is. -/
theorem StageAt.recast (h : StageAt s (c :: rest) id) (next : List (TaskCall K))
    (hc : c.task = none)
    (hnext : ∀ k ∈ next, k.task = none)
    (huntold : (s.view (c :: rest) id).Untold → (s'.view (next ++ rest) id).Untold)
    (hfits : ∀ k ∈ rest, k.task = some id → k.Fits (s.view (c :: rest) id) →
      k.Fits (s'.view (next ++ rest) id))
    (hlive : (s.view (c :: rest) id).Live id → (s'.view (next ++ rest) id).Live id)
    (hover : (s.view (c :: rest) id).Over id → (s'.view (next ++ rest) id).Over id)
    (hqueue : s'.queue = s.queue := by rfl) (hfutures : s'.futures = s.futures := by rfl)
    (hnextId : s'.nextId = s.nextId := by rfl) : StageAt s' (next ++ rest) id := by
  have hrest (k : TaskCall K) (hk : k ∈ next ++ rest) (hid : k.task = some id) : k ∈ rest := by
    rcases List.mem_append.1 hk with hk | hk
    · cases (hnext k hk).symm.trans hid
    · exact hk
  refine ⟨fun hfresh => huntold (h.fresh ?_), fun k hk hid => ?_, fun hwait => hlive (h.waiting ?_),
    fun hfresh hgone => hover (h.gone ?_ ⟨fun k hk hid => ?_, ?_, ?_⟩)⟩
  · rwa [Fresh, hnextId] at hfresh
  · have hk := hrest k hk hid
    exact hfits k hk hid (h.calls k (List.mem_cons_of_mem _ hk) hid)
  · rwa [hqueue, hfutures] at hwait
  · rwa [Fresh, hnextId] at hfresh
  · rcases List.mem_cons.1 hk with rfl | hk
    · cases hc.symm.trans hid
    · exact hgone.calls k (List.mem_append_right _ hk) hid
  · exact hqueue ▸ hgone.queue
  · exact hfutures ▸ hgone.future

end TaskManager

end Waywallen
