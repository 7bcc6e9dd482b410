import Waywallen.Tasks.Told

/-!
# Each task ends once

The runs in which a subscriber is told of each task that it has started and, once, how it has
ended, and in which no token and no key is left behind: every future ends with a result, the
supervisor exits only when nothing is left to do, a cancellation falls neither between the insertion
of a record and the announcement of its start nor between the check and the write of the join
handler, no record is dropped before its task is joined, and a key is written before its task is
joined.
-/

namespace Waywallen

open TaskPool

variable {K : Type}

/-- The tasks whose record must not be dropped. -/
def TaskCall.unjoined : TaskCall K → Option TaskId
  | sendMsg id _ | dropToken id _ | finalize id _ | removeToken id _ | retainKeys id _
  | checkCancelled id _ => some id
  | _ => none

/-- The tasks whose cancellation would come too early, or be overwritten. -/
def TaskCall.bars : TaskCall K → Option TaskId
  | sendStarted id _ | writeState id _ => some id
  | _ => none

/-- The tasks whose token may be in the map. -/
def TaskCall.holdsToken : TaskCall K → Option TaskId
  | recordStarted _ .blocking | sendStarted _ .blocking | sendMsg _ .blocking => none
  | recordStarted id _ | sendStarted id _ | sendMsg id _ | dropToken id _ | removeToken id _ =>
      some id
  | _ => none

/-- The tasks a key may name. -/
def TaskCall.holdsKey : TaskCall K → Option TaskId
  | removeToken id _ | retainKeys id _ => some id
  | _ => none

namespace TaskManager

/-- The task waits, runs, is to be joined, or is in the hands of a call of some kind. -/
def Held (f : TaskCall K → Option TaskId) (s : TaskManager K) (cs : List (TaskCall K))
    (id : TaskId) : Prop :=
  id ∈ s.queue ∨ s.futures.containsKey id = true ∨ ∃ c ∈ cs, f c = some id

instance (f : TaskCall K → Option TaskId) (s : TaskManager K) (cs : List (TaskCall K))
    (id : TaskId) : Decidable (Held f s cs id) :=
  inferInstanceAs (Decidable (id ∈ s.queue ∨ s.futures.containsKey id = true ∨
    ∃ c ∈ cs, f c = some id))

end TaskManager

def TaskChoice.exits : TaskChoice → Bool
  | join _ => false
  | _ => true

/-- The call falls into none of the gaps. -/
def TaskCall.Proper (x : TaskChoice) (s : TaskManager K) (rest : List (TaskCall K)) :
    TaskCall K → Prop
  | markCancelled id _ => s.records.lookup id = some .running → ∀ k ∈ rest, k.bars ≠ some id
  | recordStarted id _ => ∀ j ∈ s.records.keys,
      (trimFinished (s.records.insert id .running)).lookup j = none →
        ¬s.Held TaskCall.unjoined rest j
  | finalize id _ => s.records.lookup id ≠ some .cancelled
  | writeKey _ id => s.Held TaskCall.holdsKey rest id
  | drain => x.exits = true → s.queue = [] ∧ s.futures.keys = []
  | _ => True

instance TaskCall.Proper.decidable (x : TaskChoice) (s : TaskManager K) (rest : List (TaskCall K)) :
    (c : TaskCall K) → Decidable (c.Proper x s rest)
  | .markCancelled id _ => inferInstanceAs (Decidable (s.records.lookup id = some .running →
      ∀ k ∈ rest, k.bars ≠ some id))
  | .recordStarted id _ => inferInstanceAs (Decidable (∀ j ∈ s.records.keys,
      (trimFinished (s.records.insert id .running)).lookup j = none →
        ¬s.Held TaskCall.unjoined rest j))
  | .finalize id _ => inferInstanceAs (Decidable (s.records.lookup id ≠ some .cancelled))
  | .writeKey _ id => inferInstanceAs (Decidable (s.Held TaskCall.holdsKey rest id))
  | .drain => inferInstanceAs (Decidable (x.exits = true → s.queue = [] ∧ s.futures.keys = []))
  | .readKey _ | .lookupToken _ _ | .cancelToken _ _ | .sendCancelled _ _ | .fetchId _
  | .insertToken _ _ | .sendStarted _ _ | .sendMsg _ _ | .dropToken _ _ | .sendFinal _ _
  | .supervise | .removeToken _ _ | .retainKeys _ _ | .checkCancelled _ _ | .writeState _ _
  | .sendObserved _ _ => .isTrue trivial

/-- Every future ends with a result, and no call falls into a gap. -/
def EndsProperly (p : TasksPool K) : TaskLabel K → Prop
  | .env (.finish _ e) => e.observed.isSome = true
  | .run i x => ∀ c ∈ p.executed (.run i x : TaskLabel K),
      c.Proper x p.shared (p.remaining (.run i x : TaskLabel K))
  | _ => True

instance EndsProperly.decidable (p : TasksPool K) : (l : TaskLabel K) → Decidable (EndsProperly p l)
  | .env (.finish _ e) => inferInstanceAs (Decidable (e.observed.isSome = true))
  | .run i x => inferInstanceAs (Decidable (∀ c ∈ p.executed (.run i x : TaskLabel K),
      c.Proper x p.shared (p.remaining (.run i x : TaskLabel K))))
  | .env .shutdown | .wake _ | .drop _ | .start _ => .isTrue trivial

/-! ## Trimming -/

theorem lookup_trimFinished (recs : HashMap TaskId TaskState) (id : TaskId) :
    (trimFinished recs).lookup id = recs.lookup id ∨
      (trimFinished recs).lookup id = none ∧ recs.lookup id ≠ some .running := by
  unfold trimFinished
  split
  · exact .inl rfl
  · rw [HashMap.lookup_foldl_erase]
    split
    · rename_i hmem
      have hfinished := (List.mem_insertionSort (· ≤ ·)).1 (List.mem_of_mem_take hmem)
      obtain ⟨⟨j, st⟩, he, rfl⟩ := List.mem_map.1 hfinished
      obtain ⟨hentry, hst⟩ := List.mem_filter.1 he
      refine .inr ⟨rfl, ?_⟩
      rw [AList.mem_lookup_iff.2 hentry]
      simpa using hst
    · exact .inl rfl

namespace TaskManager

variable {s s' : TaskManager K} {c : TaskCall K} {cs rest next : List (TaskCall K)} {i : TaskId}

/-! ## The stages of a task -/

theorem stageAt_markCancelled {key : Option K}
    (h : ∀ j, StageAt s (.markCancelled i key :: rest) j)
    (hrunning : s.records.lookup i = some .running) (hbars : ∀ k ∈ rest, k.bars ≠ some i)
    (j : TaskId) :
    StageAt { s with records := s.records.modify i fun _ => .cancelled }
      (.sendCancelled i key :: rest) j := by
  by_cases hj : j = i
  · subst hj
    set v := s.view (.markCancelled j key :: rest) j with hv
    have hrecord : v.record = some .running := hrunning
    have hview : view { s with records := s.records.modify j fun _ => .cancelled }
        ([.sendCancelled j key] ++ rest) j = ⟨some .cancelled, v.told, v.announcing + 1⟩ := by
      have hlookup : (s.records.modify j fun _ => .cancelled).lookup j = some .cancelled := by
        rw [HashMap.lookup_modify, if_pos rfl, hrunning]
        rfl
      have hcount : (([TaskCall.sendCancelled j key] ++ rest).filterMap
          TaskCall.announces).count j = v.announcing + 1 := List.count_cons_self
      rw [view, hlookup, hcount]
      rfl
    refine (h j).recast [.sendCancelled j key] rfl ?_ (fun huntold => ?_)
      (fun k hk hid hfits => ?_) (fun hlive => ?_) fun hover => ?_
    · simp [TaskCall.task]
    · cases (congrArg TaskView.record huntold).symm.trans hrecord
    · rw [hview]
      have hlive (hlive : v.Live j) := hlive.cancel hrecord
      cases k with
      | insertToken _ _ => cases (congrArg TaskView.record hfits.1).symm.trans hrecord
      | recordStarted _ _ => cases (congrArg TaskView.record hfits).symm.trans hrecord
      | sendStarted _ _ | writeState _ _ => exact absurd hid (hbars _ hk)
      | sendMsg _ _ | dropToken _ _ | finalize _ _ =>
        obtain rfl := Option.some_inj.1 hid
        exact hlive hfits
      | removeToken _ _ | retainKeys _ _ | checkCancelled _ _ =>
        obtain rfl := Option.some_inj.1 hid
        exact ⟨hlive hfits.1, hfits.2⟩
      | sendFinal _ _ => exact absurd hrecord (TaskView.Written.not_running hfits rfl)
      | sendObserved _ _ => exact absurd hrecord (hfits.1.not_running hfits.2)
      | _ => cases hid
    · rw [hview]
      exact hlive.cancel hrecord
    · exact absurd hrecord hover.not_running
  · refine (h j).aside (Aside.of_call [.sendCancelled i key] ⟨(by rintro ⟨⟩), (by rintro ⟨⟩)⟩
      (fun k hk => ?_) ?_ rfl .rfl rfl .rfl)
    · rw [List.mem_singleton.1 hk]
      exact ⟨(by rintro ⟨⟩), fun hid => hj (Option.some_inj.1 hid).symm⟩
    · rw [HashMap.lookup_modify, if_neg hj]

theorem stageAt_sendCancelled {key : Option K}
    (h : ∀ j, StageAt s (.sendCancelled i key :: rest) j)
    (hnext : ∀ k ∈ next, k.task = none ∧ k.announces = none) (j : TaskId) :
    StageAt (s.send (.cancelled i)) (next ++ rest) j := by
  by_cases hj : j = i
  · subst hj
    set v := s.view (.sendCancelled j key :: rest) j with hv
    have hcount : v.announcing = (rest.filterMap TaskCall.announces).count j + 1 :=
      List.count_cons_self
    have hview : (s.send (.cancelled j)).view (next ++ rest) j =
        ⟨v.record, v.told ++ [.cancelled j], v.announcing - 1⟩ := by
      have htold : (s.send (.cancelled j)).told j = s.told j ++ [.cancelled j] := told_send rfl
      rw [view, htold, List.filterMap_append,
        List.filterMap_eq_nil_iff.2 fun k hk => (hnext k hk).2, List.nil_append, hcount,
        Nat.add_sub_cancel]
      rfl
    have hpos : v.announcing ≠ 0 := hcount ▸ Nat.succ_ne_zero _
    refine (h j).recast _ rfl (fun k hk => (hnext k hk).1) (fun huntold => ?_)
      (fun k hk hid hfits => ?_) (fun hlive => ?_) fun hover => ?_
    · exact absurd (congrArg TaskView.announcing huntold) hpos
    · rw [hview]
      have hlive (hlive : v.Live j) := hlive.announce hpos
      cases k with
      | insertToken _ _ => exact absurd (congrArg TaskView.announcing hfits.1) hpos
      | recordStarted _ _ | sendStarted _ _ =>
        exact absurd (congrArg TaskView.announcing hfits) hpos
      | writeState _ _ => exact absurd (congrArg TaskView.announcing hfits.1) hpos
      | sendMsg _ _ | dropToken _ _ | finalize _ _ =>
        obtain rfl := Option.some_inj.1 hid
        exact hlive hfits
      | removeToken _ _ | retainKeys _ _ | checkCancelled _ _ =>
        obtain rfl := Option.some_inj.1 hid
        exact ⟨hlive hfits.1, hfits.2⟩
      | sendFinal _ _ => exact absurd hfits.2.2 hpos
      | sendObserved _ _ => exact absurd hfits.1.2.2 hpos
      | _ => cases hid
    · rw [hview]
      exact hlive.announce hpos
    · rw [hview]
      exact hover.announce hpos
  · refine (h j).aside (Aside.of_call _ ⟨(by rintro ⟨⟩), fun hid => hj (Option.some_inj.1 hid).symm⟩
      (fun k hk => ?_) rfl ?_ .rfl rfl .rfl)
    · rw [(hnext k hk).1, (hnext k hk).2]
      exact ⟨(by rintro ⟨⟩), (by rintro ⟨⟩)⟩
    · exact told_send_ne fun heq => hj heq.symm

/-- A record is inserted, and records of tasks that have been joined are dropped. -/
theorem stageAt_recordStarted {q : Submission K} (h : ∀ j, StageAt s (.recordStarted i q :: rest) j)
    (hp : Placed s (.recordStarted i q :: rest))
    (hjoined : ∀ j ∈ s.records.keys,
      (trimFinished (s.records.insert i .running)).lookup j = none →
        ¬s.Held TaskCall.unjoined rest j) (j : TaskId) :
    StageAt { s with records := trimFinished (s.records.insert i .running) }
      (.sendStarted i q :: rest) j := by
  by_cases hj : j = i
  · subst hj
    refine stageAt_moved (h j) hp rfl rfl fun hfits => ?_
    have hlookup : (trimFinished (s.records.insert j .running)).lookup j = some .running := by
      rcases lookup_trimFinished (s.records.insert j .running) j with heq | ⟨-, hne⟩
      · rw [heq, HashMap.lookup_insert_eq, if_pos rfl]
      · rw [HashMap.lookup_insert_eq, if_pos rfl] at hne
        exact absurd rfl hne
    have htold : s.told j = [] := congrArg TaskView.told hfits
    have hcount : (rest.filterMap TaskCall.announces).count j = 0 :=
      congrArg TaskView.announcing hfits
    have hview : view { s with records := trimFinished (s.records.insert j .running) }
        (.sendStarted j q :: rest) j = ⟨some .running, s.told j,
          (rest.filterMap TaskCall.announces).count j⟩ := by
      rw [view, hlookup]
      rfl
    rw [TaskCall.Fits, TaskView.Recorded, hview, htold, hcount]
  have hsent {k : TaskCall K} (hk : k ∈ [TaskCall.sendStarted i q]) :
      k.task ≠ some j ∧ k.announces ≠ some j := by
    rw [List.mem_singleton.1 hk]
    exact ne_of_task rfl hj
  have hlookup := lookup_trimFinished (s.records.insert i .running) j
  rw [HashMap.lookup_insert_eq, if_neg hj] at hlookup
  cases hst : s.records.lookup j with
  | none =>
    have heq : (trimFinished (s.records.insert i .running)).lookup j = s.records.lookup j := by
      rcases hlookup with heq | ⟨heq, -⟩
      · exact heq
      · rw [heq, hst]
    exact (h j).aside (Aside.of_call [.sendStarted i q] (ne_of_task rfl hj)
      (fun k hk => hsent hk) heq rfl .rfl rfl .rfl)
  | some st =>
    rcases hlookup with heq | ⟨hnone, hrunning⟩
    · exact (h j).aside (Aside.of_call [.sendStarted i q] (ne_of_task rfl hj)
        (fun k hk => hsent hk) heq rfl .rfl rfl .rfl)
    -- the record is dropped: it is that of a task that has been joined
    have hunheld := hjoined j ((HashMap.mem_keys_iff _ _).2 ⟨st, hst⟩) hnone
    set v := s.view (.recordStarted i q :: rest) j with hv
    have hrecord : v.record = some st := hst
    have hview : view { s with records := trimFinished (s.records.insert i .running) }
        (.sendStarted i q :: rest) j = ⟨none, v.told, v.announcing⟩ := by
      rw [view, hnone]
      rfl
    refine ⟨fun hf => ?_, fun k hk hid => ?_, fun hwait => ?_, fun hf hgone => ?_⟩
    · cases (congrArg TaskView.record ((h j).fresh hf)).symm.trans hrecord
    · rcases List.mem_cons.1 hk with rfl | hk
      · exact absurd hid (ne_of_task rfl hj).1
      have hfits := (h j).calls k (List.mem_cons_of_mem _ hk) hid
      rw [hview]
      cases k with
      | insertToken _ _ => cases (congrArg TaskView.record hfits.1).symm.trans hrecord
      | recordStarted _ _ => cases (congrArg TaskView.record hfits).symm.trans hrecord
      | sendStarted _ _ => exact absurd (congrArg TaskView.record hfits) hrunning
      | writeState _ _ => exact absurd (congrArg TaskView.record hfits.1) hrunning
      | sendMsg _ _ | dropToken _ _ | finalize _ _ | removeToken _ _ | retainKeys _ _
      | checkCancelled _ _ => exact absurd (.inr (.inr ⟨_, hk, hid⟩)) hunheld
      | sendFinal _ _ => exact ⟨.inl rfl, hfits.2⟩
      | sendObserved _ _ => exact ⟨⟨.inl rfl, hfits.1.2⟩, hfits.2⟩
      | _ => cases hid
    · exact absurd (hwait.imp_right .inl) hunheld
    · rw [hview]
      refine ((h j).gone hf ⟨fun k hk hid => ?_, hgone.queue, hgone.future⟩).dropped
      rcases List.mem_cons.1 hk with rfl | hk
      · exact absurd hid (ne_of_task rfl hj).1
      · exact hgone.calls k (List.mem_cons_of_mem _ hk) hid

theorem event_isSome {e : FutureEnd} {st : TaskState} (h : e.observed = some st)
    (id : TaskId) : (st.event id).isSome = true := by
  cases e <;> cases h <;> rfl

theorem thenWrite_none {q : Submission K} {id : TaskId} :
    ∀ k ∈ q.thenWrite id, k.task = none ∧ k.announces = none := by
  cases q with
  | blocking | async => intros; contradiction
  | unique key =>
    intro k hk
    rw [List.mem_singleton.1 hk]
    exact ⟨rfl, rfl⟩

theorem ne_of_none {j : TaskId} (h : c.task = none ∧ c.announces = none) :
    c.task ≠ some j ∧ c.announces ≠ some j := by
  rw [h.1, h.2]
  exact ⟨(by rintro ⟨⟩), (by rintro ⟨⟩)⟩

/-- The supervisor is sent the task. -/
theorem stageAt_sendMsg {q : Submission K} (h : ∀ j, StageAt s (.sendMsg i q :: rest) j)
    (hp : Placed s (.sendMsg i q :: rest)) (submitted : List (K × TaskId)) (j : TaskId) :
    StageAt { s with queue := s.queue ++ [i], submitted } (q.thenWrite i ++ rest) j := by
  by_cases hj : j = i
  · subst hj
    have hview : view { s with queue := s.queue ++ [j], submitted } (q.thenWrite j ++ rest) j =
        s.view (.sendMsg j q :: rest) j := by
      rw [view, announcing_of_ne (c := .sendMsg j q) (by rintro ⟨⟩)
        fun k hk => (ne_of_none (thenWrite_none k hk)).2]
      rfl
    have hlive : (s.view (.sendMsg j q :: rest) j).Live j := (h j).calls _ List.mem_cons_self rfl
    refine ⟨fun hf => ?_, fun k hk hid => ?_, fun _ => hview ▸ hlive, fun _ hgone => ?_⟩
    · exact absurd hf (hp.not_fresh (located_pos_of_mem List.mem_cons_self rfl))
    · rcases List.mem_append.1 hk with hk | hk
      · exact absurd hid (ne_of_none (thenWrite_none k hk)).1
      · exact absurd hid ((hp.task rfl).1 k hk)
    · exact absurd (List.mem_append_right _ (List.mem_singleton_self j)) hgone.queue
  · refine (h j).aside (Aside.of_call _ (ne_of_task rfl hj)
      (fun k hk => ne_of_none (thenWrite_none k hk)) rfl rfl ?_ rfl .rfl)
    simp [hj]

/-- A new id is taken. -/
theorem stageAt_fetchId {q : Submission K} (h : ∀ j, StageAt s (.fetchId q :: rest) j)
    (hp : Placed s (.fetchId q :: rest)) (hk : k.task = some s.nextId)
    (hfits : ∀ v : TaskView, v.Untold → k.Fits v) (j : TaskId) :
    StageAt { s with nextId := s.nextId + 1 } (k :: rest) j := by
  by_cases hj : j = s.nextId
  · subst hj
    have hfresh : s.Fresh s.nextId := .inr (Nat.le_refl _)
    have hview : view { s with nextId := s.nextId + 1 } (k :: rest) s.nextId =
        s.view (.fetchId q :: rest) s.nextId := by
      rw [view, List.filterMap_cons_none (announces_of_task hk)]
      rfl
    have huntold := (h s.nextId).fresh hfresh
    refine ⟨fun _ => hview ▸ huntold, fun l hl hid => ?_, fun hwait => ?_, fun _ hgone => ?_⟩
    · rcases List.mem_cons.1 hl with rfl | hl
      · exact hfits _ (hview ▸ huntold)
      · exact absurd hfresh (hp.not_fresh (located_pos_of_mem (List.mem_cons_of_mem _ hl) hid))
    · rcases hwait with hwait | hwait
      · exact absurd hfresh (hp.not_fresh (located_pos_of_queue _ hwait))
      · exact absurd hfresh (hp.not_fresh (located_pos_of_future _ hwait))
    · exact absurd hk (hgone.calls k List.mem_cons_self)
  · refine (h j).aside (Aside.of_call [k] ⟨(by rintro ⟨⟩), (by rintro ⟨⟩)⟩ (fun l hl => ?_)
      rfl rfl .rfl rfl (or_congr_right ?_))
    · rw [List.mem_singleton.1 hl]
      exact ne_of_task hk hj
    · exact ⟨Nat.le_of_succ_le, fun hle => Nat.lt_of_le_of_ne hle (Ne.symm hj)⟩

/-- The supervisor receives a task and starts its future. -/
theorem stageAt_receive {queue : List TaskId} (h : ∀ j, StageAt s (.supervise :: rest) j)
    (hqueue : s.queue = i :: queue) (j : TaskId) :
    StageAt { s with queue, futures := s.futures.insert i none } (.supervise :: rest) j := by
  by_cases hj : j = i
  · subst hj
    refine ⟨(h j).fresh, (h j).calls, fun _ => (h j).waiting (.inl (hqueue ▸ List.mem_cons_self)),
      fun _ hgone => ?_⟩
    have hfuture := hgone.future
    simp [HashMap.containsKey_insert] at hfuture
  · refine (h j).aside (Aside.of_call [.supervise] ⟨(by rintro ⟨⟩), (by rintro ⟨⟩)⟩
      (fun l hl => ?_) rfl rfl ?_ ?_ .rfl)
    · rw [List.mem_singleton.1 hl]
      exact ⟨(by rintro ⟨⟩), (by rintro ⟨⟩)⟩
    · rw [hqueue]
      simp [hj]
    · simp [HashMap.containsKey_insert, hj]

/-- A future that has ended is joined. -/
theorem stageAt_join {e : FutureEnd} {st : TaskState} (h : ∀ j, StageAt s (c :: rest) j)
    (hc : c.task = none ∧ c.announces = none) (he : s.futures.lookup i = some (some e))
    (hst : e.observed = some st) (j : TaskId) :
    StageAt { s with futures := s.futures.erase i } ([.removeToken i st, c] ++ rest) j := by
  have hkey : s.futures.containsKey i = true := (HashMap.containsKey_iff _ _).2 ⟨_, he⟩
  by_cases hj : j = i
  · subst hj
    have hview : view { s with futures := s.futures.erase j } ([.removeToken j st, c] ++ rest) j =
        s.view (c :: rest) j := rfl
    have hlive := (h j).waiting (.inr hkey)
    refine ⟨(h j).fresh, fun k hk hid => ?_, fun _ => hlive, fun _ hgone => ?_⟩
    · rcases List.mem_cons.1 hk with rfl | hk
      · exact ⟨hlive, event_isSome hst j⟩
      · exact (h j).calls k hk hid
    · exact absurd rfl (hgone.calls (.removeToken j st) List.mem_cons_self)
  · refine (h j).aside (Aside.of_call _ (ne_of_none hc) (fun k hk => ?_) rfl rfl .rfl ?_ .rfl)
    · rcases List.mem_cons.1 hk with rfl | hk
      · exact ne_of_task rfl hj
      · rw [List.mem_singleton.1 hk]
        exact ne_of_none hc
    · simp [HashMap.containsKey_erase, hj]

variable {x : TaskChoice} {o : Outcome (TaskManager K) (TaskCall K)}

theorem resubmit_none (key : Option K) :
    ∀ k ∈ TaskCall.resubmit key, k.task = none ∧ k.announces = none := by
  cases key with
  | none => intros; contradiction
  | some key =>
    intro k hk
    rw [List.mem_singleton.1 hk]
    exact ⟨rfl, rfl⟩

theorem stageAt_joinNext (h : ∀ j, StageAt s (c :: rest) j)
    (hended : ∀ id e, s.futures.lookup id = some (some e) → e.observed.isSome = true)
    (hc : c.task = none ∧ c.announces = none) (ho : s.joinNext c x = some o) (j : TaskId) :
    StageAt o.shared (o.next ++ rest) j := by
  cases x with
  | tick | timeout => cases ho
  | join i =>
    simp only [joinNext, andThen] at ho
    split at ho
    · rename_i e he
      obtain ⟨st, hst⟩ := Option.isSome_iff_exists.1 (hended i e he)
      cases ho
      rw [hst]
      exact stageAt_join h hc he hst j
    · cases ho

theorem stageAt_exit (h : ∀ j, StageAt s (.drain :: rest) j)
    (hidle : s.queue = [] ∧ s.futures.keys = []) (j : TaskId) :
    StageAt { s with receiving := false, queue := [], futures := ∅ } rest j := by
  refine stageAt_idle [] h ⟨rfl, rfl⟩ (by rintro _ ⟨⟩) j hidle.1.symm ?_
  exact AList.ext (List.map_eq_nil_iff.1 hidle.2).symm

section Exec

variable [DecidableEq K]

theorem stageAt_exec (h : ∀ j, StageAt s (c :: rest) j) (hp : Placed s (c :: rest))
    (hended : ∀ id e, s.futures.lookup id = some (some e) → e.observed.isSome = true)
    (hproper : c.Proper x s rest) (ho : c.exec x s = some o) (j : TaskId) :
    StageAt o.shared (o.next ++ rest) j := by
  cases c with
  | readKey key =>
    simp only [TaskCall.exec, andThen] at ho
    split at ho <;> cases ho <;>
      refine stageAt_idle _ h ⟨rfl, rfl⟩ (fun k hk => ?_) j <;>
      rw [List.mem_singleton.1 hk] <;> exact ⟨rfl, rfl⟩
  | lookupToken i key =>
    simp only [TaskCall.exec, andThen] at ho
    split at ho <;> cases ho
    · refine stageAt_idle _ h ⟨rfl, rfl⟩ (fun k hk => ?_) j
      rw [List.mem_singleton.1 hk]
      exact ⟨rfl, rfl⟩
    · exact stageAt_idle _ h ⟨rfl, rfl⟩ (resubmit_none key) j
  | cancelToken i key =>
    cases ho
    refine stageAt_idle [.markCancelled i key] h ⟨rfl, rfl⟩ (fun k hk => ?_) j
    rw [List.mem_singleton.1 hk]
    exact ⟨rfl, rfl⟩
  | markCancelled i key =>
    simp only [TaskCall.exec, andThen] at ho
    split at ho <;> cases ho
    · rename_i hrunning
      exact stageAt_markCancelled h hrunning (hproper hrunning) j
    · exact stageAt_idle _ h ⟨rfl, rfl⟩ (resubmit_none key) j
  | sendCancelled i key =>
    cases ho
    exact stageAt_sendCancelled h (resubmit_none key) j
  | fetchId q =>
    cases ho
    refine stageAt_fetchId h hp ?_ (fun v hv => ?_) j
    · split <;> rfl
    · split
      · exact hv
      · rename_i hq
        exact ⟨hv, hq⟩
  | insertToken i q =>
    cases ho
    refine stageAt_next h hp rfl rfl (fun _ _ => ?_) (fun hfits => ?_) j
    · exact ⟨rfl, rfl⟩
    · exact hfits.1
  | recordStarted i q =>
    cases ho
    exact stageAt_recordStarted h hp hproper j
  | sendStarted i q =>
    cases ho
    refine stageAt_next h hp rfl rfl (fun a ha => ?_) (fun hfits => ?_) j
    · exact ⟨rfl, told_send_ne fun heq => ha heq.symm⟩
    · have habout : (TaskEvent.started i).about = i := rfl
      have hview := view_send (s := s) (c := .sendStarted i q) [.sendMsg i q] rest habout rfl
        (List.forall_mem_singleton.2 (by rintro ⟨⟩))
      exact .inl (hview.symm ▸ TaskView.Recorded.started hfits)
  | sendMsg i q =>
    simp only [TaskCall.exec, andThen] at ho
    split at ho <;> cases ho
    · exact stageAt_sendMsg h hp _ j
    · refine stageAt_next h hp rfl ?_ (fun _ _ => ?_) (fun hfits => ?_) j
      · split <;> rfl
      · exact ⟨rfl, rfl⟩
      · split <;> exact hfits
  | dropToken i q =>
    cases ho
    refine stageAt_next h hp rfl rfl (fun _ _ => ?_) (fun hfits => ?_) j
    · exact ⟨rfl, rfl⟩
    · exact hfits
  | finalize i q =>
    cases ho
    refine stageAt_next h hp rfl rfl (fun a ha => ?_) (fun hfits => ?_) j
    · exact ⟨by rw [HashMap.lookup_modify, if_neg ha], rfl⟩
    · have hrunning := TaskView.Live.running hfits hproper
      exact (view_modify [.sendFinal i q] _ hrunning rfl
        (List.forall_mem_singleton.2 (by rintro ⟨⟩))).symm ▸ hrunning.written _
  | sendFinal i q =>
    cases ho
    refine stageAt_over _ h hp rfl thenWrite_none (fun a ha => ?_) (fun hfits => ?_) j
    · exact ⟨rfl, told_send_ne fun heq => ha heq.symm⟩
    · have habout : (TaskEvent.failed i supervisorGone).about = i := rfl
      have hview := view_send (s := s) (c := .sendFinal i q) (q.thenWrite i) rest habout rfl
        fun k hk => (ne_of_none (thenWrite_none k hk)).2
      exact hview.symm ▸ TaskView.Written.over hfits rfl
  | writeKey key i =>
    cases ho
    exact stageAt_idle [] h ⟨rfl, rfl⟩ (by rintro _ ⟨⟩) j
  | supervise =>
    simp only [TaskCall.exec, andThen] at ho
    split at ho
    · cases ho
      refine stageAt_idle [.drain] h ⟨rfl, rfl⟩ (fun k hk => ?_) j
      rw [List.mem_singleton.1 hk]
      exact ⟨rfl, rfl⟩
    · split at ho
      · rename_i i queue hqueue
        cases ho
        exact stageAt_receive h hqueue j
      · exact stageAt_joinNext h hended ⟨rfl, rfl⟩ ho j
  | drain =>
    cases x with
    | timeout =>
      cases ho
      exact stageAt_exit h (hproper rfl) j
    | tick =>
      simp only [TaskCall.exec] at ho
      split at ho <;> cases ho
      exact stageAt_exit h (hproper rfl) j
    | join i =>
      have hjoin : s.joinNext .drain (.join i) = some o := ho
      exact stageAt_joinNext h hended ⟨rfl, rfl⟩ hjoin j
  | removeToken i st =>
    cases ho
    refine stageAt_next h hp rfl rfl (fun _ _ => ?_) (fun hfits => ?_) j
    · exact ⟨rfl, rfl⟩
    · exact hfits
  | retainKeys i st =>
    cases ho
    refine stageAt_next h hp rfl rfl (fun _ _ => ?_) (fun hfits => ?_) j
    · exact ⟨rfl, rfl⟩
    · exact hfits
  | checkCancelled i st =>
    simp only [TaskCall.exec, andThen, done] at ho
    split at ho <;> cases ho
    · rename_i hcancelled
      refine stageAt_over [] h hp rfl (by rintro _ ⟨⟩) (fun _ _ => ?_) (fun hfits => ?_) j
      · exact ⟨rfl, rfl⟩
      · exact hfits.1.over hcancelled
    · rename_i hcancelled
      refine stageAt_next h hp rfl rfl (fun _ _ => ?_) (fun hfits => ?_) j
      · exact ⟨rfl, rfl⟩
      · exact ⟨hfits.1.running hcancelled, hfits.2⟩
  | writeState i st =>
    cases ho
    refine stageAt_next h hp rfl rfl (fun a ha => ?_) (fun hfits => ?_) j
    · exact ⟨by rw [HashMap.lookup_modify, if_neg ha], rfl⟩
    · have hview := view_modify [.sendObserved i st] st hfits.1 rfl
        (List.forall_mem_singleton.2 (by rintro ⟨⟩))
      exact ⟨hview.symm ▸ hfits.1.written st, hfits.2⟩
  | sendObserved i st =>
    cases ho
    obtain ⟨hwritten, hsome⟩ : _ ∧ _ := (h i).calls _ List.mem_cons_self rfl
    obtain ⟨e, he⟩ := Option.isSome_iff_exists.1 hsome
    rw [he]
    refine stageAt_over [] h hp rfl (by rintro _ ⟨⟩) (fun a ha => ?_) (fun _ => ?_) j
    · exact ⟨rfl, told_send_ne fun heq => ha (heq.symm.trans (TaskState.about_of_event he))⟩
    · have hview := view_send (s := s) (c := .sendObserved i st) [] rest (TaskState.about_of_event he)
        rfl (by rintro _ ⟨⟩)
      exact hview.symm ▸ hwritten.over he

end Exec

end TaskManager

end Waywallen
