import Waywallen.Tasks.Manager

/-!
# Where a task is

From the moment its id is taken until its end has been handled a task is in one place: in the hands
of a call that submits it or handles its end, in the channel, or in the join set.
-/

namespace Waywallen

open TaskPool

variable {K : Type}

/-- The task that a call submits or whose end it handles. -/
def TaskCall.task : TaskCall K → Option TaskId
  | insertToken id _ | recordStarted id _ | sendStarted id _ | sendMsg id _ | dropToken id _
  | finalize id _ | sendFinal id _ | removeToken id _ | retainKeys id _ | checkCancelled id _
  | writeState id _ | sendObserved id _ => some id
  | _ => none

namespace TaskManager

/-- In how many places a task is. -/
def located (s : TaskManager K) (cs : List (TaskCall K)) (id : TaskId) : ℕ :=
  (cs.filterMap TaskCall.task).count id + s.queue.count id + (s.futures.containsKey id).toNat

/-- The id has not been taken; the first one is 1. -/
def Fresh (s : TaskManager K) (id : TaskId) : Prop := id = 0 ∨ s.nextId ≤ id

/-- No task is in two places, and none whose id is still to be taken is in any. -/
structure Placed (s : TaskManager K) (cs : List (TaskCall K)) : Prop where
  pos : 0 < s.nextId
  once : ∀ id, s.located cs id ≤ 1
  fresh : ∀ id, s.Fresh id → s.located cs id = 0

variable {s : TaskManager K} {c : TaskCall K} {cs rest : List (TaskCall K)} {id : TaskId}

theorem located_perm {cs' : List (TaskCall K)} (h : cs.Perm cs') (id : TaskId) :
    s.located cs id = s.located cs' id := by
  rw [located, located, (h.filterMap _).count_eq]

theorem Placed.perm {cs' : List (TaskCall K)} (h : Placed s cs) (hperm : cs.Perm cs') :
    Placed s cs' where
  pos := h.pos
  once id := located_perm hperm id ▸ h.once id
  fresh id hid := located_perm hperm id ▸ h.fresh id hid

theorem located_cons (c : TaskCall K) (rest : List (TaskCall K)) (id : TaskId) :
    s.located (c :: rest) id = (if c.task = some id then 1 else 0) + s.located rest id := by
  rw [located, located]
  cases hc : c.task with
  | none => simp [List.filterMap_cons_none hc]
  | some j =>
    rw [List.filterMap_cons_some hc, List.count_cons]
    simp only [Option.some_inj, beq_iff_eq]
    omega

theorem located_pos_of_mem (hc : c ∈ cs) (hid : c.task = some id) : 0 < s.located cs id := by
  have hmem : id ∈ cs.filterMap TaskCall.task := List.mem_filterMap.2 ⟨c, hc, hid⟩
  have hpos := List.count_pos_iff.2 hmem
  rw [located]
  omega

theorem located_pos_of_queue (cs : List (TaskCall K)) (hid : id ∈ s.queue) : 0 < s.located cs id := by
  have hpos := List.count_pos_iff.2 hid
  rw [located]
  omega

theorem located_pos_of_future (cs : List (TaskCall K))
    (hid : s.futures.containsKey id = true) : 0 < s.located cs id := by
  rw [located, hid, Bool.toNat_true]
  omega

/-- A task that is submitted or handled is nowhere else. -/
theorem Placed.task (h : Placed s (c :: rest)) (hid : c.task = some id) :
    (∀ k ∈ rest, k.task ≠ some id) ∧ id ∉ s.queue ∧ s.futures.lookup id = none := by
  have hone := h.once id
  rw [located_cons, if_pos hid] at hone
  refine ⟨fun k hk htask => ?_, fun hq => ?_, ?_⟩
  · have hpos := located_pos_of_mem (s := s) hk htask
    omega
  · have hpos := located_pos_of_queue rest hq
    omega
  · by_contra hne
    have hkey : s.futures.containsKey id = true := Option.ne_none_iff_isSome.1 hne
    have hpos := located_pos_of_future rest hkey
    omega

theorem Placed.not_fresh (h : Placed s cs) (hid : 0 < s.located cs id) : ¬s.Fresh id :=
  fun hfresh => absurd (h.fresh id hfresh) hid.ne'

theorem Placed.task_lt (h : Placed s cs) (hc : c ∈ cs) (hid : c.task = some id) :
    id < s.nextId :=
  Nat.lt_of_not_le fun hle => h.not_fresh (located_pos_of_mem hc hid) (.inr hle)

variable {x : TaskChoice} {o : Outcome (TaskManager K) (TaskCall K)}

theorem located_append (next rest : List (TaskCall K)) (id : TaskId) :
    s.located (next ++ rest) id = (next.filterMap TaskCall.task).count id + s.located rest id := by
  rw [located, located, List.filterMap_append, List.count_append]
  omega

/-- A call that leaves the channel and the join set as they are hands its task on, or lets go of
it. -/
theorem located_handOn {s' : TaskManager K} {next : List (TaskCall K)}
    (hqueue : s'.queue = s.queue) (hfutures : s'.futures = s.futures)
    (hnext : next.filterMap TaskCall.task = c.task.toList ∨
      next.filterMap TaskCall.task = []) (id : TaskId) :
    s'.located (next ++ rest) id ≤ s.located (c :: rest) id := by
  have hrest : s'.located rest id = s.located rest id := by rw [located, located, hqueue, hfutures]
  rw [located_append, located_cons, hrest]
  rcases hnext with heq | heq
  · rw [heq]
    cases c.task with
    | none => simp
    | some j => simp [List.count_singleton]
  · rw [heq]
    simp

theorem located_joinNext {loop : TaskCall K} (hloop : loop.task = none)
    (ho : s.joinNext loop x = some o) (id : TaskId) :
    o.shared.located (o.next ++ rest) id ≤ s.located (loop :: rest) id := by
  cases x with
  | tick | timeout => cases ho
  | join j =>
    simp only [joinNext, andThen] at ho
    split at ho
    · rename_i e he
      cases ho
      have hcount : (e.observed.elim [loop] fun observed =>
          [TaskCall.removeToken j observed, loop]).filterMap TaskCall.task =
            (e.observed.map fun _ => j).toList := by
        cases e.observed with
        | none =>
          rw [Option.elim_none, List.filterMap_cons_none hloop]
          rfl
        | some observed =>
          have htask : (TaskCall.removeToken j observed : TaskCall K).task = some j := rfl
          rw [Option.elim_some, List.filterMap_cons_some htask, List.filterMap_cons_none hloop]
          rfl
      have hj : s.futures.containsKey j = true := (HashMap.containsKey_iff _ _).2 ⟨_, he⟩
      rw [located_append, located_cons, hloop, hcount]
      simp only [located, HashMap.containsKey_erase]
      by_cases hid : id = j
      · subst hid
        rw [hj]
        cases e.observed <;> simp
        omega
      · have hne : ¬j = id := fun h => hid h.symm
        cases e.observed <;> simp [hne, hid]
    · cases ho

theorem located_exit (id : TaskId) :
    { s with receiving := false, queue := [], futures := ∅ }.located rest id ≤
      s.located rest id := by
  simp only [located, List.count_nil, HashMap.containsKey_empty, Bool.toNat_false]
  omega

/-- A request that has just been made has no task yet. -/
theorem Placed.accept (h : Placed s cs) (q : TaskRequest K) :
    Placed s (cs ++ q.task.stack) := by
  have hnone : q.task.stack.filterMap TaskCall.task = [] := by
    cases q with
    | submit q => cases q <;> rfl
    | cancel id => rfl
  have hsame (id : TaskId) : s.located (cs ++ q.task.stack) id = s.located cs id := by
    rw [located, located, List.filterMap_append, hnone, List.append_nil]
  exact ⟨h.pos, fun id => hsame id ▸ h.once id, fun id hid => hsame id ▸ h.fresh id hid⟩

theorem placed_start : Placed ({} : TaskManager K) [.supervise] :=
  ⟨Nat.one_pos, fun _ => Nat.zero_le 1, fun _ _ => rfl⟩

section Exec

variable [DecidableEq K]

theorem spawn_exec (ho : c.exec x s = some o) : o.spawn = [] := by
  cases c <;>
    simp only [TaskCall.exec, done, andThen, TaskManager.exit, joinNext] at ho <;>
    (repeat' split at ho) <;> cases ho <;> rfl

theorem abort_exec (ho : c.exec x s = some o) : o.abort = [] := by
  cases c <;>
    simp only [TaskCall.exec, done, andThen, TaskManager.exit, joinNext] at ho <;>
    (repeat' split at ho) <;> cases ho <;> rfl

/-- A call moves its task on; the only new one is the one whose id it takes. -/
theorem located_exec (rest : List (TaskCall K)) (ho : c.exec x s = some o) (id : TaskId) :
    o.shared.located (o.next ++ rest) id ≤ s.located (c :: rest) id +
      if o.shared.nextId = s.nextId + 1 ∧ id = s.nextId then 1 else 0 := by
  have hsame (h : o.shared.located (o.next ++ rest) id ≤ s.located (c :: rest) id) :
      o.shared.located (o.next ++ rest) id ≤ s.located (c :: rest) id +
        if o.shared.nextId = s.nextId + 1 ∧ id = s.nextId then 1 else 0 :=
    Nat.le_trans h (Nat.le_add_right _ _)
  have hexit (loop : TaskCall K) (hloop : loop.task = none) :
      { s with receiving := false, queue := [], futures := ∅ }.located rest id ≤
        s.located (loop :: rest) id := by
    rw [located_cons]
    exact Nat.le_trans (located_exit id) (Nat.le_add_left _ _)
  cases c with
  | fetchId q =>
    simp only [TaskCall.exec, andThen] at ho
    cases ho
    have hcount : [if q = Submission.blocking then .recordStarted s.nextId q
        else .insertToken s.nextId q].filterMap TaskCall.task = [s.nextId] := by
      split <;> rfl
    rw [located_append, located_cons, hcount, List.count_singleton]
    have hrest : { s with nextId := s.nextId + 1 }.located rest id = s.located rest id := rfl
    dsimp only
    rw [hrest]
    simp only [TaskCall.task, beq_iff_eq, true_and, eq_comm (a := id)]
    omega
  | supervise =>
    simp only [TaskCall.exec, andThen] at ho
    split at ho
    · cases ho
      exact hsame (located_handOn rfl rfl (.inl rfl) id)
    · split at ho
      · rename_i j queue hqueue
        cases ho
        refine hsame ?_
        have hnone : [TaskCall.supervise (K := K)].filterMap TaskCall.task = [] := rfl
        rw [located_append, located_cons, hnone, if_neg (by rintro ⟨⟩)]
        simp only [located, hqueue, HashMap.containsKey_insert, List.count_cons, List.count_nil,
          Nat.zero_add]
        by_cases hid : id = j
        · subst hid
          simp
          omega
        · have hne : ¬j = id := fun h => hid h.symm
          simp [hid, hne]
      · exact hsame (located_joinNext rfl ho id)
  | drain =>
    cases x with
    | timeout =>
      cases ho
      exact hsame (hexit .drain rfl)
    | tick =>
      simp only [TaskCall.exec] at ho
      split at ho
      · cases ho
        exact hsame (hexit .drain rfl)
      · cases ho
    | join j =>
      have hjoin : s.joinNext .drain (.join j) = some o := ho
      exact hsame (located_joinNext rfl hjoin id)
  | sendMsg j q =>
    simp only [TaskCall.exec, andThen] at ho
    split at ho <;> cases ho
    · refine hsame ?_
      have hcount : (q.thenWrite j).filterMap TaskCall.task = [] := by cases q <;> rfl
      rw [located_append, located_cons, hcount]
      simp only [located, List.count_append, List.count_singleton, TaskCall.task,
        Option.some_inj, beq_iff_eq, List.count_nil]
      omega
    · refine hsame (located_handOn rfl rfl (.inl ?_) id)
      split <;> rfl
  | sendFinal j q =>
    cases ho
    refine hsame (located_handOn rfl rfl (.inr ?_) id)
    cases q <;> rfl
  | lookupToken j key =>
    simp only [TaskCall.exec, andThen] at ho
    split at ho <;> cases ho
    · exact hsame (located_handOn rfl rfl (.inl rfl) id)
    · refine hsame (located_handOn rfl rfl (.inr ?_) id)
      cases key <;> rfl
  | markCancelled j key =>
    simp only [TaskCall.exec, andThen] at ho
    split at ho <;> cases ho
    · exact hsame (located_handOn rfl rfl (.inl rfl) id)
    · refine hsame (located_handOn rfl rfl (.inr ?_) id)
      cases key <;> rfl
  | sendCancelled j key =>
    cases ho
    refine hsame (located_handOn rfl rfl (.inr ?_) id)
    cases key <;> rfl
  | _ =>
    simp only [TaskCall.exec, andThen, done] at ho
    (repeat' split at ho) <;> cases ho <;>
      exact hsame (located_handOn rfl rfl (by first | exact .inl rfl | exact .inr rfl) id)

theorem nextId_exec (ho : c.exec x s = some o) : s.nextId ≤ o.shared.nextId := by
  cases c <;>
    simp only [TaskCall.exec, done, andThen, TaskManager.exit, joinNext] at ho <;>
    (repeat' split at ho) <;> cases ho <;> first | exact Nat.le_refl _ | exact Nat.le_succ _

theorem Placed.exec (h : Placed s (c :: rest)) (ho : c.exec x s = some o) :
    Placed o.shared (o.next ++ rest) where
  pos := Nat.lt_of_lt_of_le h.pos (nextId_exec ho)
  once id := by
    have hmoved := located_exec rest ho id
    have hone := h.once id
    by_cases hnew : o.shared.nextId = s.nextId + 1 ∧ id = s.nextId
    · have hzero := h.fresh id (.inr hnew.2.ge)
      rw [if_pos hnew] at hmoved
      omega
    · rw [if_neg hnew] at hmoved
      omega
  fresh id hid := by
    have hmoved := located_exec rest ho id
    have hzero := h.fresh id (hid.imp_right (Nat.le_trans (nextId_exec ho)))
    rw [if_neg fun hnew => ?_] at hmoved
    · omega
    · rw [Fresh, hnew.1, hnew.2] at hid
      have hpos := h.pos
      rcases hid with hid | hid
      · exact absurd hid hpos.ne'
      · exact absurd hid (Nat.not_succ_le_self _)

/-- An event of the environment moves nothing. -/
theorem located_act {e : TaskSignal} {s' : TaskManager K}
    (hs : (semantics (K := K)).act e s = some s') (id : TaskId) :
    s'.located cs id = s.located cs id := by
  cases e with
  | shutdown =>
    cases hs
    rfl
  | finish j e =>
    simp only [semantics, finish] at hs
    split at hs
    · rename_i hj
      cases hs
      have hkey : s.futures.containsKey j = true := (HashMap.containsKey_iff _ _).2 ⟨_, hj.1⟩
      simp only [located, HashMap.containsKey_insert]
      by_cases hid : id = j
      · subst hid
        rw [hkey, Bool.or_true]
      · rw [decide_eq_false hid, Bool.false_or]
    · cases hs

theorem nextId_act {e : TaskSignal} {s' : TaskManager K}
    (hs : (semantics (K := K)).act e s = some s') : s'.nextId = s.nextId := by
  cases e with
  | shutdown =>
    cases hs
    rfl
  | finish j e =>
    simp only [semantics, finish] at hs
    split at hs <;> cases hs
    rfl

theorem Placed.act {e : TaskSignal} {s' : TaskManager K} (h : Placed s cs)
    (hs : (semantics (K := K)).act e s = some s') : Placed s' cs where
  pos := nextId_act hs ▸ h.pos
  once id := located_act hs id ▸ h.once id
  fresh id hid := by
    rw [Fresh, nextId_act hs] at hid
    rw [located_act hs]
    exact h.fresh id hid

theorem semantics_steady : (semantics (K := K)).Steady where
  abort ho := abort_exec ho
  spawn ho t ht := by
    rw [spawn_exec ho] at ht
    cases ht
  accept {q _ a} hq := by
    cases hq
    cases q with
    | submit q => cases q <;> exact ⟨rfl, rfl⟩
    | cancel id => exact ⟨rfl, rfl⟩

end Exec

end TaskManager

end Waywallen
