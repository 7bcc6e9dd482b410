import Waywallen.Tasks.Terminal

/-!
# Nothing is left behind

A token and a key are in the maps only while their task waits, runs or is about to be joined; so the
maps are empty once every task has been handled.
-/

namespace Waywallen

open TaskPool

variable {K : Type}

namespace TaskManager

variable {s s' : TaskManager K} {c : TaskCall K} {cs rest : List (TaskCall K)}
  {f : TaskCall K → Option TaskId} {id i : TaskId}

theorem Held.perm {cs' : List (TaskCall K)} (h : s.Held f cs id) (hperm : cs.Perm cs') :
    s.Held f cs' id :=
  h.imp_right (.imp_right fun ⟨c, hc, hid⟩ => ⟨c, hperm.mem_iff.1 hc, hid⟩)

/-- A task stays where it is, or goes on with the next call. -/
theorem Held.goOn (h : s.Held f (c :: rest) id) (next : List (TaskCall K))
    (hqueue : id ∈ s.queue → s'.Held f (next ++ rest) id)
    (hfuture : s.futures.containsKey id = true → s'.Held f (next ++ rest) id)
    (hc : f c = some id → s'.Held f (next ++ rest) id) : s'.Held f (next ++ rest) id := by
  rcases h with hmem | hkey | ⟨k, hk, hid⟩
  · exact hqueue hmem
  · exact hfuture hkey
  · rcases List.mem_cons.1 hk with rfl | hk
    · exact hc hid
    · exact .inr (.inr ⟨k, List.mem_append_right _ hk, hid⟩)

/-- A state a task has ended in stays, or goes with the record. -/
def KeepsEnds (s s' : TaskManager K) : Prop :=
  ∀ id st, st ≠ .running → s.records.lookup id = some st →
    s'.records.lookup id = some st ∨ s'.records.lookup id = none

theorem keepsEnds_of_eq (h : s'.records = s.records) : KeepsEnds s s' :=
  fun _ _ _ hid => .inl (h ▸ hid)

/-- Only the record of a running task is written. -/
theorem keepsEnds_modify (hrunning : ∀ st, s.records.lookup i = some st → st = .running)
    (st : TaskState) : KeepsEnds s { s with records := s.records.modify i fun _ => st } := by
  intro id old hold hid
  refine .inl ?_
  rw [HashMap.lookup_modify]
  split
  · rename_i heq
    exact absurd (hrunning old (heq ▸ hid)) hold
  · exact hid

/-- Every future has ended and has been handled, and no call is under way. -/
structure Quiet (p : TasksPool K) : Prop where
  queue : p.shared.queue = []
  futures : p.shared.futures.keys = []
  calls : ∀ c ∈ calls p.tasks, c = .supervise ∨ c = .drain

theorem Quiet.not_held {p : TasksPool K} (h : Quiet p)
    (hf : ∀ c ∈ TaskPool.calls p.tasks, f c = none) :
    ¬p.shared.Held f (TaskPool.calls p.tasks) id := by
  rintro (hmem | hkey | ⟨c, hc, hid⟩)
  · rw [h.queue] at hmem
    cases hmem
  · have hmem := (HashMap.mem_keys_iff _ _).2 ((HashMap.containsKey_iff _ _).1 hkey)
    rw [h.futures] at hmem
    cases hmem
  · cases (hf c hc).symm.trans hid

variable [DecidableEq K]

/-- What is in the maps belongs to a task that is still to be handled. -/
structure Cleared (s : TaskManager K) (cs : List (TaskCall K)) : Prop where
  ended : ∀ id e, s.futures.lookup id = some (some e) → e.observed.isSome = true
  tokens : ∀ id, s.cancelTokens.containsKey id = true → s.Held TaskCall.holdsToken cs id
  keys : ∀ key id, s.uniqueKeys.lookup key = some id → s.Held TaskCall.holdsKey cs id

theorem Cleared.perm {cs' : List (TaskCall K)} (h : Cleared s cs) (hperm : cs.Perm cs') :
    Cleared s cs' :=
  ⟨h.ended, fun id hid => (h.tokens id hid).perm hperm,
    fun key id hid => (h.keys key id hid).perm hperm⟩

/-- A call that leaves the channel and the join set as they are. -/
theorem Cleared.handOn (h : Cleared s (c :: rest)) (next : List (TaskCall K))
    (htokens : ∀ id, s'.cancelTokens.containsKey id = true →
      (s.cancelTokens.containsKey id = true ∧
        (c.holdsToken = some id → ∃ k ∈ next, k.holdsToken = some id)) ∨
          ∃ k ∈ next, k.holdsToken = some id)
    (hkeys : ∀ key id, s'.uniqueKeys.lookup key = some id →
      (s.uniqueKeys.lookup key = some id ∧
        (c.holdsKey = some id → ∃ k ∈ next, k.holdsKey = some id)) ∨
          s.Held TaskCall.holdsKey rest id)
    (hqueue : s'.queue = s.queue := by rfl) (hfutures : s'.futures = s.futures := by rfl) :
    Cleared s' (next ++ rest) := by
  have hnext {f : TaskCall K → Option TaskId} {id : TaskId} (h : ∃ k ∈ next, f k = some id) :
      s'.Held f (next ++ rest) id := by
    obtain ⟨k, hk, hid⟩ := h
    exact .inr (.inr ⟨k, List.mem_append_left _ hk, hid⟩)
  have hstay {f : TaskCall K → Option TaskId} {id : TaskId} (h : s.Held f (c :: rest) id)
      (hc : f c = some id → ∃ k ∈ next, f k = some id) : s'.Held f (next ++ rest) id :=
    h.goOn next (fun hmem => .inl (hqueue ▸ hmem)) (fun hkey => .inr (.inl (hfutures ▸ hkey)))
      fun hid => hnext (hc hid)
  refine ⟨fun id e he => h.ended id e (hfutures ▸ he), fun id hid => ?_, fun key id hid => ?_⟩
  · rcases htokens id hid with ⟨hold, hc⟩ | hnew
    · exact hstay (h.tokens id hold) hc
    · exact hnext hnew
  · rcases hkeys key id hid with ⟨hold, hc⟩ | hnew
    · exact hstay (h.keys key id hold) hc
    · rcases hnew with hmem | hkey | ⟨k, hk, hid⟩
      · exact .inl (hqueue ▸ hmem)
      · exact .inr (.inl (hfutures ▸ hkey))
      · exact .inr (.inr ⟨k, List.mem_append_right _ hk, hid⟩)

/-- A call that holds nothing and leaves the maps as they are. -/
theorem Cleared.idle (h : Cleared s (c :: rest)) (next : List (TaskCall K))
    (hc : c.holdsToken = none ∧ c.holdsKey = none)
    (htokens : s'.cancelTokens = s.cancelTokens := by rfl)
    (hkeys : s'.uniqueKeys = s.uniqueKeys := by rfl)
    (hqueue : s'.queue = s.queue := by rfl) (hfutures : s'.futures = s.futures := by rfl) :
    Cleared s' (next ++ rest) := by
  refine h.handOn next (fun id hid => ?_) (fun key id hid => ?_) hqueue hfutures
  · rw [htokens] at hid
    exact .inl ⟨hid, fun heq => by cases hc.1.symm.trans heq⟩
  · rw [hkeys] at hid
    exact .inl ⟨hid, fun heq => by cases hc.2.symm.trans heq⟩

/-- The supervisor moves tasks along. -/
theorem Cleared.moved (h : Cleared s (c :: rest)) (next : List (TaskCall K))
    (hended : ∀ id e, s'.futures.lookup id = some (some e) → s.futures.lookup id = some (some e))
    (hc : c.holdsToken = none ∧ c.holdsKey = none)
    (hheld : ∀ f : TaskCall K → Option TaskId, (∀ i st, f (.removeToken i st) = some i) →
      ∀ id, id ∈ s.queue ∨ s.futures.containsKey id = true → s'.Held f (next ++ rest) id)
    (htokens : s'.cancelTokens = s.cancelTokens := by rfl)
    (hkeys : s'.uniqueKeys = s.uniqueKeys := by rfl) :
    Cleared s' (next ++ rest) := by
  refine ⟨fun id e he => h.ended id e (hended id e he), fun id hid => ?_, fun key id hid => ?_⟩
  · rw [htokens] at hid
    have hwaits := hheld TaskCall.holdsToken (fun _ _ => rfl) id
    exact (h.tokens id hid).goOn next (fun hmem => hwaits (.inl hmem))
      (fun hkey => hwaits (.inr hkey)) fun heq => by cases hc.1.symm.trans heq
  · rw [hkeys] at hid
    have hwaits := hheld TaskCall.holdsKey (fun _ _ => rfl) id
    exact (h.keys key id hid).goOn next (fun hmem => hwaits (.inl hmem))
      (fun hkey => hwaits (.inr hkey)) fun heq => by cases hc.2.symm.trans heq

/-- A future that has ended is joined. -/
theorem Cleared.joined (h : Cleared s (c :: rest)) {x : TaskChoice}
    {o : Outcome (TaskManager K) (TaskCall K)} (hc : c.holdsToken = none ∧ c.holdsKey = none)
    (ho : s.joinNext c x = some o) : Cleared o.shared (o.next ++ rest) := by
  cases x with
  | tick | timeout => cases ho
  | join i =>
    simp only [joinNext, andThen] at ho
    split at ho
    · rename_i e he
      obtain ⟨st, hst⟩ := Option.isSome_iff_exists.1 (h.ended i e he)
      cases ho
      rw [hst]
      refine h.moved [.removeToken i st, c] (fun id e' he' => ?_) hc fun f hf id hwaits => ?_
      · rw [HashMap.lookup_erase_eq] at he'
        split at he'
        · cases he'
        · exact he'
      · rcases hwaits with hmem | hkey
        · exact .inl hmem
        · by_cases hid : id = i
          · exact .inr (.inr ⟨.removeToken i st, List.mem_cons_self, hid ▸ hf i st⟩)
          · refine .inr (.inl ?_)
            simp [HashMap.containsKey_erase, hid, hkey]
    · cases ho

theorem Cleared.exited (h : Cleared s (.drain :: rest)) (hidle : s.queue = [] ∧ s.futures.keys = []) :
    Cleared { s with receiving := false, queue := [], futures := ∅ } rest := by
  refine h.moved [] (by rintro _ _ ⟨⟩) ⟨rfl, rfl⟩ fun f _ id hwaits => ?_
  rcases hwaits with hmem | hkey
  · rw [hidle.1] at hmem
    cases hmem
  · have hmem := (HashMap.mem_keys_iff _ _).2 ((HashMap.containsKey_iff _ _).1 hkey)
    rw [hidle.2] at hmem
    cases hmem

theorem Cleared.exec {x : TaskChoice} {o : Outcome (TaskManager K) (TaskCall K)}
    (h : Cleared s (c :: rest)) (hstage : ∀ j, StageAt s (c :: rest) j)
    (hproper : c.Proper x s rest) (ho : c.exec x s = some o) :
    Cleared o.shared (o.next ++ rest) := by
  cases c with
  | readKey _ | lookupToken _ _ | markCancelled _ _ | checkCancelled _ _ =>
    simp only [TaskCall.exec, andThen, done] at ho
    split at ho <;> cases ho <;> exact h.idle _ ⟨rfl, rfl⟩
  | cancelToken _ _ | sendCancelled _ _ | fetchId _ | finalize _ _ | sendFinal _ _ | writeState _ _
  | sendObserved _ _ =>
    cases ho
    exact h.idle _ ⟨rfl, rfl⟩
  | insertToken i q =>
    cases ho
    refine h.handOn _ (fun id hid => ?_) fun key id hid => .inl ⟨hid, (by rintro ⟨⟩)⟩
    have hq : q ≠ .blocking := ((hstage i).calls _ List.mem_cons_self rfl).2
    rw [HashMap.containsKey_insert, Bool.or_eq_true, decide_eq_true_iff] at hid
    rcases hid with rfl | hid
    · refine .inr ⟨.recordStarted id q, List.mem_cons_self, ?_⟩
      cases q <;> first | rfl | exact absurd rfl hq
    · exact .inl ⟨hid, (by rintro ⟨⟩)⟩
  | recordStarted i q =>
    cases ho
    refine h.handOn _ (fun id hid => .inl ⟨hid, fun hheld => ?_⟩)
      fun key id hid => .inl ⟨hid, (by rintro ⟨⟩)⟩
    refine ⟨.sendStarted i q, List.mem_cons_self, ?_⟩
    cases q <;> exact hheld
  | sendStarted i q =>
    cases ho
    refine h.handOn _ (fun id hid => .inl ⟨hid, fun hheld => ?_⟩)
      fun key id hid => .inl ⟨hid, (by rintro ⟨⟩)⟩
    refine ⟨.sendMsg i q, List.mem_cons_self, ?_⟩
    cases q <;> exact hheld
  | sendMsg i q =>
    simp only [TaskCall.exec, andThen] at ho
    split at ho <;> cases ho
    · refine ⟨h.ended, fun id hid => (h.tokens id hid).goOn _
        (fun hmem => .inl (List.mem_append_left _ hmem)) (fun hkey => .inr (.inl hkey)) fun hheld => ?_,
        fun key id hid => (h.keys key id hid).goOn _ (fun hmem => .inl (List.mem_append_left _ hmem))
          (fun hkey => .inr (.inl hkey)) (by rintro ⟨⟩)⟩
      refine .inl (List.mem_append_right _ (List.mem_singleton.2 ?_))
      cases q <;> first | exact (Option.some_inj.1 hheld).symm | cases hheld
    · refine h.handOn _ (fun id hid => .inl ⟨hid, fun hheld => ?_⟩)
        fun key id hid => .inl ⟨hid, (by rintro ⟨⟩)⟩
      refine ⟨_, List.mem_cons_self, ?_⟩
      cases q <;> exact hheld
  | dropToken i q =>
    cases ho
    refine h.handOn _ (fun id hid => ?_) fun key id hid => .inl ⟨hid, (by rintro ⟨⟩)⟩
    rw [HashMap.containsKey_erase, Bool.and_eq_true, decide_eq_true_iff] at hid
    exact .inl ⟨hid.2, fun heq => absurd (Option.some_inj.1 heq).symm hid.1⟩
  | writeKey key i =>
    cases ho
    refine h.handOn _ (fun id hid => .inl ⟨hid, (by rintro ⟨⟩)⟩) fun k id hid => ?_
    rw [HashMap.lookup_insert_eq] at hid
    split at hid
    · obtain rfl := Option.some_inj.1 hid
      exact .inr hproper
    · exact .inl ⟨hid, (by rintro ⟨⟩)⟩
  | supervise =>
    simp only [TaskCall.exec, andThen] at ho
    split at ho
    · cases ho
      exact h.idle _ ⟨rfl, rfl⟩
    · split at ho
      · rename_i i queue hqueue
        cases ho
        refine h.moved _ (fun id e he => ?_) ⟨rfl, rfl⟩ fun f _ id hwaits => ?_
        · rw [HashMap.lookup_insert_eq] at he
          split at he
          · cases he
          · exact he
        · rw [Held, HashMap.containsKey_insert]
          rw [hqueue] at hwaits
          rcases hwaits with hmem | hkey
          · rcases List.mem_cons.1 hmem with rfl | hmem
            · exact .inr (.inl (by simp))
            · exact .inl hmem
          · exact .inr (.inl (by simp [hkey]))
      · exact h.joined ⟨rfl, rfl⟩ ho
  | drain =>
    cases x with
    | timeout =>
      cases ho
      exact h.exited (hproper rfl)
    | tick =>
      simp only [TaskCall.exec] at ho
      split at ho <;> cases ho
      exact h.exited (hproper rfl)
    | join i =>
      have hjoin : s.joinNext .drain (.join i) = some o := ho
      exact h.joined ⟨rfl, rfl⟩ hjoin
  | removeToken i st =>
    cases ho
    refine h.handOn _ (fun id hid => ?_) fun key id hid => .inl ⟨hid, fun heq => ?_⟩
    · rw [HashMap.containsKey_erase, Bool.and_eq_true, decide_eq_true_iff] at hid
      exact .inl ⟨hid.2, fun heq => absurd (Option.some_inj.1 heq).symm hid.1⟩
    · exact ⟨.retainKeys i st, List.mem_cons_self, heq⟩
  | retainKeys i st =>
    cases ho
    refine h.handOn _ (fun id hid => .inl ⟨hid, (by rintro ⟨⟩)⟩) fun key id hid => ?_
    rw [HashMap.lookup_retain] at hid
    split at hid
    · rename_i hne
      refine .inl ⟨hid, fun heq => ?_⟩
      rw [hid, ← Option.some_inj.1 heq] at hne
      simp at hne
    · cases hid

/-! ## Over a whole run -/

theorem keepsEnds_exec {x : TaskChoice} {o : Outcome (TaskManager K) (TaskCall K)}
    (hstage : ∀ j, StageAt s (c :: rest) j) (hproper : c.Proper x s rest)
    (ho : c.exec x s = some o) : KeepsEnds s o.shared := by
  cases c with
  | markCancelled i key =>
    simp only [TaskCall.exec, andThen] at ho
    split at ho <;> cases ho
    · rename_i hrunning
      exact keepsEnds_modify (fun st hst => Option.some_inj.1 (hst.symm.trans hrunning)) _
    · exact keepsEnds_of_eq rfl
  | recordStarted i q =>
    cases ho
    intro id st _ hid
    have hne : id ≠ i := by
      rintro rfl
      have huntold := (hstage id).calls _ List.mem_cons_self rfl
      cases hid.symm.trans (congrArg TaskView.record huntold)
    rcases lookup_trimFinished (s.records.insert i .running) id with heq | ⟨hnone, -⟩
    · rw [HashMap.lookup_insert_eq, if_neg hne] at heq
      exact .inl (heq.trans hid)
    · exact .inr hnone
  | finalize i q =>
    cases ho
    refine keepsEnds_modify (fun st hst => ?_) _
    have hlive : (s.view (.finalize i q :: rest) i).Live i :=
      (hstage i).calls _ List.mem_cons_self rfl
    have hrecord := congrArg TaskView.record (hlive.running hproper)
    exact Option.some_inj.1 (hst.symm.trans hrecord)
  | writeState i st =>
    cases ho
    refine keepsEnds_modify (fun old hold => ?_) _
    have hfits := (hstage i).calls _ List.mem_cons_self rfl
    exact Option.some_inj.1 (hold.symm.trans (congrArg TaskView.record hfits.1))
  | _ =>
    simp only [TaskCall.exec, andThen, done, TaskManager.exit, joinNext] at ho
    (repeat' split at ho) <;> cases ho <;> exact keepsEnds_of_eq rfl

/-- What holds all along. -/
structure Orderly (s : TaskManager K) (cs : List (TaskCall K)) : Prop where
  placed : Placed s cs
  stages : ∀ j, StageAt s cs j
  cleared : Cleared s cs

theorem Orderly.perm {cs' : List (TaskCall K)} (h : Orderly s cs) (hperm : cs.Perm cs') :
    Orderly s cs' :=
  ⟨h.placed.perm hperm, fun j => (h.stages j).perm hperm, h.cleared.perm hperm⟩

theorem Orderly.act {e : TaskSignal} (h : Orderly s cs)
    (he : ∀ id r, e = .finish id r → r.observed.isSome = true)
    (hs : (semantics (K := K)).act e s = some s') : Orderly s' cs := by
  refine ⟨h.placed.act hs, fun j => (h.stages j).aside ?_, ?_⟩
  · cases e with
    | shutdown =>
      cases hs
      exact ⟨rfl, fun _ _ => .rfl, .rfl, rfl, .rfl⟩
    | finish i r =>
      simp only [semantics, finish] at hs
      split at hs
      · rename_i hi
        cases hs
        refine ⟨rfl, fun _ _ => .rfl, .rfl, ?_, .rfl⟩
        have hkey : s.futures.containsKey i = true := (HashMap.containsKey_iff _ _).2 ⟨_, hi.1⟩
        rw [HashMap.containsKey_insert]
        by_cases hj : j = i
        · rw [hj, hkey, Bool.or_true]
        · rw [decide_eq_false hj, Bool.false_or]
      · cases hs
  · cases e with
    | shutdown =>
      cases hs
      exact ⟨h.cleared.ended, h.cleared.tokens, h.cleared.keys⟩
    | finish i r =>
      simp only [semantics, finish] at hs
      split at hs <;> cases hs
      have hheld {f : TaskCall K → Option TaskId} {id : TaskId} (hid : s.Held f cs id) :
          Held f { s with futures := s.futures.insert i (some r) } cs id := by
        refine hid.imp_right (.imp_left fun hkey => ?_)
        rw [HashMap.containsKey_insert, hkey, Bool.or_true]
      refine ⟨fun id r' hr => ?_, fun id hid => hheld (h.cleared.tokens id hid),
        fun key id hid => hheld (h.cleared.keys key id hid)⟩
      rw [HashMap.lookup_insert_eq] at hr
      split at hr
      · cases hr
        exact he i r rfl
      · exact h.cleared.ended id r' hr

theorem Orderly.accept (h : Orderly s cs) (q : TaskRequest K) :
    Orderly s (cs ++ q.task.stack) := by
  have hnone : ∀ k ∈ q.task.stack, k.task = none ∧ k.announces = none := by
    cases q with
    | submit q => cases q <;> intro k hk <;> rw [List.mem_singleton.1 hk] <;> exact ⟨rfl, rfl⟩
    | cancel id =>
      intro k hk
      rw [List.mem_singleton.1 hk]
      exact ⟨rfl, rfl⟩
  have hheld {f : TaskCall K → Option TaskId} {id : TaskId} (hid : s.Held f cs id) :
      s.Held f (cs ++ q.task.stack) id :=
    hid.imp_right (.imp_right fun ⟨c, hc, hf⟩ => ⟨c, List.mem_append_left _ hc, hf⟩)
  refine ⟨h.placed.accept q, fun j => (h.stages j).aside ⟨?_, fun c hid => ?_, .rfl, rfl, .rfl⟩,
    h.cleared.ended, fun id hid => hheld (h.cleared.tokens id hid),
    fun key id hid => hheld (h.cleared.keys key id hid)⟩
  · rw [view, view, List.filterMap_append, List.filterMap_eq_nil_iff.2 fun k hk => (hnone k hk).2,
      List.append_nil]
  · refine ⟨fun hmem => ?_, List.mem_append_left _⟩
    rcases List.mem_append.1 hmem with hmem | hmem
    · exact hmem
    · cases (hnone c hmem).1.symm.trans hid

theorem orderly_start : Orderly ({} : TaskManager K) [.supervise] := by
  refine ⟨placed_start, fun j => ⟨fun _ => rfl, ?_, ?_, fun hfresh _ => ?_⟩,
    (by rintro _ _ ⟨⟩), (by rintro _ ⟨⟩), (by rintro _ _ ⟨⟩)⟩
  · simp [TaskCall.task]
  · simp
  · exact absurd (Nat.eq_zero_or_pos j) hfresh

theorem Orderly.quiet {p : TasksPool K} (h : Orderly p.shared (calls p.tasks)) (hq : Quiet p) :
    (∀ id, ¬p.shared.Fresh id → (p.shared.view (calls p.tasks) id).Ended id) ∧
      (∀ id, p.shared.cancelTokens.containsKey id = false) ∧
        ∀ key, p.shared.uniqueKeys.lookup key = none := by
  have hloop {c : TaskCall K} (hc : c ∈ calls p.tasks) : c.task = none ∧ c.announces = none ∧
      c.holdsToken = none ∧ c.holdsKey = none := by
    rcases hq.calls c hc with rfl | rfl <;> exact ⟨rfl, rfl, rfl, rfl⟩
  refine ⟨fun id hid => ?_, fun id => ?_, fun key => ?_⟩
  · refine ((h.stages id).gone hid ⟨fun c hc heq => ?_, ?_, ?_⟩).ended ?_
    · cases (hloop hc).1.symm.trans heq
    · rw [hq.queue]
      exact List.not_mem_nil
    · refine Bool.eq_false_iff.2 fun hkey => ?_
      exact hq.not_held (f := fun _ => none) (fun _ _ => rfl) (.inr (.inl hkey))
    · rw [view, List.filterMap_eq_nil_iff.2 fun c hc => (hloop hc).2.1, List.count_nil]
  · refine Bool.eq_false_iff.2 fun hkey => ?_
    exact hq.not_held (fun c hc => (hloop hc).2.2.1) (h.cleared.tokens id hkey)
  · by_contra hne
    obtain ⟨id, hid⟩ := Option.ne_none_iff_exists'.1 hne
    exact hq.not_held (fun c hc => (hloop hc).2.2.2) (h.cleared.keys key id hid)

theorem keepsEnds_step {p p' : TasksPool K} {l : TaskLabel K}
    (h : Orderly p.shared (calls p.tasks)) (hl : EndsProperly p l)
    (hstep : semantics.step p l = some p') : KeepsEnds p.shared p'.shared := by
  cases l with
  | run i x =>
    obtain ⟨t, c, rest, o, ht, -, hc, ho, rfl⟩ := Semantics.step_run_eq_some.1 hstep
    have hpools := calls_perm_remaining (x := x) (ρ := TaskRequest K) (ε := TaskSignal) ht hc
    have hnow := h.perm hpools.1
    exact keepsEnds_exec hnow.stages (hl c (Pool.executed_run ht hc)) ho
  | wake i =>
    obtain ⟨t, -, -, rfl⟩ := Semantics.step_wake_eq_some.1 hstep
    exact keepsEnds_of_eq rfl
  | drop i =>
    obtain ⟨t, -, -, rfl⟩ := Semantics.step_drop_eq_some.1 hstep
    exact keepsEnds_of_eq rfl
  | start q =>
    obtain ⟨s, t, hq, rfl⟩ := Semantics.step_start_eq_some.1 hstep
    cases hq
    exact keepsEnds_of_eq rfl
  | env e =>
    obtain ⟨s, hs, rfl⟩ := Semantics.step_env_eq_some.1 hstep
    cases e with
    | shutdown =>
      cases hs
      exact keepsEnds_of_eq rfl
    | finish i r =>
      simp only [semantics, finish] at hs
      split at hs <;> cases hs
      exact keepsEnds_of_eq rfl

/-- In a run of which no call falls into a gap a subscriber is told of the start of each task and
then of its one end, which the record agrees with and which is not overwritten; and once every
future has ended and has been handled, each task has been told of to its end and nothing is left in
the maps. -/
theorem told_once {ls : List (TaskLabel K)} {p : TasksPool K} (h : Run ls p)
    (hproper : Transition.Along semantics.step EndsProperly start ls) :
    (∀ id, (p.shared.view (calls p.tasks) id).Reported id) ∧
      Transition.Along semantics.step
        (fun q l => ∀ q', semantics.step q l = some q' → KeepsEnds q.shared q'.shared) start ls ∧
      (Quiet p → (∀ id, ¬p.shared.Fresh id → (p.shared.view (calls p.tasks) id).Ended id) ∧
        (∀ id, p.shared.cancelTokens.containsKey id = false) ∧
          ∀ key, p.shared.uniqueKeys.lookup key = none) := by
  have hstep := semantics_steady.preserves
    (I := Orderly) (C := EndsProperly (K := K)) (fun hperm h => h.perm hperm)
    (fun p l i x c o hl hC hc h ho => by
      subst hl
      rw [spawn_exec ho, calls_nil, List.append_nil]
      have hC := hC c hc
      exact ⟨h.placed.exec ho, stageAt_exec h.stages h.placed h.cleared.ended hC ho,
        h.cleared.exec h.stages hC ho⟩)
    (fun p q s t _ h hq => by
      cases hq
      exact h.accept q)
    fun p e s hC h hs => h.act (fun id r he => by subst he; exact hC) hs
  have hsteady : ∀ t ∈ (start : TasksPool K).tasks, t.Steady := by
    intro t ht
    rw [List.mem_singleton.1 ht]
    exact ⟨rfl, rfl⟩
  have hstart := And.intro hsteady (orderly_start (K := K))
  have hend := (Transition.invariant_of_run hstep hstart hproper h).2
  refine ⟨fun id => (hend.stages id).reported, ?_, hend.quiet⟩
  refine ((Transition.along_invariant hstep hstart hproper).and hproper).mono ?_
  exact fun q l hql q' hq => keepsEnds_step hql.1.2 hql.2 hq

/-- A task is submitted, runs and completes. -/
def completed : List (TaskLabel String) :=
  .start (.submit .async) :: List.replicate 5 (.run 1 .tick) ++
    [.run 0 .tick, .env (.finish 1 .ok), .run 0 (.join 1)] ++ List.replicate 5 (.run 0 .tick)

theorem told_once_completed :
    Transition.Along semantics.step EndsProperly start completed ∧
      ∃ p : TasksPool String, Run completed p ∧ Quiet p ∧ ¬p.shared.Fresh 1 ∧
        (p.shared.view (calls p.tasks) 1).Ended 1 ∧
          p.shared.events = [.started 1, .completed 1] := by
  have hproper : Transition.Along semantics.step EndsProperly start completed := by decide
  have hrun : Run completed (Transition.reached semantics.step start completed
      (by decide)) := Transition.run_reached _ _
  have hquiet : Quiet (Transition.reached semantics.step start completed (by decide)) :=
    ⟨by decide, by decide, by decide⟩
  have hfresh : ¬(Transition.reached semantics.step start completed
      (by decide)).shared.Fresh 1 := by
    rw [Fresh]
    decide
  exact ⟨hproper, _, hrun, hquiet, hfresh, ((told_once hrun hproper).2.2 hquiet).1 1 hfresh,
    by decide⟩

/-- The future of a task panics. -/
def panics : List (TaskLabel String) :=
  .start (.submit .async) :: List.replicate 5 (.run 1 .tick) ++
    [.run 0 .tick, .env (.finish 1 .panicked), .run 0 (.join 1)]

def untold : TasksPool String :=
  Transition.reached semantics.step start panics (by decide +kernel)

theorem not_told_once : ¬∀ (ls : List (TaskLabel String)) (p : TasksPool String), Run ls p →
    Quiet p → (∀ id, ¬p.shared.Fresh id → (p.shared.view (calls p.tasks) id).Ended id) ∧
      ∀ id, p.shared.cancelTokens.containsKey id = false := by
  intro h
  have hrun : Run panics untold := Transition.run_reached _ _
  have hquiet : Quiet untold := ⟨by decide, by decide, by decide⟩
  have htoken : untold.shared.cancelTokens.containsKey 1 = true := by decide
  cases ((h _ _ hrun hquiet).2 1).symm.trans htoken

end TaskManager

end Waywallen
