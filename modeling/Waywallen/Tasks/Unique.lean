import Waywallen.Tasks.Located

/-!
# One task of a key

`spawn_async_unique` reads the key, cancels the task it names, submits the new task and writes the
key, each under a lock of its own. When no two calls for one key overlap, at most one task of the
key runs that has not been cancelled, and between two calls the key names it.
-/

namespace Waywallen

open TaskPool

variable {K : Type}

/-- The key of the `spawn_async_unique` call that makes the call, once it has read the key. -/
def TaskCall.submits : TaskCall K → Option K
  | lookupToken _ key | cancelToken _ key | markCancelled _ key | sendCancelled _ key => key
  | fetchId q | insertToken _ q | recordStarted _ q | sendStarted _ q | sendMsg _ q | dropToken _ q
  | finalize _ q | sendFinal _ q => q.key?
  | writeKey key _ => some key
  | _ => none

/-- The calls for a key at which its task may still run: it is about to be cancelled, or it has just
been submitted. -/
def TaskCall.keeps (id : TaskId) : TaskCall K → Prop
  | lookupToken j (some _) | cancelToken j (some _) | writeKey _ j => j = id
  | _ => False

/-- The task whose token is in the map while the call submits it. -/
def TaskCall.tokened : TaskCall K → Option TaskId
  | recordStarted id (.unique _) | sendStarted id (.unique _) | sendMsg id (.unique _) => some id
  | _ => none

/-- The task that has not been sent to the supervisor yet. -/
def TaskCall.unsent : TaskCall K → Option TaskId
  | insertToken id _ | recordStarted id _ | sendStarted id _ | sendMsg id _ => some id
  | _ => none

theorem TaskCall.task_of_unsent {c : TaskCall K} {id : TaskId} (h : c.unsent = some id) :
    c.task = some id := by
  cases c <;> first | exact h | cases h

theorem TaskCall.task_of_tokened {c : TaskCall K} {id : TaskId} (h : c.tokened = some id) :
    c.task = some id := by
  cases c with
  | recordStarted j q | sendStarted j q | sendMsg j q => cases q <;> first | exact h | cases h
  | _ => cases h

namespace TaskManager

/-- The supervisor is still to start the future, or it runs. -/
def Active (s : TaskManager K) (id : TaskId) : Prop :=
  id ∈ s.queue ∨ s.futures.lookup id = some none

/-- A task in the hands of a call does not run. -/
theorem Placed.not_active {s : TaskManager K} {c : TaskCall K} {rest : List (TaskCall K)}
    {id : TaskId} (h : Placed s (c :: rest)) (hid : c.task = some id) : ¬s.Active id := by
  obtain ⟨-, hqueue, hfuture⟩ := h.task hid
  rintro (hactive | hactive)
  · exact hqueue hactive
  · rw [hfuture] at hactive
    cases hactive

/-- A task of the key that may run and has not been cancelled. -/
structure Uncancelled (s : TaskManager K) (key : K) (id : TaskId) : Prop where
  submitted : (key, id) ∈ s.submitted
  active : s.Active id
  uncancelled : id ∉ s.cancelled

theorem Uncancelled.mono {s s' : TaskManager K} {key : K} {id : TaskId}
    (hu : s'.Uncancelled key id) (hsubmitted : s'.submitted = s.submitted)
    (hactive : s'.Active id → s.Active id) (hcancelled : id ∈ s.cancelled → id ∈ s'.cancelled) :
    s.Uncancelled key id :=
  ⟨hsubmitted ▸ hu.submitted, hactive hu.active, fun h => hu.uncancelled (hcancelled h)⟩

variable [DecidableEq K]

/-- The task last submitted under a key. -/
def latest (s : TaskManager K) (key : K) : Option TaskId :=
  ((s.submitted.filter (·.1 = key)).getLast?).map Prod.snd

/-- No call for a key has come between the reads and the writes of another. -/
structure OneOfKey (s : TaskManager K) (cs : List (TaskCall K)) : Prop where
  calls : (cs.filterMap TaskCall.submits).Nodup
  unsent : ∀ c ∈ cs, ∀ id ∈ c.unsent, ∀ e ∈ s.submitted, e.2 ≠ id
  submitted_lt : ∀ e ∈ s.submitted, e.2 < s.nextId
  tokened : ∀ c ∈ cs, ∀ id ∈ c.tokened, s.cancelTokens.containsKey id = true
  token : ∀ e ∈ s.submitted, s.Active e.2 → s.cancelTokens.containsKey e.2 = true
  latest : ∀ key id, s.Uncancelled key id → s.latest key = some id
  keeps : ∀ key id, s.Uncancelled key id → ∀ c ∈ cs, c.submits = some key → c.keeps id
  mapped : ∀ key id, s.Uncancelled key id → .writeKey key id ∉ cs →
    s.uniqueKeys.lookup key = some id

variable {s s' : TaskManager K} {c : TaskCall K} {cs rest next : List (TaskCall K)}
  {key : K} {id : TaskId}

theorem OneOfKey.perm {cs' : List (TaskCall K)} (h : OneOfKey s cs) (hperm : cs.Perm cs') :
    OneOfKey s cs' where
  calls := (hperm.filterMap _).nodup_iff.1 h.calls
  unsent c hc := h.unsent c (hperm.mem_iff.2 hc)
  submitted_lt := h.submitted_lt
  tokened c hc := h.tokened c (hperm.mem_iff.2 hc)
  token := h.token
  latest := h.latest
  keeps key id hu c hc := h.keeps key id hu c (hperm.mem_iff.2 hc)
  mapped key id hu hm := h.mapped key id hu (hperm.mem_iff.not.2 hm)

/-- A call that submits no task goes on with its key, or without it. -/
theorem OneOfKey.goOn (h : OneOfKey s (c :: rest)) (next : List (TaskCall K))
    (hsubmitted : s'.submitted = s.submitted)
    (hnextId : s.nextId ≤ s'.nextId) (hactive : ∀ id, s'.Active id → s.Active id)
    (hcancelled : ∀ id ∈ s.cancelled, id ∈ s'.cancelled)
    (htokens : ∀ id, (s'.Active id ∨ ∃ k ∈ rest, k.tokened = some id) →
      s.cancelTokens.containsKey id = true → s'.cancelTokens.containsKey id = true)
    (hcalls : next.filterMap TaskCall.submits = c.submits.toList ∨
      next.filterMap TaskCall.submits = [])
    (hunsent : ∀ k ∈ next, ∀ id ∈ k.unsent, ∀ e ∈ s.submitted, e.2 ≠ id)
    (htokened : ∀ k ∈ next, ∀ id ∈ k.tokened, s'.cancelTokens.containsKey id = true)
    (hkeeps : ∀ k ∈ next, ∀ key id, s'.Uncancelled key id → k.submits = some key → c.keeps id →
      k.keeps id)
    (hmapped : ∀ key id, s.Uncancelled key id → .writeKey key id ∉ rest →
      s'.uniqueKeys.lookup key = some id) :
    OneOfKey s' (next ++ rest) := by
  have hmono {key : K} {id : TaskId} (hu : s'.Uncancelled key id) : s.Uncancelled key id :=
    hu.mono hsubmitted (hactive id) (hcancelled id)
  refine ⟨?_, fun k hk id hid e he => ?_, fun e he => ?_, fun k hk id hid => ?_,
    fun e he hact => ?_, fun key id hu => ?_, fun key id hu k hk hkey => ?_,
    fun key id hu hm => ?_⟩
  · have hnodup := h.calls
    rw [List.filterMap_append]
    rcases hcalls with heq | heq
    · rw [heq]
      cases hc : c.submits with
      | none =>
        rw [List.filterMap_cons_none hc] at hnodup
        exact hnodup
      | some key =>
        rw [List.filterMap_cons_some hc] at hnodup
        exact hnodup
    · rw [heq]
      exact hnodup.sublist ((List.sublist_cons_self c rest).filterMap _)
  · rw [hsubmitted] at he
    rcases List.mem_append.1 hk with hk | hk
    · exact hunsent k hk id hid e he
    · exact h.unsent k (List.mem_cons_of_mem _ hk) id hid e he
  · rw [hsubmitted] at he
    exact Nat.lt_of_lt_of_le (h.submitted_lt e he) hnextId
  · rcases List.mem_append.1 hk with hk | hk
    · exact htokened k hk id hid
    · exact htokens id (.inr ⟨k, hk, hid⟩) (h.tokened k (List.mem_cons_of_mem _ hk) id hid)
  · rw [hsubmitted] at he
    exact htokens e.2 (.inl hact) (h.token e he (hactive e.2 hact))
  · rw [TaskManager.latest, hsubmitted]
    exact h.latest key id (hmono hu)
  · rcases List.mem_append.1 hk with hk | hk
    · refine hkeeps k hk key id hu hkey
        (h.keeps key id (hmono hu) c List.mem_cons_self ?_)
      have hmem : key ∈ next.filterMap TaskCall.submits := List.mem_filterMap.2 ⟨k, hk, hkey⟩
      rcases hcalls with heq | heq
      · rw [heq] at hmem
        exact Option.mem_toList.1 hmem
      · rw [heq] at hmem
        cases hmem
    · exact h.keeps key id (hmono hu) k (List.mem_cons_of_mem _ hk) hkey
  · exact hmapped key id (hmono hu) fun hmem => hm (List.mem_append_right _ hmem)

/-- A call that touches neither the tasks that run nor the tokens and keys. -/
theorem OneOfKey.handOn (h : OneOfKey s (c :: rest)) (next : List (TaskCall K))
    (records : HashMap TaskId TaskState) (events : List TaskEvent) (aborting : Bool)
    (hwrite : ∀ key id, c ≠ .writeKey key id)
    (hcalls : next.filterMap TaskCall.submits = c.submits.toList ∨
      next.filterMap TaskCall.submits = [])
    (hnext : ∀ k ∈ next, (k.unsent = c.unsent ∨ k.unsent = none) ∧
      (k.tokened = c.tokened ∨ k.tokened = none) ∧
        ∀ key id, s.Uncancelled key id → k.submits = some key → c.keeps id → k.keeps id) :
    OneOfKey { s with records, events, aborting } (next ++ rest) := by
  refine h.goOn _ rfl (Nat.le_refl _) (fun _ hact => hact) (fun _ hmem => hmem) (fun _ _ ht => ht)
    hcalls (fun k hk id hid => ?_) (fun k hk id hid => ?_) (fun k hk key id hu => ?_)
    fun key id hu hm => ?_
  · rcases (hnext k hk).1 with heq | heq
    · exact h.unsent c List.mem_cons_self id (heq ▸ hid)
    · rw [heq] at hid
      cases hid
  · rcases (hnext k hk).2.1 with heq | heq
    · exact h.tokened c List.mem_cons_self id (heq ▸ hid)
    · rw [heq] at hid
      cases hid
  · exact (hnext k hk).2.2 key id ⟨hu.1, hu.2, hu.3⟩
  · refine h.mapped key id hu fun hmem => ?_
    rcases List.mem_cons.1 hmem with heq | hmem
    · exact hwrite key id heq.symm
    · exact hm hmem

/-- The key is read: it names the task that may still run. -/
theorem OneOfKey.readKey (h : OneOfKey s (.readKey key :: rest))
    (hturn : ∀ k ∈ rest, k.submits ≠ some key) (hcall : c.submits = some key)
    (hunsent : c.unsent = none) (htokened : c.tokened = none)
    (hkeeps : ∀ id, s.uniqueKeys.lookup key = some id → c.keeps id) :
    OneOfKey s (c :: rest) := by
  have hrest (k : TaskCall K) (hk : k ∈ rest) : k ∈ TaskCall.readKey key :: rest :=
    List.mem_cons_of_mem _ hk
  refine ⟨?_, List.forall_mem_cons.2 ⟨?_, fun k hk => h.unsent k (hrest k hk)⟩, h.submitted_lt,
    List.forall_mem_cons.2 ⟨?_, fun k hk => h.tokened k (hrest k hk)⟩, h.token, h.latest,
    fun j id hu => List.forall_mem_cons.2 ⟨fun hkey => ?_, fun k hk => h.keeps j id hu k (hrest k hk)⟩,
    fun j id hu hm => h.mapped j id hu ?_⟩
  · rw [List.filterMap_cons_some hcall, List.nodup_cons]
    refine ⟨fun hmem => ?_, h.calls⟩
    obtain ⟨k, hk, hkey⟩ := List.mem_filterMap.1 hmem
    exact hturn k hk hkey
  · rw [hunsent]
    rintro _ ⟨⟩
  · rw [htokened]
    rintro _ ⟨⟩
  · obtain rfl : key = j := Option.some_inj.1 (hcall.symm.trans hkey)
    refine hkeeps id (h.mapped key id hu fun hm => ?_)
    rcases List.mem_cons.1 hm with heq | hm
    · cases heq
    · exact hturn _ hm rfl
  · intro hmem
    rcases List.mem_cons.1 hmem with heq | hmem
    · cases heq
    · exact hm (List.mem_cons_of_mem _ hmem)

/-- A token that is looked up in vain is not that of a task that may run. -/
theorem OneOfKey.lookupToken {key : Option K} (h : OneOfKey s (.lookupToken id key :: rest))
    (hid : s.cancelTokens.containsKey id = false) :
    OneOfKey s (TaskCall.resubmit key ++ rest) := by
  refine h.handOn _ s.records s.events s.aborting (by rintro _ _ ⟨⟩) (.inl ?_) fun k hk => ?_
  · cases key <;> rfl
  · cases key with
    | none => cases hk
    | some key =>
      obtain rfl := List.mem_singleton.1 hk
      refine ⟨.inl rfl, .inl rfl, fun j a hu _ hkeep => ?_⟩
      obtain rfl : id = a := hkeep
      rw [h.token (j, id) hu.submitted hu.active] at hid
      cases hid

/-- A token is cancelled. -/
theorem OneOfKey.cancelToken {key : Option K} (h : OneOfKey s (.cancelToken id key :: rest)) :
    OneOfKey { s with cancelled := id :: s.cancelled } (.markCancelled id key :: rest) := by
  refine h.goOn [.markCancelled id key] rfl (Nat.le_refl _) (fun _ hact => hact)
    (fun _ hmem => List.mem_cons_of_mem _ hmem) (fun _ _ ht => ht) (.inl ?_) ?_ ?_
    (fun k hk j a hu hkey hkeep => ?_) fun j a hu hm => ?_
  · cases key <;> rfl
  · simp [TaskCall.unsent]
  · simp [TaskCall.tokened]
  · cases key with
    | none =>
      rw [List.mem_singleton.1 hk] at hkey
      cases hkey
    | some key =>
      obtain rfl : id = a := hkeep
      exact absurd List.mem_cons_self hu.uncancelled
  · exact h.mapped j a hu (by simpa using hm)

/-- The new task is the one of its key that runs: the call before it has cancelled the others. -/
theorem OneOfKey.sendMsg {q : Submission K} (h : OneOfKey s (.sendMsg id q :: rest))
    (hp : Placed s (.sendMsg id q :: rest)) :
    OneOfKey { s with
      queue := s.queue ++ [id]
      submitted := s.submitted ++ (q.key?.map (·, id)).toList } (q.thenWrite id ++ rest) := by
  have hrest (k : TaskCall K) (hk : k ∈ rest) : k ∈ TaskCall.sendMsg id q :: rest :=
    List.mem_cons_of_mem _ hk
  have hnew {e : K × TaskId} (he : e ∈ s.submitted ++ (q.key?.map (·, id)).toList) :
      e ∈ s.submitted ∧ e.2 ≠ id ∨ q = .unique e.1 ∧ e.2 = id := by
    rcases List.mem_append.1 he with he | he
    · exact .inl ⟨he, h.unsent _ List.mem_cons_self id rfl e he⟩
    · cases q with
      | blocking | async => cases he
      | unique key =>
        rw [List.mem_singleton.1 he]
        exact .inr ⟨rfl, rfl⟩
  have hother (k : TaskCall K) (hk : k ∈ rest) : k.task ≠ some id := (hp.task rfl).1 k hk
  set s' : TaskManager K := { s with
    queue := s.queue ++ [id]
    submitted := s.submitted ++ (q.key?.map (·, id)).toList } with hs'
  have hactive {a : TaskId} (hne : a ≠ id) (ha : s'.Active a) : s.Active a := by
    refine ha.imp_left fun hmem => ?_
    simpa [hs', hne] using hmem
  -- the tasks of the key before it are no longer active or have been cancelled
  have hold {key : K} {a : TaskId} (hu : s'.Uncancelled key a) :
      s.Uncancelled key a ∧ a ≠ id ∧ q ≠ .unique key ∨ q = .unique key ∧ a = id := by
    rcases hnew hu.submitted with ⟨hmem, hne⟩ | hnew
    · have hbefore : s.Uncancelled key a := ⟨hmem, hactive hne hu.active, hu.uncancelled⟩
      refine .inl ⟨hbefore, hne, fun hq => ?_⟩
      subst hq
      exact h.keeps key a hbefore _ List.mem_cons_self rfl
    · exact .inr hnew
  refine ⟨?_, fun k hk a ha e he => ?_, fun e he => ?_, fun k hk a ha => ?_, fun e he ha => ?_,
    fun key a hu => ?_, fun key a hu k hk hkey => ?_, fun key a hu hm => ?_⟩
  · have hcalls := h.calls
    cases q with
    | blocking | async => exact hcalls
    | unique key => exact hcalls
  · have hk' : k ∈ rest := by
      rcases List.mem_append.1 hk with hk | hk
      · cases q with
        | blocking | async => cases hk
        | unique key =>
          rw [List.mem_singleton.1 hk] at ha
          cases ha
      · exact hk
    rcases hnew he with ⟨hmem, -⟩ | ⟨-, heq⟩
    · exact h.unsent k (hrest k hk') a ha e hmem
    · rintro rfl
      rw [heq] at ha
      exact hother k hk' (TaskCall.task_of_unsent ha)
  · rcases hnew he with ⟨hmem, -⟩ | ⟨-, heq⟩
    · exact h.submitted_lt e hmem
    · rw [heq]
      exact hp.task_lt List.mem_cons_self rfl
  · rcases List.mem_append.1 hk with hk | hk
    · cases q with
      | blocking | async => cases hk
      | unique key =>
        rw [List.mem_singleton.1 hk] at ha
        cases ha
    · exact h.tokened k (hrest k hk) a ha
  · rcases hnew he with ⟨hmem, hne⟩ | ⟨hq, heq⟩
    · exact h.token e hmem (hactive hne ha)
    · rw [heq]
      subst hq
      exact h.tokened _ List.mem_cons_self id rfl
  · rw [TaskManager.latest]
    rcases hold hu with ⟨hbefore, -, hq⟩ | ⟨rfl, rfl⟩
    · have hlatest := h.latest key a hbefore
      have hnone : ((q.key?.map (·, id)).toList).filter (·.1 = key) = [] := by
        cases q with
        | blocking | async => rfl
        | unique j =>
          have hne : j ≠ key := fun heq => hq (heq ▸ rfl)
          simp [Submission.key?, hne]
      rw [List.filter_append, hnone, List.append_nil]
      exact hlatest
    · have hone : (((Submission.unique key).key?.map (·, a)).toList).filter (·.1 = key) =
          [(key, a)] := by
        simp [Submission.key?]
      rw [List.filter_append, hone, List.getLast?_concat]
      rfl
  · rcases hold hu with ⟨hbefore, -, hq⟩ | ⟨rfl, rfl⟩
    · rcases List.mem_append.1 hk with hk | hk
      · cases q with
        | blocking | async => cases hk
        | unique j =>
          rw [List.mem_singleton.1 hk] at hkey
          exact absurd (congrArg Submission.unique (Option.some_inj.1 hkey)) hq
      · exact h.keeps key a hbefore k (hrest k hk) hkey
    · rcases List.mem_append.1 hk with hk | hk
      · rw [List.mem_singleton.1 hk]
        rfl
      · have hcalls : (key :: rest.filterMap TaskCall.submits).Nodup := h.calls
        exact absurd (List.mem_filterMap.2 ⟨k, hk, hkey⟩) (List.nodup_cons.1 hcalls).1
  · rcases hold hu with ⟨hbefore, -, -⟩ | ⟨rfl, rfl⟩
    · refine h.mapped key a hbefore fun hmem => ?_
      rcases List.mem_cons.1 hmem with heq | hmem
      · cases heq
      · exact hm (List.mem_append_right _ hmem)
    · exact absurd (List.mem_append_left _ List.mem_cons_self) hm

/-- The key is written: it names the new task. -/
theorem OneOfKey.writeKey (h : OneOfKey s (.writeKey key id :: rest)) :
    OneOfKey { s with uniqueKeys := s.uniqueKeys.insert key id } rest := by
  refine h.goOn [] rfl (Nat.le_refl _) (fun _ hact => hact) (fun _ hmem => hmem)
    (fun _ _ ht => ht) (.inr rfl) (by rintro _ ⟨⟩) (by rintro _ ⟨⟩) (by rintro _ ⟨⟩)
    fun j a hu hm => ?_
  have hkeep := h.keeps j a hu _ List.mem_cons_self
  rw [HashMap.lookup_insert_eq]
  by_cases hj : j = key
  · subst hj
    obtain rfl : id = a := hkeep rfl
    rw [if_pos rfl]
  · rw [if_neg hj]
    refine h.mapped j a hu fun hmem => ?_
    rcases List.mem_cons.1 hmem with heq | hmem
    · cases heq
      exact hj rfl
    · exact hm hmem

/-- The token of a task that does not run any more is removed. -/
theorem OneOfKey.eraseToken (h : OneOfKey s (c :: rest)) (next : List (TaskCall K))
    (hp : Placed s (c :: rest))
    (hid : c.task = some id) (hwrite : ∀ key id, c ≠ .writeKey key id)
    (hcalls : next.filterMap TaskCall.submits = c.submits.toList)
    (hnext : ∀ k ∈ next, k.unsent = none ∧ k.tokened = none)
    (hkeeps : ∀ a, ¬c.keeps a) :
    OneOfKey { s with cancelTokens := s.cancelTokens.erase id } (next ++ rest) := by
  refine h.goOn _ rfl (Nat.le_refl _) (fun _ hact => hact) (fun _ hmem => hmem)
    (fun a ha ht => ?_) (.inl hcalls) (fun k hk => ?_) (fun k hk => ?_)
    (fun _ _ _ _ _ _ hkeep => absurd hkeep (hkeeps _)) fun key a hu hm => ?_
  · have hne : a ≠ id := by
      rintro rfl
      rcases ha with hact | ⟨k, hk, ha⟩
      · exact hp.not_active hid hact
      · exact (hp.task hid).1 k hk (TaskCall.task_of_tokened ha)
    simp [HashMap.containsKey_erase, hne, ht]
  · rw [(hnext k hk).1]
    rintro _ ⟨⟩
  · rw [(hnext k hk).2]
    rintro _ ⟨⟩
  · refine h.mapped key a hu fun hmem => ?_
    rcases List.mem_cons.1 hmem with heq | hmem
    · exact hwrite key a heq.symm
    · exact hm hmem

/-- The keys that name a task that has ended are removed. -/
theorem OneOfKey.retainKeys {observed : TaskState} (h : OneOfKey s (.retainKeys id observed :: rest))
    (hp : Placed s (.retainKeys id observed :: rest)) :
    OneOfKey { s with
      uniqueKeys := s.uniqueKeys.retain fun key => s.uniqueKeys.lookup key ≠ some id }
      (.checkCancelled id observed :: rest) := by
  refine h.goOn [.checkCancelled id observed] rfl (Nat.le_refl _) (fun _ hact => hact)
    (fun _ hmem => hmem) (fun _ _ ht => ht) (.inl rfl) ?_ ?_ ?_ fun key a hu hm => ?_
  · simp [TaskCall.unsent]
  · simp [TaskCall.tokened]
  · simp [TaskCall.submits]
  · have hmapped : s.uniqueKeys.lookup key = some a := h.mapped key a hu (by simpa using hm)
    have hne : a ≠ id := by
      rintro rfl
      exact hp.not_active rfl hu.active
    rw [HashMap.lookup_retain, hmapped, if_pos]
    simpa using hne

/-- The supervisor moves tasks from the channel to the join set and on. -/
theorem OneOfKey.supervised (h : OneOfKey s (c :: rest)) (next : List (TaskCall K)) (queue : List TaskId)
    (futures : HashMap TaskId (Option FutureEnd)) (receiving : Bool)
    (hactive : ∀ id, Active { s with queue, futures, receiving } id → s.Active id)
    (hc : c = .supervise ∨ c = .drain)
    (hnext : ∀ k ∈ next, k.submits = none ∧ k.unsent = none ∧ k.tokened = none) :
    OneOfKey { s with queue, futures, receiving } (next ++ rest) := by
  refine h.goOn _ rfl (Nat.le_refl _) hactive (fun _ hmem => hmem) (fun _ _ ht => ht)
    (.inr (List.filterMap_eq_nil_iff.2 fun k hk => (hnext k hk).1)) (fun k hk => ?_)
    (fun k hk => ?_) (fun k hk key id hu hkey => ?_) fun key a hu hm => ?_
  · rw [(hnext k hk).2.1]
    rintro _ ⟨⟩
  · rw [(hnext k hk).2.2]
    rintro _ ⟨⟩
  · rw [(hnext k hk).1] at hkey
    cases hkey
  · refine h.mapped key a hu fun hmem => ?_
    rcases List.mem_cons.1 hmem with rfl | hmem
    · rcases hc with hc | hc <;> cases hc
    · exact hm hmem

section Exec

variable {x : TaskChoice} {o : Outcome (TaskManager K) (TaskCall K)}

theorem OneOfKey.joined {loop : TaskCall K} (h : OneOfKey s (loop :: rest))
    (hloop : loop = .supervise ∨ loop = .drain) (ho : s.joinNext loop x = some o) :
    OneOfKey o.shared (o.next ++ rest) := by
  cases x with
  | tick | timeout => cases ho
  | join j =>
    simp only [joinNext, andThen] at ho
    split at ho
    · rename_i e he
      cases ho
      refine h.supervised _ s.queue (s.futures.erase j) s.receiving (fun a ha => ha.imp_right ?_)
        hloop fun k hk => ?_
      · intro hlookup
        rw [HashMap.lookup_erase_eq] at hlookup
        split at hlookup
        · cases hlookup
        · exact hlookup
      · have hk : k = loop ∨ ∃ observed, k = .removeToken j observed := by
          cases hobserved : e.observed with
          | none =>
            rw [hobserved] at hk
            exact .inl (List.mem_singleton.1 hk)
          | some observed =>
            rw [hobserved] at hk
            rcases List.mem_cons.1 hk with hk | hk
            · exact .inr ⟨observed, hk⟩
            · exact .inl (List.mem_singleton.1 hk)
        rcases hk with rfl | ⟨observed, rfl⟩
        · rcases hloop with rfl | rfl <;> exact ⟨rfl, rfl, rfl⟩
        · exact ⟨rfl, rfl, rfl⟩
    · cases ho

theorem OneOfKey.exited {loop : TaskCall K} (h : OneOfKey s (loop :: rest))
    (hloop : loop = .supervise ∨ loop = .drain) :
    OneOfKey { s with receiving := false, queue := [], futures := ∅ } rest := by
  refine h.supervised [] [] ∅ false (fun a ha => ?_) hloop (by rintro _ ⟨⟩)
  rcases ha with ha | ha
  · cases ha
  · cases ha

theorem OneOfKey.exec (h : OneOfKey s (c :: rest)) (hp : Placed s (c :: rest))
    (ho : c.exec x s = some o)
    (hturn : ∀ key, c = .readKey key → ∀ k ∈ rest, k.submits ≠ some key) :
    OneOfKey o.shared (o.next ++ rest) := by
  cases c with
  | readKey key =>
    simp only [TaskCall.exec, andThen] at ho
    split at ho <;> cases ho
    · rename_i prev hprev
      exact h.readKey (hturn key rfl) rfl rfl rfl fun a ha => Option.some_inj.1 (hprev.symm.trans ha)
    · rename_i hnone
      exact h.readKey (hturn key rfl) rfl rfl rfl fun a ha => by cases hnone.symm.trans ha
  | lookupToken j key =>
    simp only [TaskCall.exec, andThen] at ho
    split at ho <;> cases ho
    · refine h.handOn [.cancelToken j key] s.records s.events s.aborting (by rintro _ _ ⟨⟩)
        (.inl ?_) fun k hk => ?_
      · cases key <;> rfl
      · rw [List.mem_singleton.1 hk]
        refine ⟨.inl rfl, .inl rfl, fun i a hu hkey hkeep => ?_⟩
        cases key with
        | none => cases hkey
        | some key => exact hkeep
    · rename_i hnone
      exact h.lookupToken (by simpa using hnone)
  | cancelToken j key =>
    cases ho
    exact h.cancelToken
  | markCancelled j key =>
    simp only [TaskCall.exec, andThen] at ho
    split at ho <;> cases ho
    · refine h.handOn [.sendCancelled j key] _ s.events s.aborting (by rintro _ _ ⟨⟩) (.inl ?_)
        fun k hk => ?_
      · cases key <;> rfl
      · rw [List.mem_singleton.1 hk]
        exact ⟨.inl rfl, .inl rfl, fun i a hu hkey hkeep => hkeep.elim⟩
    · refine h.handOn _ s.records s.events s.aborting (by rintro _ _ ⟨⟩) (.inl ?_) fun k hk => ?_
      · cases key <;> rfl
      · cases key with
        | none => cases hk
        | some key =>
          rw [List.mem_singleton.1 hk]
          exact ⟨.inl rfl, .inl rfl, fun i a hu hkey hkeep => hkeep.elim⟩
  | sendCancelled j key =>
    cases ho
    refine h.handOn _ s.records _ s.aborting (by rintro _ _ ⟨⟩) (.inl ?_) fun k hk => ?_
    · cases key <;> rfl
    · cases key with
      | none => cases hk
      | some key =>
        rw [List.mem_singleton.1 hk]
        exact ⟨.inl rfl, .inl rfl, fun i a hu hkey hkeep => hkeep.elim⟩
  | fetchId q =>
    cases ho
    refine h.goOn _ rfl (Nat.le_succ _) (fun _ hact => hact) (fun _ hmem => hmem) (fun _ _ ht => ht)
      (.inl ?_) (fun k hk id hid e he => ?_) (fun k hk id hid => ?_)
      (fun k hk i a hu hkey hkeep => hkeep.elim) fun i a hu hm => h.mapped i a hu (by simpa using hm)
    · cases q <;> rfl
    · have hid : s.nextId = id := by
        rw [List.mem_singleton.1 hk] at hid
        split at hid <;> exact Option.some_inj.1 hid
      exact hid ▸ (h.submitted_lt e he).ne
    · rw [List.mem_singleton.1 hk] at hid
      split at hid
      · rename_i hq
        subst hq
        cases hid
      · cases hid
  | insertToken j q =>
    cases ho
    refine h.goOn [.recordStarted j q] rfl (Nat.le_refl _) (fun _ hact => hact)
      (fun _ hmem => hmem) (fun a _ ht => ?_) (.inl ?_) (fun k hk id hid => ?_)
      (fun k hk id hid => ?_) (fun k hk i a hu hkey hkeep => hkeep.elim)
      fun i a hu hm => h.mapped i a hu (by simpa using hm)
    · rw [HashMap.containsKey_insert, ht, Bool.or_true]
    · cases q <;> rfl
    · rw [List.mem_singleton.1 hk] at hid
      exact h.unsent _ List.mem_cons_self id hid
    · rw [List.mem_singleton.1 hk] at hid
      obtain rfl : j = id := Option.some_inj.1 (TaskCall.task_of_tokened hid)
      simp [HashMap.containsKey_insert]
  | recordStarted j q =>
    cases ho
    refine h.handOn [.sendStarted j q] _ s.events s.aborting (by rintro _ _ ⟨⟩) (.inl ?_)
      fun k hk => ?_
    · cases q <;> rfl
    · rw [List.mem_singleton.1 hk]
      refine ⟨.inl rfl, .inl ?_, fun i a hu hkey hkeep => hkeep.elim⟩
      cases q <;> rfl
  | sendStarted j q =>
    cases ho
    refine h.handOn [.sendMsg j q] s.records _ s.aborting (by rintro _ _ ⟨⟩) (.inl ?_)
      fun k hk => ?_
    · cases q <;> rfl
    · rw [List.mem_singleton.1 hk]
      refine ⟨.inl rfl, .inl ?_, fun i a hu hkey hkeep => hkeep.elim⟩
      cases q <;> rfl
  | sendMsg j q =>
    simp only [TaskCall.exec, andThen] at ho
    split at ho <;> cases ho
    · exact h.sendMsg hp
    · refine h.handOn _ s.records s.events s.aborting (by rintro _ _ ⟨⟩) (.inl ?_) fun k hk => ?_
      · cases q <;> rfl
      · rw [List.mem_singleton.1 hk]
        refine ⟨.inr ?_, .inr ?_, fun i a hu hkey hkeep => hkeep.elim⟩
        · split <;> rfl
        · split <;> rfl
  | dropToken j q =>
    cases ho
    refine h.eraseToken [.finalize j q] hp rfl (by rintro _ _ ⟨⟩) ?_ (fun k hk => ?_) fun a hkeep => hkeep
    · cases q <;> rfl
    · rw [List.mem_singleton.1 hk]
      exact ⟨rfl, rfl⟩
  | finalize j q =>
    cases ho
    refine h.handOn [.sendFinal j q] _ s.events s.aborting (by rintro _ _ ⟨⟩) (.inl ?_)
      fun k hk => ?_
    · cases q <;> rfl
    · rw [List.mem_singleton.1 hk]
      exact ⟨.inl rfl, .inl rfl, fun i a hu hkey hkeep => hkeep.elim⟩
  | sendFinal j q =>
    cases ho
    refine h.handOn _ s.records _ s.aborting (by rintro _ _ ⟨⟩) (.inl ?_) fun k hk => ?_
    · cases q <;> rfl
    · cases q with
      | blocking | async => cases hk
      | unique key =>
        rw [List.mem_singleton.1 hk]
        exact ⟨.inl rfl, .inl rfl, fun i a hu hkey hkeep => hkeep.elim⟩
  | writeKey key j =>
    cases ho
    exact h.writeKey
  | supervise =>
    simp only [TaskCall.exec, andThen] at ho
    split at ho
    · cases ho
      refine h.handOn [.drain] s.records s.events true (by rintro _ _ ⟨⟩) (.inl rfl) fun k hk => ?_
      rw [List.mem_singleton.1 hk]
      exact ⟨.inl rfl, .inl rfl, fun i a hu hkey hkeep => hkeep.elim⟩
    · split at ho
      · rename_i j queue hqueue
        cases ho
        refine h.supervised [.supervise] queue _ s.receiving (fun a ha => ?_) (.inl rfl)
          fun k hk => ?_
        · rw [Active, HashMap.lookup_insert_eq] at ha
          rw [Active, hqueue]
          rcases ha with ha | ha
          · exact .inl (List.mem_cons_of_mem _ ha)
          · split at ha
            · rename_i heq
              exact .inl (heq ▸ List.mem_cons_self)
            · exact .inr ha
        · rw [List.mem_singleton.1 hk]
          exact ⟨rfl, rfl, rfl⟩
      · exact h.joined (.inl rfl) ho
  | drain =>
    cases x with
    | timeout =>
      cases ho
      exact h.exited (.inr rfl)
    | tick =>
      simp only [TaskCall.exec] at ho
      split at ho
      · cases ho
        exact h.exited (.inr rfl)
      · cases ho
    | join j =>
      have hjoin : s.joinNext .drain (.join j) = some o := ho
      exact h.joined (.inr rfl) hjoin
  | removeToken j observed =>
    cases ho
    refine h.eraseToken [.retainKeys j observed] hp rfl (by rintro _ _ ⟨⟩) rfl (fun k hk => ?_)
      fun a hkeep => hkeep
    rw [List.mem_singleton.1 hk]
    exact ⟨rfl, rfl⟩
  | retainKeys j observed =>
    cases ho
    exact h.retainKeys hp
  | checkCancelled j observed =>
    simp only [TaskCall.exec, andThen, done] at ho
    split at ho <;> cases ho
    · exact h.handOn [] s.records s.events s.aborting (by rintro _ _ ⟨⟩) (.inr rfl) (by rintro _ ⟨⟩)
    · refine h.handOn [.writeState j observed] s.records s.events s.aborting (by rintro _ _ ⟨⟩)
        (.inl rfl) fun k hk => ?_
      rw [List.mem_singleton.1 hk]
      exact ⟨.inl rfl, .inl rfl, fun i a hu hkey hkeep => hkeep.elim⟩
  | writeState j observed =>
    cases ho
    refine h.handOn [.sendObserved j observed] _ s.events s.aborting (by rintro _ _ ⟨⟩) (.inl rfl)
      fun k hk => ?_
    rw [List.mem_singleton.1 hk]
    exact ⟨.inl rfl, .inl rfl, fun i a hu hkey hkeep => hkeep.elim⟩
  | sendObserved j observed =>
    cases ho
    exact h.handOn [] s.records _ s.aborting (by rintro _ _ ⟨⟩) (.inr rfl) (by rintro _ ⟨⟩)

end Exec

theorem OneOfKey.act {e : TaskSignal} (h : OneOfKey s cs)
    (hs : (semantics (K := K)).act e s = some s') : OneOfKey s' cs := by
  cases e with
  | shutdown =>
    cases hs
    exact ⟨h.calls, h.unsent, h.submitted_lt, h.tokened, h.token,
      fun key id hu => h.latest key id ⟨hu.1, hu.2, hu.3⟩,
      fun key id hu => h.keeps key id ⟨hu.1, hu.2, hu.3⟩,
      fun key id hu => h.mapped key id ⟨hu.1, hu.2, hu.3⟩⟩
  | finish j e =>
    simp only [semantics, finish] at hs
    split at hs <;> cases hs
    have hactive {a : TaskId} (ha : Active { s with futures := s.futures.insert j (some e) } a) :
        s.Active a := by
      refine ha.imp_right fun hlookup => ?_
      rw [HashMap.lookup_insert_eq] at hlookup
      split at hlookup
      · cases hlookup
      · exact hlookup
    exact ⟨h.calls, h.unsent, h.submitted_lt, h.tokened, fun e he ha => h.token e he (hactive ha),
      fun key id hu => h.latest key id ⟨hu.1, hactive hu.2, hu.3⟩,
      fun key id hu => h.keeps key id ⟨hu.1, hactive hu.2, hu.3⟩,
      fun key id hu => h.mapped key id ⟨hu.1, hactive hu.2, hu.3⟩⟩

/-- A request that has just been made has not read its key. -/
theorem OneOfKey.accept (h : OneOfKey s cs) (q : TaskRequest K) :
    OneOfKey s (cs ++ q.task.stack) := by
  have hnone : ∀ k ∈ q.task.stack, k.submits = none ∧ k.unsent = none ∧ k.tokened = none := by
    cases q with
    | submit q =>
      cases q <;> intro k hk <;> rw [List.mem_singleton.1 hk] <;> exact ⟨rfl, rfl, rfl⟩
    | cancel id =>
      intro k hk
      rw [List.mem_singleton.1 hk]
      exact ⟨rfl, rfl, rfl⟩
  refine ⟨?_, fun k hk id hid => ?_, h.submitted_lt, fun k hk id hid => ?_, h.token, h.latest,
    fun key id hu k hk hkey => ?_, fun key id hu hm => ?_⟩
  · rw [List.filterMap_append, List.filterMap_eq_nil_iff.2 fun k hk => (hnone k hk).1,
      List.append_nil]
    exact h.calls
  · rcases List.mem_append.1 hk with hk | hk
    · exact h.unsent k hk id hid
    · rw [(hnone k hk).2.1] at hid
      cases hid
  · rcases List.mem_append.1 hk with hk | hk
    · exact h.tokened k hk id hid
    · rw [(hnone k hk).2.2] at hid
      cases hid
  · rcases List.mem_append.1 hk with hk | hk
    · exact h.keeps key id hu k hk hkey
    · rw [(hnone k hk).1] at hkey
      cases hkey
  · exact h.mapped key id hu fun hmem => hm (List.mem_append_left _ hmem)

/-- A key is read only while no other `spawn_async_unique` call for it is between its read and its
write of the key. -/
def CallsInTurn (p : TasksPool K) (l : TaskLabel K) : Prop :=
  ∀ c ∈ p.executed l, ∀ k ∈ p.remaining l, ∀ key ∈ k.submits, c ≠ .readKey key

instance (p : TasksPool K) (l : TaskLabel K) : Decidable (CallsInTurn p l) :=
  inferInstanceAs (Decidable (∀ c ∈ p.executed l, ∀ k ∈ p.remaining l, ∀ key ∈ k.submits,
    c ≠ .readKey key))

/-- In a run whose submissions under one key do not overlap at most one task of the key may run that
has not been cancelled; it is the one submitted last, and once its key is written the key names
it. -/
theorem uncancelled_unique {ls : List (TaskLabel K)} {p : TasksPool K} (h : Run ls p)
    (hturns : Transition.Along semantics.step CallsInTurn start ls) (key : K) :
    (∀ i j, p.shared.Uncancelled key i → p.shared.Uncancelled key j → i = j) ∧
      ∀ i, p.shared.Uncancelled key i → p.shared.latest key = some i ∧
        ((∀ j, .writeKey key j ∉ calls p.tasks) → p.shared.uniqueKeys.lookup key = some i) := by
  have hstep := semantics_steady.preserves
    (I := fun s cs => Placed s cs ∧ OneOfKey s cs) (C := CallsInTurn (K := K))
    (fun hperm h => ⟨h.1.perm hperm, h.2.perm hperm⟩)
    (fun p l i x c o hl hC hc h ho => by
      rw [spawn_exec ho, calls_nil, List.append_nil]
      refine ⟨h.1.exec ho, h.2.exec h.1 ho fun key heq k hk hkey => ?_⟩
      exact hC c hc k hk key hkey heq)
    (fun p q s t _ h hq => by
      cases hq
      exact ⟨h.1.accept q, h.2.accept q⟩)
    fun p e s _ h hs => ⟨h.1.act hs, h.2.act hs⟩
  have hstart : OneOfKey ({} : TaskManager K) [.supervise] := by
    have hnone (key : K) (id : TaskId) : ¬Uncancelled ({} : TaskManager K) key id :=
      fun hu => List.not_mem_nil hu.submitted
    refine ⟨List.nodup_nil, ?_, (by rintro _ ⟨⟩), ?_, (by rintro _ ⟨⟩),
      fun key id hu => (hnone key id hu).elim,
      fun key id hu => (hnone key id hu).elim, fun key id hu => (hnone key id hu).elim⟩
    · simp [TaskCall.unsent]
    · simp [TaskCall.tokened]
  have hsteady : ∀ t ∈ (start : TasksPool K).tasks, t.Steady := by
    intro t ht
    rw [List.mem_singleton.1 ht]
    exact ⟨rfl, rfl⟩
  obtain ⟨-, -, hone⟩ :=
    Transition.invariant_of_run hstep ⟨hsteady, placed_start, hstart⟩ hturns h
  refine ⟨fun i j hi hj => ?_, fun i hi => ⟨hone.latest key i hi, fun hm => ?_⟩⟩
  · exact Option.some_inj.1 ((hone.latest key i hi).symm.trans (hone.latest key j hj))
  · exact hone.mapped key i hi (hm i)

def applyKey : String := "apply/global"

/-- A task of the key runs when another one is submitted under it. -/
def resubmitted : List (TaskLabel String) :=
  .start (.submit (.unique applyKey)) :: List.replicate 7 (.run 1 .tick) ++
    .run 0 .tick :: .start (.submit (.unique applyKey)) :: List.replicate 11 (.run 2 .tick) ++
      [.run 0 .tick]

theorem uncancelled_unique_resubmitted :
    Transition.Along semantics.step CallsInTurn start resubmitted ∧
      ∃ p : TasksPool String, Run resubmitted p ∧ p.shared.futures.lookup 1 = some none ∧
        p.shared.Uncancelled applyKey 2 ∧ p.shared.latest applyKey = some 2 := by
  have hturns : Transition.Along semantics.step CallsInTurn start resubmitted := by decide
  have hrun : Run resubmitted (Transition.reached semantics.step start resubmitted
      (by decide)) := Transition.run_reached _ _
  have hu : Uncancelled (Transition.reached semantics.step start resubmitted
      (by decide)).shared applyKey 2 :=
    ⟨by decide, .inr (by decide), by decide⟩
  exact ⟨hturns, _, hrun, by decide, hu,
    ((uncancelled_unique hrun hturns applyKey).2 2 hu).1⟩

/-- Both callers read the key before either writes it. -/
def bothRead : List (TaskLabel String) :=
  [.start (.submit (.unique applyKey)), .start (.submit (.unique applyKey)), .run 1 .tick,
    .run 2 .tick] ++ List.replicate 6 (.run 1 .tick) ++ List.replicate 6 (.run 2 .tick) ++
      [.run 0 .tick, .run 0 .tick]

def bothRunning : TasksPool String :=
  Transition.reached semantics.step start bothRead (by decide +kernel)

theorem not_uncancelled_unique : ¬∀ (ls : List (TaskLabel String)) (p : TasksPool String),
    Run ls p → ∀ key i j, p.shared.Uncancelled key i → p.shared.Uncancelled key j →
      p.shared.futures.lookup i = some none → p.shared.futures.lookup j = some none → i = j := by
  intro h
  have hrun : Run bothRead bothRunning := Transition.run_reached _ _
  have hone : bothRunning.shared.futures.lookup 1 = some none := by decide
  have htwo : bothRunning.shared.futures.lookup 2 = some none := by decide
  have heq := h _ _ hrun applyKey 1 2 ⟨by decide, .inr hone, by decide⟩
    ⟨by decide, .inr htwo, by decide⟩ hone htwo
  cases heq

end TaskManager

end Waywallen
