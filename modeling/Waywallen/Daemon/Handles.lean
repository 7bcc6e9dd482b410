import Waywallen.Daemon.Continues

/-!
# Abort handles

The router keeps the handles of the tasks it may abort: the event loops and the orphan timers.
The resume timers of the two pause mechanisms are not among them, so such a timer, once armed, is
never dropped: it waits until it fires.
-/

namespace Waywallen

open TaskPool

/-- The body of a resume timer. -/
def Call.resumes : Call → Bool
  | router (.resumeAutopause _ _) | router (.resumeSession _) => true
  | _ => false

/-- A task that no handle may lead to. -/
def HasResume (t : DaemonTask) : Prop := ∃ c ∈ t.stack, c.resumes = true

/-- Someone holds a handle on task `i`. -/
def Held (p : DaemonPool) (i : ℕ) : Prop :=
  i ∈ p.shared.inner.handles ∨ ∃ c ∈ calls p.tasks, c.handle = some i

/-- Handles lead to tasks without a resume timer; a task with one has nothing else to do, and is
never interrupted. -/
structure HandlesSafe (p : DaemonPool) : Prop where
  held : ∀ i, Held p i → ∃ t, p.tasks[i]? = some t ∧ ¬HasResume t
  kept : ∀ t ∈ p.tasks, HasResume t → t.aborted = false ∧ t.cancellable = false
  alone : ∀ t ∈ p.tasks, HasResume t → t.stack.length = 1

section Exec

variable {x : Choice} {fresh : ℕ} {s : Daemon} {c k : Call} {o : Step}

/-- A call adds no handle to the router's but its own. -/
theorem handles_innerAfter {i : ℕ} (h : i ∈ (c.innerAfter s).handles) :
    i ∈ s.inner.handles ∨ c.handle = some i := by
  cases c with
  | router c =>
    have hf := RouterCall.frame s c
    rw [Call.innerAfter, Inner.handles, hf.rendererTasks, hf.orphanTimers, List.mem_append] at h
    rw [Inner.handles, List.mem_append]
    obtain h | h := h
    · unfold RouterCall.rendererTasksAfter at h
      split at h
      · exact (HashMap.mem_values_insert h).symm.imp .inl fun hi => by rw [hi]; rfl
      · exact .inl (.inl (HashMap.mem_values_erase h))
      · exact .inl (.inl (HashMap.mem_values_erase h))
      · exact .inl (.inl h)
    · unfold RouterCall.orphanTimersAfter at h
      split at h
      · exact (HashMap.mem_values_insert h).symm.imp .inr fun hi => by rw [hi]; rfl
      · exact .inl (.inr (HashMap.mem_values_erase h))
      · exact .inl (.inr (HashMap.mem_values_erase h))
      · exact .inl (.inr (HashMap.mem_values_erase h))
      · exact .inl (.inr (HashMap.mem_values_erase h))
      · exact .inl (.inr h)
  | _ => exact .inl h

/-- No call goes on to run a resume timer's body: only its own task does. -/
theorem Call.Continues.resumes (h : c.Continues fresh s k) : k.resumes = false := by
  cases h <;> rfl

/-- A handle that is passed on is the router's, or that of the task just spawned. -/
theorem handle_of_mem_next (h : c.exec x fresh s = some o) (hk : k ∈ o.next) {i : ℕ}
    (hi : k.handle = some i) :
    i ∈ s.inner.handles ∨ i = fresh ∧ ∃ t, o.spawn = [t] ∧ ¬HasResume t := by
  have hc := Call.continues h hk
  cases hc <;> cases hi
  case registerRenderer h' =>
    cases h
    exact .inr ⟨rfl, _, rfl, by simp [HasResume, Call.resumes]⟩
  case scheduleOrphanGrace r =>
    cases h
    exact .inr ⟨rfl, _, rfl, by simp [HasResume, Call.resumes]⟩
  case cancelOrphanTimer r hr =>
    exact .inl (List.mem_append_right _ ((HashMap.mem_values_iff _ _).2 ⟨r, hr⟩))

theorem Call.Spawns.stack {t : DaemonTask} (h : c.Spawns s t) :
    t.aborted = false ∧ t.cancellable = false ∧ t.stack.length = 1 ∧
      ∀ k ∈ t.stack, k.handle = none := by
  cases h <;> exact ⟨rfl, rfl, rfl, by simp [Call.handle]⟩

theorem handle_of_mem_calls_spawn (h : c.exec x fresh s = some o) (hk : k ∈ calls o.spawn) :
    k.handle = none := by
  obtain hs | ⟨t, hs, ht⟩ := Call.spawns h
  · simp [hs] at hk
  · exact ht.stack.2.2.2 k (by simpa [hs] using hk)

end Exec

/-! ## The invariant -/

/-- Whether a task has a resume timer depends on its stack alone. -/
theorem HasResume.of_same {t u : DaemonTask} (h : t.Same u) (ht : HasResume t) : HasResume u := by
  obtain ⟨c, hc, hr⟩ := ht
  exact ⟨c, h.stack ▸ hc, hr⟩

section Run

variable {p : DaemonPool} {i : ℕ} {x : Choice} {t : DaemonTask} {c : Call} {rest : List Call}
  {o : Step}

/-- A task that goes on after a call has no resume timer. -/
theorem HandlesSafe.not_hasResume (hp : HandlesSafe p) (ht : p.tasks[i]? = some t)
    (hc : t.stack = c :: rest) (ho : semantics.exec x p.tasks.length c p.shared = some o) :
    ¬HasResume { t with stack := o.next ++ rest } := by
  rintro ⟨k, hk, hr⟩
  obtain hk | hk := List.mem_append.1 hk
  · rw [(Call.continues ho hk).resumes] at hr
    cases hr
  · have h := hp.alone t (List.mem_of_getElem? ht) ⟨k, hc ▸ List.mem_cons_of_mem _ hk, hr⟩
    rw [hc, List.length_cons, Nat.succ_inj, List.length_eq_zero_iff] at h
    subst h
    cases hk

/-- The handles held after a call: they were held before, or lead to the task just spawned. -/
theorem Held.of_resume (ht : p.tasks[i]? = some t) (hc : t.stack = c :: rest)
    (ho : semantics.exec x p.tasks.length c p.shared = some o) {j : ℕ}
    (h : Held (p.resume i t rest o) j) :
    Held p j ∨ j = p.tasks.length ∧ ∃ u, o.spawn = [u] ∧ ¬HasResume u := by
  have hcall : c ∈ calls p.tasks :=
    mem_calls.2 ⟨t, List.mem_of_getElem? ht, hc ▸ List.mem_cons_self ..⟩
  obtain h | ⟨k, hk, hj⟩ := h
  · have h : j ∈ o.shared.inner.handles := h
    rw [Call.inner_exec ho] at h
    exact .inl ((handles_innerAfter h).imp id fun hj => ⟨c, hcall, hj⟩)
  · obtain hk | hk | hk := mem_calls_resume ht hc hk
    · exact (handle_of_mem_next ho hk hj).imp .inl id
    · rw [handle_of_mem_calls_spawn ho hk] at hj
      cases hj
    · exact .inl (.inr ⟨k, hk, hj⟩)

theorem HandlesSafe.resume (hp : HandlesSafe p) (ht : p.tasks[i]? = some t)
    (hc : t.stack = c :: rest) (ho : semantics.exec x p.tasks.length c p.shared = some o) :
    HandlesSafe (p.resume i t rest o) := by
  obtain ⟨hi, -⟩ := List.getElem?_eq_some_iff.1 ht
  have hcall : c ∈ calls p.tasks :=
    mem_calls.2 ⟨t, List.mem_of_getElem? ht, hc ▸ List.mem_cons_self ..⟩
  have hnot := hp.not_hasResume ht hc ho
  -- a task with a resume timer is an old one that did not run, or the one just spawned
  have hcases : ∀ u ∈ (p.resume i t rest o).tasks, HasResume u →
      u.aborted = false ∧ u.cancellable = false ∧ u.stack.length = 1 := by
    intro u hu hr
    obtain ⟨j, hj⟩ := List.mem_iff_getElem?.1 hu
    rw [getElem?_resume o j hi, Option.map_eq_some_iff] at hj
    obtain ⟨v, hv, rfl⟩ := hj
    have hr : HasResume v := hr.of_same (by split <;> exact ⟨rfl, rfl, rfl⟩)
    have hji : j ≠ i := fun h => by
      rw [if_pos h, Option.some_inj] at hv
      exact hnot (hv ▸ hr)
    rw [if_neg hji] at hv
    have habort : j ∉ o.abort := fun ha => by
      obtain ⟨w, hw, hwr⟩ := hp.held j ((Call.mem_abort ho ha).imp id fun h => ⟨c, hcall, h⟩)
      obtain ⟨hlt, -⟩ := List.getElem?_eq_some_iff.1 hw
      rw [if_pos hlt, hw, Option.some_inj] at hv
      exact hwr (hv ▸ hr)
    rw [if_neg habort]
    split at hv
    · have hmem := List.mem_of_getElem? hv
      exact ⟨(hp.kept v hmem hr).1, (hp.kept v hmem hr).2, hp.alone v hmem hr⟩
    · obtain hs | ⟨w, hs, hw⟩ := Call.spawns ho
      · simp [hs] at hv
      · have hvw : v = w := by simpa [hs] using List.mem_of_getElem? hv
        exact hvw ▸ ⟨hw.stack.1, hw.stack.2.1, hw.stack.2.2.1⟩
  refine ⟨fun j hj => ?_, fun u hu hr => ⟨(hcases u hu hr).1, (hcases u hu hr).2.1⟩,
    fun u hu hr => (hcases u hu hr).2.2⟩
  rw [getElem?_resume o j hi]
  obtain hj | ⟨rfl, u, hu, hr⟩ := Held.of_resume ht hc ho hj
  · obtain ⟨u, hu, hr⟩ := hp.held j hj
    obtain ⟨hlt, -⟩ := List.getElem?_eq_some_iff.1 hu
    by_cases hji : j = i
    · refine ⟨_, by rw [if_pos hji, Option.map_some], fun h => hnot ?_⟩
      exact h.of_same (by split <;> exact ⟨rfl, rfl, rfl⟩)
    · refine ⟨_, by rw [if_neg hji, if_pos hlt, hu, Option.map_some], fun h => hr ?_⟩
      exact h.of_same (by split <;> exact ⟨rfl, rfl, rfl⟩)
  · refine ⟨_, by
      rw [if_neg (by omega), if_neg (by omega), hu, Nat.sub_self, List.getElem?_cons_zero,
        Option.map_some], fun h => hr ?_⟩
    exact h.of_same (by split <;> exact ⟨rfl, rfl, rfl⟩)

end Run

/-- A task a request starts has no resume timer and holds no handle. -/
theorem Call.resumes_of_isRequested {c : Call} (h : c.isRequested = true) :
    c.resumes = false ∧ c.handle = none := by
  cases c with
  | router c => cases c <;> first | exact ⟨rfl, rfl⟩ | cases h
  | _ => exact ⟨rfl, rfl⟩

theorem handlesSafe_start (registry : HashMap String (List String)) :
    HandlesSafe (start registry) := by
  have hnot : ∀ t ∈ (start registry).tasks, ¬HasResume t := by
    intro t ht ⟨k, hk, hr⟩
    obtain rfl : t = { stack := [.manager .reapLoop] } := by simpa [start] using ht
    obtain rfl : k = .manager .reapLoop := by simpa using hk
    cases hr
  refine ⟨?_, fun t ht hr => absurd hr (hnot t ht), fun t ht hr => absurd hr (hnot t ht)⟩
  rintro i (hi | ⟨k, hk, hi⟩)
  · cases hi
  · obtain rfl : k = .manager .reapLoop := by simpa [start] using hk
    cases hi

theorem HandlesSafe.wake {p : DaemonPool} (hp : HandlesSafe p) {i : ℕ} {t : DaemonTask}
    (ht : p.tasks[i]? = some t) : HandlesSafe (p.replace i t.wake) := by
  refine ⟨fun j hj => ?_, fun u hu hr => ?_, fun u hu hr => ?_⟩
  · rw [Held, calls_wake ht] at hj
    obtain ⟨u, hu, hr⟩ := hp.held j hj
    rw [getElem?_replace ht]
    by_cases hji : j = i
    · subst hji
      obtain rfl := Option.some_inj.1 (ht.symm.trans hu)
      exact ⟨t.wake, if_pos rfl, hr⟩
    · exact ⟨u, by rw [if_neg hji, hu], hr⟩
  · obtain hu | rfl := List.mem_or_eq_of_mem_set hu
    · exact hp.kept u hu hr
    · exact hp.kept t (List.mem_of_getElem? ht) hr
  · obtain hu | rfl := List.mem_or_eq_of_mem_set hu
    · exact hp.alone u hu hr
    · exact hp.alone t (List.mem_of_getElem? ht) hr

theorem HandlesSafe.drop {p : DaemonPool} (hp : HandlesSafe p) {i : ℕ} {t : DaemonTask}
    (ht : p.tasks[i]? = some t) : HandlesSafe (p.replace i t.drop) := by
  have hnot : ¬HasResume t.drop := fun ⟨k, hk, _⟩ => by cases hk
  have hold : ∀ u ∈ (p.replace i t.drop).tasks, HasResume u → u ∈ p.tasks := fun u hu hr => by
    obtain hu | rfl := List.mem_or_eq_of_mem_set hu
    · exact hu
    · exact absurd hr hnot
  refine ⟨fun j hj => ?_, fun u hu hr => hp.kept u (hold u hu hr) hr,
    fun u hu hr => hp.alone u (hold u hu hr) hr⟩
  obtain ⟨u, hu, hr⟩ := hp.held j (hj.imp id fun ⟨k, hk, hkj⟩ => ⟨k, mem_calls_drop ht hk, hkj⟩)
  rw [getElem?_replace ht]
  by_cases hji : j = i
  · exact ⟨t.drop, if_pos hji, hnot⟩
  · exact ⟨u, by rw [if_neg hji, hu], hr⟩

theorem HandlesSafe.start {p : DaemonPool} (hp : HandlesSafe p) {q : Request} {s : Daemon}
    {t : DaemonTask} (h : q.accept p.shared = some (s, t)) :
    HandlesSafe ⟨s, p.tasks ++ [t]⟩ := by
  have hk (k) (hk : k ∈ t.stack) :=
    Call.resumes_of_isRequested ((Request.isRequested_accept h).2 k hk)
  have hold : ∀ u ∈ p.tasks ++ [t], HasResume u → u ∈ p.tasks := fun u hu hr => by
    obtain hu | hu := List.mem_append.1 hu
    · exact hu
    · obtain rfl := List.mem_singleton.1 hu
      obtain ⟨k, hmem, hres⟩ := hr
      rw [(hk k hmem).1] at hres
      cases hres
  refine ⟨fun j hj => ?_, fun u hu hr => hp.kept u (hold u hu hr) hr,
    fun u hu hr => hp.alone u (hold u hu hr) hr⟩
  have hj : Held p j := by
    obtain hj | ⟨k, hmem, hj⟩ := hj
    · exact .inl (Request.inner_accept h ▸ hj)
    · rw [calls_append, List.mem_append] at hmem
      obtain hmem | hmem := hmem
      · exact .inr ⟨k, hmem, hj⟩
      · rw [(hk k (by simpa using hmem)).2] at hj
        cases hj
  obtain ⟨u, hu, hr⟩ := hp.held j hj
  obtain ⟨hlt, -⟩ := List.getElem?_eq_some_iff.1 hu
  exact ⟨u, by rw [List.getElem?_append_left hlt, hu], hr⟩

theorem HandlesSafe.step {p p' : DaemonPool} {l : DaemonLabel} (hp : HandlesSafe p)
    (h : semantics.step p l = some p') : HandlesSafe p' := by
  refine Semantics.preserves (C := fun _ _ => True) ?_ ?_ ?_ ?_ ?_ p l p' hp trivial h
  · exact fun p i x t c rest o hp _ ht _ hc ho => hp.resume ht hc ho
  · exact fun p i t hp _ ht _ => hp.wake ht
  · exact fun p i t hp _ ht _ => hp.drop ht
  · exact fun p q s t hp _ h => hp.start h
  · intro p e s hp _ he
    have hs : s.inner.handles = p.shared.inner.handles := by
      cases e <;> cases he <;> rfl
    exact ⟨fun j hj => hp.held j (by rwa [Held, hs] at hj), hp.kept, hp.alone⟩

/-- Resume timers are safe in every state the daemon reaches. -/
theorem handlesSafe_of_run {registry : HashMap String (List String)} {ls : List DaemonLabel}
    {p : DaemonPool} (h : Run registry ls p) : HandlesSafe p :=
  Transition.invariant (fun _ _ _ hp hs => hp.step hs) (handlesSafe_start registry) h

end Waywallen
