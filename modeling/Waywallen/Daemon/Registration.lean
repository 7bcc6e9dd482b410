import Waywallen.Daemon.Handles

/-!
# Every renderer is registered once

A renderer id is drawn for one registration: the calls still to be made for it and the
registrations that have taken place are at most one together.
-/

namespace Waywallen

open TaskPool

/-- The call is a step of the registration of renderer `r`. -/
def Call.registers (r : RendererId) : Call → Bool
  | manager (.registerSpawned q) => q == r
  | router (.registerRenderer h) => h.id == r
  | router (.addRenderer h _) => h.id == r
  | _ => false

/-- Registrations of a renderer, still to be made or made. -/
structure RegisteredOnce (p : DaemonPool) : Prop where
  handle_id : ∀ r h, p.shared.managed.lookup r = some h → h.id = r
  once : ∀ r, (calls p.tasks).countP (Call.registers r) + p.shared.history.registered.count r ≤
    if r ∈ p.shared.history.used then 1 else 0
  registered : ∀ r ∈ p.shared.inner.table.rendererIds, r ∈ p.shared.history.registered

section Exec

variable {x : Choice} {fresh : ℕ} {s : Daemon} {c k : Call} {o : Step} {r : RendererId}

theorem Call.Continues.registers (h : c.Continues fresh s k) (hk : k.registers r = true) :
    (∃ req purpose, c = .apply (.spawn req purpose)) ∨ (∃ q, c = .manager (.registerSpawned q)) ∨
      ∃ h, c = .router (.registerRenderer h) := by
  cases h <;> simp_all [Call.registers]

theorem Call.Spawns.registers {t : DaemonTask} (h : c.Spawns s t) :
    t.stack.countP (Call.registers r) = 0 := by
  cases h <;> simp [Call.registers]

theorem countP_registers_spawn (h : c.exec x fresh s = some o) :
    (calls o.spawn).countP (Call.registers r) = 0 := by
  obtain hs | ⟨t, hs, ht⟩ := Call.spawns h
  · simp [hs]
  · simp [hs, ht.registers]

theorem Purpose.registers_continueWith (purpose : Purpose) (q : RendererId) :
    (purpose.continueWith q).countP (Call.registers r) = 0 := by
  cases purpose with
  | core run layout =>
    cases h : run.target <;> simp [Purpose.continueWith, Call.registers, h]
  | request ds layout =>
    by_cases h : ds = [] <;> simp [Purpose.continueWith, Call.registers, h]
  | bare => rfl

theorem countP_registers_next_eq_zero (h : c.exec x fresh s = some o)
    (hc : ∀ k, c.Continues fresh s k → k.registers r = false) :
    o.next.countP (Call.registers r) = 0 :=
  List.countP_eq_zero.2 fun k hk => by simp [hc k (Call.continues h hk)]

/-- A registration is passed on from call to call until it is made. -/
theorem countP_registers_next (hm : ∀ q h, s.managed.lookup q = some h → h.id = q)
    (h : c.exec x fresh s = some o) (hc : ∀ req purpose, c ≠ .apply (.spawn req purpose)) :
    o.next.countP (Call.registers r) + (c.registeredAfter s).count r ≤
      (if c.registers r then 1 else 0) + s.history.registered.count r := by
  by_cases hr : ∃ q, c = .manager (.registerSpawned q)
  · obtain ⟨q, rfl⟩ := hr
    cases h
    cases hq : s.managed.lookup q with
    | none => simp [Call.registeredAfter]
    | some h' =>
      obtain rfl := hm q h' hq
      simp [Call.registers, Call.registeredAfter, List.countP_cons]
  by_cases hr' : ∃ h', c = .router (.registerRenderer h')
  · obtain ⟨h', rfl⟩ := hr'
    cases h
    simp [Call.registers, Call.registeredAfter, List.countP_cons]
  have hzero : o.next.countP (Call.registers r) = 0 :=
    countP_registers_next_eq_zero h fun k hk => by
      by_contra hreg
      obtain ⟨req, purpose, rfl⟩ | hq | hh := hk.registers (by simpa using hreg)
      · exact hc req purpose rfl
      · exact hr hq
      · exact hr' hh
  rw [hzero, Nat.zero_add]
  cases c with
  | router c =>
    cases c with
    | addRenderer h' i =>
      simp [Call.registers, Call.registeredAfter, List.count_append, List.count_singleton,
        Nat.add_comm]
    | _ => exact Nat.le_add_left _ _
  | _ => exact Nat.le_add_left _ _

/-- A spawn that succeeds draws a new id and registers it. -/
theorem countP_registers_spawnCall {req : SpawnRequest} {purpose : Purpose}
    (h : (ApplyCall.spawn req purpose).exec x s = some o) :
    (o.next.countP (Call.registers r) = 0 ∧ o.shared.history = s.history) ∨
      ∃ id ∉ s.history.used, o.next.countP (Call.registers r) = (if id = r then 1 else 0) ∧
        o.shared.history = { s.history with used := id :: s.history.used } := by
  simp only [ApplyCall.exec, Daemon.done] at h
  (repeat' split at h) <;> cases h
  · exact .inl ⟨rfl, rfl⟩
  · exact .inl ⟨rfl, rfl⟩
  · refine .inr ⟨_, ‹_›, ?_, rfl⟩
    rw [List.countP_append, Purpose.registers_continueWith]
    simp [Call.registers, List.countP_cons]

end Exec

theorem RegisteredOnce.resume {p : DaemonPool} (hp : RegisteredOnce p) {i : ℕ} {x : Choice}
    {t : DaemonTask} {c : Call} {rest : List Call} {o : Step} (ht : p.tasks[i]? = some t)
    (hc : t.stack = c :: rest) (ho : semantics.exec x p.tasks.length c p.shared = some o) :
    RegisteredOnce (p.resume i t rest o) := by
  have hhist : o.shared.history = c.historyAfter x p.shared := Call.history_exec ho
  have hinner : o.shared.inner = c.innerAfter p.shared := Call.inner_exec ho
  have hmanaged : o.shared.managed = c.managedAfter p.shared := Call.managed_exec ho
  constructor
  · intro r h hr
    have hr : (c.managedAfter p.shared).lookup r = some h := hmanaged ▸ hr
    unfold Call.managedAfter at hr
    split at hr
    · rw [HashMap.lookup_insert_eq] at hr
      split at hr
      · rename_i hid
        rw [hid, Option.some_inj.1 hr]
      · exact hp.handle_id r h hr
    · rw [HashMap.lookup_erase_eq] at hr
      split at hr
      · cases hr
      · exact hp.handle_id r h hr
    · rw [HashMap.lookup_erase_eq] at hr
      split at hr
      · cases hr
      · exact hp.handle_id r h hr
    · exact hp.handle_id r h hr
  · intro r
    have hcount := countP_calls_resume ht hc o (Call.registers r)
    rw [countP_registers_spawn ho, Nat.add_zero] at hcount
    have honce := hp.once r
    change (calls (p.resume i t rest o).tasks).countP (Call.registers r) +
      o.shared.history.registered.count r ≤ if r ∈ o.shared.history.used then 1 else 0
    by_cases hs : ∃ req purpose, c = .apply (.spawn req purpose)
    · obtain ⟨req, purpose, rfl⟩ := hs
      have hreg : Call.registers r (.apply (.spawn req purpose)) = false := rfl
      obtain ⟨hz, hh⟩ | ⟨id, hid, hz, hh⟩ := countP_registers_spawnCall (r := r) ho
      · rw [hh]
        simp only [hreg, hz] at hcount
        omega
      · rw [hh]
        simp only [hreg, hz] at hcount
        by_cases hir : id = r
        · subst hir
          simp only [hid, List.mem_cons_self, if_true, if_false] at hcount honce ⊢
          omega
        · have hri : r ≠ id := fun h => hir h.symm
          simp only [hir, hri, List.mem_cons, false_or, if_false] at hcount ⊢
          omega
    · have hnext := countP_registers_next (r := r) hp.handle_id ho
        fun req purpose h => hs ⟨req, purpose, h⟩
      have hused : o.shared.history.used = p.shared.history.used := by
        rw [hhist]
        show c.usedAfter x p.shared = _
        unfold Call.usedAfter
        split
        · exact absurd ⟨_, _, rfl⟩ hs
        · rfl
      have hregd : o.shared.history.registered = c.registeredAfter p.shared :=
        congrArg History.registered hhist
      rw [hused, hregd]
      omega
  · intro r hr
    have hr : r ∈ (c.innerAfter p.shared).table.rendererIds := hinner ▸ hr
    show r ∈ o.shared.history.registered
    rw [hhist]
    show r ∈ c.registeredAfter p.shared
    cases c with
    | router c =>
      rw [Call.innerAfter, (RouterCall.frame _ c).table,
        RouterCall.mem_rendererIds_tableAfter] at hr
      cases c with
      | addRenderer h j =>
        obtain rfl | hr := hr
        · exact List.mem_append_right _ (List.mem_singleton_self _)
        · exact List.mem_append_left _ (hp.registered r hr)
      | unregisterRenderer q | killOrphanNow q => exact hp.registered r hr.2
      | _ => exact hp.registered r hr
    | _ => exact hp.registered r hr

theorem RegisteredOnce.start {p : DaemonPool} (hp : RegisteredOnce p) {q : Request} {s : Daemon}
    {t : DaemonTask} (h : q.accept p.shared = some (s, t)) :
    RegisteredOnce ⟨s, p.tasks ++ [t]⟩ := by
  have hshared := Request.accept_shared h
  refine ⟨fun r k hk => hp.handle_id r k ?_, fun r => ?_, fun r hr => ?_⟩
  · obtain rfl | ⟨id, -, rfl⟩ := hshared <;> exact hk
  · have honce := hp.once r
    by_cases hq : ∃ h', q = .router (.registerRenderer h')
    · obtain ⟨h', rfl⟩ := hq
      simp only [Request.accept] at h
      split at h <;> cases h
      rename_i hid
      simp only [calls_append, List.countP_append, calls_cons, calls_nil, List.append_nil,
        Daemon.record, List.countP_singleton, Call.registers, beq_iff_eq, List.mem_cons]
      by_cases hr : h'.id = r
      · subst hr
        simp only [hid, if_false] at honce
        simp only [true_or, if_true]
        omega
      · have hr' : r ≠ h'.id := fun h => hr h.symm
        simp only [hr, hr', false_or, if_false]
        omega
    · have hzero : t.stack.countP (Call.registers r) = 0 := by
        cases q with
        | router c =>
          cases c <;> simp only [Request.accept, RouterCall.isPublic] at h <;>
            (repeat' split at h) <;> cases h <;> first
            | rfl
            | exact absurd ⟨_, rfl⟩ hq
        | _ =>
          simp only [Request.accept] at h
          (try split at h) <;> cases h
          rfl
      have hsame : s.history.registered = p.shared.history.registered := by
        obtain rfl | ⟨id, -, rfl⟩ := hshared <;> rfl
      have hmono : (if r ∈ p.shared.history.used then 1 else 0) ≤
          if r ∈ s.history.used then 1 else 0 := by
        obtain rfl | ⟨id, -, rfl⟩ := hshared
        · exact le_rfl
        · by_cases hr : r ∈ p.shared.history.used <;> simp [Daemon.record, hr]
      simp only [calls_append, List.countP_append, calls_cons, calls_nil, List.append_nil, hzero,
        hsame, Nat.add_zero]
      exact honce.trans hmono
  · obtain rfl | ⟨id, -, rfl⟩ := hshared <;> exact hp.registered r hr

theorem RegisteredOnce.step {p p' : DaemonPool} {l : DaemonLabel} (hp : RegisteredOnce p)
    (h : semantics.step p l = some p') : RegisteredOnce p' := by
  refine Semantics.preserves (C := fun _ _ => True) ?_ ?_ ?_ ?_ ?_ p l p' hp trivial h
  · exact fun p i x t c rest o hp _ ht _ hc ho => hp.resume ht hc ho
  · intro p i t hp _ ht _
    exact ⟨hp.handle_id, fun r => (calls_wake ht).symm ▸ hp.once r, hp.registered⟩
  · intro p i t hp _ ht _
    refine ⟨hp.handle_id, fun r => le_trans ?_ (hp.once r), hp.registered⟩
    have := countP_calls_drop ht (Call.registers r)
    exact Nat.add_le_add_right (by omega) _
  · exact fun p q s t hp _ h => hp.start h
  · intro p e s hp _ he
    cases he
    cases e with
    | promoteRegistered r =>
      refine ⟨hp.handle_id, hp.once, fun q hq => hp.registered q ?_⟩
      rw [RoutingTable.mem_rendererIds] at hq ⊢
      simpa [Environment.act, Daemon.withInner] using hq
    | promoteManaged r =>
      refine ⟨fun q h hq => hp.handle_id q h ?_, hp.once, hp.registered⟩
      simpa [Environment.act] using hq
    | _ => exact ⟨hp.handle_id, hp.once, hp.registered⟩

theorem registeredOnce_start (registry : HashMap String (List String)) :
    RegisteredOnce (Waywallen.start registry) := by
  refine ⟨nofun, fun r => ?_, nofun⟩
  simp [Waywallen.start, Daemon.initial, Call.registers]

/-- No renderer id is registered twice. -/
theorem registeredOnce_of_run {registry : HashMap String (List String)} {ls : List DaemonLabel}
    {p : DaemonPool} (h : Run registry ls p) : RegisteredOnce p :=
  Transition.invariant (fun _ _ _ hp hs => hp.step hs) (registeredOnce_start registry) h

end Waywallen
