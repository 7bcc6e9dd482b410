import Waywallen.Daemon.Channels

/-!
# The gate before a bind

A sync does not bind a pool that is not yet of the scheme its renderer was asked for last; the
display waits at the gate for the bind event that brings the right pool. The scheme is recorded
after the request has been written, outside the router's lock: when the answer is quicker than the
record, its bind event finds the gate closed, and nothing opens it later.
-/

namespace Waywallen

open TaskPool

def Call.syncs (d : DisplayId) : Call → Bool
  | router (.syncDisplay e) => e == d
  | _ => false

def EventMsg.isBind : EventMsg → Bool
  | .bindBuffers _ => true
  | _ => false

/-- The call leads to a sync of the displays of renderer `r`. -/
def Call.bringsBind (s : Daemon) (r : RendererId) : Call → Bool
  | router (.onRendererBind q) => q == r
  | router (.rendererEvents q k) => q == r && ((s.broadcasts r).drop k).any EventMsg.isBind
  | reader (.broadcast q msg) => q == r && msg.isBind
  | _ => false

/-- The call brings on a sync of display `d`, which is linked to renderer `r`. -/
def Call.wakes (s : Daemon) (d : DisplayId) (r : RendererId) (c : Call) : Bool :=
  c.syncs d || c.bringsBind s r

/-- The cached pool of the renderer is bound. -/
def Daemon.bound (s : Daemon) (st : DisplayState) (r : RendererId) : Bool :=
  st.lastRenderer == some r && st.lastBufferGeneration == (s.slots r).generation

/-- Both sides have declared capabilities, and the cached pool is not of the last scheme. -/
def Slots.gates (sl : Slots) (st : DisplayState) : Bool :=
  sl.formatCaps.isSome && st.consumerCaps.isSome && !sl.schemeSatisfied

/-- Display `d`, linked to renderer `r`, has its cached pool if there is one, waits at the gate, or
is woken by one of the calls. -/
def Daemon.serves (s : Daemon) (cs : List Call) (d : DisplayId) (st : DisplayState)
    (r : RendererId) : Bool :=
  (s.slots r).generation.isNone || s.bound st r || (s.slots r).gates st || cs.any (Call.wakes s d r)

/-- The call is about to register renderer `r`. -/
def Call.adds (r : RendererId) : Call → Bool
  | router (.addRenderer h _) => h.id == r
  | _ => false

/-- The cached pool of the renderer is of the given scheme. -/
def Slots.hasPool (sl : Slots) (scheme : NegotiatedScheme) : Bool :=
  sl.bindSnapshot.any fun snap =>
    snap.fourcc == scheme.fourcc && snap.modifier == scheme.modifier

/-- The displays linked to renderer `r` satisfy `f`. -/
def Daemon.allLinked (s : Daemon) (r : RendererId) (f : DisplayId → DisplayState → Bool) : Bool :=
  s.inner.displays.entries.all fun e => s.inner.table.routeOf e.1 != some r || f e.1 e.2

/-- The step leaves no display without a wake-up: a renderer that is registered serves the
displays that are linked to it already, no bind event is skipped, and a scheme is recorded before
the sync for the pool that answers it. -/
def Call.attends (p : DaemonPool) : Call → Bool
  | router (.addRenderer h _) =>
      p.shared.allLinked h.id fun d st => p.shared.serves (calls p.tasks) d st h.id
  | router (.rendererEvents r k) =>
      let log := p.shared.broadcasts r
      !((log.drop k).take (log.length - broadcastCapacity - k)).any EventMsg.isBind
  | manager (.storeDispatchedScheme r scheme) =>
      !(p.shared.slots r).hasPool scheme || p.shared.allLinked r fun d st =>
        p.shared.bound st r || (calls p.tasks).any (Call.wakes p.shared d r)
  | _ => true

/-- Nothing is lost if the call is never made; `others` are the calls of the other tasks. -/
def Call.spareable (s : Daemon) (others : List Call) : Call → Bool
  | router (.syncDisplay d) => (s.inner.displays.lookup d).all fun st =>
      (s.inner.table.routeOf d).all fun r =>
        !s.inner.table.rendererIds.contains r || s.serves others d st r
  | router (.onRendererBind r) | router (.rendererEvents r _) | reader (.broadcast r _) =>
      !s.inner.table.rendererIds.contains r && others.all fun c => !c.adds r
  | _ => true

/-- No wake-up is lost. -/
def WakesUp (p : DaemonPool) : DaemonLabel → Prop
  | .run i _ => ∀ c ∈ (p.tasks[i]?.bind fun t => t.stack.head?), c.attends p = true
  | .drop i => ∀ t ∈ p.tasks[i]?, ∀ c ∈ t.stack,
      c.spareable p.shared (calls (p.replace i t.drop).tasks) = true
  | _ => True

/-- Every registered renderer serves the displays linked to it, and its events are read. -/
structure Attended (p : DaemonPool) : Prop where
  loops : ∀ r, (r ∈ p.shared.inner.table.rendererIds ∨ ∃ c ∈ calls p.tasks, c.adds r = true) →
    ∃ k, .router (.rendererEvents r k) ∈ calls p.tasks ∧ k ≤ (p.shared.broadcasts r).length
  served : ∀ d st r, p.shared.inner.displays.lookup d = some st →
    p.shared.inner.table.routeOf d = some r → r ∈ p.shared.inner.table.rendererIds →
    p.shared.serves (calls p.tasks) d st r = true

section Exec

variable {x : Choice} {fresh : ℕ} {s : Daemon} {c k : Call} {o : Step} {d : DisplayId}
  {r : RendererId}

theorem Slots.schemeSatisfied_congr {sl sl' : Slots} (hb : sl'.bindSnapshot = sl.bindSnapshot)
    (hs : sl'.lastDispatchedScheme = sl.lastDispatchedScheme) :
    sl'.schemeSatisfied = sl.schemeSatisfied := by
  rw [schemeSatisfied, hb, hs, schemeSatisfied]

theorem Slots.schemeSatisfied_record (sl : Slots) (scheme : NegotiatedScheme) :
    Slots.schemeSatisfied { sl with lastDispatchedScheme := some scheme } =
      sl.hasPool scheme := by
  unfold schemeSatisfied hasPool
  cases sl.bindSnapshot <;> rfl

/-- What the gate looks at, after a call. -/
structure SameGate (sl sl' : Slots) : Prop where
  formatCaps : sl.formatCaps.isSome = true → sl'.formatCaps.isSome = true
  bindSnapshot : sl'.bindSnapshot = sl.bindSnapshot
  lastDispatchedScheme : sl'.lastDispatchedScheme = sl.lastDispatchedScheme

theorem SameGate.refl (sl : Slots) : SameGate sl sl := ⟨id, rfl, rfl⟩

theorem SameGate.submitted (rec : Option FrameRecord) (sl : Slots) :
    SameGate sl (rec.elim sl sl.submitFrameRecord) := by
  cases rec <;> exact ⟨id, rfl, rfl⟩

theorem SameGate.gates {sl sl' : Slots} (h : SameGate sl sl') {st st' : DisplayState}
    (hst : st.SentSame st') (hg : sl.gates st = true) : sl'.gates st' = true := by
  simp only [Slots.gates, Bool.and_eq_true] at hg ⊢
  rw [Slots.schemeSatisfied_congr h.bindSnapshot h.lastDispatchedScheme]
  exact ⟨⟨h.formatCaps hg.1.1, hst.consumerCaps hg.1.2⟩, hg.2⟩

/-- A call changes what the gate of renderer `r` looks at when it stores a pool, records a scheme,
or starts the renderer. -/
theorem sameGate_exec (ho : c.exec x fresh s = some o) (r : RendererId) :
    SameGate (s.slots r) (o.shared.slots r) ∨
      (∃ snap, x = .received (.bindBuffers snap) ∧ c = .reader (.readerLoop r)) ∨
      (∃ scheme, c = .manager (.storeDispatchedScheme r scheme)) ∨
      (o.shared.slots r).bindSnapshot = none := by
  rw [Call.slots_exec ho]
  unfold Call.slotsAfter
  split
  · refine .inl ?_
    split
    · unfold Slots.blacklistFormat
      (repeat' split) <;> first
        | exact .refl _
        | exact ⟨fun _ => rfl, rfl, rfl⟩
    · exact .refl _
  · exact .inl (.submitted _ _)
  · exact .inl (.submitted _ _)
  · rename_i q scheme
    split
    · rename_i hr
      exact .inr (.inr (.inl ⟨scheme, by rw [hr]⟩))
    · exact .inl (.refl _)
  · split
    · rename_i q x msg
      split
      · rename_i hr
        subst hr
        cases msg with
        | bindBuffers snap => exact .inr (.inl ⟨snap, rfl, rfl⟩)
        | formatCaps caps =>
          refine .inl ?_
          simp only [ReaderCall.receive]
          split
          · exact ⟨fun _ => rfl, rfl, rfl⟩
          · exact .refl _
        | _ => exact .inl ⟨id, rfl, rfl⟩
      · exact .inl (.refl _)
    · exact .inl (.refl _)
  · split <;> exact .inl ⟨id, rfl, rfl⟩
  · split <;> exact .inl ⟨id, rfl, rfl⟩
  · split <;> exact .inl ⟨id, rfl, rfl⟩
  · repeat' split
    all_goals first
      | exact .inr (.inr (.inr rfl))
      | exact .inl (.refl _)
  · exact .inl (.refl _)

theorem Daemon.allLinked_iff {f : DisplayId → DisplayState → Bool} :
    s.allLinked r f = true ↔ ∀ d st, s.inner.displays.lookup d = some st →
      s.inner.table.routeOf d = some r → f d st = true := by
  simp only [Daemon.allLinked, List.all_eq_true, Bool.or_eq_true, bne_iff_ne, ne_eq]
  constructor
  · intro h d st hst hd
    exact (h ⟨d, st⟩ (AList.mem_lookup_iff.1 hst)).resolve_left fun hne => hne hd
  · rintro h ⟨d, st⟩ hmem
    by_cases hd : s.inner.table.routeOf d = some r
    · exact .inr (h d st (AList.mem_lookup_iff.2 hmem) hd)
    · exact .inl hd

theorem Daemon.serves_iff {cs : List Call} {st : DisplayState} :
    s.serves cs d st r = true ↔ (s.slots r).generation = none ∨ s.bound st r = true ∨
      (s.slots r).gates st = true ∨ ∃ k ∈ cs, k.wakes s d r = true := by
  simp only [Daemon.serves, Bool.or_eq_true, Option.isNone_iff_eq_none, List.any_eq_true, or_assoc]

theorem broadcasts_extend (ho : c.exec x fresh s = some o) (q : RendererId) :
    s.broadcasts q <+: o.shared.broadcasts q := by
  rw [Call.broadcasts_exec ho]
  unfold Call.broadcastsAfter
  split
  · rename_i r' msg
    by_cases hq : q = r'
    · subst hq
      rw [Function.update_self]
      exact List.prefix_append _ _
    · rw [Function.update_of_ne hq]
  · exact List.prefix_rfl

/-- A call that brings on a sync still does after more has been broadcast. -/
theorem Call.wakes_mono {s' : Daemon} (hb : ∀ q, s.broadcasts q <+: s'.broadcasts q)
    (h : c.wakes s d r = true) : c.wakes s' d r = true := by
  rw [wakes, Bool.or_eq_true] at h ⊢
  refine h.imp id fun h => ?_
  cases c with
  | router c =>
    cases c with
    | rendererEvents q k =>
      simp only [bringsBind, Bool.and_eq_true, List.any_eq_true] at h ⊢
      obtain ⟨hq, e, he, hbind⟩ := h
      obtain ⟨l, hl⟩ := hb q
      rw [beq_iff_eq] at hq
      subst hq
      refine ⟨beq_self_eq_true _, e, ?_, hbind⟩
      rw [← hl, List.drop_append]
      exact List.mem_append_left _ he
    | _ => exact h
  | reader c => cases c <;> exact h
  | _ => exact h

/-- A display that gets a new route is synced. -/
theorem Call.routeOf_or_sync (ho : c.exec x fresh s = some o)
    (h : o.shared.inner.table.routeOf d = some r) :
    s.inner.table.routeOf d = some r ∨ .router (.syncDisplay d) ∈ o.next := by
  rw [Call.inner_exec ho] at h
  cases c with
  | router c =>
    rw [innerAfter, (RouterCall.frame s c).table, RouterCall.routeOf_tableAfter] at h
    cases c with
    | unregisterRenderer q | killOrphanNow q => exact .inl (Option.filter_eq_some_iff.1 h).1
    | registerDisplay reg b =>
      dsimp only at h
      split at h
      · rename_i hd
        subst hd
        cases ho
        exact .inr (by simp)
      · exact .inl h
    | unregisterDisplay e =>
      dsimp only at h
      split at h
      · cases h
      · exact .inl h
    | relinkDisplaysTo ds q | relinkAllDisplaysTo q =>
      dsimp only at h
      split at h
      · rename_i hd
        cases ho
        refine .inr (List.mem_append_left _ (List.mem_append_left _ ?_))
        exact List.mem_map_of_mem hd
      · exact .inl h
    | _ => exact .inl h
  | _ => exact .inl h

/-- A display that is new is synced; of any other, what it has been sent is kept unless it is. -/
theorem Call.sentSame_or_sync (ho : c.exec x fresh s = some o) (hc : c ≠ .router (.syncDisplay d))
    {st' : DisplayState} (h : o.shared.inner.displays.lookup d = some st') :
    (∃ st, s.inner.displays.lookup d = some st ∧ st.SentSame st') ∨
      .router (.syncDisplay d) ∈ o.next := by
  rw [Call.inner_exec ho] at h
  cases c with
  | router c =>
    rcases RouterCall.sentSame (c := c) (fun hd => hc (hd ▸ rfl)) h with ⟨reg, b, rfl, hd⟩ | hst
    · subst hd
      cases ho
      exact .inr (by simp)
    · exact .inl hst
  | _ => exact .inl ⟨st', h, .refl st'⟩

/-- A sync binds the cached pool or stops at the gate. -/
theorem serves_syncDisplay (ho : (Call.router (.syncDisplay d)).exec x fresh s = some o)
    (cs : List Call) {st : DisplayState} (hst : o.shared.inner.displays.lookup d = some st)
    (hd : o.shared.inner.table.routeOf d = some r)
    (hr : r ∈ o.shared.inner.table.rendererIds) : o.shared.serves cs d st r = true := by
  cases ho
  simp only [Daemon.dispatch, Daemon.withInner] at hst hd hr ⊢
  rw [Inner.syncDisplay_eq] at hd hr
  obtain ⟨l, hl, rfl⟩ := Inner.routeOf_eq_some.1 hd
  obtain ⟨k, hk⟩ := Option.isSome_iff_exists.1 (RoutingTable.mem_rendererIds.1 hr)
  have hid := RoutingTable.id_of_getRenderer hk
  rw [Daemon.serves_iff]
  cases hg : (s.slots l.rendererId).generation with
  | none => exact .inl rfl
  | some g =>
    have htarget : s.inner.syncTarget s.slots d = some (l, k, g) :=
      Inner.syncTarget_eq_some.2 ⟨hl, hk, hid, hg⟩
    refine .inr ?_
    rcases s.inner.syncDisplay_cases s.settings s.slots d with ⟨hidle, hwhy⟩ |
      ⟨state, hstate, -, -, ⟨hnone, -⟩ | ⟨l', k', g', htarget', -, hdisplays⟩⟩
    · rw [hidle] at hst
      rcases hwhy st hst with hgated | hsame
      · rw [htarget, Inner.gated, hid] at hgated
        exact .inr (.inl hgated)
      · rw [htarget] at hsame
        refine .inl ?_
        unfold Inner.needsUpdate at hsame
        split at hsame
        · rename_i heq
          cases heq
          simp_all [Daemon.bound]
        · simp_all
        · cases hsame
    · rw [htarget] at hnone
      cases hnone
    · rw [htarget, Option.some_inj] at htarget'
      cases htarget'
      rw [hdisplays, HashMap.lookup_modify, if_pos rfl, hstate] at hst
      obtain rfl := Option.some_inj.1 hst
      exact .inl (by simp [Daemon.bound, hg])

end Exec

section Resume

variable {p : DaemonPool} {i : ℕ} {x : Choice} {t : DaemonTask} {c : Call} {rest : List Call}
  {o : Step} {d : DisplayId} {r : RendererId}

/-- A call that brings on a sync is replaced by one that still does, until the sync is made. -/
theorem Attended.wakes_resume (hp : Attended p) (ht : p.tasks[i]? = some t)
    (hc : t.stack = c :: rest) (ho : semantics.exec x p.tasks.length c p.shared = some o)
    (hatt : c.attends p = true) (hne : c ≠ .router (.syncDisplay d))
    (hd : p.shared.inner.table.routeOf d = some r)
    (hr : r ∈ p.shared.inner.table.rendererIds)
    (h : ∃ k ∈ calls p.tasks, k.wakes p.shared d r = true) :
    ∃ k ∈ calls (p.resume i t rest o).tasks, k.wakes o.shared d r = true := by
  obtain ⟨k, hk, hwakes⟩ := h
  by_cases hkc : k = c
  · subst hkc
    rw [Call.wakes, Bool.or_eq_true] at hwakes
    obtain ⟨l, hl, rfl⟩ := Inner.routeOf_eq_some.1 hd
    have hid := RoutingTable.displayId_of_linkOf hl
    rcases hwakes with hsync | hbind
    · cases k with
      | router c =>
        cases c with
        | syncDisplay e => exact absurd (beq_iff_eq.1 hsync ▸ rfl) hne
        | _ => cases hsync
      | _ => cases hsync
    cases k with
    | router c =>
      cases c with
      | onRendererBind q =>
        obtain rfl := beq_iff_eq.1 hbind
        cases ho
        refine ⟨_, next_mem_calls_resume ht hc (List.mem_append_left _ (List.mem_map_of_mem
          (Inner.mem_activeLinks.2 ⟨hid.symm ▸ hl, rfl⟩))), ?_⟩
        simp [Call.wakes, Call.syncs, hid]
      | rendererEvents q n =>
        simp only [Call.bringsBind, Bool.and_eq_true, beq_iff_eq] at hbind
        obtain ⟨rfl, hany⟩ := hbind
        simp only [semantics, Call.exec, RouterCall.exec, Daemon.andThen] at ho
        split at ho
        · rename_i hlag
          cases ho
          refine ⟨_, next_mem_calls_resume ht hc (List.mem_singleton_self _), ?_⟩
          simp only [Call.attends, Bool.not_eq_true'] at hatt
          rw [← List.take_append_drop ((p.shared.broadcasts l.rendererId).length -
            broadcastCapacity - n) ((p.shared.broadcasts l.rendererId).drop n), List.any_append,
            hatt, Bool.false_or, List.drop_drop] at hany
          rw [show n + ((p.shared.broadcasts l.rendererId).length - broadcastCapacity - n) =
            (p.shared.broadcasts l.rendererId).length - broadcastCapacity by omega] at hany
          simp [Call.wakes, Call.bringsBind, hany]
        · split at ho
          · cases ho
          · rename_i e he
            cases ho
            obtain ⟨hlt, he⟩ := List.getElem?_eq_some_iff.1 he
            rw [List.drop_eq_getElem_cons hlt, he, List.any_cons, Bool.or_eq_true] at hany
            rcases hany with hbind | hany
            · refine ⟨.router (.onRendererBind l.rendererId), next_mem_calls_resume ht hc
                (List.mem_append_left _ ?_), by simp [Call.wakes, Call.bringsBind]⟩
              cases e with
              | bindBuffers snap => exact List.mem_singleton_self _
              | _ => cases hbind
            · refine ⟨_, next_mem_calls_resume ht hc
                (List.mem_append_right _ (List.mem_singleton_self _)), ?_⟩
              simp [Call.wakes, Call.bringsBind, hany]
      | _ => cases hbind
    | reader c =>
      cases c with
      | broadcast q msg =>
        simp only [Call.bringsBind, Bool.and_eq_true, beq_iff_eq] at hbind
        obtain ⟨rfl, hmsg⟩ := hbind
        obtain ⟨n, hn, hle⟩ := hp.loops _ (.inl hr)
        cases ho
        refine ⟨_, calls_resume_of_ne ht hc hn (by simp), ?_⟩
        simp only [Call.wakes, Call.bringsBind, Function.update_self, List.drop_append,
          List.any_append]
        rw [Nat.sub_eq_zero_of_le hle]
        simp [hmsg]
      | _ => cases hbind
    | _ => cases hbind
  · exact ⟨k, calls_resume_of_ne ht hc hk hkc,
      k.wakes_mono (broadcasts_extend ho) hwakes⟩

/-- The events of a registered renderer are still read after a call. -/
theorem Attended.loops_resume (hp : Attended p) (ht : p.tasks[i]? = some t)
    (hc : t.stack = c :: rest) (ho : semantics.exec x p.tasks.length c p.shared = some o)
    (h : r ∈ o.shared.inner.table.rendererIds ∨
      ∃ k ∈ calls (p.resume i t rest o).tasks, k.adds r = true) :
    ∃ n, .router (.rendererEvents r n) ∈ calls (p.resume i t rest o).tasks ∧
      n ≤ (o.shared.broadcasts r).length := by
  have hcall : c ∈ calls p.tasks :=
    mem_calls.2 ⟨t, List.mem_of_getElem? ht, hc ▸ List.mem_cons_self ..⟩
  by_cases hold : r ∈ p.shared.inner.table.rendererIds ∨ ∃ k ∈ calls p.tasks, k.adds r = true
  · obtain ⟨n, hn, hle⟩ := hp.loops r hold
    by_cases hnc : .router (.rendererEvents r n) = c
    · subst hnc
      simp only [semantics, Call.exec, RouterCall.exec, Daemon.andThen] at ho
      split at ho
      · cases ho
        exact ⟨_, next_mem_calls_resume ht hc (List.mem_singleton_self _), Nat.sub_le _ _⟩
      · split at ho
        · cases ho
        · rename_i e he
          cases ho
          obtain ⟨hlt, -⟩ := List.getElem?_eq_some_iff.1 he
          exact ⟨_, next_mem_calls_resume ht hc
            (List.mem_append_right _ (List.mem_singleton_self _)), hlt⟩
    · exact ⟨n, calls_resume_of_ne ht hc hn hnc,
        hle.trans (broadcasts_extend ho r).length_le⟩
  · -- the renderer is new: its event loop is started before it is added
    rw [not_or] at hold
    rcases h with hr | ⟨k, hk, hadds⟩
    · rw [Call.inner_exec ho] at hr
      cases c with
      | router c =>
        rw [Call.innerAfter, (RouterCall.frame _ c).table,
          RouterCall.mem_rendererIds_tableAfter] at hr
        cases c with
        | addRenderer h j =>
          refine absurd ⟨_, hcall, ?_⟩ hold.2
          exact beq_iff_eq.2 (hr.resolve_right hold.1).symm
        | unregisterRenderer q | killOrphanNow q => exact absurd hr.2 hold.1
        | _ => exact absurd hr hold.1
      | _ => exact absurd hr hold.1
    · rcases mem_calls_resume ht hc hk with hk | hk | hk
      · cases Call.continues ho hk with
        | @registerRenderer h =>
          obtain rfl := beq_iff_eq.1 hadds
          cases ho
          exact ⟨_, spawn_mem_calls_resume ht hc (List.mem_singleton_self _), le_rfl⟩
        | _ => cases hadds
      · rcases Call.spawns ho with hs | ⟨u, hs, hu⟩
        · simp [hs] at hk
        · rw [hs, calls_cons, calls_nil, List.append_nil] at hk
          cases hu <;> obtain rfl := List.mem_singleton.1 hk <;> cases hadds
      · exact absurd ⟨k, hk, hadds⟩ hold.2

/-- A call that changes nothing of what the displays are linked to and have been sent, nor of what
the gate looks at. -/
theorem serves_of_sameGate {s s' : Daemon} {cs cs' : List Call} {st st' : DisplayState}
    (hst : st.SentSame st') (hgate : SameGate (s.slots r) (s'.slots r))
    (hwakes : (∃ k ∈ cs, k.wakes s d r = true) → ∃ k ∈ cs', k.wakes s' d r = true)
    (h : s.serves cs d st r = true) : s'.serves cs' d st' r = true := by
  have hgen : (s'.slots r).generation = (s.slots r).generation := by
    rw [Slots.generation, hgate.bindSnapshot, Slots.generation]
  rw [Daemon.serves_iff] at h ⊢
  rw [hgen]
  refine h.imp id (Or.imp (fun hb => ?_) (Or.imp (hgate.gates hst) hwakes))
  rw [Daemon.bound, hst.lastRenderer, hst.lastBufferGeneration, hgen]
  exact hb

/-- Recording a scheme closes the gate again, or the displays linked to the renderer have its pool
or are woken. -/
theorem serves_storeDispatchedScheme {scheme : NegotiatedScheme} {cs : List Call}
    {st : DisplayState}
    (hatt : (Call.manager (.storeDispatchedScheme r scheme)).attends p = true)
    (hst : p.shared.inner.displays.lookup d = some st)
    (hd : p.shared.inner.table.routeOf d = some r)
    (hwakes : (∃ k ∈ calls p.tasks, k.wakes p.shared d r = true) →
      ∃ k ∈ cs, k.wakes (p.shared.modifySlots r fun sl =>
        { sl with lastDispatchedScheme := some scheme }) d r = true)
    (h : p.shared.serves (calls p.tasks) d st r = true) :
    (p.shared.modifySlots r fun sl =>
      { sl with lastDispatchedScheme := some scheme }).serves cs d st r = true := by
  rw [Daemon.serves_iff] at h ⊢
  simp only [Daemon.bound, Call.slots_modifySlots, if_true]
  rw [Call.attends, Bool.or_eq_true, Bool.not_eq_true'] at hatt
  rcases h with hnone | hbound | hgated | hwoken
  · exact .inl hnone
  · exact .inr (.inl hbound)
  · rcases hatt with hpool | hall
    · refine .inr (.inr (.inl ?_))
      simp only [Slots.gates, Bool.and_eq_true] at hgated ⊢
      refine ⟨hgated.1, ?_⟩
      rw [Slots.schemeSatisfied_record, hpool]
      rfl
    · have h := Daemon.allLinked_iff.1 hall d st hst hd
      rw [Bool.or_eq_true, List.any_eq_true] at h
      exact .inr (h.imp id fun h => .inr (hwakes h))
  · exact .inr (.inr (.inr (hwakes hwoken)))

theorem Attended.resume (hp : Attended p) (ht : p.tasks[i]? = some t) (hc : t.stack = c :: rest)
    (ho : semantics.exec x p.tasks.length c p.shared = some o) (hatt : c.attends p = true) :
    Attended (p.resume i t rest o) := by
  have hexec : c.exec x p.tasks.length p.shared = some o := ho
  refine ⟨fun r hr => hp.loops_resume ht hc ho hr, fun d st' r hst' hd' hr' => ?_⟩
  by_cases hsync : c = .router (.syncDisplay d)
  · subst hsync
    exact serves_syncDisplay hexec _ hst' hd' hr'
  have hnext (h : .router (.syncDisplay d) ∈ o.next) :
      (p.resume i t rest o).shared.serves (calls (p.resume i t rest o).tasks) d st' r = true :=
    Daemon.serves_iff.2 (.inr (.inr (.inr ⟨_, next_mem_calls_resume ht hc h, by
      simp [Call.wakes, Call.syncs]⟩)))
  rcases Call.sentSame_or_sync ho hsync hst' with ⟨st, hst, hsame⟩ | hnew
  · rcases Call.routeOf_or_sync ho hd' with hd | hnew
    · -- the display was linked to the renderer before
      have hserved : p.shared.serves (calls p.tasks) d st r = true ∧
          (r ∈ p.shared.inner.table.rendererIds ∨ ∃ h j, c = .router (.addRenderer h j)) := by
        have hr : r ∈ o.shared.inner.table.rendererIds := hr'
        rw [Call.inner_exec ho] at hr
        cases c with
        | router c =>
          rw [Call.innerAfter, (RouterCall.frame _ c).table,
            RouterCall.mem_rendererIds_tableAfter] at hr
          cases c with
          | addRenderer h j =>
            refine ⟨?_, .inr ⟨h, j, rfl⟩⟩
            rcases hr with rfl | hr
            · rw [Call.attends] at hatt
              exact Daemon.allLinked_iff.1 hatt d st hst hd
            · exact hp.served d st r hst hd hr
          | unregisterRenderer q | killOrphanNow q => exact ⟨hp.served d st r hst hd hr.2, .inl hr.2⟩
          | _ => exact ⟨hp.served d st r hst hd hr, .inl hr⟩
        | _ => exact ⟨hp.served d st r hst hd hr, .inl hr⟩
      have hwakes (h : ∃ k ∈ calls p.tasks, k.wakes p.shared d r = true) :
          ∃ k ∈ calls (p.resume i t rest o).tasks, k.wakes o.shared d r = true := by
        rcases hserved.2 with hr | ⟨h', j, rfl⟩
        · exact hp.wakes_resume ht hc ho hatt hsync hd hr h
        · obtain ⟨k, hk, hw⟩ := h
          refine ⟨k, calls_resume_of_ne ht hc hk ?_, k.wakes_mono (broadcasts_extend hexec) hw⟩
          rintro rfl
          cases hw
      rcases sameGate_exec ho r with hgate | ⟨snap, rfl, rfl⟩ | ⟨scheme, rfl⟩ | hnone
      · exact serves_of_sameGate hsame hgate hwakes hserved.1
      · cases ho
        refine Daemon.serves_iff.2 (.inr (.inr (.inr ⟨.reader (.broadcast r (.bindBuffers snap)),
          next_mem_calls_resume ht hc (List.mem_append_right _ (List.mem_cons_self ..)), ?_⟩)))
        simp [Call.wakes, Call.bringsBind, EventMsg.isBind]
      · cases ho
        obtain rfl : st' = st := Option.some_inj.1 (hst'.symm.trans hst)
        exact serves_storeDispatchedScheme hatt hst hd hwakes hserved.1
      · refine Daemon.serves_iff.2 (.inl ?_)
        show (o.shared.slots r).generation = none
        rw [Slots.generation, hnone]
        rfl
    · exact hnext hnew
  · exact hnext hnew

end Resume

section Run

variable {p p' : DaemonPool} {l : DaemonLabel}

theorem Call.adds_of_isRequested {c : Call} {r : RendererId} (h : c.isRequested = true) :
    c.adds r = false := by
  cases c with
  | router c => cases c <;> first | rfl | cases h
  | _ => rfl

/-- A call that can be spared is not needed by any display it would wake. -/
theorem Call.serves_of_spareable {s : Daemon} {others : List Call} {k : Call} {d : DisplayId}
    {st : DisplayState} {r : RendererId} (h : k.spareable s others = true)
    (hwakes : k.wakes s d r = true) (hst : s.inner.displays.lookup d = some st)
    (hd : s.inner.table.routeOf d = some r) (hr : r ∈ s.inner.table.rendererIds) :
    s.serves others d st r = true := by
  have hgone (q : RendererId) (hq : q = r)
      (h : (!s.inner.table.rendererIds.contains q && others.all fun c => !c.adds q) = true) :
      s.serves others d st r = true := by
    subst hq
    rw [List.contains_iff_mem.2 hr] at h
    cases h
  rw [wakes, Bool.or_eq_true] at hwakes
  rcases hwakes with hsync | hbind
  · cases k with
    | router c =>
      cases c with
      | syncDisplay e =>
        obtain rfl := beq_iff_eq.1 hsync
        simp only [spareable, hst, hd, Option.all_some, Bool.or_eq_true, Bool.not_eq_true'] at h
        refine h.resolve_left fun hnot => ?_
        rw [List.contains_iff_mem.2 hr] at hnot
        cases hnot
      | _ => cases hsync
    | _ => cases hsync
  · cases k with
    | router c =>
      cases c with
      | onRendererBind q => exact hgone q (beq_iff_eq.1 hbind) h
      | rendererEvents q n => exact hgone q (beq_iff_eq.1 (Bool.and_eq_true_iff.1 hbind).1) h
      | _ => cases hbind
    | reader c =>
      cases c with
      | broadcast q msg => exact hgone q (beq_iff_eq.1 (Bool.and_eq_true_iff.1 hbind).1) h
      | _ => cases hbind
    | _ => cases hbind

/-- Dropping a task loses no wake-up if all its calls can be spared. -/
theorem Attended.drop (hp : Attended p) {i : ℕ} {t : DaemonTask} (ht : p.tasks[i]? = some t)
    (hspare : ∀ c ∈ t.stack, c.spareable p.shared (calls (p.replace i t.drop).tasks) = true) :
    Attended (p.replace i t.drop) := by
  refine ⟨fun r hr => ?_, fun d st r hst hd hr => ?_⟩
  · obtain ⟨n, hn, hle⟩ := hp.loops r (hr.imp id fun ⟨k, hk, hadds⟩ =>
      ⟨k, mem_calls_drop ht hk, hadds⟩)
    refine ⟨n, calls_drop_of_notMem ht hn fun hmem => ?_, hle⟩
    obtain ⟨hgone, hnew⟩ := Bool.and_eq_true_iff.1 (hspare _ hmem)
    rw [Bool.not_eq_true'] at hgone
    rcases hr with hr | ⟨k, hk, hadds⟩
    · rw [List.contains_iff_mem.2 (show r ∈ p.shared.inner.table.rendererIds from hr)] at hgone
      cases hgone
    · have h := List.all_eq_true.1 hnew k hk
      rw [hadds] at h
      cases h
  · have h := hp.served d st r hst hd hr
    rw [Daemon.serves_iff] at h
    rcases h with hnone | hbound | hgated | ⟨k, hk, hwakes⟩
    · exact Daemon.serves_iff.2 (.inl hnone)
    · exact Daemon.serves_iff.2 (.inr (.inl hbound))
    · exact Daemon.serves_iff.2 (.inr (.inr (.inl hgated)))
    · by_cases hmem : k ∈ t.stack
      · exact Call.serves_of_spareable (hspare k hmem) hwakes hst hd hr
      · exact Daemon.serves_iff.2 (.inr (.inr (.inr
          ⟨k, calls_drop_of_notMem ht hk hmem, hwakes⟩)))

theorem Attended.step (hp : Attended p) (hC : WakesUp p l)
    (h : semantics.step p l = some p') : Attended p' := by
  refine Semantics.preserves (C := WakesUp) ?_ ?_ ?_ ?_ ?_ p l p' hp hC h
  · intro p i x t c rest o hp hC ht _ hc ho
    exact hp.resume ht hc ho (hC c (by simp [ht, hc]))
  · intro p i t hp _ ht _
    refine ⟨fun r hr => ?_, fun d st r hst hd hr => ?_⟩
    · rw [calls_wake ht] at hr ⊢
      exact hp.loops r hr
    · rw [calls_wake ht]
      exact hp.served d st r hst hd hr
  · intro p i t hp hC ht _
    exact hp.drop ht (hC t ht)
  · intro p q s t hp _ ha
    have hmono {k : Call} (hk : k ∈ calls p.tasks) : k ∈ calls (p.tasks ++ [t]) := by
      rw [calls_append]
      exact List.mem_append_left _ hk
    have hnew {r : RendererId} (h : ∃ k ∈ calls (p.tasks ++ [t]), k.adds r = true) :
        ∃ k ∈ calls p.tasks, k.adds r = true := by
      obtain ⟨k, hk, hadds⟩ := h
      rw [calls_append, calls_cons, calls_nil, List.append_nil, List.mem_append] at hk
      rcases hk with hk | hk
      · exact ⟨k, hk, hadds⟩
      · rw [Call.adds_of_isRequested ((Request.isRequested_accept ha).2 k hk)] at hadds
        cases hadds
    have hserved {d : DisplayId} {st : DisplayState} {r : RendererId}
        (h : p.shared.serves (calls p.tasks) d st r = true) :
        p.shared.serves (calls (p.tasks ++ [t])) d st r = true :=
      serves_of_sameGate (.refl st) (.refl _) (fun ⟨k, hk, hw⟩ => ⟨k, hmono hk, hw⟩) h
    obtain rfl | ⟨q, -, rfl⟩ := Request.accept_shared ha
    all_goals exact ⟨fun r hr => (hp.loops r (hr.imp id hnew)).imp fun n hn => ⟨hmono hn.1, hn.2⟩,
      fun d st r hst hd hr => hserved (hp.served d st r hst hd hr)⟩
  · intro p e s hp _ ha
    obtain rfl := Option.some_inj.1 ha
    cases e with
    | settings st => exact ⟨hp.loops, hp.served⟩
    | promoteRegistered q =>
      have hmem (r : RendererId) (hr : r ∈ (p.shared.inner.table.promoteRenderer q).rendererIds) :
          r ∈ p.shared.inner.table.rendererIds := by
        rw [RoutingTable.mem_rendererIds] at hr ⊢
        simpa using hr
      refine ⟨fun r hr => hp.loops r (hr.imp (hmem r) fun h => h), fun d st r hst hd hr => ?_⟩
      refine hp.served d st r hst ?_ (hmem r hr)
      simpa [Environment.act, Daemon.withInner, RoutingTable.routeOf] using hd
    | promoteDisplay q =>
      refine ⟨hp.loops, fun d st r hst hd hr => hp.served d st r ?_ hd hr⟩
      simpa [Environment.act, Daemon.withInner] using hst
    | promoteManaged q => exact ⟨hp.loops, hp.served⟩

theorem attended_start (registry : HashMap String (List String)) : Attended (start registry) := by
  refine ⟨fun r hr => ?_, fun d st r hst => nofun⟩
  rcases hr with hr | ⟨k, hk, hadds⟩
  · cases hr
  · simp only [start, calls_cons, calls_nil, List.append_nil, List.mem_singleton] at hk
    subst hk
    cases hadds

/-- Nothing of a bind is left to be done: no event is still to be broadcast or read, and no display
to be synced. -/
def Call.processed (s : Daemon) : Call → Bool
  | router (.rendererEvents r k) => decide ((s.broadcasts r).length ≤ k)
  | router (.onRendererBind _) | router (.syncDisplay _) | reader (.broadcast _ _) => false
  | _ => true

theorem Call.wakes_of_processed {s : Daemon} {c : Call} (h : c.processed s = true)
    (d : DisplayId) (r : RendererId) : c.wakes s d r = false := by
  cases c with
  | router c =>
    cases c with
    | rendererEvents q k =>
      have hdrop : (s.broadcasts q).drop k = [] := List.drop_eq_nil_of_le (of_decide_eq_true h)
      by_cases hq : q = r
      · subst hq
        simp [wakes, syncs, bringsBind, hdrop]
      · simp [wakes, syncs, bringsBind, hq]
    | onRendererBind q | syncDisplay e => cases h
    | _ => rfl
  | reader c => cases c <;> first | rfl | cases h
  | _ => rfl

/-- If no wake-up is lost, then once all events have been processed, a display that is linked to a
renderer with a pool of the scheme dispatched last has been bound to it. -/
theorem bound_of_wakesUp {registry : HashMap String (List String)} {ls : List DaemonLabel}
    {p : DaemonPool} (hrun : Run registry ls p)
    (hC : Transition.Along semantics.step WakesUp (start registry) ls)
    (hdone : ∀ c ∈ calls p.tasks, c.processed p.shared = true) {d : DisplayId}
    {st : DisplayState} {r : RendererId} (hst : p.shared.inner.displays.lookup d = some st)
    (hd : p.shared.inner.table.routeOf d = some r)
    (hr : r ∈ p.shared.inner.table.rendererIds)
    (hpool : (p.shared.slots r).schemeSatisfied = true) :
    st.lastRenderer = some r ∧ st.lastBufferGeneration = (p.shared.slots r).generation := by
  have hp : Attended p := Transition.invariant_of_run
    (fun p l p' hp hC h => hp.step hC h) (attended_start registry) hC hrun
  rcases Daemon.serves_iff.1 (hp.served d st r hst hd hr) with hnone | hbound | hgated | hwoken
  · rw [Slots.generation, Option.map_eq_none_iff] at hnone
    rw [Slots.schemeSatisfied, hnone] at hpool
    split at hpool <;> simp_all
  · simpa [Daemon.bound] using hbound
  · simp [Slots.gates, hpool] at hgated
  · obtain ⟨k, hk, hwakes⟩ := hwoken
    rw [Call.wakes_of_processed (hdone k hk)] at hwakes
    cases hwakes

end Run

instance WakesUp.decidable (p : DaemonPool) : (l : DaemonLabel) → Decidable (WakesUp p l)
  | .run i _ => inferInstanceAs (Decidable
      (∀ c ∈ (p.tasks[i]?.bind fun t => t.stack.head?), c.attends p = true))
  | .drop i => inferInstanceAs (Decidable (∀ t ∈ p.tasks[i]?, ∀ c ∈ t.stack,
      c.spareable p.shared (calls (p.replace i t.drop).tasks) = true))
  | .wake _ | .start _ | .env _ => .isTrue trivial

def sceneWireCaps : WireCaps :=
  ⟨[0], [1], [0], [1], [0, 0, 0, 0], [0, 0, 0, 0], .unknown, 0, syncImplicit, 0, (0, 0)⟩

def sceneCaps : PeerCaps :=
  ⟨⟨[(0, [⟨0, 1⟩])]⟩, ⟨[0, 0, 0, 0], [0, 0, 0, 0], .unknown⟩, syncImplicit, 0, 0, (0, 0), []⟩

/-- Renderer 7 and a display declare what they can do, and the renderer is asked for a pool. -/
def sceneAsked : List DaemonLabel :=
  sceneSpawned ++ .run 2 (.received (.formatCaps sceneWireCaps)) :: .run 2 .tick ::
  List.replicate 2 (.run 3 .tick) ++
  .start (.connect ⟨"A", none, 1920, 1080, 60, ⟨0, 0⟩, some sceneCaps⟩) ::
  List.replicate 13 (.run 4 .tick)

/-- The renderer answers, and its answer is broadcast. -/
def sceneAnswer : List DaemonLabel :=
  .run 2 (.received (.bindBuffers (scenePool 1))) :: List.replicate 3 (.run 2 .tick)

def fitted : DaemonPool :=
  Transition.reached semantics.step (start sceneRegistry)
    (sceneAsked ++ .run 4 .tick :: sceneAnswer ++ List.replicate 7 (.run 3 .tick) ++
      List.replicate 3 (.run 4 .tick)) (by decide +kernel)

theorem bound_of_wakesUp_fitted : ∃ st, fitted.shared.inner.displays.lookup 1 = some st ∧
    st.lastRenderer = some 7 ∧ st.lastBufferGeneration = (fitted.shared.slots 7).generation := by
  have hrun : Run sceneRegistry _ fitted := Transition.run_reached _ _
  have hst : (fitted.shared.inner.displays.lookup 1).isSome = true := by decide
  obtain ⟨st, hst⟩ := Option.isSome_iff_exists.1 hst
  exact ⟨st, hst, bound_of_wakesUp hrun (by decide) (by decide) hst
    (by decide) (by decide) (by decide)⟩

/-- The call waits for something from outside the daemon. -/
def Call.waits (s : Daemon) : Call → Bool
  | router (.rendererEvents r k) => decide ((s.broadcasts r).length ≤ k)
  | manager .reapLoop => s.reapQueue.isEmpty
  | reader (.readerLoop _) => true
  | endpoint (.frameLoop d) => decide ((s.channels d).length ≤ s.taken d)
  | _ => false

/-- The schemes a renderer has been asked for. -/
def Daemon.asked (s : Daemon) (r : RendererId) : List (UInt32 × UInt64) :=
  (s.sockets r).filterMap fun m =>
    match m.1 with
    | .negotiateBuffers scheme => some (scheme.fourcc, scheme.modifier)
    | _ => none

/-- The schemes of the pools a renderer has sent. -/
def Daemon.given (s : Daemon) (r : RendererId) : List (UInt32 × UInt64) :=
  (s.history.received r).filterMap fun m =>
    match m with
    | .bindBuffers snap => some (snap.fourcc, snap.modifier)
    | _ => none

/-- The answer is synced before the scheme that was asked for is recorded. -/
def outrun : DaemonPool :=
  Transition.reached semantics.step (start sceneRegistry)
    (sceneAsked ++ sceneAnswer ++ List.replicate 3 (.run 3 .tick) ++
      List.replicate 4 (.run 4 .tick) ++ List.replicate 4 (.run 3 .tick)) (by decide +kernel)

theorem not_bound : ¬∀ (registry : HashMap String (List String)) (ls : List DaemonLabel)
    (p : DaemonPool), Run registry ls p →
    (∀ r ∈ p.shared.history.used, p.shared.asked r = p.shared.given r) →
    (∀ c ∈ calls p.tasks, c.waits p.shared = true) →
    ∀ (d : DisplayId) (st : DisplayState) (r : RendererId),
    p.shared.inner.displays.lookup d = some st → st.consumerCaps.isSome = true →
    p.shared.inner.table.routeOf d = some r → r ∈ p.shared.inner.table.rendererIds →
    (p.shared.slots r).formatCaps.isSome = true → (p.shared.slots r).schemeSatisfied = true →
    st.lastRenderer = some r ∧ st.lastBufferGeneration = (p.shared.slots r).generation := by
  intro h
  have hrun : Run sceneRegistry _ outrun := Transition.run_reached _ _
  have hst : (outrun.shared.inner.displays.lookup 1).any
      (fun st => st.lastRenderer.isNone && st.consumerCaps.isSome) = true := by decide
  obtain ⟨st, hst, hnone⟩ := (Option.any_eq_true ..).1 hst
  rw [Bool.and_eq_true] at hnone
  have hbound := h _ _ _ hrun (by decide) (by decide) 1 st 7 hst hnone.2
    (by decide) (by decide) (by decide) (by decide)
  rw [hbound.1] at hnone
  cases hnone.1

end Waywallen
