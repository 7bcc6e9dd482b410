import Waywallen.Apply.Paths

/-!
# Renderers without displays

The router's operations one after the other, each to its end. An operation that takes displays away
from renderers ends with a pass of the orphan reaper, after which a renderer without displays is the
one just applied, or the only one there is while no display is connected; such a renderer has its
grace timer running.
-/

namespace Waywallen

open TaskPool

/-- Every renderer process is registered with the router. -/
def Roster.Staffed (ro : Roster) : Prop :=
  ∀ r, ro.managed.containsKey r = true → (ro.renderer r).isSome = true

/-- The renderer is the only one, no display is connected, and its grace timer is running. -/
structure Daemon.KeptAlone (s : Daemon) (r : RendererId) : Prop where
  display : ∀ d, s.inner.displays.containsKey d = false
  only : ∀ q ∈ s.inner.table.rendererIds, q = r
  timer : s.inner.orphanTimers.containsKey r = true

/-- Registered renderers without displays are `keep` or kept alone. -/
def Daemon.Collected (keep : Option RendererId) (s : Daemon) : Prop :=
  ∀ r ∈ s.inner.table.rendererIds, s.inner.isOrphan r = true → some r = keep ∨ s.KeptAlone r

/-- The renderer an operation applies, if it reaps the orphans in the end. -/
def RouterCall.collects : RouterCall → Option (Option RendererId)
  | relinkDisplaysTo _ r | relinkAllDisplaysTo r => some (some r)
  | unregisterDisplay _ => some none
  | _ => none

/-- Router calls that are operations of their own, or part of one that leaves renderers, links and
displays alone. Whoever unregisters a renderer kills its process too, and a display's connection is
served in operations of its own. -/
def RouterCall.isOperation : RouterCall → Bool
  | addRenderer _ _ | unregisterRenderer _ | registerDisplay _ true | scheduleOrphanGrace _
  | armOrphanTimer _ _ | killOrphanNow _ => false
  | _ => true

inductive Operation
  /-- A renderer process is up, and registered. -/
  | spawnRenderer (h : RendererHandle)
  | stopRenderersOrderly (rs : List RendererId)
  | killRenderer (r : RendererId)
  | evict (r : RendererId)
  | router (c : RouterCall) (hc : c.isOperation = true)

def Operation.calls : Operation → List Call
  | spawnRenderer h => [.manager (.insertRenderer h), .manager (.registerSpawned h.id)]
  | stopRenderersOrderly rs => Waywallen.stopRenderersOrderly rs
  | killRenderer r => unregisterAndKill r
  | evict r => [.manager (.evict r)]
  | router c _ => [.router c]

/-- A grace timer is due. -/
def Operation.grace (r : RendererId) : Operation := router (.fireOrphanReap r) rfl

/-- The operations one after the other, each to its end; the settings and the order of the hash maps
may change in between. -/
inductive Performs : List Operation → Daemon → Daemon → Prop
  | nil (s) : Performs [] s s
  | operation {op ops s m t tr} (h : Alone semantics s op.calls tr m) (hops : Performs ops m t) :
      Performs (op :: ops) s t
  | environment {ops s t} (e : Environment) (hops : Performs ops (e.act s) t) : Performs ops s t

/-! ## Calls that leave the roster and the timers alone -/

/-- Calls that leave the roster and the grace timers alone, and lead to such calls only. -/
def Call.routine : Call → Bool
  | .router c => match c with
      | .registerRenderer _ | .addRenderer _ _ | .unregisterRenderer _ | .registerDisplay _ _
      | .unregisterDisplay _ | .markOrphans _ | .scheduleOrphanGrace _ | .armOrphanTimer _ _
      | .cancelOrphanTimer _ | .killOrphanNow _ | .fireOrphanReap _ | .relinkDisplaysTo _ _
      | .relinkAllDisplaysTo _ => false
      | _ => true
  | .manager c => match c with
      | .insertRenderer _ | .registerSpawned _ | .kill _ | .evict _ | .reapLoop => false
      | _ => true
  | _ => false

theorem Call.Continues.routine {fresh : ℕ} {s : Daemon} {c k : Call} (h : c.Continues fresh s k)
    (hc : c.routine = true) : k.routine = true := by
  cases h <;> first | rfl | cases hc | (rename_i h; cases h <;> cases hc)

section Routine

variable {x : Choice} {n : ℕ} {s s' : Daemon} {c : Call} {cs : List Call} {o : Step}
  {tr : List (Call × Choice)}

theorem roster_exec_routine (ho : c.exec x n s = some o) (hc : c.routine = true) :
    o.shared.roster = s.roster := by
  cases c with
  | router c =>
    rw [roster_exec_router ho, containsKey_innerAfter s (by rintro _ _ rfl; cases hc)
      (by rintro _ rfl; cases hc)]
    ext1
    · rfl
    · rfl
    · rfl
    · funext r
      refine (RouterCall.getRenderer_tableAfter ..).trans ?_
      cases c <;> first | rfl | cases hc
    · funext d
      refine (RouterCall.routeOf_tableAfter ..).trans ?_
      cases c <;> first | rfl | cases hc
    · rfl
  | manager c =>
    rw [roster_exec_manager ho]
    cases c <;> first | rfl | cases hc
  | _ => cases hc

theorem orphanTimers_exec_routine (ho : c.exec x n s = some o) (hc : c.routine = true) :
    o.shared.inner.orphanTimers = s.inner.orphanTimers := by
  cases c with
  | router c =>
    rw [(Call.frame_exec ho).orphanTimers]
    cases c <;> first | rfl | cases hc
  | manager c => rw [ManagerCall.inner_exec ho]
  | _ => cases hc

theorem alone_routine (h : Alone semantics s cs tr s') (hcs : ∀ c ∈ cs, c.routine = true) :
    s'.roster = s.roster ∧ s'.inner.orphanTimers = s.inner.orphanTimers :=
  (h.invariant (I := fun t => t.roster = s.roster ∧ t.inner.orphanTimers = s.inner.orphanTimers)
    (H := fun c => c.routine = true)
    (fun t c x n o ht hc ho => ⟨⟨(roster_exec_routine ho hc).trans ht.1,
      (orphanTimers_exec_routine ho hc).trans ht.2⟩, fun k hk =>
        (Call.continues ho hk).routine hc⟩) ⟨rfl, rfl⟩ hcs).1

end Routine

/-! ## What the reaper leaves -/

section Collected

variable {s s' : Daemon} {tr : List (Call × Choice)} {keep : Option RendererId}

theorem collected_iff : s.Collected keep ↔
    ∀ r, (s.roster.renderer r).isSome = true → (∀ d, s.roster.route d ≠ some r) →
      some r = keep ∨ s.KeptAlone r := by
  simp only [Daemon.Collected, RoutingTable.mem_rendererIds, Inner.isOrphan_iff]
  rfl

theorem Daemon.KeptAlone.congr {r : RendererId} (h : s.KeptAlone r) (hroster : s'.roster = s.roster)
    (htimers : s'.inner.orphanTimers.containsKey r = s.inner.orphanTimers.containsKey r) :
    s'.KeptAlone r where
  display d := (congrFun (congrArg Roster.display hroster) d).trans (h.display d)
  only q hq := h.only q (by
    rw [RoutingTable.mem_rendererIds] at hq ⊢
    exact congrArg Option.isSome (congrFun (congrArg Roster.renderer hroster) q) ▸ hq)
  timer := htimers.trans h.timer

theorem alone_scheduleOrphanGrace {r : RendererId}
    (h : Alone semantics s [.router (.scheduleOrphanGrace r)] tr s') :
    ∃ task, s'.inner.orphanTimers = s.inner.orphanTimers.insert r task := by
  obtain ⟨x, n, o, tr', ho, hrest, rfl⟩ := h.cons_inv
  cases ho
  obtain ⟨x, k, o, tr', ho, hrest, rfl⟩ := Alone.cons_inv hrest
  cases ho
  obtain ⟨rfl, rfl⟩ := hrest.nil_inv
  exact ⟨n, rfl⟩

theorem alone_cancelOrphanTimer {r : RendererId}
    (h : Alone semantics s [.router (.cancelOrphanTimer r)] tr s') :
    s'.inner.orphanTimers = s.inner.orphanTimers.erase r := by
  obtain ⟨x, n, o, tr', ho, hrest, rfl⟩ := h.cons_inv
  cases ho
  rw [List.append_nil] at hrest
  refine (alone_routine hrest fun c hc => ?_).2
  obtain ⟨i, -, rfl⟩ := List.mem_map.1 hc
  rfl

/-- Renderers that get their grace have their timers running. -/
theorem containsKey_scheduled {rs : List RendererId}
    (h : Alone semantics s (rs.map fun r => .router (.scheduleOrphanGrace r)) tr s') :
    ∀ r, r ∈ rs ∨ s.inner.orphanTimers.containsKey r = true →
      s'.inner.orphanTimers.containsKey r = true := by
  induction rs generalizing s tr with
  | nil =>
    obtain ⟨rfl, rfl⟩ := h.nil_inv
    exact fun r hr => hr.resolve_left List.not_mem_nil
  | cons q rs ih =>
    have h : Alone semantics s ([.router (.scheduleOrphanGrace q)] ++
      rs.map fun r => .router (.scheduleOrphanGrace r)) tr s' := h
    obtain ⟨m, tr₁, tr₂, h₁, h₂, rfl⟩ := h.append_inv
    obtain ⟨task, hm⟩ := alone_scheduleOrphanGrace h₁
    intro r hr
    refine ih h₂ r ?_
    rw [hm, HashMap.containsKey_insert]
    grind

/-- The lone renderer that the reaper spares has its timer running. -/
theorem containsKey_of_lone (h : Alone semantics s [.router (.markOrphans keep)] tr s')
    (hlone : s.inner.loneRendererNoDisplays = true) {r : RendererId}
    (hr : r ∈ s.inner.orphanCandidates keep) :
    s'.inner.orphanTimers.containsKey r = true := by
  obtain ⟨x, n, o, tr', ho, hrest, rfl⟩ := h.cons_inv
  cases ho
  rw [List.append_nil] at hrest
  obtain ⟨m, tr₁, tr₂, h₁, h₂, rfl⟩ := Alone.append_inv hrest
  simp only [if_pos hlone] at h₁
  rw [← List.map_eq_flatMap] at h₁
  have hm := containsKey_scheduled h₁ r (.inl hr)
  cases keep with
  | none =>
    obtain ⟨-, rfl⟩ := h₂.nil_inv
    exact hm
  | some k =>
    have hne : r ≠ k := fun h => (mem_orphanCandidates.1 hr).2.1 (congrArg some h)
    rw [alone_cancelOrphanTimer h₂, HashMap.containsKey_erase, hm, decide_eq_true hne]
    rfl

theorem isSome_renderer_stop {ro : Roster} {gone : List RendererId} {r : RendererId}
    (h : ((ro.stop gone).renderer r).isSome = true) :
    r ∉ gone ∧ (ro.renderer r).isSome = true := by
  simp only [Roster.stop, Roster.kill, Roster.unregister] at h
  split at h
  · cases h
  · exact ⟨‹_›, h⟩

theorem route_stop_ne {ro : Roster} {gone : List RendererId} {r : RendererId} (hr : r ∉ gone)
    (h : ∀ d, (ro.stop gone).route d ≠ some r) (d : DisplayId) : ro.route d ≠ some r :=
  fun hd => h d (by simp [Roster.stop, Roster.kill, Roster.unregister, hd, hr])

/-- After a pass of the reaper the orphans are collected. -/
theorem collected_of_markOrphans (h : Alone semantics s [.router (.markOrphans keep)] tr s') :
    s'.Collected keep := by
  obtain ⟨hroster, -⟩ := alone_markOrphans h
  refine collected_iff.2 fun r hr hroute => ?_
  rw [hroster] at hr hroute
  obtain ⟨hgone, hr⟩ := isSome_renderer_stop hr
  have hroute := route_stop_ne hgone hroute
  refine or_iff_not_imp_left.2 fun hkeep => ?_
  have hcand := mem_orphanCandidates.2 ⟨hr, hkeep, hroute⟩
  by_cases hlone : s.inner.loneRendererNoDisplays = true
  · rw [if_pos hlone, Roster.stop_nil] at hroster
    have hone : s.inner.table.rendererIds.length = 1 := by
      simpa using (Bool.and_eq_true_iff.1 hlone).2
    obtain ⟨k, hk⟩ := List.length_eq_one_iff.1 hone
    have hkept : ∀ q ∈ s.inner.table.rendererIds, q = r := fun q hq => by
      have hrmem := RoutingTable.mem_rendererIds.2 hr
      rw [hk, List.mem_singleton] at hq hrmem
      exact hq.trans hrmem.symm
    refine ⟨fun d => ?_, fun q hq => hkept q ?_, containsKey_of_lone h hlone hcand⟩
    · exact (congrFun (congrArg Roster.display hroster) d).trans (display_of_lone hlone d)
    · rw [RoutingTable.mem_rendererIds] at hq ⊢
      exact congrArg Option.isSome (congrFun (congrArg Roster.renderer hroster) q) ▸ hq
  · rw [if_neg hlone] at hgone
    exact absurd hcand hgone

theorem Daemon.Collected.congr (h : s.Collected keep) (hroster : s'.roster = s.roster)
    (htimers : s'.inner.orphanTimers = s.inner.orphanTimers) : s'.Collected keep := by
  refine collected_iff.2 fun r hr hroute => ?_
  rw [hroster] at hr hroute
  exact (collected_iff.1 h r hr hroute).imp_right fun hk => hk.congr hroster (by rw [htimers])

/-- The timer's body: an orphan is stopped, and otherwise only the timer is gone. -/
theorem alone_fireOrphanReap {r : RendererId}
    (h : Alone semantics s [.router (.fireOrphanReap r)] tr s') :
    (r ∈ s.inner.table.rendererIds ∧ s.inner.isOrphan r = true) ∧
        s'.roster = s.roster.stop [r] ∨
      ¬(r ∈ s.inner.table.rendererIds ∧ s.inner.isOrphan r = true) ∧ s'.roster = s.roster ∧
        s'.inner.orphanTimers = s.inner.orphanTimers.erase r := by
  obtain ⟨x, n, o, tr', ho, hrest, rfl⟩ := h.cons_inv
  cases ho
  rw [List.append_nil] at hrest
  by_cases horphan : r ∈ s.inner.table.rendererIds ∧ s.inner.isOrphan r = true
  · rw [onlyIf, if_pos (by simpa using horphan)] at hrest
    exact .inl ⟨horphan, (alone_killOrphanNow hrest).1⟩
  · rw [onlyIf, if_neg (by simpa using horphan)] at hrest
    obtain ⟨-, rfl⟩ := Alone.nil_inv hrest
    exact .inr ⟨horphan, rfl, rfl⟩

/-- Grace timers keep the orphans collected. -/
theorem Daemon.Collected.fire (h : s.Collected keep) {q : RendererId}
    (hfire : Alone semantics s [.router (.fireOrphanReap q)] tr s') : s'.Collected keep := by
  refine collected_iff.2 fun r hr hroute => ?_
  obtain ⟨⟨hq, -⟩, hroster⟩ | ⟨hq, hroster, htimers⟩ := alone_fireOrphanReap hfire
  · rw [hroster] at hr hroute
    obtain ⟨hgone, hr⟩ := isSome_renderer_stop hr
    refine (collected_iff.1 h r hr (route_stop_ne hgone hroute)).imp_right fun hkept => ?_
    exact absurd (List.mem_singleton.2 (hkept.only q hq).symm) hgone
  · rw [hroster] at hr hroute
    have horphan : r ∈ s.inner.table.rendererIds ∧ s.inner.isOrphan r = true :=
      ⟨RoutingTable.mem_rendererIds.2 hr, (Inner.isOrphan_iff ..).2 hroute⟩
    have hne : r ≠ q := fun hrq => hq (hrq ▸ horphan)
    refine (collected_iff.1 h r hr hroute).imp_right fun hkept => hkept.congr hroster ?_
    rw [htimers, HashMap.containsKey_erase, decide_eq_true hne, Bool.true_and]

theorem Daemon.Collected.act (h : s.Collected keep) (e : Environment) :
    (e.act s).Collected keep := by
  refine collected_iff.2 fun r hr hroute => ?_
  cases e with
  | settings st | promoteManaged q =>
    exact (collected_iff.1 h r hr hroute).imp_right fun hkept =>
      ⟨hkept.display, hkept.only, hkept.timer⟩
  | promoteRegistered q =>
    have hget : (s.inner.table.promoteRenderer q).getRenderer = s.inner.table.getRenderer :=
      funext fun _ => RoutingTable.getRenderer_promoteRenderer ..
    have hr := (congrArg Option.isSome (congrFun hget r)).symm.trans hr
    refine (collected_iff.1 h r hr hroute).imp_right fun hkept => ?_
    refine ⟨hkept.display, fun k hk => hkept.only k ?_, hkept.timer⟩
    rw [RoutingTable.mem_rendererIds] at hk ⊢
    exact congrFun hget k ▸ hk
  | promoteDisplay d =>
    refine (collected_iff.1 h r hr hroute).imp_right fun hkept => ?_
    refine ⟨fun e => ?_, hkept.only, hkept.timer⟩
    exact (congrArg Option.isSome (HashMap.lookup_promote ..)).trans (hkept.display e)

end Collected

/-! ## Every process is registered -/

section Staffed

variable {s s' : Daemon} {tr : List (Call × Choice)}

theorem Roster.Staffed.stop {ro : Roster} (h : ro.Staffed) (gone : List RendererId) :
    (ro.stop gone).Staffed := by
  intro r hr
  rw [HashMap.containsKey, Roster.lookup_managed_stop] at hr
  split at hr
  · cases hr
  · rename_i hgone
    have hget : (ro.stop gone).renderer r = ro.renderer r := if_neg hgone
    exact hget ▸ h r hr

theorem staffed_registered {ro : Roster} (h : ro.Staffed) (k : RendererHandle)
    (used : List RendererId) : Roster.Staffed { ro.add k with managed := ro.managed, used } := by
  intro r hr
  by_cases hrk : r = k.id
  · exact congrArg Option.isSome (if_pos hrk)
  · exact (congrArg Option.isSome (if_neg hrk)).trans (h r hr)

theorem staffed_spawned {ro : Roster} (h : ro.Staffed) (k : RendererHandle)
    (used : List RendererId) : Roster.Staffed { ro.add k with used } := by
  intro r hr
  by_cases hrk : r = k.id
  · exact congrArg Option.isSome (if_pos hrk)
  · refine (congrArg Option.isSome (if_neg hrk)).trans (h r ?_)
    have hr : HashMap.containsKey (ro.managed.insert k.id k) r = true := hr
    rw [HashMap.containsKey_insert, decide_eq_false hrk] at hr
    exact hr

/-- An eviction leaves nothing of the renderer. -/
theorem alone_evict {r : RendererId} (h : Alone semantics s [.manager (.evict r)] tr s')
    (hs : s.roster.Staffed) : s'.roster.Staffed := by
  obtain ⟨x, n, o, tr', ho, hrest, rfl⟩ := h.cons_inv
  cases ho
  rw [List.append_nil] at hrest
  by_cases hr : s.managed.containsKey r = true
  · rw [onlyIf, if_pos hr] at hrest
    rw [(alone_unregister hrest).1]
    exact hs.stop [r]
  · rw [onlyIf, if_neg hr] at hrest
    obtain ⟨-, rfl⟩ := Alone.nil_inv hrest
    intro q hq
    have hq : HashMap.containsKey (s.managed.erase r) q = true := hq
    rw [HashMap.containsKey_erase, Bool.and_eq_true] at hq
    exact hs q hq.2

/-- An operation that ends with a pass of the reaper. -/
theorem alone_around (before after : List Call) {next : List Call} {keep : Option RendererId}
    (h : Alone semantics s next tr s')
    (hnext : next = before ++ ([.router (.markOrphans keep)] ++ after))
    (hbefore : ∀ c ∈ before, c.routine = true) (hafter : ∀ c ∈ after, c.routine = true)
    (hs : s.roster.Staffed) : s'.roster.Staffed ∧ s'.Collected keep := by
  subst hnext
  obtain ⟨m, tr₁, tr₂, h₁, htail, rfl⟩ := h.append_inv
  obtain ⟨k, tr₂, tr₃, h₂, h₃, rfl⟩ := htail.append_inv
  obtain ⟨hm, -⟩ := alone_routine h₁ hbefore
  obtain ⟨hs', htimers⟩ := alone_routine h₃ hafter
  refine ⟨?_, (collected_of_markOrphans h₂).congr hs' htimers⟩
  rw [hs', (alone_markOrphans h₂).1, hm]
  exact hs.stop _

theorem staffed_exec_router {x : Choice} {n : ℕ} {c : RouterCall} {o : Step}
    (ho : (Call.router c).exec x n s = some o)
    (hc : ∀ r, (c.tableAfter s).getRenderer r = s.inner.table.getRenderer r)
    (hs : s.roster.Staffed) : o.shared.roster.Staffed := by
  rw [roster_exec_router ho]
  exact fun r hr => (congrArg Option.isSome (hc r)).trans (hs r hr)

theorem alone_collects {c : RouterCall} {keep : Option RendererId} (hc : c.collects = some keep)
    (h : Alone semantics s [.router c] tr s') (hs : s.roster.Staffed) :
    s'.roster.Staffed ∧ s'.Collected keep := by
  obtain ⟨x, n, o, tr', ho, hrest, rfl⟩ := h.cons_inv
  have hget : ∀ r, (c.tableAfter s).getRenderer r = s.inner.table.getRenderer r := fun r => by
    rw [RouterCall.getRenderer_tableAfter]
    cases c <;> first | rfl | cases hc
  have hs := staffed_exec_router ho hget hs
  rw [List.append_nil] at hrest
  cases c with
  | relinkDisplaysTo ds r =>
    cases hc
    cases ho
    refine alone_around ((s.inner.relinkTargets ds).map (fun d => .router (.syncDisplay d)) ++
      [.router .reconcileLifecycle]) (.router .reconcileBufferFlags ::
        onlyIf (!(s.inner.relinkTargets ds).isEmpty) [.router .emitDisplaysReplace])
      hrest (by simp) ?_ ?_ hs
    · simp [or_imp, forall_and, Call.routine]
    · simp [mem_onlyIf, Call.routine]
  | relinkAllDisplaysTo r =>
    cases hc
    cases ho
    refine alone_around (s.inner.displays.keys.map (fun d => .router (.syncDisplay d)) ++
      [.router .reconcileLifecycle]) (.router .reconcileBufferFlags ::
        onlyIf (!s.inner.displays.keys.isEmpty) [.router .emitDisplaysReplace])
      hrest (by simp) ?_ ?_ hs
    · simp [or_imp, forall_and, Call.routine]
    · simp [mem_onlyIf, Call.routine]
  | unregisterDisplay d =>
    cases hc
    cases ho
    refine alone_around [] _ hrest rfl (fun c hc => absurd hc List.not_mem_nil) ?_ hs
    simp [Call.routine]
  | _ => cases hc

/-- Every operation keeps every process registered. -/
theorem Operation.staffed (op : Operation) (h : Alone semantics s op.calls tr s')
    (hs : s.roster.Staffed) : s'.roster.Staffed := by
  cases op with
  | spawnRenderer k =>
    rw [(alone_registerSpawned h).1]
    exact staffed_spawned hs k _
  | stopRenderersOrderly rs =>
    rw [(alone_stopRenderersOrderly h).1]
    exact hs.stop rs
  | killRenderer r =>
    rw [(alone_unregisterAndKill h).1]
    exact hs.stop [r]
  | evict r => exact alone_evict h hs
  | router c hc =>
    have h : Alone semantics s [.router c] tr s' := h
    cases c with
    | registerRenderer k =>
      obtain ⟨x, n, o, tr', ho, hrest, rfl⟩ := h.cons_inv
      cases ho
      rw [(alone_addRenderer hrest).1]
      exact staffed_registered hs k _
    | registerDisplay reg client =>
      obtain ⟨x, n, o, tr', ho, hrest, rfl⟩ := h.cons_inv
      have ho : (Call.router (.registerDisplay reg client)).exec x n s = some o := ho
      have hs := staffed_exec_router ho
        (fun r => RouterCall.getRenderer_tableAfter s (.registerDisplay reg client) r) hs
      cases client with
      | true => cases hc
      | false =>
        cases ho
        rw [List.append_nil] at hrest
        rw [(alone_quiet hrest (by simp [onlyIf, or_imp, forall_and, Call.quiet])).1]
        exact hs
    | unregisterDisplay d => exact (alone_collects rfl h hs).1
    | relinkDisplaysTo ds r => exact (alone_collects rfl h hs).1
    | relinkAllDisplaysTo r => exact (alone_collects rfl h hs).1
    | markOrphans keep =>
      rw [(alone_markOrphans h).1]
      exact hs.stop _
    | cancelOrphanTimer r =>
      rw [(alone_quiet h (by simp [Call.quiet])).1]
      exact hs
    | fireOrphanReap r =>
      obtain ⟨-, hroster⟩ | ⟨-, hroster, -⟩ := alone_fireOrphanReap h
      · exact hroster ▸ hs.stop [r]
      · exact hroster ▸ hs
    | _ => first
      | cases hc; done
      | rw [(alone_routine h (by simp [Call.routine])).1]; exact hs

theorem Roster.Staffed.act (hs : s.roster.Staffed) (e : Environment) :
    (e.act s).roster.Staffed := by
  intro r hr
  cases e with
  | promoteRegistered q =>
    exact (congrArg Option.isSome (RoutingTable.getRenderer_promoteRenderer ..)).trans (hs r hr)
  | promoteManaged q =>
    exact hs r ((congrArg Option.isSome (HashMap.lookup_promote ..)).symm.trans hr)
  | _ => exact hs r hr

theorem Performs.staffed {ops : List Operation} (h : Performs ops s s')
    (hs : s.roster.Staffed) : s'.roster.Staffed := by
  induction h with
  | nil s => exact hs
  | operation h hops ih => exact ih (Operation.staffed _ h hs)
  | environment e hops ih => exact ih (hs.act e)

theorem staffed_initial (registry : HashMap String (List String)) :
    (Daemon.initial registry).roster.Staffed := by
  intro r hr
  cases (HashMap.containsKey_empty r).symm.trans hr

/-- Grace timers that fire after one another. -/
theorem Performs.collected {timers : List RendererId} {keep : Option RendererId}
    (h : Performs (timers.map Operation.grace) s s') (hs : s.Collected keep) :
    s'.Collected keep := by
  generalize hops : timers.map Operation.grace = ops at h
  induction h generalizing timers with
  | nil s => exact hs
  | operation h _ ih =>
    cases timers with
    | nil => cases hops
    | cons r timers =>
      obtain ⟨rfl, rfl⟩ := List.cons.inj hops
      exact ih (hs.fire h) rfl
  | environment e _ ih => exact ih (hs.act e) hops

end Staffed

/-! ## After an operation that takes displays away -/

/-- After a relink, or after a display is gone, and whatever grace timers have fired since, a
renderer without displays is the one just applied, or the only one there is while no display is
connected; so is every renderer process without displays. -/
theorem collected_of_operations {registry : HashMap String (List String)} {ops : List Operation}
    {s t u : Daemon} (hops : Performs ops (.initial registry) s) {c : RouterCall}
    {keep : Option RendererId} (hc : c.collects = some keep) {tr : List (Call × Choice)}
    (h : Alone semantics s [.router c] tr t) {timers : List RendererId}
    (hfired : Performs (timers.map Operation.grace) t u) :
    (∀ r ∈ u.inner.table.rendererIds, u.inner.isOrphan r = true →
        some r = keep ∨ u.KeptAlone r) ∧
      ∀ r, u.managed.containsKey r = true → u.inner.isOrphan r = true →
        some r = keep ∨ u.KeptAlone r := by
  obtain ⟨hstaffed, hcollected⟩ := alone_collects hc h (hops.staffed (staffed_initial registry))
  have hcollected := hfired.collected hcollected
  refine ⟨hcollected, fun r hr => hcollected r ?_⟩
  exact RoutingTable.mem_rendererIds.2 (hfired.staffed hstaffed r hr)

/-- The state after calls that nothing delays. -/
def Daemon.calling (s : Daemon) (cs : List Call) : Daemon :=
  (Alone.execute semantics .tick 32 s cs).getD s

theorem alone_calling (s : Daemon) (cs : List Call)
    (h : (Alone.execute semantics .tick 32 s cs).isSome = true) :
    ∃ tr, Alone semantics s cs tr (s.calling cs) := by
  obtain ⟨t, ht⟩ := Option.isSome_iff_exists.1 h
  rw [Daemon.calling, ht]
  exact Alone.of_execute ht

def spawnedSeven : Operation := .spawnRenderer ⟨7, "scene", ∅, "plugin", none, ⟨0, 0⟩⟩

def connectedA : Operation :=
  .router (.registerDisplay ⟨"A", none, 1920, 1080, 60, ⟨0, 0⟩, none⟩ false) rfl

def shownOnA : Daemon :=
  ((Daemon.initial sceneRegistry).calling spawnedSeven.calls).calling connectedA.calls

/-- The display of the only renderer is unplugged. -/
def unplugged : Daemon := shownOnA.calling [.router (.unregisterDisplay 1)]

theorem keptAlone_unplugged : unplugged.KeptAlone 7 := by
  obtain ⟨_, hspawn⟩ := alone_calling (.initial sceneRegistry) spawnedSeven.calls
    (by decide)
  obtain ⟨_, hconnect⟩ := alone_calling
    ((Daemon.initial sceneRegistry).calling spawnedSeven.calls) connectedA.calls
    (by decide)
  obtain ⟨_, hunplug⟩ := alone_calling shownOnA [.router (.unregisterDisplay 1)]
    (by decide)
  have hfired : Performs (([] : List RendererId).map Operation.grace) unplugged unplugged :=
    .nil _
  have h := (collected_of_operations (.operation hspawn (.operation hconnect (.nil _))) rfl hunplug
    hfired).1 7 (by decide) (by decide)
  exact h.resolve_left (by decide)

end Waywallen
