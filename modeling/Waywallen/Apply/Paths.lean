import Waywallen.Apply.Roster

/-!
# The two apply paths

What each of the two implementations of an apply does to the roster when it runs alone: the apply
core stops the renderers it replaces first and then looks for one to reuse, the request does it the
other way round and waits for the first frame at the end.
-/

namespace Waywallen

open TaskPool

/-- The steps of the apply path itself, each with what it met. -/
def applySteps (tr : List (Call × Choice)) : List (Call × Choice) :=
  tr.filter fun e => e.1.isApply

theorem NoApply.applySteps {tr : List (Call × Choice)} (h : NoApply tr) : applySteps tr = [] :=
  List.filter_eq_nil_iff.2 fun e he => by simp [h e he]

theorem applySteps_append (tr₁ tr₂ : List (Call × Choice)) :
    applySteps (tr₁ ++ tr₂) = applySteps tr₁ ++ applySteps tr₂ :=
  List.filter_append ..

theorem applySteps_cons (c : ApplyCall) (x : Choice) (tr : List (Call × Choice)) :
    applySteps ((.apply c, x) :: tr) = (.apply c, x) :: applySteps tr :=
  List.filter_cons_of_pos rfl

theorem mem_applySteps {c : ApplyCall} {x : Choice} {tr : List (Call × Choice)} :
    (Call.apply c, x) ∈ applySteps tr ↔ (Call.apply c, x) ∈ tr := by
  simp [applySteps, Call.isApply]

/-! ## Stopping renderers -/

section Stop

variable {s s' : Daemon} {tr : List (Call × Choice)} {r : RendererId}

theorem roster_unregister {x : Choice} {n : ℕ} {c : RouterCall} {o : Step}
    (hc : (Call.router c).Removes r) (ho : (Call.router c).exec x n s = some o) :
    o.shared.roster = s.roster.unregister [r] := by
  rw [roster_exec_router ho, containsKey_innerAfter s (by cases hc <;> simp)
    (by cases hc <;> simp)]
  ext q
  · rfl
  · rfl
  · rfl
  · simp only [RouterCall.getRenderer_tableAfter, Roster.unregister, List.mem_singleton]
    cases hc <;> rfl
  · simp only [RouterCall.routeOf_tableAfter, Roster.unregister, List.mem_singleton]
    cases hc <;> rfl
  · rfl

theorem alone_unregister (h : Alone semantics s [.router (.unregisterRenderer r)] tr s') :
    s'.roster = s.roster.unregister [r] ∧ NoApply tr := by
  refine alone_singleton h rfl fun x n o ho => ⟨roster_unregister .unregister ho, fun k hk => ?_⟩
  cases Call.continues ho hk <;> first | rfl | (rename_i h; cases h)

theorem alone_kill (h : Alone semantics s [.manager (.kill r)] tr s') :
    s'.roster = s.roster.kill [r] ∧ NoApply tr := by
  refine alone_singleton h rfl fun x n o ho => ⟨?_, fun k hk => ?_⟩
  · cases ho
    rfl
  · cases Call.continues ho hk <;> first | rfl | (rename_i h; cases h)

theorem alone_unregisterAndKill (h : Alone semantics s (unregisterAndKill r) tr s') :
    s'.roster = s.roster.stop [r] ∧ NoApply tr := by
  have h : Alone semantics s
      ([.router (.unregisterRenderer r)] ++ [.manager (.kill r)]) tr s' := h
  obtain ⟨m, tr₁, tr₂, h₁, h₂, rfl⟩ := h.append_inv
  obtain ⟨hm, htr₁⟩ := alone_unregister h₁
  obtain ⟨hs', htr₂⟩ := alone_kill h₂
  exact ⟨by rw [hs', hm]; rfl, htr₁.append htr₂⟩

theorem alone_killOrphanNow (h : Alone semantics s [.router (.killOrphanNow r)] tr s') :
    s'.roster = s.roster.stop [r] ∧ NoApply tr := by
  obtain ⟨x, n, o, tr', ho, hrest, rfl⟩ := h.cons_inv
  have ho : (Call.router (.killOrphanNow r)).exec x n s = some o := ho
  have hroster : o.shared.roster = s.roster.unregister [r] := roster_unregister .orphan ho
  cases ho
  rw [List.append_nil] at hrest
  obtain ⟨m, tr₁, tr₂, h₁, h₂, rfl⟩ := Alone.append_inv hrest
  obtain ⟨hm, htr₁⟩ := alone_quiet h₁ fun k hk => by
    simp only [mem_onlyIf, List.mem_append, List.mem_cons, List.mem_map, List.not_mem_nil,
      or_false] at hk
    rcases hk with (rfl | ⟨d, -, rfl⟩) | rfl | ⟨-, rfl⟩ <;> rfl
  obtain ⟨hs', htr₂⟩ := alone_kill h₂
  rw [hroster] at hm
  exact ⟨by rw [hs', hm]; rfl, (htr₁.append htr₂).cons rfl⟩

/-- The shutdown handshake unregisters and kills the renderers. -/
theorem alone_stopRenderersOrderly {rs : List RendererId}
    (h : Alone semantics s (stopRenderersOrderly rs) tr s') :
    s'.roster = s.roster.stop rs ∧ NoApply tr := by
  replace h := Alone.append_inv h
  obtain ⟨m₃, tr₃, tr₄, h, h₄, rfl⟩ := h
  replace h := Alone.append_inv h
  obtain ⟨m₂, tr₂, tr₃, h, h₃, rfl⟩ := h
  obtain ⟨m₁, tr₁, tr₂, h₁, h₂, rfl⟩ := Alone.append_inv h
  have hquiet {f : RendererId → Call} (hf : ∀ r, (f r).quiet = true) :
      ∀ c ∈ rs.map f, c.quiet = true := by
    simpa using fun r _ => hf r
  obtain ⟨hm₁, htr₁⟩ := alone_quiet h₁ (hquiet fun _ => rfl)
  obtain ⟨hm₂, htr₂⟩ := alone_map Roster.unregister_nil Roster.unregister_cons
    (fun _ => alone_unregister) h₂
  obtain ⟨hm₃, htr₃⟩ := alone_quiet h₃ (hquiet fun _ => rfl)
  obtain ⟨hs', htr₄⟩ := alone_map Roster.kill_nil Roster.kill_cons (fun _ => alone_kill) h₄
  refine ⟨?_, ((htr₁.append htr₂).append htr₃).append htr₄⟩
  rw [hs', hm₃, hm₂, hm₁]
  rfl

end Stop

/-! ## Relinking -/

/-- The router call that relinks the targets. -/
def relinkCall (target : Option (List DisplayId)) (r : RendererId) : RouterCall :=
  target.elim (.relinkAllDisplaysTo r) fun ds => .relinkDisplaysTo ds r

/-- The renderers an apply reaps after it has relinked the targets to `r`: registered ones that are
shown nowhere; all of them, if there is a display. -/
structure Reaped (ro : Roster) (r : RendererId) (gone : List RendererId) : Prop where
  registered : ∀ q ∈ gone, (ro.renderer q).isSome
  unlinked : ∀ q ∈ gone, q ≠ r ∧ ∀ d, ro.route d ≠ some q
  all : (∃ d, ro.display d = true) → ∀ q, (ro.renderer q).isSome → q ≠ r →
    (∀ d, ro.route d ≠ some q) → q ∈ gone

section Relink

variable {s s' : Daemon} {tr : List (Call × Choice)} {r : RendererId}

theorem mem_orphanCandidates {keep : Option RendererId} {q : RendererId} :
    q ∈ s.inner.orphanCandidates keep ↔
      (s.roster.renderer q).isSome ∧ some q ≠ keep ∧ ∀ d, s.roster.route d ≠ some q := by
  rw [Inner.orphanCandidates, List.mem_filter, RoutingTable.mem_rendererIds, Bool.and_eq_true,
    Inner.isOrphan_iff, bne_iff_ne]
  rfl

/-- Where there is a lone renderer and no display, no display is registered. -/
theorem display_of_lone (h : s.inner.loneRendererNoDisplays = true) (d : DisplayId) :
    s.inner.displays.containsKey d = false := by
  simp only [Inner.loneRendererNoDisplays, Bool.and_eq_true, List.isEmpty_iff] at h
  by_contra hd
  obtain ⟨v, hv⟩ := (HashMap.containsKey_iff s.inner.displays d).1 (Bool.eq_true_of_not_eq_false hd)
  have hmem : d ∈ s.inner.displays.keys := (HashMap.mem_keys_iff _ _).2 ⟨v, hv⟩
  rw [h.1] at hmem
  exact absurd hmem List.not_mem_nil

/-- A pass of the orphan reaper stops the orphans at once, unless the lone renderer gets its
grace. -/
theorem alone_markOrphans {keep : Option RendererId}
    (h : Alone semantics s [.router (.markOrphans keep)] tr s') :
    s'.roster = s.roster.stop
      (if s.inner.loneRendererNoDisplays then [] else s.inner.orphanCandidates keep) ∧
      NoApply tr := by
  obtain ⟨x, n, o, tr', ho, hrest, rfl⟩ := h.cons_inv
  cases ho
  rw [List.append_nil] at hrest
  obtain ⟨m, tr₁, tr₂, h₁, h₂, rfl⟩ := Alone.append_inv hrest
  obtain ⟨hs', htr₂⟩ := alone_quiet h₂ fun c hc => by
    obtain ⟨q, -, rfl⟩ := List.mem_map.1 hc
    rfl
  by_cases hlone : s.inner.loneRendererNoDisplays = true
  · obtain ⟨hm, htr₁⟩ := alone_quiet h₁ fun c hc => by
      obtain ⟨q, -, hc⟩ := List.mem_flatMap.1 hc
      rw [if_pos hlone, List.mem_singleton] at hc
      rw [hc]
      rfl
    exact ⟨by rw [hs', hm, if_pos hlone, Roster.stop_nil], (htr₁.append htr₂).cons rfl⟩
  · simp only [if_neg hlone] at h₁
    rw [← List.map_eq_flatMap] at h₁
    obtain ⟨hm, htr₁⟩ := alone_map Roster.stop_nil Roster.stop_cons
      (fun _ => alone_killOrphanNow) h₁
    exact ⟨by rw [hs', hm, if_neg hlone], (htr₁.append htr₂).cons rfl⟩

/-- What the pass after an apply reaps. -/
theorem reaped_of_markOrphans :
    Reaped s.roster r
      (if s.inner.loneRendererNoDisplays then [] else s.inner.orphanCandidates (some r)) := by
  by_cases hlone : s.inner.loneRendererNoDisplays = true
  · rw [if_pos hlone]
    refine ⟨fun q hq => absurd hq List.not_mem_nil, fun q hq => absurd hq List.not_mem_nil,
      fun ⟨d, hd⟩ => ?_⟩
    exact absurd ((display_of_lone hlone d).symm.trans hd) (by decide)
  · rw [if_neg hlone]
    refine ⟨fun q hq => (mem_orphanCandidates.1 hq).1, fun q hq => ?_,
      fun _ q hq hne hroute => mem_orphanCandidates.2 ⟨hq, Option.some_inj.not.2 hne, hroute⟩⟩
    exact (mem_orphanCandidates.1 hq).2.imp_left Option.some_inj.not.1

theorem roster_relink {x : Choice} {n : ℕ} {o : Step} {target : Option (List DisplayId)}
    (ho : (Call.router (relinkCall target r)).exec x n s = some o) :
    o.shared.roster = s.roster.relink target r := by
  have hroute (d : DisplayId) : ((relinkCall target r).tableAfter s).routeOf d =
      if s.roster.targeted target d = true then some r else s.inner.table.routeOf d := by
    refine (RouterCall.routeOf_tableAfter ..).trans ?_
    rcases target with _ | ds
    · have hmem : d ∈ s.inner.displays.keys ↔ s.roster.targeted none d = true := by
        rw [HashMap.mem_keys_iff, ← HashMap.containsKey_iff, Roster.targeted, Option.all_none,
          Bool.and_true]
        rfl
      simp only [relinkCall, Option.elim_none, hmem]
    · have hmem : d ∈ s.inner.relinkTargets ds ↔ s.roster.targeted (some ds) d = true := by
        rw [Inner.relinkTargets, List.mem_filter, Roster.targeted, Bool.and_eq_true,
          Option.all_some, List.contains_iff_mem, and_comm]
        rfl
      simp only [relinkCall, Option.elim_some, hmem]
  rw [roster_exec_router ho, containsKey_innerAfter s (by cases target <;> simp [relinkCall])
    (by cases target <;> simp [relinkCall])]
  ext1
  · rfl
  · rfl
  · rfl
  · funext q
    refine (RouterCall.getRenderer_tableAfter ..).trans ?_
    cases target <;> rfl
  · funext d
    exact hroute d
  · rfl

theorem next_relink {x : Choice} {n : ℕ} {o : Step} {target : Option (List DisplayId)}
    (ho : (Call.router (relinkCall target r)).exec x n s = some o) :
    ∃ before after, o.next = before ++ ([.router (.markOrphans (some r))] ++ after) ∧
      (∀ c ∈ before, c.quiet = true) ∧ ∀ c ∈ after, c.quiet = true := by
  have hsplit (targets : List DisplayId) (hnext : o.next =
      targets.map (fun d => Call.router (.syncDisplay d)) ++ [.router .reconcileLifecycle] ++
        ([.router (.markOrphans (some r))] ++ .router .reconcileBufferFlags ::
          onlyIf (!targets.isEmpty) [.router .emitDisplaysReplace])) :
      ∃ before after, o.next = before ++ ([.router (.markOrphans (some r))] ++ after) ∧
        (∀ c ∈ before, c.quiet = true) ∧ ∀ c ∈ after, c.quiet = true := by
    refine ⟨_, _, hnext, fun c hc => ?_, fun c hc => ?_⟩
    · simp only [List.mem_append, List.mem_map, List.mem_singleton] at hc
      rcases hc with ⟨d, -, rfl⟩ | rfl <;> rfl
    · simp only [List.mem_cons, mem_onlyIf, List.not_mem_nil, or_false] at hc
      rcases hc with rfl | ⟨-, rfl⟩ <;> rfl
  rcases target with _ | ds
  · cases ho
    exact hsplit s.inner.displays.keys (by simp)
  · cases ho
    exact hsplit (s.inner.relinkTargets ds) (by simp)

/-- A relink routes the targets to the renderer and reaps what is then shown nowhere. -/
theorem alone_relink {target : Option (List DisplayId)}
    (h : Alone semantics s [.router (relinkCall target r)] tr s') :
    ∃ gone, Reaped (s.roster.relink target r) r gone ∧
      s'.roster = (s.roster.relink target r).stop gone ∧ NoApply tr := by
  obtain ⟨x, n, o, tr', ho, hrest, rfl⟩ := h.cons_inv
  have hroster := roster_relink ho
  obtain ⟨before, after, hnext, hbefore, hafter⟩ := next_relink ho
  rw [List.append_nil, hnext] at hrest
  obtain ⟨m, tr₁, tr₂, h₁, htail, rfl⟩ := hrest.append_inv
  obtain ⟨k, tr₂, tr₃, h₂, h₃, rfl⟩ := htail.append_inv
  obtain ⟨hm, htr₁⟩ := alone_quiet h₁ hbefore
  obtain ⟨hk, htr₂⟩ := alone_markOrphans h₂
  obtain ⟨hs', htr₃⟩ := alone_quiet h₃ hafter
  have hreaped := reaped_of_markOrphans (s := m) (r := r)
  rw [hm, hroster] at hreaped hk
  exact ⟨_, hreaped, hs'.trans hk, (htr₁.append (htr₂.append htr₃)).cons rfl⟩

end Relink

/-! ## From the renderer on -/

section Settle

variable {s s' : Daemon} {tr : List (Call × Choice)} {r : RendererId}

theorem alone_settle {target : Option (List DisplayId)} {layout : WallpaperLayoutOverride}
    {tail : List Call} (h : Alone semantics s
      (.router (.setRendererWallpaperLayoutOverride r layout) ::
        .router (relinkCall target r) :: tail) tr s') :
    ∃ m gone tr₁ tr₂, tr = tr₁ ++ tr₂ ∧ applySteps tr₁ = [] ∧
      Reaped (s.roster.relink target r) r gone ∧
      m.roster = (s.roster.relink target r).stop gone ∧ Alone semantics m tail tr₂ s' := by
  replace h : Alone semantics s ([.router (.setRendererWallpaperLayoutOverride r layout)] ++
      ([.router (relinkCall target r)] ++ tail)) tr s' := h
  replace h := h.append_inv
  obtain ⟨k, tr₁, tr₂, h₁, h, rfl⟩ := h
  obtain ⟨m, tr₂, tr₃, h₂, h₃, rfl⟩ := h.append_inv
  obtain ⟨hk, htr₁⟩ := alone_quiet h₁ fun c hc => by
    rw [List.mem_singleton.1 hc]
    rfl
  obtain ⟨gone, hreaped, hm, htr₂⟩ := alone_relink h₂
  rw [hk] at hreaped hm
  exact ⟨m, gone, tr₁ ++ tr₂, tr₃, (List.append_assoc ..).symm, (htr₁.append htr₂).applySteps,
    hreaped, hm, h₃⟩

theorem alone_finish {run : ApplyRun} (h : Alone semantics s [.apply (.finish run r)] tr s') :
    ∃ x, tr = [(.apply (.finish run r), x)] ∧ s'.roster = s.roster := by
  obtain ⟨x, n, o, tr', ho, hrest, rfl⟩ := h.cons_inv
  cases ho
  obtain ⟨rfl, rfl⟩ := hrest.nil_inv
  exact ⟨x, rfl, rfl⟩

/-- The first frame comes, or it does not and the renderer is stopped. -/
def FirstFrame (ro : Roster) (r : RendererId) (x : Choice) (ro' : Roster) : Prop :=
  x = .tick ∧ ro' = ro ∨ x = .fail ∧ ro' = ro.stop [r]

theorem alone_waitForFirstFrame (h : Alone semantics s [.apply (.waitForFirstFrame r)] tr s') :
    ∃ x, applySteps tr = [(.apply (.waitForFirstFrame r), x)] ∧
      FirstFrame s.roster r x s'.roster := by
  obtain ⟨x, n, o, tr', ho, hrest, rfl⟩ := h.cons_inv
  rw [List.append_nil] at hrest
  refine ⟨x, ?_⟩
  rw [applySteps_cons]
  have ho : (ApplyCall.waitForFirstFrame r).exec x s = some o := ho
  cases x with
  | tick =>
    cases ho
    obtain ⟨rfl, rfl⟩ := hrest.nil_inv
    exact ⟨rfl, .inl ⟨rfl, rfl⟩⟩
  | fail =>
    cases ho
    obtain ⟨hs', htr⟩ := alone_unregisterAndKill hrest
    exact ⟨by rw [htr.applySteps], .inr ⟨rfl, hs'⟩⟩
  | _ => cases ho

theorem alone_addRenderer {h : RendererHandle} {i : ℕ}
    (hrun : Alone semantics s [.router (.addRenderer h i)] tr s') :
    s'.roster = { s.roster.add h with
      managed := s.managed
      used := s.history.used } ∧ NoApply tr := by
  refine alone_singleton hrun rfl fun x n o ho => ⟨?_, fun k hk => ?_⟩
  · rw [roster_exec_router ho]
    ext1
    · rfl
    · rfl
    · rfl
    · funext q
      exact RouterCall.getRenderer_tableAfter ..
    · funext d
      exact RouterCall.routeOf_tableAfter ..
    · exact containsKey_innerAfter _ (by simp) (by simp)
  · cases ho
    rw [List.mem_singleton.1 hk]
    rfl

theorem alone_registerSpawned {h : RendererHandle} (hrun : Alone semantics s
      [.manager (.insertRenderer h), .manager (.registerSpawned h.id)] tr s') :
    s'.roster = { s.roster.add h with used := s.history.used } ∧ NoApply tr := by
  replace hrun := hrun.cons_inv
  obtain ⟨_, _, o₁, _, ho, hrun, rfl⟩ := hrun
  cases ho
  replace hrun := hrun.cons_inv
  obtain ⟨_, _, _, _, ho, hrun, rfl⟩ := hrun
  cases ho
  have hmanaged : ((s.managed.insert h.id h).lookup h.id).toList = [h] := by
    rw [AList.lookup_insert, Option.toList_some]
  simp only [hmanaged, List.map_cons, List.map_nil, List.append_nil] at hrun
  replace hrun := hrun.cons_inv
  obtain ⟨_, _, _, _, ho, hrun, rfl⟩ := hrun
  cases ho
  obtain ⟨hs', htr⟩ := alone_addRenderer hrun
  exact ⟨hs', ((htr.cons rfl).cons rfl).cons rfl⟩

/-- A spawn fails, or its renderer is registered under a new id before the path goes on. -/
theorem alone_spawn {req : SpawnRequest} {purpose : Purpose}
    (h : Alone semantics s [.apply (.spawn req purpose)] tr s') :
    (∃ x, tr = [(.apply (.spawn req purpose), x)] ∧ s' = s) ∨
      ∃ x h m tr₁ tr₂, tr = (.apply (.spawn req purpose), x) :: (tr₁ ++ tr₂) ∧
        applySteps tr₁ = [] ∧ h.id ∉ s.history.used ∧ m.roster = s.roster.add h ∧
        Alone semantics m (purpose.continueWith h.id) tr₂ s' := by
  obtain ⟨x, n, o, tr', ho, hrest, rfl⟩ := h.cons_inv
  rw [List.append_nil] at hrest
  have ho : (ApplyCall.spawn req purpose).exec x s = some o := ho
  simp only [ApplyCall.exec, Daemon.done] at ho
  (repeat' split at ho) <;> cases ho
  · obtain ⟨rfl, rfl⟩ := hrest.nil_inv
    exact .inl ⟨_, rfl, rfl⟩
  · obtain ⟨rfl, rfl⟩ := hrest.nil_inv
    exact .inl ⟨_, rfl, rfl⟩
  · rename_i name id pid gpu reaper hname hid
    obtain ⟨m, tr₁, tr₂, h₁, h₂, rfl⟩ := hrest.append_inv
    obtain ⟨hm, htr₁⟩ := @alone_registerSpawned _ _ _ ⟨id, req.wpType, req.extras, name, pid, gpu⟩ h₁
    exact .inr ⟨_, ⟨id, req.wpType, req.extras, name, pid, gpu⟩, m, tr₁, tr₂, rfl, htr₁.applySteps,
      hid, hm, h₂⟩

end Settle

/-! ## The paths -/

section Paths

variable (s : Daemon)

/-- The renderers that an apply to the targets would replace. -/
def Daemon.replacedBy (target : Option (List DisplayId)) : List RendererId :=
  s.inner.renderersFullyReplacedBy target

def Daemon.nextRun (target : Option (List DisplayId)) : ApplyRun :=
  ⟨s.history.runs.length, target⟩

/-- The steps of the apply core up to the stop of the replaced renderers. -/
def coreStart (target : Option (List DisplayId)) (ty : String) (x : Choice) :
    List (Call × Choice) :=
  [(.apply (.applyWallpaperCore target), .entry ty), (.apply (.stopReplaced target ty), x)]

/-- How the apply core may run: the steps it takes and the roster it leaves. -/
inductive CoreRun (target : Option (List DisplayId)) : List (Call × Choice) → Roster → Prop
  | rejected {x} : CoreRun target [(.apply (.applyWallpaperCore target), x)] s.roster
  | noExtras {ty x} : CoreRun target
      (coreStart target ty x ++ [(.apply (.callExtras (s.nextRun target) ty), .fail)])
      (s.roster.stop (s.replacedBy target))
  | reused {ty x extras layout y z r gone} {m : Daemon}
      (hm : m.roster = s.roster.stop (s.replacedBy target))
      (hr : m.findReusable ⟨ty, extras, none⟩ = some r)
      (hgone : Reaped (m.roster.relink target r) r gone) : CoreRun target
      (coreStart target ty x ++
        [(.apply (.callExtras (s.nextRun target) ty), .properties extras layout),
          (.apply (.findReusable (s.nextRun target) ⟨ty, extras, none⟩ layout), y),
          (.apply (.finish (s.nextRun target) r), z)])
      ((m.roster.relink target r).stop gone)
  | spawnFailed {ty x extras layout y z} {m : Daemon}
      (hm : m.roster = s.roster.stop (s.replacedBy target))
      (hr : m.findReusable ⟨ty, extras, none⟩ = none) : CoreRun target
      (coreStart target ty x ++
        [(.apply (.callExtras (s.nextRun target) ty), .properties extras layout),
          (.apply (.findReusable (s.nextRun target) ⟨ty, extras, none⟩ layout), y),
          (.apply (.spawn ⟨ty, extras, none⟩ (.core (s.nextRun target) layout)), z)])
      (s.roster.stop (s.replacedBy target))
  | spawned {ty x extras layout y z w gone} {m : Daemon} {h : RendererHandle}
      (hm : m.roster = s.roster.stop (s.replacedBy target))
      (hr : m.findReusable ⟨ty, extras, none⟩ = none) (hid : h.id ∉ s.history.used)
      (hgone : Reaped ((m.roster.add h).relink target h.id) h.id gone) : CoreRun target
      (coreStart target ty x ++
        [(.apply (.callExtras (s.nextRun target) ty), .properties extras layout),
          (.apply (.findReusable (s.nextRun target) ⟨ty, extras, none⟩ layout), y),
          (.apply (.spawn ⟨ty, extras, none⟩ (.core (s.nextRun target) layout)), z),
          (.apply (.finish (s.nextRun target) h.id), w)])
      (((m.roster.add h).relink target h.id).stop gone)

/-- The displays of a request; none listed means all. -/
def requested (displays : List DisplayId) : Option (List DisplayId) :=
  if displays = [] then none else some displays

/-- How an apply request may run. -/
inductive RequestRun (displays : List DisplayId) (name : Option String) :
    List (Call × Choice) → Roster → Prop
  | rejected {x} : RequestRun displays name
      [(.apply (.wallpaperApply displays name), x)] s.roster
  | noExtras {ty} : RequestRun displays name
      [(.apply (.wallpaperApply displays name), .entry ty),
        (.apply (.requestExtras displays ty name), .fail)] s.roster
  | reused {ty extras layout y z r gone ro} (hd : ∃ d, s.roster.display d = true)
      (hr : s.findReusable ⟨ty, extras, name⟩ = some r)
      (hgone : Reaped (s.roster.relink (requested displays) r) r gone)
      (hframe : FirstFrame ((s.roster.relink (requested displays) r).stop gone) r z ro) :
      RequestRun displays name
      [(.apply (.wallpaperApply displays name), .entry ty),
        (.apply (.requestExtras displays ty name), .properties extras layout),
        (.apply (.requestFindReusable displays ⟨ty, extras, name⟩ layout), y),
        (.apply (.waitForFirstFrame r), z)] ro
  | spawnFailed {ty extras layout y w z}
      (hr : s.findReusable ⟨ty, extras, name⟩ = none) : RequestRun displays name
      [(.apply (.wallpaperApply displays name), .entry ty),
        (.apply (.requestExtras displays ty name), .properties extras layout),
        (.apply (.requestFindReusable displays ⟨ty, extras, name⟩ layout), y),
        (.apply (.requestStopReplaced displays ⟨ty, extras, name⟩ layout), w),
        (.apply (.spawn ⟨ty, extras, name⟩ (.request displays layout)), z)]
      (s.roster.stop (s.replacedBy (requested displays)))
  | spawned {ty extras layout y w z v gone ro} {h : RendererHandle}
      (hr : s.findReusable ⟨ty, extras, name⟩ = none) (hid : h.id ∉ s.history.used)
      (hgone : Reaped (((s.roster.stop (s.replacedBy (requested displays))).add h).relink
        (requested displays) h.id) h.id gone)
      (hframe : FirstFrame ((((s.roster.stop (s.replacedBy (requested displays))).add h).relink
        (requested displays) h.id).stop gone) h.id v ro) : RequestRun displays name
      [(.apply (.wallpaperApply displays name), .entry ty),
        (.apply (.requestExtras displays ty name), .properties extras layout),
        (.apply (.requestFindReusable displays ⟨ty, extras, name⟩ layout), y),
        (.apply (.requestStopReplaced displays ⟨ty, extras, name⟩ layout), w),
        (.apply (.spawn ⟨ty, extras, name⟩ (.request displays layout)), z),
        (.apply (.waitForFirstFrame h.id), v)] ro

variable {s} {s' : Daemon} {tr : List (Call × Choice)}

theorem coreRun_of_alone {target : Option (List DisplayId)}
    (h : Alone semantics s [.apply (.applyWallpaperCore target)] tr s') :
    CoreRun s target (applySteps tr) s'.roster := by
  replace h := h.cons_inv
  obtain ⟨x, n, o, tr, ho, h, rfl⟩ := h
  have ho : (ApplyCall.applyWallpaperCore target).exec x s = some o := ho
  rw [List.append_nil] at h
  rw [applySteps_cons]
  have hrejected (hnext : o.next = []) (hshared : o.shared = s) :
      CoreRun s target ((.apply (.applyWallpaperCore target), x) :: applySteps tr) s'.roster := by
    rw [hnext, hshared] at h
    obtain ⟨rfl, rfl⟩ := h.nil_inv
    exact .rejected
  cases x with
  | fail =>
    cases ho
    exact hrejected rfl rfl
  | entry ty =>
    simp only [ApplyCall.exec, Daemon.andThen, Option.some_inj] at ho
    subst ho
    by_cases hknown : ((s.registry.lookup ty).any fun defs => !defs.isEmpty) = true
    swap
    · exact hrejected (by simp only [hknown, onlyIf]; rfl) rfl
    simp only [hknown, onlyIf, if_true] at h
    replace h := h.cons_inv
    obtain ⟨x, n, o, tr, ho, h, rfl⟩ := h
    cases ho
    rw [List.append_nil] at h
    rw [applySteps_cons]
    obtain ⟨m, tr₁, tr₂, h₁, h₂, rfl⟩ := h.append_inv
    obtain ⟨hm, htr₁⟩ := alone_stopRenderersOrderly h₁
    rw [applySteps_append, htr₁.applySteps, List.nil_append]
    have hm : m.roster = s.roster.stop (s.replacedBy target) := hm
    obtain ⟨x', n, o, tr, ho, h, rfl⟩ := h₂.cons_inv
    have ho : (ApplyCall.callExtras (s.nextRun target) ty).exec x' m = some o := ho
    rw [applySteps_cons]
    cases x' with
    | fail =>
      cases ho
      obtain ⟨rfl, rfl⟩ := h.nil_inv
      rw [hm]
      exact .noExtras
    | properties extras layout =>
      cases ho
      replace h := h.cons_inv
      obtain ⟨y, n, o, tr, ho, h, rfl⟩ := h
      have ho : (ApplyCall.findReusable (s.nextRun target) ⟨ty, extras, none⟩ layout).exec y m =
        some o := ho
      rw [applySteps_cons]
      rcases hr : m.findReusable ⟨ty, extras, none⟩ with _ | r
      · simp only [ApplyCall.exec, hr, Daemon.andThen, Option.some_inj] at ho
        subst ho
        obtain ⟨z, rfl, rfl⟩ | ⟨z, h', k, tr₁, tr₂, rfl, htr₁, hid, hk, h⟩ := alone_spawn h
        · rw [hm]
          exact .spawnFailed hm hr
        · have h : Alone semantics k (.router (.setRendererWallpaperLayoutOverride h'.id layout) ::
              .router (relinkCall target h'.id) :: [.apply (.finish (s.nextRun target) h'.id)])
              tr₂ s' := by
            cases target <;> exact h
          obtain ⟨e, gone, tr₃, tr₄, rfl, htr₃, hgone, he, h⟩ := alone_settle h
          obtain ⟨w, rfl, hs'⟩ := alone_finish h
          rw [applySteps_cons, applySteps_append, applySteps_append, htr₁, htr₃, hs', he, hk]
          rw [hk] at hgone
          have hused : m.history.used = s.history.used := congrArg Roster.used hm
          exact .spawned hm hr (hused ▸ hid) hgone
      · simp only [ApplyCall.exec, hr, Daemon.andThen, Option.some_inj] at ho
        subst ho
        have h : Alone semantics m (.router (.setRendererWallpaperLayoutOverride r layout) ::
            .router (relinkCall target r) :: [.apply (.finish (s.nextRun target) r)]) tr s' := by
          cases target <;> exact h
        obtain ⟨e, gone, tr₁, tr₂, rfl, htr₁, hgone, he, h⟩ := alone_settle h
        obtain ⟨z, rfl, hs'⟩ := alone_finish h
        rw [applySteps_append, htr₁, hs', he]
        exact .reused hm hr hgone
    | _ => cases ho
  | _ => cases ho

theorem requestRun_of_alone {displays : List DisplayId} {name : Option String}
    (h : Alone semantics s [.apply (.wallpaperApply displays name)] tr s') :
    RequestRun s displays name (applySteps tr) s'.roster := by
  replace h := h.cons_inv
  obtain ⟨x, n, o, tr, ho, h, rfl⟩ := h
  have ho : (ApplyCall.wallpaperApply displays name).exec x s = some o := ho
  rw [List.append_nil] at h
  rw [applySteps_cons]
  have hrejected (hnext : o.next = []) (hshared : o.shared = s) :
      RequestRun s displays name ((.apply (.wallpaperApply displays name), x) :: applySteps tr)
        s'.roster := by
    rw [hnext, hshared] at h
    obtain ⟨rfl, rfl⟩ := h.nil_inv
    exact .rejected
  cases x with
  | fail =>
    cases ho
    exact hrejected rfl rfl
  | entry ty =>
    simp only [ApplyCall.exec, Daemon.andThen, Option.some_inj] at ho
    subst ho
    generalize hknown : (!s.inner.displays.keys.isEmpty && _) = known at h hrejected
    cases known with
    | false => exact hrejected rfl rfl
    | true =>
      have hd : ∃ d, s.roster.display d = true := by
        rw [Bool.and_eq_true, Bool.not_eq_true', List.isEmpty_eq_false_iff_exists_mem] at hknown
        obtain ⟨⟨d, hd⟩, -⟩ := hknown
        exact ⟨d, (HashMap.containsKey_iff _ _).2 ((HashMap.mem_keys_iff _ _).1 hd)⟩
      clear hrejected hknown
      simp only [onlyIf, if_true] at h
      replace h := h.cons_inv
      obtain ⟨x', n, o, tr, ho, h, rfl⟩ := h
      have ho : (ApplyCall.requestExtras displays ty name).exec x' s = some o := ho
      rw [applySteps_cons]
      cases x' with
      | fail =>
        cases ho
        obtain ⟨rfl, rfl⟩ := h.nil_inv
        exact .noExtras
      | properties extras layout =>
        cases ho
        replace h := h.cons_inv
        obtain ⟨y, n, o, tr, ho, h, rfl⟩ := h
        have ho : (ApplyCall.requestFindReusable displays ⟨ty, extras, name⟩ layout).exec y s =
          some o := ho
        have hrelink (r : RendererId) :
            (if displays = [] then RouterCall.relinkAllDisplaysTo r
              else .relinkDisplaysTo displays r) = relinkCall (requested displays) r := by
          rw [requested]
          split <;> rfl
        rw [applySteps_cons]
        rcases hr : s.findReusable ⟨ty, extras, name⟩ with _ | r
        · simp only [ApplyCall.exec, hr, Daemon.andThen, Option.some_inj] at ho
          subst ho
          replace h := h.cons_inv
          obtain ⟨w, n, o, tr, ho, h, rfl⟩ := h
          cases ho
          replace h : Alone semantics s ((stopRenderersOrderly (s.replacedBy (requested displays)) ++
            [.apply (.spawn ⟨ty, extras, name⟩ (.request displays layout))]) ++ []) tr s' := h
          rw [List.append_nil] at h
          rw [applySteps_cons]
          obtain ⟨m, tr₁, tr₂, h₁, h₂, rfl⟩ := h.append_inv
          obtain ⟨hm, htr₁⟩ := alone_stopRenderersOrderly h₁
          have hm : m.roster = s.roster.stop (s.replacedBy (requested displays)) := hm
          rw [applySteps_append, htr₁.applySteps, List.nil_append]
          obtain ⟨z, rfl, rfl⟩ | ⟨z, h', k, tr₃, tr₄, rfl, htr₃, hid, hk, h⟩ := alone_spawn h₂
          · rw [hm]
            exact .spawnFailed hr
          · rw [Purpose.continueWith, hrelink] at h
            obtain ⟨e, gone, tr₅, tr₆, rfl, htr₅, hgone, he, h⟩ := alone_settle h
            obtain ⟨v, hv, hframe⟩ := alone_waitForFirstFrame h
            rw [applySteps_cons, applySteps_append, applySteps_append, htr₃, htr₅, hv]
            rw [he, hk, hm] at hframe
            rw [hk, hm] at hgone
            have hused : m.history.used = s.history.used := congrArg Roster.used hm
            exact .spawned hr (hused ▸ hid) hgone hframe
        · simp only [ApplyCall.exec, hr, Daemon.andThen, Option.some_inj] at ho
          subst ho
          rw [Purpose.continueWith, hrelink] at h
          obtain ⟨e, gone, tr₁, tr₂, rfl, htr₁, hgone, he, h⟩ := alone_settle h
          obtain ⟨z, hz, hframe⟩ := alone_waitForFirstFrame h
          rw [applySteps_append, htr₁, hz]
          rw [he] at hframe
          exact .reused hd hr hgone hframe
      | _ => cases ho
  | _ => cases ho

end Paths

end Waywallen
