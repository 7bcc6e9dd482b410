import Waywallen.Apply.Failure

/-!
# Reusing a renderer

An apply of a wallpaper that a live renderer already draws should link the targets to that renderer.
The request looks for it before it stops anything. The apply core stops the renderers that the
targets fully replace first, and the one it could have reused may be among them.
-/

namespace Waywallen

open TaskPool

/-- A live renderer that was spawned for the same plugin, wallpaper type and extras. -/
def Daemon.HasIdentity (s : Daemon) (req : SpawnRequest) (q : RendererId) : Prop :=
  ∃ h name, s.managed.lookup q = some h ∧ s.resolve req = some name ∧
    (h.wpType == req.wpType && h.name == name && h.extras.sameEntries req.extras) = true

/-- Nothing was spawned, every renderer of the identity is still alive and registered if it was,
and one of them shows on every target. -/
structure Reuses (s : Daemon) (ro : Roster) (req : SpawnRequest)
    (target : Option (List DisplayId)) : Prop where
  used : ro.used = s.roster.used
  kept : ∀ q, s.HasIdentity req q → ro.managed.lookup q = s.roster.managed.lookup q ∧
    ro.renderer q = s.roster.renderer q
  linked : ∃ r, s.HasIdentity req r ∧
    ∀ d, s.roster.targeted target d = true → ro.route d = some r

section Reuse

variable {s m : Daemon} {req : SpawnRequest} {q r : RendererId}
  {target : Option (List DisplayId)} {steps : List (Call × Choice)} {ro : Roster}

theorem hasIdentity_of_findReusable (h : s.findReusable req = some r) : s.HasIdentity req r := by
  obtain ⟨name, hname, h⟩ := Option.bind_eq_some_iff.1 h
  obtain ⟨e, he, rfl⟩ := Option.map_eq_some_iff.1 h
  have hlookup := AList.mem_lookup_iff.2 (List.mem_of_find?_eq_some he)
  have hid := List.find?_some he
  exact ⟨e.2, name, hlookup, hname, hid⟩

theorem findReusable_of_hasIdentity (h : s.HasIdentity req q) : ∃ r, s.findReusable req = some r := by
  obtain ⟨h, name, hq, hname, hid⟩ := h
  rw [Daemon.findReusable, hname, Option.bind_some]
  have hmem : (⟨q, h⟩ : Sigma fun _ => RendererHandle) ∈ s.managed.entries :=
    AList.mem_lookup_iff.1 hq
  have hfound := (List.find?_isSome (p := fun e : Sigma fun _ => RendererHandle =>
    e.2.wpType == req.wpType && e.2.name == name && e.2.extras.sameEntries req.extras)).2
    ⟨_, hmem, hid⟩
  obtain ⟨e, he⟩ := Option.isSome_iff_exists.1 hfound
  exact ⟨e.1, by rw [he]; rfl⟩

/-- A renderer that survives a stop keeps its identity, and no other gets it. -/
theorem hasIdentity_stop {gone : List RendererId} (hm : m.roster = s.roster.stop gone) :
    m.HasIdentity req q ↔ s.HasIdentity req q ∧ q ∉ gone := by
  have hregistry : m.registry = s.registry := congrArg Roster.registry hm
  have hmanaged : m.managed.lookup q = if q ∈ gone then none else s.managed.lookup q := by
    have hlookup := s.roster.lookup_managed_stop gone q
    rw [← hm] at hlookup
    exact hlookup
  have hresolve : m.resolve req = s.resolve req := by
    rw [Daemon.resolve, Daemon.resolve, hregistry]
  rw [Daemon.HasIdentity, Daemon.HasIdentity, hmanaged, hresolve]
  by_cases hq : q ∈ gone <;> simp [hq]

/-- A registered renderer is spared by an apply exactly if it shows outside the targets. -/
theorem mem_replacedBy : q ∈ s.replacedBy target ↔ (s.roster.renderer q).isSome ∧
    ∀ d, s.roster.route d = some q → target.all (·.contains d) = true := by
  rw [Daemon.replacedBy, Inner.renderersFullyReplacedBy, List.mem_filter,
    RoutingTable.mem_rendererIds]
  refine and_congr_right fun _ => ?_
  rcases target with _ | ds
  · simp
  · rw [List.all_eq_true]
    constructor
    · intro h d hd
      obtain ⟨l, hl, hq⟩ := Inner.routeOf_eq_some.1 hd
      have hld := RoutingTable.displayId_of_linkOf hl
      exact hld ▸ h l (Inner.mem_activeLinks.2 ⟨hld.symm ▸ hl, hq⟩)
    · intro h l hl
      exact h l.displayId (Inner.routeOf_eq_some.2 ⟨l, Inner.mem_activeLinks.1 hl⟩)

/-- The renderer is shown on a display that the apply leaves as it is. -/
def Roster.ShownElsewhere (ro : Roster) (target : Option (List DisplayId)) (q : RendererId) : Prop :=
  ∃ d, ro.targeted target d ≠ true ∧ ro.route d = some q

/-- The targets keep the renderer they have been linked to. -/
theorem Reaped.route {gone : List RendererId} (h : Reaped (ro.relink target r) r gone)
    {d : DisplayId} (hd : ro.targeted target d = true) :
    ((ro.relink target r).stop gone).route d = some r := by
  rw [Roster.shown_stop, Roster.route_relink, if_pos hd]
  exact ⟨rfl, fun hr => (h.unlinked r hr).1 rfl⟩

/-- A renderer shown elsewhere is not reaped. -/
theorem Reaped.not_mem {gone : List RendererId} (h : Reaped (ro.relink target r) r gone)
    (hq : ro.ShownElsewhere target q) : q ∉ gone := by
  obtain ⟨d, hd, hroute⟩ := hq
  refine fun hmem => (h.unlinked q hmem).2 d ?_
  rw [Roster.route_relink, if_neg hd, hroute]

/-- What survives a reaping is what is linked to, if there is a display at all. -/
theorem Reaped.shownElsewhere {gone : List RendererId} (h : Reaped (ro.relink target r) r gone)
    (hdisplay : ∃ d, ro.display d = true) (hq : (ro.renderer q).isSome) (hne : q ≠ r)
    (hkept : q ∉ gone) : ro.ShownElsewhere target q := by
  by_contra hnot
  refine hkept (h.all hdisplay q hq hne fun d hd => hnot ?_)
  rw [Roster.route_relink] at hd
  split at hd
  · exact absurd (Option.some_inj.1 hd).symm hne
  · rename_i htargeted
    exact ⟨d, htargeted, hd⟩

/-- A renderer that was not stopped is as it was. -/
theorem Reaped.kept {gone : List RendererId} (hq : q ∉ gone) :
    ((ro.relink target r).stop gone).managed.lookup q = ro.managed.lookup q ∧
      ((ro.relink target r).stop gone).renderer q = ro.renderer q :=
  ((ro.relink target r).renderer_stop hq).symm

/-- A renderer of the identity is not stopped by a reusing apply. -/
theorem Reuses.not_mem (h : Reuses s ro req target) (hq : s.HasIdentity req q)
    {gone : List RendererId} (hlost : ∀ q ∈ gone, ro.managed.lookup q = none) : q ∉ gone := by
  intro hmem
  obtain ⟨v, -, hv, -⟩ := id hq
  have hkept : ro.managed.lookup q = some v := (h.kept q hq).1.trans hv
  rw [hlost q hmem] at hkept
  cases hkept

theorem lookup_stop_of_mem {gone : List RendererId} (hq : q ∈ gone) :
    (ro.stop gone).managed.lookup q = none := by
  rw [Roster.lookup_managed_stop, if_pos hq]

/-- A renderer whose entry is gone does not come back by stopping others. -/
theorem lookup_stop_of_none {gone : List RendererId} (hq : ro.managed.lookup q = none) :
    (ro.stop gone).managed.lookup q = none := by
  rw [Roster.lookup_managed_stop, hq, ite_self]

/-- A registered renderer that is not fully replaced is shown elsewhere. -/
theorem shownElsewhere_of_not_mem (hq : q ∉ s.replacedBy target)
    (hregistered : (s.roster.renderer q).isSome) : s.roster.ShownElsewhere target q := by
  by_contra hnot
  refine hq (mem_replacedBy.2 ⟨hregistered, fun d hd => ?_⟩)
  by_contra htarget
  refine hnot ⟨d, fun htargeted => htarget ?_, hd⟩
  exact (Bool.and_eq_true_iff.1 htargeted).2

/-- The core reuses a renderer exactly if none of the identity is fully replaced. -/
theorem CoreRun.reuses_iff_spared (h : CoreRun s target steps ro) {run : ApplyRun} {ty : String}
    {extras : HashMap String String} {layout : WallpaperLayoutOverride}
    (hextras : (Call.apply (.callExtras run ty), .properties extras layout) ∈ steps)
    (hlive : ∃ q, s.HasIdentity ⟨ty, extras, none⟩ q) :
    Reuses s ro ⟨ty, extras, none⟩ target ↔
      ∀ q, s.HasIdentity ⟨ty, extras, none⟩ q → q ∉ s.replacedBy target := by
  have hspawns {m : Daemon} (hm : m.roster = s.roster.stop (s.replacedBy target))
      (hr : m.findReusable ⟨ty, extras, none⟩ = none) :
      ¬ ∀ q, s.HasIdentity ⟨ty, extras, none⟩ q → q ∉ s.replacedBy target := by
    intro hspared
    obtain ⟨q, hq⟩ := hlive
    obtain ⟨r, hr'⟩ := findReusable_of_hasIdentity ((hasIdentity_stop hm).2 ⟨hq, hspared q hq⟩)
    rw [hr] at hr'
    cases hr'
  cases h with
  | rejected => simp at hextras
  | noExtras => simp [coreStart] at hextras
  | @reused _ x _ _ y z r gone m hm hr hgone =>
    obtain ⟨-, rfl, rfl, rfl⟩ : run = s.nextRun target ∧ ty = _ ∧ extras = _ ∧ layout = _ := by
      simpa [coreStart, and_assoc] using hextras
    constructor
    · intro h q hq
      refine h.not_mem hq fun v hv => lookup_stop_of_none ?_
      show m.roster.managed.lookup v = none
      rw [hm]
      exact lookup_stop_of_mem hv
    · intro hspared
      have hkept {q : RendererId} (hq : q ∉ s.replacedBy target) :
          m.roster.managed.lookup q = s.roster.managed.lookup q ∧
            m.roster.renderer q = s.roster.renderer q := by
        rw [hm]
        exact (s.roster.renderer_stop hq).symm
      have hused : m.roster.used = s.roster.used := by rw [hm]; rfl
      refine ⟨hused, fun q hq => ?_, r, ?_, fun d hd => ?_⟩
      · have hq' := hspared q hq
        have hstays : q ∉ gone := by
          intro hmem
          have hregistered : (s.roster.renderer q).isSome :=
            (hkept hq').2 ▸ hgone.registered q hmem
          obtain ⟨d, hd, hroute⟩ := shownElsewhere_of_not_mem hq' hregistered
          refine hgone.not_mem ⟨d, ?_, ?_⟩ hmem
          · rwa [hm]
          · rw [hm, Roster.shown_stop]
            exact ⟨hroute, hq'⟩
        exact ⟨(Reaped.kept hstays).1.trans (hkept hq').1,
          (Reaped.kept hstays).2.trans (hkept hq').2⟩
      · exact ((hasIdentity_stop hm).1 (hasIdentity_of_findReusable hr)).1
      · refine hgone.route ?_
        rwa [hm]
  | @spawnFailed _ x _ _ y z m hm hr =>
    obtain ⟨-, rfl, rfl, rfl⟩ : run = s.nextRun target ∧ ty = _ ∧ extras = _ ∧ layout = _ := by
      simpa [coreStart, and_assoc] using hextras
    refine iff_of_false (fun h => hspawns hm hr fun q hq => ?_) (hspawns hm hr)
    exact h.not_mem hq fun _ => lookup_stop_of_mem
  | @spawned _ x _ _ y z w gone m h hm hr hid hgone =>
    obtain ⟨-, rfl, rfl, rfl⟩ : run = s.nextRun target ∧ ty = _ ∧ extras = _ ∧ layout = _ := by
      simpa [coreStart, and_assoc] using hextras
    refine iff_of_false (fun hreuses => ?_) (hspawns hm hr)
    have hused : h.id :: m.roster.used = s.roster.used := hreuses.used
    rw [hm] at hused
    exact List.cons_ne_self _ _ hused

/-- A request reuses a renderer exactly if the others of the identity are shown elsewhere and no
first frame times out. -/
theorem RequestRun.reuses_iff_elsewhere {displays : List DisplayId} {name : Option String}
    (h : RequestRun s displays name steps ro) {ty : String} {extras : HashMap String String}
    {layout : WallpaperLayoutOverride}
    (hextras : (Call.apply (.requestExtras displays ty name), .properties extras layout) ∈ steps)
    (hlive : ∃ q, s.HasIdentity ⟨ty, extras, name⟩ q) :
    Reuses s ro ⟨ty, extras, name⟩ (requested displays) ↔
      (∀ q, s.HasIdentity ⟨ty, extras, name⟩ q → s.findReusable ⟨ty, extras, name⟩ ≠ some q →
        (s.roster.renderer q).isSome → s.roster.ShownElsewhere (requested displays) q) ∧
      ∀ r, (Call.apply (.waitForFirstFrame r), .fail) ∉ steps := by
  have hfound : ∃ r, s.findReusable ⟨ty, extras, name⟩ = some r := by
    obtain ⟨q, hq⟩ := hlive
    exact findReusable_of_hasIdentity hq
  cases h with
  | rejected => simp at hextras
  | noExtras => simp at hextras
  | @reused _ _ _ y z r gone _ hd hr hgone hframe =>
    obtain ⟨rfl, rfl, rfl⟩ : ty = _ ∧ extras = _ ∧ layout = _ := by
      simpa [and_assoc] using hextras
    have hidentity := hasIdentity_of_findReusable hr
    obtain ⟨rfl, rfl⟩ | ⟨rfl, rfl⟩ := hframe
    · have hno : ∀ r', (Call.apply (.waitForFirstFrame r'), Choice.fail) ∉
          [(Call.apply (.wallpaperApply displays name), Choice.entry ty),
            (.apply (.requestExtras displays ty name), .properties extras layout),
            (.apply (.requestFindReusable displays ⟨ty, extras, name⟩ layout), y),
            (.apply (.waitForFirstFrame r), .tick)] := by simp
      refine Iff.trans ?_ (and_iff_left hno).symm
      constructor
      · intro h q hq hne hregistered
        rw [hr, ne_eq, Option.some_inj] at hne
        exact hgone.shownElsewhere hd hregistered (Ne.symm hne)
          (h.not_mem hq fun _ => lookup_stop_of_mem)
      · intro hothers
        refine ⟨rfl, fun q hq => Reaped.kept fun hmem => ?_, r, hidentity, fun d hd => hgone.route hd⟩
        have hne : s.findReusable ⟨ty, extras, name⟩ ≠ some q := by
          rw [hr, ne_eq, Option.some_inj]
          exact (hgone.unlinked q hmem).1.symm
        exact hgone.not_mem (hothers q hq hne (hgone.registered q hmem)) hmem
    · refine iff_of_false (fun h => ?_) fun h => h.2 r (by simp)
      exact h.not_mem hidentity (fun _ => lookup_stop_of_mem) (List.mem_singleton_self r)
  | @spawnFailed _ _ _ y w z hr =>
    obtain ⟨rfl, rfl, rfl⟩ : ty = _ ∧ extras = _ ∧ layout = _ := by
      simpa [and_assoc] using hextras
    obtain ⟨r, hr'⟩ := hfound
    rw [hr] at hr'
    cases hr'
  | @spawned _ _ _ y w z v gone _ h hr hid hgone hframe =>
    obtain ⟨rfl, rfl, rfl⟩ : ty = _ ∧ extras = _ ∧ layout = _ := by
      simpa [and_assoc] using hextras
    obtain ⟨r, hr'⟩ := hfound
    rw [hr] at hr'
    cases hr'

end Reuse

/-- When a live renderer has the identity an apply asks for, the apply reuses one exactly if: in the
core, no renderer of the identity is fully replaced by the targets; in the request, every other
renderer of the identity is shown on a display that is no target, and the first frame comes. -/
theorem reuses_iff (s : Daemon) :
    (∀ target tr s' run ty extras layout,
      Alone semantics s [.apply (.applyWallpaperCore target)] tr s' →
      (Call.apply (.callExtras run ty), Choice.properties extras layout) ∈ tr →
      (∃ q, s.HasIdentity ⟨ty, extras, none⟩ q) →
      (Reuses s s'.roster ⟨ty, extras, none⟩ target ↔
        ∀ q, s.HasIdentity ⟨ty, extras, none⟩ q → q ∉ s.replacedBy target)) ∧
    (∀ displays name tr s' ty extras layout,
      Alone semantics s [.apply (.wallpaperApply displays name)] tr s' →
      (Call.apply (.requestExtras displays ty name), Choice.properties extras layout) ∈ tr →
      (∃ q, s.HasIdentity ⟨ty, extras, name⟩ q) →
      (Reuses s s'.roster ⟨ty, extras, name⟩ (requested displays) ↔
        (∀ q, s.HasIdentity ⟨ty, extras, name⟩ q → s.findReusable ⟨ty, extras, name⟩ ≠ some q →
          (s.roster.renderer q).isSome → s.roster.ShownElsewhere (requested displays) q) ∧
        ∀ r, (Call.apply (.waitForFirstFrame r), .fail) ∉ tr)) := by
  constructor
  · intro target tr s' run ty extras layout h hextras hlive
    exact (coreRun_of_alone h).reuses_iff_spared (mem_applySteps.2 hextras) hlive
  · intro displays name tr s' ty extras layout h hextras hlive
    have hmem (r : RendererId) := @mem_applySteps (.waitForFirstFrame r) .fail tr
    simp only [← hmem]
    exact (requestRun_of_alone h).reuses_iff_elsewhere (mem_applySteps.2 hextras) hlive

/-! The wallpaper that display 1 shows is applied again: the core stops renderer 7 and spawns another
one, the request reuses it. -/

def sameWallpaper : Choice := .properties ∅ default

def coreRespawns : List Choice :=
  .entry "scene" :: sceneStops ++ [sameWallpaper, .tick, .spawned 8 none ⟨0, 0⟩ false] ++
    List.replicate 23 .tick

def coreRespawned : DaemonPool :=
  Transition.reached semantics.step sceneDrawn
    (.start .applyGlobal :: coreRespawns.map (.run sceneDrawn.tasks.length)) (by decide +kernel)

def coreRespawnedTrace : List (Call × Choice) :=
  Alone.trace semantics sceneDrawn.tasks.length ⟨sceneDrawn.shared, sceneDrawn.tasks ++
    [{ stack := [.apply (.applyWallpaperCore none)], cancellable := true }]⟩ coreRespawns

theorem alone_coreRespawned : Alone semantics sceneDrawn.shared
    [.apply (.applyWallpaperCore none)] coreRespawnedTrace coreRespawned.shared := by
  have hrun : Transition.run semantics.step sceneDrawn (.start .applyGlobal ::
      coreRespawns.map (.run sceneDrawn.tasks.length)) = some coreRespawned :=
    Transition.run_reached ..
  have hend : (coreRespawned.tasks[sceneDrawn.tasks.length]?.all fun t => t.stack.isEmpty) =
      true := by
    decide
  exact Alone.of_start rfl hrun hend

def requestReuses : List Choice := [.entry "scene", sameWallpaper] ++ List.replicate 14 .tick

def requestReused : DaemonPool :=
  Transition.reached semantics.step sceneDrawn
    (.start (.wallpaperApply [1] none) :: requestReuses.map (.run sceneDrawn.tasks.length))
    (by decide +kernel)

def requestReusedTrace : List (Call × Choice) :=
  Alone.trace semantics sceneDrawn.tasks.length ⟨sceneDrawn.shared, sceneDrawn.tasks ++
    [{ stack := [.apply (.wallpaperApply [1] none)] }]⟩ requestReuses

theorem alone_requestReused : Alone semantics sceneDrawn.shared
    [.apply (.wallpaperApply [1] none)] requestReusedTrace requestReused.shared := by
  have hrun : Transition.run semantics.step sceneDrawn (.start (.wallpaperApply [1] none) ::
      requestReuses.map (.run sceneDrawn.tasks.length)) = some requestReused :=
    Transition.run_reached ..
  have hend : (requestReused.tasks[sceneDrawn.tasks.length]?.all fun t => t.stack.isEmpty) =
      true := by
    decide
  exact Alone.of_start rfl hrun hend

theorem coreRespawned_extras : (Call.apply (.callExtras (sceneDrawn.shared.nextRun none) "scene"),
    sameWallpaper) ∈ coreRespawnedTrace :=
  List.mem_of_getElem? (i := 13) (by rfl)

theorem requestReused_extras : (Call.apply (.requestExtras [1] "scene" none), sameWallpaper) ∈
    requestReusedTrace :=
  List.mem_of_getElem? (i := 1) (by rfl)

theorem hasIdentity_sceneDrawn : sceneDrawn.shared.HasIdentity ⟨"scene", ∅, none⟩ 7 :=
  ⟨⟨7, "scene", ∅, "plugin", none, ⟨0, 0⟩⟩, "plugin", by rfl, by decide, by decide⟩

theorem reuses_iff_sceneDrawn :
    (Reuses sceneDrawn.shared coreRespawned.shared.roster ⟨"scene", ∅, none⟩ none ↔
      ∀ q, sceneDrawn.shared.HasIdentity ⟨"scene", ∅, none⟩ q →
        q ∉ sceneDrawn.shared.replacedBy none) ∧
    (Reuses sceneDrawn.shared requestReused.shared.roster ⟨"scene", ∅, none⟩ (requested [1]) ↔
      (∀ q, sceneDrawn.shared.HasIdentity ⟨"scene", ∅, none⟩ q →
        sceneDrawn.shared.findReusable ⟨"scene", ∅, none⟩ ≠ some q →
        (sceneDrawn.shared.roster.renderer q).isSome →
        sceneDrawn.shared.roster.ShownElsewhere (requested [1]) q) ∧
      ∀ r, (Call.apply (.waitForFirstFrame r), .fail) ∉ requestReusedTrace) :=
  ⟨(reuses_iff _).1 _ _ _ _ _ _ _ alone_coreRespawned coreRespawned_extras
      ⟨7, hasIdentity_sceneDrawn⟩,
    (reuses_iff _).2 _ _ _ _ _ _ _ alone_requestReused requestReused_extras
      ⟨7, hasIdentity_sceneDrawn⟩⟩

/-- Applying the wallpaper that is shown again stops its renderer. -/
theorem not_reuses_coreRespawned :
    Alone semantics sceneDrawn.shared [.apply (.applyWallpaperCore none)] coreRespawnedTrace
      coreRespawned.shared ∧
    (Call.apply (.callExtras (sceneDrawn.shared.nextRun none) "scene"), sameWallpaper) ∈
      coreRespawnedTrace ∧
    sceneDrawn.shared.HasIdentity ⟨"scene", ∅, none⟩ 7 ∧
    (sceneDrawn.shared.roster.renderer 7).isSome ∧
    ¬ Reuses sceneDrawn.shared coreRespawned.shared.roster ⟨"scene", ∅, none⟩ none := by
  refine ⟨alone_coreRespawned, coreRespawned_extras, hasIdentity_sceneDrawn, by decide,
    fun h => ?_⟩
  have hkept := (h.kept 7 hasIdentity_sceneDrawn).1
  have hstopped : coreRespawned.shared.roster.managed.lookup 7 = none := by rfl
  have hlive : (sceneDrawn.shared.roster.managed.lookup 7).isSome := by decide
  rw [← hkept, hstopped] at hlive
  cases hlive

end Waywallen
