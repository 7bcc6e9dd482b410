import Waywallen.Routing.Router

/-!
# What a critical section leaves alone

Each section changes a few fields of the router's state; the equations here say which. A proof
about another field rewrites with them and is done.
-/

namespace Waywallen

namespace Inner

variable (settings : Option Settings) (slots : RendererId → Slots) (inner : Inner)

theorem beginUnbindAckTracking_eq (r : RendererId) : inner.beginUnbindAckTracking r =
    { inner with unbindAcksPending := (inner.beginUnbindAckTracking r).unbindAcksPending } := by
  unfold beginUnbindAckTracking
  split <;> rfl

theorem foldl_updateClearColor_eq (ids : List LinkId) (clear : Rgba)
    (p : Inner × List DisplayId) : (ids.foldl (updateClearColor clear) p).1 =
      { p.1 with table := (ids.foldl (updateClearColor clear) p).1.table } := by
  induction ids generalizing p with
  | nil => rfl
  | cons i ids ih =>
    rw [List.foldl_cons, ih]
    rfl

theorem updateClearColors_eq (r : RendererId) (clear : Rgba) :
    (inner.updateClearColors r clear).1 =
      { inner with table := (inner.updateClearColors r clear).1.table } :=
  foldl_updateClearColor_eq _ clear (inner, [])

theorem relinkDisplays_eq (ds : List DisplayId) (r : RendererId) :
    ds.foldl (fun i d => i.relinkDisplay r d) inner =
      { inner with table := (ds.foldl (fun i d => i.relinkDisplay r d) inner).table } := by
  induction ds generalizing inner with
  | nil => rfl
  | cons d ds ih =>
    rw [List.foldl_cons, ih]
    rfl

theorem relinkDisplaysTo_eq (ds : List DisplayId) (r : RendererId) :
    inner.relinkDisplaysTo ds r = { inner with table := (inner.relinkDisplaysTo ds r).table } :=
  inner.relinkDisplays_eq _ r

theorem relinkAllDisplaysTo_eq (r : RendererId) :
    inner.relinkAllDisplaysTo r = { inner with table := (inner.relinkAllDisplaysTo r).table } :=
  inner.relinkDisplays_eq _ r

theorem updateDisplayWindowState_eq (d : DisplayId) (flags : UInt32) :
    (inner.updateDisplayWindowState settings d flags).1 = { inner with
      displays := (inner.updateDisplayWindowState settings d flags).1.displays } := by
  unfold updateDisplayWindowState
  split <;> rfl

theorem resumeAutopause_eq (d : DisplayId) (gen : UInt64) :
    (inner.resumeAutopause d gen).1 =
      { inner with displays := (inner.resumeAutopause d gen).1.displays } := by
  unfold resumeAutopause
  split <;> rfl

theorem updateSessionState_eq (locked inactive : Option Bool) :
    (inner.updateSessionState locked inactive).1 = { inner with
      sessionLocked := (inner.updateSessionState locked inactive).1.sessionLocked
      sessionInactive := (inner.updateSessionState locked inactive).1.sessionInactive
      sessionGen := (inner.updateSessionState locked inactive).1.sessionGen } := by
  unfold updateSessionState
  dsimp only
  split <;> rfl

theorem flags_updateSessionState (locked inactive : Option Bool) :
    (inner.updateSessionState locked inactive).1.sessionLocked =
        locked.getD inner.sessionLocked ∧
      (inner.updateSessionState locked inactive).1.sessionInactive =
        inactive.getD inner.sessionInactive := by
  unfold updateSessionState
  dsimp only
  split
  · rename_i h
    simp only [Bool.and_eq_true, beq_iff_eq] at h
    exact ⟨h.1.symm, h.2.symm⟩
  · exact ⟨rfl, rfl⟩

theorem setLinkGeometry_eq (lid : LinkId) (g : LinkGeometry) :
    (inner.setLinkGeometry settings slots lid g).1 = { inner with
      table := (inner.table.updateLinkGeometry lid g).1
      nextConfigGeneration :=
        (inner.setLinkGeometry settings slots lid g).1.nextConfigGeneration } := by
  unfold setLinkGeometry
  dsimp only
  repeat' split
  all_goals rfl

theorem resyncDisplaySetConfig_eq (d : DisplayId) :
    (inner.resyncDisplaySetConfig settings slots d).1 = { inner with
      nextConfigGeneration :=
        (inner.resyncDisplaySetConfig settings slots d).1.nextConfigGeneration } := by
  unfold resyncDisplaySetConfig
  split <;> rfl

theorem recordPendingUnbind_eq (d : DisplayId) (state : DisplayState) :
    inner.recordPendingUnbind d state = { inner with
      unbindAcksPending := (inner.recordPendingUnbind d state).unbindAcksPending } := by
  unfold recordPendingUnbind
  split <;> rfl

theorem syncDisplay_eq (d : DisplayId) :
    (inner.syncDisplay settings slots d).1 = { inner with
      displays := (inner.syncDisplay settings slots d).1.displays
      unbindAcksPending := (inner.syncDisplay settings slots d).1.unbindAcksPending
      nextConfigGeneration := (inner.syncDisplay settings slots d).1.nextConfigGeneration } := by
  unfold syncDisplay
  split
  · rfl
  · dsimp only
    split
    · rfl
    · rw [recordPendingUnbind_eq]
      split <;> rfl

/-- What a sync makes of the displays: nothing, or a new record of what its display was sent. -/
theorem displays_syncDisplay (d : DisplayId) :
    (inner.syncDisplay settings slots d).1.displays = inner.displays ∨
      ∃ r g, (inner.syncDisplay settings slots d).1.displays =
        inner.displays.modify d fun s => { s with lastRenderer := r, lastBufferGeneration := g } := by
  unfold syncDisplay
  split
  · exact .inl rfl
  · dsimp only
    split
    · exact .inl rfl
    · rw [recordPendingUnbind_eq]
      split
      · exact .inr ⟨_, _, rfl⟩
      · exact .inr ⟨none, none, rfl⟩

/-- What the display is told about the pool it had. -/
def retire (state : DisplayState) : List Dispatch :=
  state.lastBufferGeneration.toList.map Dispatch.unbind

/-- A sync does nothing, or it retires the pool the display had and binds the one of its target, if
there is one. -/
theorem syncDisplay_cases (d : DisplayId) :
    (inner.syncDisplay settings slots d = (inner, []) ∧
      ∀ state, inner.displays.lookup d = some state →
        gated slots state (inner.syncTarget slots d) = true ∨
          needsUpdate state (inner.syncTarget slots d) = false) ∨
    ∃ state, inner.displays.lookup d = some state ∧
      gated slots state (inner.syncTarget slots d) = false ∧
      needsUpdate state (inner.syncTarget slots d) = true ∧
      (inner.syncTarget slots d = none ∧
          (inner.syncDisplay settings slots d).2 = retire state ∧
          (inner.syncDisplay settings slots d).1.displays = inner.displays.modify d
            (fun s => { s with lastRenderer := none, lastBufferGeneration := none }) ∨
        ∃ link h g, inner.syncTarget slots d = some (link, h, g) ∧
          (inner.syncDisplay settings slots d).2 = retire state ++ .bind h.id g ::
            .setConfig (inner.projection settings slots link h state.info) ::
            replayFrame slots h g ∧
          (inner.syncDisplay settings slots d).1.displays = inner.displays.modify d fun s => { s with
            lastRenderer := some link.rendererId, lastBufferGeneration := some g }) := by
  unfold syncDisplay
  cases hd : inner.displays.lookup d with
  | none => exact .inl ⟨rfl, fun _ h => absurd h (by simp)⟩
  | some state =>
    dsimp only
    split
    · rename_i hidle
      refine .inl ⟨rfl, fun state' h => ?_⟩
      obtain rfl := Option.some_inj.1 h
      simpa using hidle
    · rename_i hsync
      simp only [Bool.or_eq_true, Bool.not_eq_true', not_or, Bool.not_eq_true,
        Bool.not_eq_false] at hsync
      refine .inr ⟨state, rfl, hsync.1, hsync.2, ?_⟩
      rw [recordPendingUnbind_eq]
      cases inner.syncTarget slots d with
      | none => exact .inl ⟨rfl, rfl, rfl⟩
      | some target => exact .inr ⟨target.1, target.2.1, target.2.2, rfl, rfl, rfl⟩

theorem autopauseOf_modifyDisplay (d e : DisplayId) (f : DisplayState → DisplayState) :
    (inner.modifyDisplay d f).autopauseOf e =
      if e = d then (inner.displays.lookup d).map fun s => (f s).autopause
      else inner.autopauseOf e := by
  rw [autopauseOf, lookup_modifyDisplay]
  split
  · rw [Option.map_map]
    rfl
  · rfl

theorem autopauseOf_modifyDisplay_of_eq {d : DisplayId} {f : DisplayState → DisplayState}
    (h : ∀ s, (f s).autopause = s.autopause) (e : DisplayId) :
    (inner.modifyDisplay d f).autopauseOf e = inner.autopauseOf e := by
  rw [autopauseOf_modifyDisplay]
  split
  · rename_i he
    subst he
    simp only [h, autopauseOf]
  · rfl

theorem autopauseOf_updateDisplayWindowState (d e : DisplayId) (flags : UInt32) :
    (inner.updateDisplayWindowState settings d flags).1.autopauseOf e =
      if e = d then (inner.displays.lookup d).map fun s =>
        (s.autopause.report (resolvedAutopause settings s.info).mode flags).1
      else inner.autopauseOf e := by
  unfold updateDisplayWindowState
  cases hd : inner.displays.lookup d with
  | none =>
    by_cases he : e = d
    · subst he
      simp [autopauseOf, hd]
    · simp [he]
  | some s => exact (inner.autopauseOf_modifyDisplay d e _).trans (by rw [hd]; rfl)

theorem updateDisplayWindowState_snd {settings : Option Settings} {inner : Inner} {d : DisplayId}
    {s : DisplayState} (hd : inner.displays.lookup d = some s) (flags : UInt32) :
    (inner.updateDisplayWindowState settings d flags).2 =
      (s.autopause.report (resolvedAutopause settings s.info).mode flags).2 := by
  simp only [updateDisplayWindowState, hd]

theorem autopauseGen_eq (d : DisplayId) :
    inner.autopauseGen d = (inner.autopauseOf d).map Autopause.State.gen := by
  rw [autopauseGen, autopauseOf, Option.map_map]
  rfl

theorem autopauseOf_resumeAutopause (d e : DisplayId) (gen : UInt64) :
    (inner.resumeAutopause d gen).1.autopauseOf e =
      if e = d then (inner.autopauseOf d).map fun a => (a.resume gen).1
      else inner.autopauseOf e := by
  unfold resumeAutopause
  cases hd : inner.displays.lookup d with
  | none =>
    by_cases he : e = d
    · subst he
      simp [autopauseOf, hd]
    · simp [he]
  | some s =>
    refine (inner.autopauseOf_modifyDisplay d e _).trans ?_
    rw [hd, autopauseOf.eq_1 inner d, hd]
    rfl

theorem autopauseOf_syncDisplay (d e : DisplayId) :
    (inner.syncDisplay settings slots d).1.autopauseOf e = inner.autopauseOf e := by
  obtain h | ⟨r, g, h⟩ := inner.displays_syncDisplay settings slots d
  · rw [autopauseOf, h, autopauseOf]
  · rw [autopauseOf, h]
    exact inner.autopauseOf_modifyDisplay_of_eq
      (f := fun s => { s with lastRenderer := r, lastBufferGeneration := g }) (fun _ => rfl) e

theorem containsKey_displays (d : DisplayId) :
    inner.displays.containsKey d = (inner.autopauseOf d).isSome :=
  (Option.isSome_map ..).symm

/-! ## The routing table -/

theorem getRenderer_updateClearColors (r : RendererId) (clear : Rgba) (q : RendererId) :
    (inner.updateClearColors r clear).1.table.getRenderer q = inner.table.getRenderer q := by
  have h (ids : List LinkId) (p : Inner × List DisplayId) :
      (ids.foldl (updateClearColor clear) p).1.table.getRenderer q =
        p.1.table.getRenderer q := by
    induction ids generalizing p with
    | nil => rfl
    | cons i ids ih =>
      rw [List.foldl_cons, ih]
      exact RoutingTable.getRenderer_updateLinkGeometry ..
  exact h _ (inner, [])

theorem routeOf_updateLinkGeometry (t : RoutingTable) (lid : LinkId) (g : LinkGeometry)
    (d : DisplayId) : (t.updateLinkGeometry lid g).1.routeOf d = t.routeOf d := by
  rw [RoutingTable.routeOf, RoutingTable.linkOf_updateLinkGeometry, Option.map_map,
    RoutingTable.routeOf]
  congr 1
  funext l
  dsimp only [Function.comp]
  split <;> rfl

theorem routeOf_updateClearColors (r : RendererId) (clear : Rgba) (d : DisplayId) :
    (inner.updateClearColors r clear).1.table.routeOf d = inner.table.routeOf d := by
  have h (ids : List LinkId) (p : Inner × List DisplayId) :
      (ids.foldl (updateClearColor clear) p).1.table.routeOf d = p.1.table.routeOf d := by
    induction ids generalizing p with
    | nil => rfl
    | cons i ids ih =>
      rw [List.foldl_cons, ih]
      exact routeOf_updateLinkGeometry ..
  exact h _ (inner, [])

theorem getRenderer_relinkDisplay (r : RendererId) (d : DisplayId) (q : RendererId) :
    (inner.relinkDisplay r d).table.getRenderer q = inner.table.getRenderer q := by
  have h (ls : List Link) (t : RoutingTable) :
      (ls.foldl (fun t l => t.removeLink l.id) t).getRenderer q = t.getRenderer q := by
    induction ls generalizing t with
    | nil => rfl
    | cons l ls ih => rw [List.foldl_cons, ih, RoutingTable.getRenderer_removeLink]
  exact (RoutingTable.getRenderer_addLink ..).trans (h _ _)

/-- A relink changes the route of its display, and of no other. -/
theorem routeOf_relinkDisplay (r : RendererId) (d e : DisplayId) :
    (inner.relinkDisplay r d).table.routeOf e =
      if e = d then some r else inner.table.routeOf e := by
  have h (ls : List Link) (t : RoutingTable)
      (hls : ∀ l ∈ ls, ∀ k, t.linkOf e = some k → k.id ≠ l.id) :
      (ls.foldl (fun t l => t.removeLink l.id) t).linkOf e = t.linkOf e := by
    induction ls generalizing t with
    | nil => rfl
    | cons l ls ih =>
      have hl : (t.removeLink l.id).linkOf e = t.linkOf e := by
        rw [RoutingTable.linkOf_removeLink]
        cases hk : t.linkOf e with
        | none => rfl
        | some k => simp [Option.filter, hls l List.mem_cons_self k hk]
      rw [List.foldl_cons, ih _ fun k hk m hm =>
        hls k (List.mem_cons_of_mem _ hk) m (hl ▸ hm), hl]
  rw [RoutingTable.routeOf, relinkDisplay, RoutingTable.linkOf_addLink]
  split
  · rfl
  · rename_i hed
    rw [h, RoutingTable.routeOf]
    intro l hl k hk hid
    rw [RoutingTable.linksForDisplay_eq, Option.mem_toList] at hl
    have hk' := (RoutingTable.linkOf_eq_some.1 hk).1
    have hl' := (RoutingTable.linkOf_eq_some.1 hl).1
    rw [hid, hl', Option.some_inj] at hk'
    exact hed ((RoutingTable.displayId_of_linkOf hk).symm.trans
      (hk' ▸ RoutingTable.displayId_of_linkOf hl))

theorem getRenderer_relinkDisplays (ds : List DisplayId) (r q : RendererId) :
    (ds.foldl (fun i d => i.relinkDisplay r d) inner).table.getRenderer q =
      inner.table.getRenderer q := by
  induction ds generalizing inner with
  | nil => rfl
  | cons d ds ih => rw [List.foldl_cons, ih, getRenderer_relinkDisplay]

theorem routeOf_relinkDisplays (ds : List DisplayId) (r : RendererId) (e : DisplayId) :
    (ds.foldl (fun i d => i.relinkDisplay r d) inner).table.routeOf e =
      if e ∈ ds then some r else inner.table.routeOf e := by
  induction ds generalizing inner with
  | nil => rfl
  | cons d ds ih =>
    rw [List.foldl_cons, ih, routeOf_relinkDisplay]
    by_cases he : e ∈ ds <;> by_cases hd : e = d <;> simp [he, hd]

theorem mem_activeLinks {inner : Inner} {r : RendererId} {l : Link} :
    l ∈ inner.activeLinks r ↔
      inner.table.linkOf l.displayId = some l ∧ l.rendererId = r := by
  rw [activeLinks, List.mem_filter, RoutingTable.mem_linksForRenderer]
  exact and_iff_left_of_imp fun h => RoutingTable.enabled_of_linkOf h.1

theorem routeOf_eq_some {t : RoutingTable} {r : RendererId} {d : DisplayId} :
    t.routeOf d = some r ↔ ∃ l, t.linkOf d = some l ∧ l.rendererId = r :=
  Option.map_eq_some_iff

theorem syncTarget_eq_some {slots : RendererId → Slots} {inner : Inner} {d : DisplayId} {l : Link}
    {h : RendererHandle} {g : ℕ} : inner.syncTarget slots d = some (l, h, g) ↔
      inner.table.linkOf d = some l ∧ inner.table.getRenderer l.rendererId = some h ∧
        h.id = l.rendererId ∧ (slots l.rendererId).generation = some g := by
  simp only [syncTarget, RoutingTable.find?_enabled_linksForDisplay, Option.bind_eq_some_iff,
    Option.map_eq_some_iff, Prod.mk.injEq]
  constructor
  · rintro ⟨_, hl, _, hh, _, hg, rfl, rfl, rfl⟩
    have hid := RoutingTable.id_of_getRenderer hh
    exact ⟨hl, hh, hid, hid ▸ hg⟩
  · rintro ⟨hl, hh, hid, hg⟩
    exact ⟨l, hl, h, hh, g, hid.symm ▸ hg, rfl, rfl, rfl⟩

theorem activeLinks_isEmpty_iff (r : RendererId) :
    (inner.activeLinks r).isEmpty = true ↔ ∀ d, inner.table.routeOf d ≠ some r := by
  rw [List.isEmpty_iff, List.eq_nil_iff_forall_not_mem]
  constructor
  · intro h d hd
    obtain ⟨l, hl, hr⟩ := routeOf_eq_some.1 hd
    exact h l (mem_activeLinks.2 ⟨(RoutingTable.displayId_of_linkOf hl).symm ▸ hl, hr⟩)
  · intro h l hl
    exact h l.displayId (routeOf_eq_some.2 ⟨l, mem_activeLinks.1 hl⟩)

/-- An orphan is a renderer no display is routed to. -/
theorem isOrphan_iff (r : RendererId) :
    inner.isOrphan r = true ↔ ∀ d, inner.table.routeOf d ≠ some r := by
  rw [← activeLinks_isEmpty_iff, isOrphan, activeLinks, List.isEmpty_iff, List.filter_eq_nil_iff,
    List.all_eq_true]
  exact forall₂_congr fun l _ => by simp

end Inner

end Waywallen
