import Waywallen.Daemon.Channels

/-!
# The form of a display's channel

What is put on the channel of a display is `(Bind SetConfig (SetConfig | Frame)* Unbind)*`, up to
where it is cut off, as long as a configuration is only sent to a display that is bound to the
renderer it was made for.
-/

namespace Waywallen

open TaskPool

/-- How far a channel has come: nothing is bound, or a pool is, before or after its first
configuration. -/
inductive ChannelPhase
  | idle
  | opened (r : RendererId) (generation : ℕ)
  | bound (r : RendererId) (generation : ℕ)
deriving DecidableEq

/-- The form of the channel of display `d`. -/
def ChannelPhase.next (d : DisplayId) : ChannelPhase → Dispatch → Option ChannelPhase
  | idle, .bind r g => some (opened r g)
  | opened r g, .setConfig p =>
      if p.link.displayId = d ∧ p.link.rendererId = r then some (bound r g) else none
  | bound r g, .setConfig p =>
      if p.link.displayId = d ∧ p.link.rendererId = r then some (bound r g) else none
  | bound r g, .frame q h _ _ _ _ => if q = r ∧ h = g then some (bound r g) else none
  | bound _ g, .unbind h => if h = g then some idle else none
  | _, _ => none

/-- Where the display stands according to the router. -/
def DisplayState.phase (st : DisplayState) : ChannelPhase :=
  match st.lastRenderer, st.lastBufferGeneration with
  | some r, some g => .bound r g
  | _, _ => .idle

/-- The texture sizes renderer `r` has had. -/
def Daemon.textures (s : Daemon) (r : RendererId) : List (ℕ × ℕ) :=
  (0, 0) :: (s.history.received r).filterMap fun msg =>
    match msg with
    | .bindBuffers snap => some (snap.width, snap.height)
    | _ => none

/-- A configuration made for a link of the display, with a texture size of its renderer. -/
def Daemon.Configures (s : Daemon) (d : DisplayId) (cfg : Projection) : Prop :=
  cfg.link.displayId = d ∧ cfg.texture ∈ s.textures cfg.link.rendererId

/-- The configuration a call is about to send, and to which display. -/
def Call.configures : Call → Option (DisplayId × Projection)
  | router (.sendLinkConfig d cfg) => some (d, cfg)
  | _ => none

/-- A configuration is sent only to a display that is bound to the renderer it is made for. -/
def Call.fits (s : Daemon) : Call → Bool
  | router (.resyncDisplaySetConfig d) => (s.inner.displays.lookup d).all fun st =>
      (s.inner.syncTarget s.slots d).all fun t => st.lastRenderer == some t.1.rendererId
  | router (.sendLinkConfig d cfg) => (s.inner.displays.lookup d).all fun st =>
      st.lastRenderer == some cfg.link.rendererId
  | _ => true

def FitsConfig (p : DaemonPool) : DaemonLabel → Prop
  | .run i _ => ∀ c ∈ (p.tasks[i]?.bind fun t => t.stack.head?), c.fits p.shared = true
  | _ => True

/-- Every channel has the form, and stands where the router thinks its display does. -/
structure Sequenced (p : DaemonPool) : Prop where
  fresh : ChannelsFresh p.shared
  paired : ∀ d st, p.shared.inner.displays.lookup d = some st →
    st.lastRenderer.isSome = st.lastBufferGeneration.isSome
  formed : ∀ d, ∃ ph, Transition.run (ChannelPhase.next d) .idle (p.shared.channels d) = some ph ∧
    ∀ st, p.shared.inner.displays.lookup d = some st → st.phase = ph
  texture : ∀ r, (p.shared.slots r).textureSize ∈ p.shared.textures r
  sent : ∀ d cfg, .setConfig cfg ∈ p.shared.channels d → p.shared.Configures d cfg
  waiting : ∀ a ∈ pending Call.configures p.tasks, p.shared.Configures a.1 a.2

section Exec

variable {x : Choice} {fresh : ℕ} {s : Daemon} {c : Call} {o : Step} {d : DisplayId}
  {r : RendererId}

theorem textures_exec (ho : c.exec x fresh s = some o) (r : RendererId) :
    s.textures r ⊆ o.shared.textures r := by
  rw [Daemon.textures, Daemon.textures, congrArg History.received (Call.history_exec ho)]
  refine List.cons_subset_cons _ (List.filterMap_subset _ ?_)
  show s.history.received r ⊆ c.receivedAfter x s r
  unfold Call.receivedAfter
  split
  · rename_i q
    split
    · rename_i msg
      by_cases hr : r = q
      · subst hr
        rw [Function.update_self]
        exact List.subset_append_left _ _
      · rw [Function.update_of_ne hr]
        exact List.Subset.refl _
    · exact List.Subset.refl _
  · exact List.Subset.refl _

theorem Daemon.Configures.exec {cfg : Projection} (h : s.Configures d cfg)
    (ho : c.exec x fresh s = some o) : o.shared.Configures d cfg :=
  ⟨h.1, textures_exec ho _ h.2⟩

/-- A pool that is cached has been received. -/
theorem textureSize_exec (ho : c.exec x fresh s = some o)
    (h : (s.slots r).textureSize ∈ s.textures r) :
    (o.shared.slots r).textureSize ∈ o.shared.textures r := by
  rcases Call.bindSnapshot_cases ho r with hsame | hnone | ⟨snap, rfl, rfl, hsnap⟩
  · rw [Slots.textureSize, hsame]
    exact textures_exec ho r h
  · rw [Slots.textureSize, hnone]
    exact List.mem_cons_self ..
  · rw [Slots.textureSize, hsnap, Daemon.textures,
      congrArg History.received (Call.history_exec ho)]
    refine List.mem_cons_of_mem _ (List.mem_filterMap.2 ⟨.bindBuffers snap, ?_, rfl⟩)
    simp [Call.historyAfter, Call.receivedAfter]

/-- What else is put on the channel of a display while it is bound. -/
theorem run_bound_dispatched {st : DisplayState} (hst : s.inner.displays.lookup d = some st)
    (hpair : st.lastRenderer.isSome = st.lastBufferGeneration.isSome)
    (hsent : ∀ a ∈ c.configures, s.Configures a.1 a.2) (hfits : c.fits s = true)
    (hc : c ≠ .router (.syncDisplay d)) :
    Transition.run (ChannelPhase.next d) st.phase (c.dispatched s d) = some st.phase := by
  have hphase {r : RendererId} (hr : st.lastRenderer = some r) : ∃ g, st.phase = .bound r g := by
    rw [hr] at hpair
    obtain ⟨g, hg⟩ := Option.isSome_iff_exists.1 hpair.symm
    exact ⟨g, by simp [DisplayState.phase, hr, hg]⟩
  refine Transition.run_of_fixed fun e he => ?_
  rcases Call.mem_dispatched he with ⟨rfl, -⟩ | ⟨rfl, st', l, k, g, -, htarget, rfl⟩ |
    ⟨cfg, rfl, -, rfl⟩ | ⟨r, g, index, seq, point, -, -, -, hd, rfl⟩
  · exact absurd rfl hc
  · simp only [Call.fits, hst, htarget, Option.all_some, beq_iff_eq] at hfits
    obtain ⟨g', hg'⟩ := hphase hfits
    have hd := RoutingTable.displayId_of_linkOf (Inner.syncTarget_eq_some.1 htarget).1
    rw [hg']
    exact if_pos ⟨hd, rfl⟩
  · simp only [Call.fits, hst, Option.all_some, beq_iff_eq] at hfits
    obtain ⟨g', hg'⟩ := hphase hfits
    rw [hg']
    exact if_pos ⟨(hsent _ rfl).1, rfl⟩
  · obtain ⟨-, st', -, -, hst', hr, hg⟩ := mem_frameRecipients.1 hd
    obtain rfl := Option.some_inj.1 (hst.symm.trans hst')
    rw [DisplayState.phase, hr, hg]
    exact if_pos ⟨rfl, rfl⟩

/-- A sync takes the channel from where the display stood to where it then stands. -/
theorem run_syncDisplay {st st' : DisplayState} (hst : s.inner.displays.lookup d = some st)
    (hpair : st.lastRenderer.isSome = st.lastBufferGeneration.isSome)
    (hst' : (s.inner.syncDisplay s.settings s.slots d).1.displays.lookup d = some st') :
    Transition.run (ChannelPhase.next d) st.phase (s.inner.syncDisplay s.settings s.slots d).2 =
        some st'.phase ∧
      st'.lastRenderer.isSome = st'.lastBufferGeneration.isSome := by
  have hretire : Transition.run (ChannelPhase.next d) st.phase (Inner.retire st) = some .idle := by
    cases hr : st.lastRenderer <;> cases hg : st.lastBufferGeneration <;>
      simp [hr, hg] at hpair <;>
      simp [DisplayState.phase, Inner.retire, hr, hg, ChannelPhase.next]
  rcases s.inner.syncDisplay_cases s.settings s.slots d with ⟨hidle, -⟩ |
    ⟨state, hstate, -, -, ⟨-, hsent, hdisplays⟩ | ⟨l, k, g, htarget, hsent, hdisplays⟩⟩
  · rw [hidle] at hst' ⊢
    obtain rfl := Option.some_inj.1 (hst.symm.trans hst')
    exact ⟨rfl, hpair⟩
  · obtain rfl := Option.some_inj.1 (hst.symm.trans hstate)
    rw [hdisplays, HashMap.lookup_modify, if_pos rfl, hst] at hst'
    obtain rfl := Option.some_inj.1 hst'
    exact ⟨hsent ▸ hretire, rfl⟩
  · obtain rfl := Option.some_inj.1 (hst.symm.trans hstate)
    rw [hdisplays, HashMap.lookup_modify, if_pos rfl, hst] at hst'
    obtain rfl := Option.some_inj.1 hst'
    obtain ⟨hl, -, hid, -⟩ := Inner.syncTarget_eq_some.1 htarget
    refine ⟨?_, rfl⟩
    rw [hsent, Transition.run_append_eq_some]
    refine ⟨.idle, hretire, ?_⟩
    rw [Transition.run_cons_eq_some]
    refine ⟨.opened l.rendererId g, by rw [ChannelPhase.next, hid], ?_⟩
    rw [Transition.run_cons_eq_some]
    refine ⟨.bound l.rendererId g, if_pos ⟨RoutingTable.displayId_of_linkOf hl, rfl⟩, ?_⟩
    refine Transition.run_of_fixed fun e he => ?_
    -- the frame that is repeated is of the pool just bound
    simp only [Inner.replayFrame] at he
    split at he
    · simp only [List.mem_map, Option.mem_toList, Option.filter_eq_some_iff, beq_iff_eq] at he
      obtain ⟨f, ⟨-, hg⟩, rfl⟩ := he
      exact if_pos ⟨hid, hg⟩
    · cases he

theorem configures_projection {settings : Option Settings} {l : Link} {k : RendererHandle}
    {info : DisplayInfo} (htex : ∀ r, (s.slots r).textureSize ∈ s.textures r)
    (hl : l.displayId = d) (hk : k.id = l.rendererId) (inner : Inner) :
    s.Configures d (inner.projection settings s.slots l k info) :=
  ⟨hl, hk ▸ htex k.id⟩

/-- The configurations a call puts on a channel are made for a link of its display. -/
theorem configures_dispatched {cfg : Projection}
    (htex : ∀ r, (s.slots r).textureSize ∈ s.textures r)
    (hsent : ∀ a ∈ c.configures, s.Configures a.1 a.2)
    (h : .setConfig cfg ∈ c.dispatched s d) : s.Configures d cfg := by
  have htarget {l : Link} {k : RendererHandle} {g : ℕ} {info : DisplayInfo}
      (ht : s.inner.syncTarget s.slots d = some (l, k, g)) :
      s.Configures d (s.inner.projection s.settings s.slots l k info) := by
    obtain ⟨hl, -, hid, -⟩ := Inner.syncTarget_eq_some.1 ht
    exact configures_projection htex (RoutingTable.displayId_of_linkOf hl) hid _
  rcases Call.mem_dispatched h with ⟨rfl, he⟩ | ⟨-, st, l, k, g, -, ht, he⟩ | ⟨cfg', rfl, -, he⟩ |
    ⟨r, g, index, seq, point, -, -, -, -, he⟩
  · obtain ⟨st, -, ⟨g, h⟩ | ⟨l, k, g, ht, h | h | ⟨f, -, -, h⟩⟩⟩ := mem_syncDisplay he
    · cases h
    · cases h
    · exact Dispatch.setConfig.inj h ▸ htarget ht
    · cases h
  · exact Dispatch.setConfig.inj he ▸ htarget ht
  · exact Dispatch.setConfig.inj he ▸ hsent _ rfl
  · cases he

/-- The configuration to send for a new geometry is made for the link. -/
theorem configures_setLinkGeometry {lid : LinkId} {geometry : LinkGeometry} {cfg : Projection}
    (htex : ∀ r, (s.slots r).textureSize ∈ s.textures r)
    (h : (s.inner.setLinkGeometry s.settings s.slots lid geometry).2 = some (d, cfg)) :
    s.Configures d cfg := by
  unfold Inner.setLinkGeometry at h
  dsimp only at h
  split at h
  · cases h
  · split at h
    · cases h
    · split at h
      · rename_i hk _
        split at h
        · cases h
          exact configures_projection htex rfl (RoutingTable.id_of_getRenderer hk) _
        · cases h
      · cases h

theorem configures_next (ho : c.exec x fresh s = some o)
    (htex : ∀ r, (s.slots r).textureSize ∈ s.textures r) {k : Call} (hk : k ∈ o.next)
    {a : DisplayId × Projection} (ha : k.configures = some a) : s.Configures a.1 a.2 := by
  cases Call.continues ho hk with
  | geometrySend hp =>
    obtain rfl := Option.some_inj.1 ha
    exact configures_setLinkGeometry htex hp
  | _ => cases ha

theorem configures_spawn (ho : c.exec x fresh s = some o) :
    pending Call.configures o.spawn = [] := by
  refine List.filterMap_eq_nil_iff.2 fun k hk => ?_
  obtain hs | ⟨t, hs, ht⟩ := Call.spawns ho
  · simp [hs] at hk
  · rw [hs, calls_cons, calls_nil, List.append_nil] at hk
    cases ht <;> obtain rfl := List.mem_singleton.1 hk <;> rfl

end Exec

section Run

variable {p p' : DaemonPool} {l : DaemonLabel}

/-- Where a display stands after a call. -/
theorem Sequenced.phase_exec (hp : Sequenced p) {x : Choice} {fresh : ℕ} {c : Call} {o : Step}
    (ho : c.exec x fresh p.shared = some o) (hmem : c ∈ calls p.tasks)
    (hfits : c.fits p.shared = true) (d : DisplayId) :
    ∃ ph, Transition.run (ChannelPhase.next d) .idle (o.shared.channels d) = some ph ∧
      ∀ st, o.shared.inner.displays.lookup d = some st → st.phase = ph ∧
        st.lastRenderer.isSome = st.lastBufferGeneration.isSome := by
  obtain ⟨ph, hph, hst⟩ := hp.formed d
  have hsent : ∀ a ∈ c.configures, p.shared.Configures a.1 a.2 := fun a ha =>
    hp.waiting a (mem_pending.2 ⟨c, hmem, ha⟩)
  rw [Call.channels_exec ho]
  cases hd : p.shared.inner.displays.lookup d with
  | none =>
    have hkey : p.shared.inner.displays.containsKey d = false := by simp [HashMap.containsKey, hd]
    rw [Call.dispatched_eq_nil hkey, List.append_nil]
    refine ⟨ph, hph, fun st' hst' => ?_⟩
    rw [Call.inner_exec ho] at hst'
    cases c with
    | router c =>
      by_cases hc : c = .syncDisplay d
      · subst hc
        rw [Call.innerAfter, RouterCall.innerAfter, Inner.syncDisplay, hd] at hst'
        rw [hd] at hst'
        cases hst'
      · rcases RouterCall.sentSame hc hst' with ⟨reg, b, rfl, hnew⟩ | ⟨st, hst, -⟩
        · -- a new display has an empty channel
          rw [hp.fresh.empty d (by rw [hnew]; exact Nat.lt_succ_self _)] at hph
          obtain rfl := Option.some_inj.1 hph
          simp only [Call.innerAfter, RouterCall.innerAfter, Inner.registerDisplay,
            HashMap.lookup_insert_eq, if_pos hnew] at hst'
          obtain rfl := Option.some_inj.1 hst'
          exact ⟨rfl, rfl⟩
        · rw [hd] at hst
          cases hst
    | _ => cases hd.symm.trans hst'
  | some st =>
    have hpair := hp.paired d st hd
    obtain rfl := hst st hd
    by_cases hc : c = .router (.syncDisplay d)
    · subst hc
      have hsome : ((p.shared.inner.syncDisplay p.shared.settings p.shared.slots
          d).1.displays.lookup d).isSome = true := by
        have hkey := Inner.autopauseOf_syncDisplay p.shared.settings p.shared.slots
          p.shared.inner d d
        rw [← Option.isSome_map, ← Inner.autopauseOf, hkey, Inner.autopauseOf, hd]
        rfl
      obtain ⟨st₁, hst₁⟩ := Option.isSome_iff_exists.1 hsome
      obtain ⟨hrun, hpair₁⟩ := run_syncDisplay hd hpair hst₁
      refine ⟨st₁.phase, (Transition.run_append_eq_some _).2 ⟨st.phase, hph, ?_⟩, fun st' hst' => ?_⟩
      · rw [Call.dispatched, if_pos rfl]
        exact hrun
      · rw [Call.inner_exec ho] at hst'
        obtain rfl := Option.some_inj.1 (hst₁.symm.trans hst')
        exact ⟨rfl, hpair₁⟩
    · have hrun := run_bound_dispatched hd hpair hsent hfits hc
      refine ⟨st.phase, (Transition.run_append_eq_some _).2 ⟨st.phase, hph, hrun⟩,
        fun st' hst' => ?_⟩
      have hsame : st.SentSame st' := by
        rw [Call.inner_exec ho] at hst'
        cases c with
        | router c =>
          rcases RouterCall.sentSame (fun h => hc (h ▸ rfl)) hst' with
            ⟨reg, b, rfl, hnew⟩ | ⟨st₀, hst₀, hsame⟩
          · have hle := hp.fresh.registered d (by simp [HashMap.containsKey, hd])
            rw [hnew] at hle
            exact absurd hle (Nat.not_succ_le_self _)
          · obtain rfl := Option.some_inj.1 (hd.symm.trans hst₀)
            exact hsame
        | _ =>
          obtain rfl := Option.some_inj.1 (hd.symm.trans hst')
          exact .refl st
      rw [DisplayState.phase, hsame.lastRenderer, hsame.lastBufferGeneration]
      exact ⟨rfl, hpair⟩

theorem Call.configures_of_isRequested {c : Call} (h : c.isRequested = true) :
    c.configures = none := by
  cases c with
  | router c => cases c <;> first | rfl | cases h
  | _ => rfl

theorem Sequenced.step (hp : Sequenced p) (hC : FitsConfig p l)
    (h : semantics.step p l = some p') : Sequenced p' := by
  refine Semantics.preserves (C := FitsConfig) ?_ ?_ ?_ ?_ ?_ p l p' hp hC h
  · intro p i x t c rest o hp hC ht _ hc ho
    have hexec : c.exec x p.tasks.length p.shared = some o := ho
    have hmem : c ∈ calls p.tasks :=
      mem_calls.2 ⟨t, List.mem_of_getElem? ht, hc ▸ List.mem_cons_self ..⟩
    have hphase := hp.phase_exec hexec hmem (hC c (by simp [ht, hc]))
    refine ⟨hp.fresh.exec ho, fun d st hst => ?_, fun d => ?_,
      fun r => textureSize_exec hexec (hp.texture r), fun d cfg hcfg => ?_, fun a ha => ?_⟩
    · obtain ⟨ph, -, hst'⟩ := hphase d
      exact (hst' st hst).2
    · obtain ⟨ph, hph, hst'⟩ := hphase d
      exact ⟨ph, hph, fun st hst => (hst' st hst).1⟩
    · have hcfg : .setConfig cfg ∈ o.shared.channels d := hcfg
      rw [Call.channels_exec ho, List.mem_append] at hcfg
      rcases hcfg with hcfg | hcfg
      · exact (hp.sent d cfg hcfg).exec hexec
      · refine (configures_dispatched hp.texture (fun a ha => ?_) hcfg).exec hexec
        exact hp.waiting a (mem_pending.2 ⟨c, hmem, ha⟩)
    · obtain ⟨others, hbefore, hafter⟩ := pending_resume_perm ht hc o Call.configures
      rw [configures_spawn ho, List.append_nil] at hafter
      rcases List.mem_append.1 (hafter.mem_iff.1 ha) with ha | ha
      · obtain ⟨k, hk, hka⟩ := List.mem_filterMap.1 ha
        exact (configures_next hexec hp.texture hk hka).exec hexec
      · exact (hp.waiting a (hbefore.mem_iff.2 (List.mem_append_right _ ha))).exec hexec
  · intro p i t hp _ ht _
    exact ⟨hp.fresh, hp.paired, hp.formed, hp.texture, hp.sent, pending_wake ht _ ▸ hp.waiting⟩
  · intro p i t hp _ ht _
    refine ⟨hp.fresh, hp.paired, hp.formed, hp.texture, hp.sent, fun a ha => hp.waiting a ?_⟩
    exact (pending_drop_perm ht _).mem_iff.2 (List.mem_append_right _ ha)
  · intro p q s t hp _ ha
    have hpend := Request.pending_accept (fun _ => Call.configures_of_isRequested) ha p.tasks
    have hfresh := hp.fresh.accept ha
    obtain rfl | ⟨id, -, rfl⟩ := Request.accept_shared ha <;>
      exact ⟨hfresh, hp.paired, hp.formed, hp.texture, hp.sent, hpend ▸ hp.waiting⟩
  · intro p e s hp _ ha
    obtain rfl := Option.some_inj.1 ha
    have hfresh := hp.fresh.act e
    cases e with
    | promoteDisplay q =>
      refine ⟨hfresh, fun d st hst => hp.paired d st ?_, fun d => ?_, hp.texture, hp.sent,
        hp.waiting⟩
      · simpa [Environment.act, Daemon.withInner] using hst
      · refine (hp.formed d).imp fun ph h => ⟨h.1, fun st hst => h.2 st ?_⟩
        simpa [Environment.act, Daemon.withInner] using hst
    | _ => exact ⟨hfresh, hp.paired, hp.formed, hp.texture, hp.sent, hp.waiting⟩

theorem sequenced_start (registry : HashMap String (List String)) :
    Sequenced (start registry) where
  fresh := channelsFresh_initial registry
  paired d st hst := by cases hst
  formed d := ⟨.idle, rfl, fun st hst => by cases hst⟩
  texture r := List.mem_cons_self ..
  sent d cfg h := by cases h
  waiting a ha := by simp [start, pending, Call.configures] at ha

/-- If configurations are sent only to displays that are bound to the renderer they are made for,
every channel has the form `(Bind SetConfig (SetConfig | Frame)* Unbind)*`. -/
theorem channel_formed_of_fitsConfig {registry : HashMap String (List String)}
    {ls : List DaemonLabel} {p : DaemonPool} (hrun : Run registry ls p)
    (hC : Transition.Along semantics.step FitsConfig (start registry) ls) (d : DisplayId) :
    (Transition.run (ChannelPhase.next d) .idle (p.shared.channels d)).isSome = true ∧
      ∀ cfg, .setConfig cfg ∈ p.shared.channels d →
        cfg.texture ∈ p.shared.textures cfg.link.rendererId := by
  have hp : Sequenced p := Transition.invariant_of_run
    (fun p l p' hp hC h => hp.step hC h) (sequenced_start registry) hC hrun
  obtain ⟨ph, hph, -⟩ := hp.formed d
  exact ⟨by rw [hph]; rfl, fun cfg hcfg => (hp.sent d cfg hcfg).2⟩

end Run

instance FitsConfig.decidable (p : DaemonPool) : (l : DaemonLabel) → Decidable (FitsConfig p l)
  | .run i _ => inferInstanceAs (Decidable
      (∀ c ∈ (p.tasks[i]?.bind fun t => t.stack.head?), c.fits p.shared = true))
  | .wake _ | .drop _ | .start _ | .env _ => .isTrue trivial

/-- The display that has been told of the pool changes its size. -/
def sceneResized : List DaemonLabel :=
  sceneBound ++ .run 4 (.client (.updateDisplay 1280 720)) :: List.replicate 4 (.run 4 .tick)

def resized : DaemonPool :=
  Transition.reached semantics.step (start sceneRegistry) sceneResized (by decide +kernel)

theorem channel_formed_of_fitsConfig_resized :
    (Transition.run (ChannelPhase.next 1) .idle (resized.shared.channels 1)).isSome = true ∧
      ∀ cfg, .setConfig cfg ∈ resized.shared.channels 1 →
        cfg.texture ∈ resized.shared.textures cfg.link.rendererId := by
  have hrun : Run sceneRegistry sceneResized resized := Transition.run_reached _ _
  exact channel_formed_of_fitsConfig hrun (by decide) 1

/-- The reader thread has stored the first pool of the renderer, but its displays have not been
told of it when one of them changes its size. -/
def sceneEarly : List DaemonLabel :=
  sceneSpawned ++
  .start (.connect ⟨"A", none, 1920, 1080, 60, ⟨0, 0⟩, none⟩) :: List.replicate 13 (.run 4 .tick) ++
  .run 2 (.received (.bindBuffers (scenePool 1))) ::
  .run 4 (.client (.updateDisplay 1280 720)) :: List.replicate 2 (.run 4 .tick)

def early : DaemonPool :=
  Transition.reached semantics.step (start sceneRegistry) sceneEarly (by decide +kernel)

theorem channel_not_formed : ¬∀ (registry : HashMap String (List String))
    (ls : List DaemonLabel) (p : DaemonPool), Run registry ls p → (∀ l ∈ ls, calm l = true) →
    ∀ d, (Transition.run (ChannelPhase.next d) .idle (p.shared.channels d)).isSome = true ∧
      ∀ cfg, .setConfig cfg ∈ p.shared.channels d →
        cfg.texture ∈ p.shared.textures cfg.link.rendererId := by
  intro h
  have hrun : Run sceneRegistry sceneEarly early := Transition.run_reached _ _
  have hformed := (h _ _ _ hrun (by decide) 1).1
  revert hformed
  decide

end Waywallen
