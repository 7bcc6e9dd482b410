import Waywallen.Daemon.Queues
import Waywallen.Daemon.Continues

/-!
# The acknowledgements of a teardown

While a renderer is torn down the router remembers which unbinds it has sent for it and crosses
out those a display has replied to. What a call does to these sets, renderer by renderer.
-/

namespace Waywallen

open TaskPool

namespace Inner

variable (settings : Option Settings) (slots : RendererId → Slots) (inner : Inner)

/-- A wait for the unbinds of renderer `r` waits for display `d`. -/
def WaitsFor (r : RendererId) (d : DisplayId) : Prop :=
  ∃ g, ∃ pending, inner.unbindAcksPending.lookup r = some pending ∧ (d, g) ∈ pending

theorem lookup_beginUnbindAckTracking (r q : RendererId) :
    (inner.beginUnbindAckTracking q).unbindAcksPending.lookup r =
      if r = q then some ((inner.unbindAcksPending.lookup q).getD ∅)
      else inner.unbindAcksPending.lookup r := by
  unfold beginUnbindAckTracking
  cases hq : inner.unbindAcksPending.lookup q with
  | none =>
    rw [if_neg (by simp [HashMap.containsKey, hq]), HashMap.lookup_insert_eq]
    rfl
  | some pending =>
    rw [if_pos (by simp [HashMap.containsKey, hq])]
    split
    · rename_i h
      subst h
      exact hq
    · rfl

theorem lookup_recordUnbindDone (d : DisplayId) (g : ℕ) (r : RendererId) :
    (inner.recordUnbindDone d g).unbindAcksPending.lookup r =
      (inner.unbindAcksPending.lookup r).map (·.erase (d, g)) := by
  have hfold (ks : List RendererId) (hnd : ks.Nodup)
      (m : HashMap RendererId (Finset (DisplayId × ℕ))) :
      (ks.foldl (fun m r => m.modify r (·.erase (d, g))) m).lookup r =
        if r ∈ ks then (m.lookup r).map (·.erase (d, g)) else m.lookup r := by
    induction ks generalizing m with
    | nil => simp
    | cons k ks ih =>
      obtain ⟨hk, hnd⟩ := List.nodup_cons.1 hnd
      rw [List.foldl_cons, ih hnd, HashMap.lookup_modify]
      by_cases hr : r = k
      · subst hr
        simp [hk]
      · simp [hr]
  refine (hfold _ inner.unbindAcksPending.keys_nodup _).trans ?_
  split
  · rfl
  · rename_i h
    have : inner.unbindAcksPending.lookup r = none := by
      by_contra hne
      obtain ⟨v, hv⟩ := Option.ne_none_iff_exists'.1 hne
      exact h ((HashMap.mem_keys_iff _ _).2 ⟨v, hv⟩)
    rw [this]
    rfl

/-- A sync adds at most the unbind it sends to the set of the renderer it was bound to. -/
theorem lookup_unbindAcks_syncDisplay (d : DisplayId) (r : RendererId) :
    (inner.syncDisplay settings slots d).1.unbindAcksPending.lookup r =
        inner.unbindAcksPending.lookup r ∨
      ∃ state g, inner.displays.lookup d = some state ∧ state.lastRenderer = some r ∧
        state.lastBufferGeneration = some g ∧
        .unbind g ∈ (inner.syncDisplay settings slots d).2 ∧
        (inner.syncDisplay settings slots d).1.unbindAcksPending.lookup r =
          (inner.unbindAcksPending.lookup r).map (insert (d, g)) := by
  unfold syncDisplay
  cases hd : inner.displays.lookup d with
  | none => exact .inl rfl
  | some state =>
    dsimp only
    split
    · exact .inl rfl
    · have hrec : (inner.recordPendingUnbind d state).unbindAcksPending.lookup r =
            inner.unbindAcksPending.lookup r ∨
          ∃ g, state.lastRenderer = some r ∧ state.lastBufferGeneration = some g ∧
            (inner.recordPendingUnbind d state).unbindAcksPending.lookup r =
              (inner.unbindAcksPending.lookup r).map (insert (d, g)) := by
        unfold recordPendingUnbind
        split
        · rename_i q g hq hg
          by_cases hr : r = q
          · subst hr
            exact .inr ⟨g, hq, hg, by rw [HashMap.lookup_modify, if_pos rfl]⟩
          · exact .inl (by rw [HashMap.lookup_modify, if_neg hr])
        · exact .inl rfl
      obtain hrec | ⟨g, hr, hg, hrec⟩ := hrec
      · left
        split <;> exact hrec
      · refine .inr ⟨state, g, rfl, hr, hg, ?_, ?_⟩
        · split <;> simp [hg]
        · split <;> exact hrec

/-- A sync that sends an unbind for a renderer adds it to the set of that renderer, if there is
one. -/
theorem lookup_unbindAcks_of_unbind {d : DisplayId} {state : DisplayState} {r : RendererId} {g : ℕ}
    (hd : inner.displays.lookup d = some state) (hr : state.lastRenderer = some r)
    (hg : state.lastBufferGeneration = some g)
    (hu : .unbind g ∈ (inner.syncDisplay settings slots d).2) :
    (inner.syncDisplay settings slots d).1.unbindAcksPending.lookup r =
      (inner.unbindAcksPending.lookup r).map (insert (d, g)) := by
  unfold syncDisplay at hu ⊢
  rw [hd] at hu ⊢
  dsimp only at hu ⊢
  split
  · rename_i hstay
    rw [if_pos hstay] at hu
    cases hu
  · have hrec : (inner.recordPendingUnbind d state).unbindAcksPending.lookup r =
        (inner.unbindAcksPending.lookup r).map (insert (d, g)) := by
      unfold recordPendingUnbind
      rw [hr, hg]
      exact (HashMap.lookup_modify ..).trans (if_pos rfl)
    split <;> exact hrec

/-- Every unbind that is waited for was sent to a registered display. -/
def AcksRegistered : Prop :=
  ∀ r d, inner.WaitsFor r d → inner.displays.containsKey d = true

end Inner

/-! ## What a call does to the waits -/

/-- The sets of the unbinds that are waited for, after a call. -/
def RouterCall.unbindAcksPendingAfter (s : Daemon) :
    RouterCall → HashMap RendererId (Finset (DisplayId × ℕ))
  | beginUnbindAckTracking r => (s.inner.beginUnbindAckTracking r).unbindAcksPending
  | recordUnbindDone d g => (s.inner.recordUnbindDone d g).unbindAcksPending
  | clearUnbindAcks r => s.inner.unbindAcksPending.erase r
  | syncDisplay d => (s.inner.syncDisplay s.settings s.slots d).1.unbindAcksPending
  | _ => s.inner.unbindAcksPending

theorem RouterCall.unbindAcksPending_innerAfter (s : Daemon) (c : RouterCall) :
    (c.innerAfter s).unbindAcksPending = c.unbindAcksPendingAfter s := by
  cases c with
  | updateDisplayWindowState d flags =>
    rw [innerAfter, Inner.updateDisplayWindowState_eq]
    rfl
  | resumeAutopause d gen =>
    rw [innerAfter, Inner.resumeAutopause_eq]
    rfl
  | _ =>
    simp only [innerAfter]
    (try split) <;> first
      | rfl
      | rw [Inner.updateClearColors_eq]; rfl
      | rw [Inner.updateSessionState_eq]; rfl
      | rw [Inner.relinkDisplaysTo_eq]; rfl
      | rw [Inner.relinkAllDisplaysTo_eq]; rfl
      | rw [Inner.setLinkGeometry_eq]; rfl
      | rw [Inner.resyncDisplaySetConfig_eq]; rfl

/-- Only a sync makes a wait wait for another display: for the one it syncs. -/
theorem RouterCall.WaitsFor.of_innerAfter {s : Daemon} {c : RouterCall} {r : RendererId}
    {d : DisplayId} (h : (c.innerAfter s).WaitsFor r d) :
    s.inner.WaitsFor r d ∨ c = .syncDisplay d ∧ s.inner.displays.containsKey d = true := by
  obtain ⟨g, pending, hr, hm⟩ := h
  rw [unbindAcksPending_innerAfter] at hr
  cases c with
  | beginUnbindAckTracking q =>
    rw [unbindAcksPendingAfter, Inner.lookup_beginUnbindAckTracking] at hr
    split at hr
    · rename_i hq
      subst hq
      cases hl : s.inner.unbindAcksPending.lookup r with
      | none =>
        obtain rfl : ∅ = pending := by simpa [hl] using hr
        cases hm
      | some old =>
        obtain rfl : old = pending := by simpa [hl] using hr
        exact .inl ⟨g, old, hl, hm⟩
    · exact .inl ⟨g, pending, hr, hm⟩
  | recordUnbindDone e k =>
    rw [unbindAcksPendingAfter, Inner.lookup_recordUnbindDone] at hr
    obtain ⟨old, hl, rfl⟩ := Option.map_eq_some_iff.1 hr
    exact .inl ⟨g, old, hl, Finset.mem_of_mem_erase hm⟩
  | clearUnbindAcks q =>
    rw [unbindAcksPendingAfter, HashMap.lookup_erase_eq] at hr
    split at hr
    · cases hr
    · exact .inl ⟨g, pending, hr, hm⟩
  | syncDisplay e =>
    rw [unbindAcksPendingAfter] at hr
    obtain hl | ⟨state, k, hd, -, -, -, hl⟩ :=
      s.inner.lookup_unbindAcks_syncDisplay s.settings s.slots e r
    · exact .inl ⟨g, pending, hl ▸ hr, hm⟩
    · rw [hl] at hr
      obtain ⟨old, hl, rfl⟩ := Option.map_eq_some_iff.1 hr
      obtain hm | hm := Finset.mem_insert.1 hm
      · obtain ⟨rfl, rfl⟩ := Prod.mk.inj hm
        exact .inr ⟨rfl, (HashMap.containsKey_iff _ _).2 ⟨state, hd⟩⟩
      · exact .inl ⟨g, old, hl, hm⟩
  | _ => exact .inl ⟨g, pending, hr, hm⟩

/-- A display stays registered until it is unregistered. -/
theorem RouterCall.containsKey_innerAfter {s : Daemon} {c : RouterCall} {d : DisplayId}
    (h : s.inner.displays.containsKey d = true) (hc : c ≠ .unregisterDisplay d) :
    (c.innerAfter s).displays.containsKey d = true := by
  rw [Inner.containsKey_displays] at h ⊢
  rw [autopauseOf_innerAfter]
  cases c with
  | registerDisplay reg b =>
    dsimp only
    split
    · rfl
    · exact h
  | unregisterDisplay e =>
    dsimp only
    rw [if_neg fun he : d = e => hc (by rw [he])]
    exact h
  | updateDisplayWindowState e flags =>
    dsimp only
    split
    · rename_i he
      subst he
      rw [Option.isSome_map, ← h, ← Inner.containsKey_displays]
      rfl
    · exact h
  | resumeAutopause e gen =>
    dsimp only
    split
    · rename_i he
      subst he
      rw [Option.isSome_map, h]
    · exact h
  | _ => exact h

theorem RouterCall.containsKey_unregisterDisplay (s : Daemon) (d : DisplayId) :
    (innerAfter s (.unregisterDisplay d)).displays.containsKey d = false := by
  rw [Inner.containsKey_displays, autopauseOf_innerAfter]
  simp

/-! ## A connection that closes -/

/-- Some wait waits for display `d`. -/
def Inner.awaited (inner : Inner) (d : DisplayId) : Bool :=
  inner.unbindAcksPending.values.any fun pending => decide (∃ e ∈ pending, e.1 = d)

theorem Inner.awaited_iff {inner : Inner} {d : DisplayId} :
    inner.awaited d = true ↔ ∃ r, inner.WaitsFor r d := by
  simp only [awaited, List.any_eq_true, decide_eq_true_iff, HashMap.mem_values_iff]
  constructor
  · rintro ⟨pending, ⟨r, hr⟩, ⟨e, g⟩, hm, rfl⟩
    exact ⟨r, g, pending, hr, hm⟩
  · rintro ⟨r, g, pending, hr, hm⟩
    exact ⟨pending, ⟨r, hr⟩, (d, g), hm, rfl⟩

/-- The display whose registration the call ends. -/
def Call.closes : Call → Option DisplayId
  | router (.unregisterDisplay d) => some d
  | _ => none

/-- A display is unregistered only when no wait waits for it. -/
def ClosesAcked (p : DaemonPool) : DaemonLabel → Prop
  | .run i _ => ∀ c ∈ (p.tasks[i]?.bind fun t => t.stack.head?), ∀ d ∈ c.closes,
      p.shared.inner.awaited d = false
  | _ => True

section Run

variable {p p' : DaemonPool} {l : DaemonLabel}

theorem acksRegistered_exec {s : Daemon} {x : Choice} {fresh : ℕ} {c : Call} {o : Step}
    (hs : s.inner.AcksRegistered) (ho : c.exec x fresh s = some o)
    (hc : ∀ d ∈ c.closes, s.inner.awaited d = false) : o.shared.inner.AcksRegistered := by
  rw [Call.inner_exec ho]
  cases c with
  | router c =>
    intro r d hw
    obtain hw | ⟨rfl, hd⟩ := RouterCall.WaitsFor.of_innerAfter hw
    · refine RouterCall.containsKey_innerAfter (hs r d hw) ?_
      rintro rfl
      have hnot := hc d rfl
      rw [Inner.awaited_iff.2 ⟨r, ‹_›⟩] at hnot
      cases hnot
    · exact RouterCall.containsKey_innerAfter hd nofun
  | _ => exact hs

theorem not_acksRegistered_exec {s : Daemon} {x : Choice} {fresh : ℕ} {c : Call} {o : Step}
    (ho : c.exec x fresh s = some o) {d : DisplayId} (hc : c.closes = some d)
    (hd : s.inner.awaited d = true) : ¬o.shared.inner.AcksRegistered := by
  obtain rfl : c = .router (.unregisterDisplay d) := by
    cases c with
    | router c =>
      cases c <;> cases hc
      rfl
    | _ => cases hc
  intro hs
  obtain ⟨r, g, pending, hr, hm⟩ := Inner.awaited_iff.1 hd
  rw [Call.inner_exec ho] at hs
  have := hs r d ⟨g, pending, (RouterCall.unbindAcksPending_innerAfter ..).symm ▸ hr, hm⟩
  rw [Call.innerAfter, RouterCall.containsKey_unregisterDisplay] at this
  cases this

/-- A step keeps the waits within the registered displays exactly when it does not unregister a
display that is waited for. -/
theorem acksRegistered_step_iff (hp : p.shared.inner.AcksRegistered)
    (h : semantics.step p l = some p') :
    p'.shared.inner.AcksRegistered ↔ ClosesAcked p l := by
  cases l with
  | run i x =>
    obtain ⟨t, c, rest, o, ht, -, hc, ho, rfl⟩ := Semantics.step_run_eq_some.1 h
    have hhead : (p.tasks[i]?.bind fun t => t.stack.head?) = some c := by simp [ht, hc]
    simp only [ClosesAcked, hhead, Option.mem_some_iff, forall_eq']
    constructor
    · intro hs d hd
      by_contra hne
      exact not_acksRegistered_exec ho hd (by simpa using hne) hs
    · exact fun hclosed => acksRegistered_exec hp ho hclosed
  | wake i =>
    obtain ⟨t, -, -, rfl⟩ := Semantics.step_wake_eq_some.1 h
    exact iff_of_true hp trivial
  | drop i =>
    obtain ⟨t, -, -, rfl⟩ := Semantics.step_drop_eq_some.1 h
    exact iff_of_true hp trivial
  | start q =>
    obtain ⟨s, t, ht, rfl⟩ := Semantics.step_start_eq_some.1 h
    exact iff_of_true (Request.inner_accept ht ▸ hp) trivial
  | env e =>
    obtain ⟨s, hs, rfl⟩ := Semantics.step_env_eq_some.1 h
    cases hs
    refine iff_of_true (fun r d hw => ?_) trivial
    cases e with
    | promoteDisplay q =>
      have := hp r d hw
      simpa [Environment.act, Daemon.withInner, HashMap.containsKey] using this
    | _ => exact hp r d hw

end Run

/-- The waits wait for registered displays only, all along a run, exactly when no display is
unregistered while a wait waits for it. -/
theorem acksRegistered_iff {registry : HashMap String (List String)} {ls : List DaemonLabel}
    {p : DaemonPool} (hrun : Run registry ls p) :
    Transition.Along semantics.step (fun q l => ∀ q', semantics.step q l = some q' →
        q'.shared.inner.AcksRegistered) (start registry) ls ↔
      Transition.Along semantics.step ClosesAcked (start registry) ls := by
  refine Transition.along_iff_of_step (I := fun q : DaemonPool => q.shared.inner.AcksRegistered)
    (fun q l q' hq h => acksRegistered_step_iff hq h) ?_ hrun
  rintro r d ⟨g, pending, hr, -⟩
  cases hr

/-- The display hangs up while no renderer is torn down. -/
def closedIdle : List DaemonLabel :=
  sceneBound ++ [.run 4 (.client .bye), .run 4 .tick]

def idle : DaemonPool :=
  Transition.reached semantics.step (start sceneRegistry) closedIdle (by decide +kernel)

instance (p : DaemonPool) : DecidablePred (ClosesAcked p)
  | .run _ _ => inferInstanceAs (Decidable (∀ _ ∈ _, _))
  | .drop _ | .wake _ | .start _ | .env _ => isTrue trivial

theorem acksRegistered_iff_idle :
    Transition.Along semantics.step (fun q l => ∀ q', semantics.step q l = some q' →
      q'.shared.inner.AcksRegistered) (start sceneRegistry) closedIdle := by
  have hrun : Run sceneRegistry closedIdle idle := Transition.run_reached _ _
  exact (acksRegistered_iff hrun).2 (by decide)

/-- The renderer is unregistered under ack tracking, and the display hangs up before it replies. -/
def closedUnacked : List DaemonLabel :=
  sceneBound ++ [.start (.router (.beginUnbindAckTracking 7)), .run 5 .tick,
    .start (.router (.unregisterRenderer 7))] ++ List.replicate 6 (.run 6 .tick) ++
  [.run 4 (.client .bye), .run 4 .tick]

def unacked : DaemonPool :=
  Transition.reached semantics.step (start sceneRegistry) closedUnacked (by decide +kernel)

/-- The set of a renderer under teardown outlives the displays in it. -/
theorem not_acksRegistered :
    ¬∀ (registry : HashMap String (List String)) (ls : List DaemonLabel) (p : DaemonPool),
      Run registry ls p → p.shared.inner.AcksRegistered := by
  intro h
  have hacks := h sceneRegistry closedUnacked unacked (Transition.run_reached _ _)
  obtain ⟨r, hw⟩ := Inner.awaited_iff.1 (by decide : unacked.shared.inner.awaited 1 = true)
  have hreg : unacked.shared.inner.displays.containsKey 1 = false := by decide
  rw [hacks r 1 hw] at hreg
  cases hreg

end Waywallen
