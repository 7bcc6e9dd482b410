import Waywallen.Teardown.Acks

/-!
# Replies to unbinds

A reply names a display and a generation, not the renderer whose pool was unbound. It counts for
the right unbind as long as no two unbinds of one generation are unanswered at a display at once.
-/

namespace Waywallen

open TaskPool

/-- How many unbinds of generation `g` have been sent to display `d`. -/
def sentUnbinds (s : Daemon) (d : DisplayId) (g : ℕ) : ℕ :=
  (s.channels d).count (.unbind g)

/-- How many of them the display has replied to: its `n`-th reply is to the `n`-th unbind. -/
def repliedUnbinds (s : Daemon) (d : DisplayId) (g : ℕ) : ℕ :=
  (s.history.answered d).count g

/-- The renderer, display and generation of the unbind the call is about to send for a renderer
under ack tracking. -/
def Daemon.trackedUnbind (s : Daemon) : Call → Option (RendererId × DisplayId × ℕ)
  | .router (.syncDisplay d) =>
      (s.inner.displays.lookup d).bind fun state =>
        state.lastRenderer.bind fun r => state.lastBufferGeneration.bind fun g =>
          if s.inner.unbindAcksPending.containsKey r = true ∧
            .unbind g ∈ (s.inner.syncDisplay s.settings s.slots d).2
          then some (r, d, g) else none
  | _ => none

/-- The call crosses out the unbinds of generation `g` to display `d`. -/
def Call.acks (d : DisplayId) (g : ℕ) : Call → Bool
  | router (.recordUnbindDone e h) => e == d && h == g
  | _ => false

/-- The renderer whose set the call drops. -/
def Call.endsWait : Call → Option RendererId
  | router (.clearUnbindAcks r) => some r
  | _ => none

/-- An unbind is sent under tracking when all earlier ones of the same generation to the same
display have been replied to and crossed out, a set is dropped only when nothing is left in it,
and only the displays reply. -/
def RepliesInTime (p : DaemonPool) : DaemonLabel → Prop
  | .run i _ => ∀ c ∈ (p.tasks[i]?.bind fun t => t.stack.head?),
      (∀ u ∈ p.shared.trackedUnbind c,
        sentUnbinds p.shared u.2.1 u.2.2 = repliedUnbinds p.shared u.2.1 u.2.2 ∧
        ∀ k ∈ calls p.tasks, k.acks u.2.1 u.2.2 = false) ∧
      ∀ r ∈ c.endsWait, p.shared.inner.unbindAcked r = true
  | .start (.router (.recordUnbindDone _ _)) => False
  | _ => True

/-- The unbind of generation `g` that was sent to display `d` after `n` others has been replied
to, or a wait for renderer `r` still waits for it. -/
def RepliedOrAwaited (r : RendererId) (d : DisplayId) (g n : ℕ) (p : DaemonPool) : Prop :=
  n < repliedUnbinds p.shared d g ∨
    repliedUnbinds p.shared d g = n ∧ (∀ k ∈ calls p.tasks, k.acks d g = false) ∧
      ∃ pending, p.shared.inner.unbindAcksPending.lookup r = some pending ∧ (d, g) ∈ pending

section Exec

variable {x : Choice} {fresh : ℕ} {s : Daemon} {c k : Call} {o : Step} {d : DisplayId} {g : ℕ}

theorem Call.acks_iff : c.acks d g = true ↔ c = .router (.recordUnbindDone d g) := by
  cases c with
  | router c => cases c <;> simp [acks]
  | _ => simp [acks]

/-- Only a reply makes an endpoint cross out an unbind. -/
theorem EndpointCall.eq_unbindDone {e : DisplayId} {q : ClientRequest} {next : List Call}
    (hq : request e q = some next) (hk : .router (.recordUnbindDone d g) ∈ next) :
    e = d ∧ q = .unbindDone g := by
  cases q with
  | consumerCaps caps =>
    simp only [request] at hq
    split at hq <;> cases hq <;> simp at hk
  | bye => cases hq
  | _ =>
    cases hq
    simp at hk <;> simp [hk]

theorem repliedUnbinds_answer (e : DisplayId) (q : ClientRequest) :
    repliedUnbinds s d g ≤ repliedUnbinds (s.answer e q) d g := by
  unfold repliedUnbinds Daemon.answer Daemon.record
  cases q with
  | unbindDone h =>
    by_cases he : e = d
    · subst he
      simp
    · have hde : d ≠ e := fun h => he h.symm
      simp [hde]
  | _ => exact le_rfl

theorem repliedUnbinds_answer_unbindDone :
    repliedUnbinds (s.answer d (.unbindDone g)) d g = repliedUnbinds s d g + 1 := by
  simp [repliedUnbinds, Daemon.answer, Daemon.record]

theorem repliedUnbinds_le (ho : c.exec x fresh s = some o) :
    repliedUnbinds s d g ≤ repliedUnbinds o.shared d g := by
  have h : o.shared.history.answered = c.answeredAfter x s :=
    congrArg History.answered (Call.history_exec ho)
  rw [repliedUnbinds, repliedUnbinds, h]
  cases c with
  | endpoint c =>
    cases c with
    | frameLoop e =>
      cases x with
      | client q => exact repliedUnbinds_answer e q
      | _ => exact le_rfl
    | _ => exact le_rfl
  | _ => exact le_rfl

/-- An unbind is crossed out because the display has replied. -/
theorem repliedUnbinds_lt (ho : c.exec x fresh s = some o) (hk : k ∈ o.next)
    (hacks : k.acks d g = true) : repliedUnbinds s d g < repliedUnbinds o.shared d g := by
  obtain rfl := Call.acks_iff.1 hacks
  cases Call.continues ho hk
  cases x with
  | client q =>
    simp only [Call.exec, EndpointCall.exec, EndpointCall.hangUp, Daemon.andThen] at ho
    split at ho <;> cases ho
    · rename_i next hq
      obtain hk | hk := List.mem_append.1 hk
      · obtain ⟨-, rfl⟩ := EndpointCall.eq_unbindDone hq hk
        rw [repliedUnbinds_answer_unbindDone]
        exact Nat.lt_succ_self _
      · simp at hk
    · simp at hk
  | _ =>
    simp only [Call.exec, EndpointCall.exec, EndpointCall.hangUp, Daemon.andThen] at ho
    (repeat' split at ho) <;> cases ho <;> simp at hk

theorem acks_spawn (ho : c.exec x fresh s = some o) (hk : k ∈ calls o.spawn) :
    k.acks d g = false := by
  obtain hs | ⟨t, hs, ht⟩ := Call.spawns ho
  · simp [hs] at hk
  · rw [hs, calls_cons, calls_nil, List.append_nil] at hk
    cases ht <;> simp at hk <;> simp [hk, Call.acks]

end Exec

section Run

variable {p p' : DaemonPool} {l : DaemonLabel} {r : RendererId} {d : DisplayId} {g n : ℕ}

/-- A call other than the right acknowledgement and the end of the wait leaves the wait waiting. -/
theorem lookup_unbindAcks_exec {s : Daemon} {x : Choice} {fresh : ℕ} {c : Call} {o : Step}
    (ho : c.exec x fresh s = some o) (hacks : c.acks d g = false)
    (hends : ∀ q ∈ c.endsWait, s.inner.unbindAcked q = true)
    (h : ∃ pending, s.inner.unbindAcksPending.lookup r = some pending ∧ (d, g) ∈ pending) :
    ∃ pending, o.shared.inner.unbindAcksPending.lookup r = some pending ∧ (d, g) ∈ pending := by
  obtain ⟨pending, hr, hm⟩ := h
  rw [Call.inner_exec ho]
  cases c with
  | router c =>
    rw [Call.innerAfter, RouterCall.unbindAcksPending_innerAfter]
    cases c with
    | beginUnbindAckTracking q =>
      refine ⟨pending, ?_, hm⟩
      rw [RouterCall.unbindAcksPendingAfter, Inner.lookup_beginUnbindAckTracking]
      split
      · rename_i hq
        subst hq
        rw [hr, Option.getD_some]
      · exact hr
    | recordUnbindDone e h =>
      refine ⟨pending.erase (e, h), ?_, Finset.mem_erase.2 ⟨fun he => ?_, hm⟩⟩
      · rw [RouterCall.unbindAcksPendingAfter, Inner.lookup_recordUnbindDone, hr, Option.map_some]
      · obtain ⟨rfl, rfl⟩ := Prod.mk.inj he
        simp [Call.acks] at hacks
    | clearUnbindAcks q =>
      refine ⟨pending, ?_, hm⟩
      rw [RouterCall.unbindAcksPendingAfter, HashMap.lookup_erase_eq, if_neg fun hq => ?_]
      · exact hr
      · -- a set that is dropped has nothing left in it
        subst hq
        have hacked := hends r rfl
        rw [Inner.unbindAcked, hr] at hacked
        rw [of_decide_eq_true hacked] at hm
        cases hm
    | syncDisplay e =>
      rw [RouterCall.unbindAcksPendingAfter]
      obtain hl | ⟨-, k, -, -, -, -, hl⟩ :=
        s.inner.lookup_unbindAcks_syncDisplay s.settings s.slots e r
      · exact ⟨pending, hl.trans hr, hm⟩
      · exact ⟨insert (e, k) pending, by rw [hl, hr, Option.map_some], Finset.mem_insert_of_mem hm⟩
    | _ => exact ⟨pending, hr, hm⟩
  | _ => exact ⟨pending, hr, hm⟩

theorem RepliedOrAwaited.step (hp : RepliedOrAwaited r d g n p) (hC : RepliesInTime p l)
    (h : semantics.step p l = some p') : RepliedOrAwaited r d g n p' := by
  refine Semantics.preserves (C := RepliesInTime) ?_ ?_ ?_ ?_ ?_ p l p' hp hC h
  · intro p i x t c rest o hp hC ht _ hc ho
    have hle := repliedUnbinds_le (d := d) (g := g) ho
    obtain hlt | ⟨heq, hnone, hwait⟩ := hp
    · exact .inl (lt_of_lt_of_le hlt hle)
    by_cases hlt : n < repliedUnbinds o.shared d g
    · exact .inl hlt
    have hcall : c ∈ calls p.tasks :=
      mem_calls.2 ⟨t, List.mem_of_getElem? ht, hc ▸ List.mem_cons_self ..⟩
    have hends := (hC c (by simp [ht, hc])).2
    refine .inr ⟨show repliedUnbinds o.shared d g = n by omega, fun k hk => ?_,
      lookup_unbindAcks_exec ho (hnone c hcall) hends hwait⟩
    obtain hk | hk | hk := mem_calls_resume ht hc hk
    · by_contra hacks
      have := repliedUnbinds_lt ho hk (by simpa using hacks)
      omega
    · exact acks_spawn ho hk
    · exact hnone k hk
  · intro p i t hp _ ht _
    refine hp.imp id fun ⟨heq, hnone, hwait⟩ => ⟨heq, fun k hk => hnone k ?_, hwait⟩
    rwa [calls_wake ht] at hk
  · intro p i t hp _ ht _
    exact hp.imp id fun ⟨heq, hnone, hwait⟩ =>
      ⟨heq, fun k hk => hnone k (mem_calls_drop ht hk), hwait⟩
  · intro p q s t hp hC hq
    have hnew : ∀ k ∈ t.stack, k.acks d g = false := by
      intro k hk
      by_contra hacks
      obtain rfl := Call.acks_iff.1 (by simpa using hacks)
      cases q with
      | router c =>
        rw [Request.stack_router hq, List.mem_singleton] at hk
        cases hk
        exact hC
      | _ =>
        simp only [semantics, Request.accept] at hq
        (try split at hq) <;> cases hq
        simp [unregisterAndKill] at hk
    have hshared : s.inner = p.shared.inner ∧ s.history.answered = p.shared.history.answered := by
      obtain rfl | ⟨k, -, rfl⟩ := Request.accept_shared hq <;> exact ⟨rfl, rfl⟩
    refine hp.imp (fun h => ?_) fun ⟨heq, hnone, hwait⟩ => ⟨?_, fun k hk => ?_, hshared.1 ▸ hwait⟩
    · rwa [repliedUnbinds, hshared.2]
    · rwa [repliedUnbinds, hshared.2]
    · rw [calls_append, List.mem_append] at hk
      obtain hk | hk := hk
      · exact hnone k hk
      · exact hnew k (by simpa using hk)
  · intro p e s hp _ he
    cases he
    cases e <;> exact hp

theorem Daemon.trackedUnbind_eq_some {s : Daemon} {c : Call}
    (h : s.trackedUnbind c = some (r, d, g)) : c = .router (.syncDisplay d) ∧
      ∃ state pending, s.inner.displays.lookup d = some state ∧ state.lastRenderer = some r ∧
        state.lastBufferGeneration = some g ∧
        s.inner.unbindAcksPending.lookup r = some pending ∧
        .unbind g ∈ (s.inner.syncDisplay s.settings s.slots d).2 := by
  cases c with
  | router c =>
    cases c with
    | syncDisplay e =>
      simp only [trackedUnbind, Option.bind_eq_some_iff, Option.ite_none_right_eq_some,
        Option.some_inj, Prod.mk.injEq] at h
      obtain ⟨state, hd, q, hr, k, hg, ⟨htracked, hu⟩, rfl, rfl, rfl⟩ := h
      obtain ⟨pending, hp⟩ := (HashMap.containsKey_iff _ _).1 htracked
      exact ⟨rfl, state, pending, hd, hr, hg, hp, hu⟩
    | _ => cases h
  | _ => cases h

/-- The unbind has just been sent. -/
theorem RepliedOrAwaited.of_sent {i : ℕ} {x : Choice} {c : Call}
    (hC : RepliesInTime p (.run i x)) (hc : (p.tasks[i]?.bind fun t => t.stack.head?) = some c)
    (hu : p.shared.trackedUnbind c = some (r, d, g))
    (h : semantics.step p (.run i x) = some p') :
    RepliedOrAwaited r d g (sentUnbinds p.shared d g) p' := by
  obtain ⟨t, c', rest, o, ht, -, hc', ho, rfl⟩ := Semantics.step_run_eq_some.1 h
  obtain rfl : c' = c := by simpa [ht, hc'] using hc
  obtain ⟨heq, hnone⟩ := (hC c' hc).1 _ hu
  obtain ⟨rfl, state, pending, hd, hr, hg, hp, hmem⟩ := Daemon.trackedUnbind_eq_some hu
  cases ho
  refine .inr ⟨heq.symm, fun k hk => ?_, insert (d, g) pending, ?_, Finset.mem_insert_self _ _⟩
  · obtain hk | hk | hk := mem_calls_resume ht hc' hk
    · cases hk
    · cases hk
    · exact hnone k hk
  · exact (Inner.lookup_unbindAcks_of_unbind _ _ _ hd hr hg hmem).trans (by rw [hp, Option.map_some])

end Run

/-- A wait for a renderer ends well only when every unbind sent while it was tracked has been
replied to. -/
theorem replied_of_unbindAcked {registry : HashMap String (List String)} {ls ms : List DaemonLabel}
    {p p' q : DaemonPool} {i : ℕ} {x : Choice} (hrun : Run registry ls p)
    (hstep : semantics.step p (.run i x) = some p')
    (hms : Transition.run semantics.step p' ms = some q)
    (hC : Transition.Along semantics.step RepliesInTime (start registry) (ls ++ .run i x :: ms))
    {r : RendererId} {d : DisplayId} {g : ℕ}
    (hu : (p.tasks[i]?.bind fun t => t.stack.head?).bind p.shared.trackedUnbind = some (r, d, g))
    (hacked : q.shared.inner.unbindAcked r = true) :
    sentUnbinds p.shared d g < repliedUnbinds q.shared d g := by
  obtain ⟨c, hc, hu⟩ := Option.bind_eq_some_iff.1 hu
  obtain ⟨hC, hCms⟩ := Transition.along_cons.1 ((Transition.along_append.1 hC).2 p hrun)
  have hq : RepliedOrAwaited r d g (sentUnbinds p.shared d g) q := Transition.invariant_of_run
    (fun _ _ _ hp hC h => hp.step hC h) (.of_sent hC hc hu hstep) (hCms p' hstep) hms
  obtain h | ⟨-, -, pending, hr, hm⟩ := hq
  · exact h
  · rw [Inner.unbindAcked, hr] at hacked
    rw [of_decide_eq_true hacked] at hm
    cases hm

instance (p : DaemonPool) : DecidablePred (RepliesInTime p)
  | .run _ _ => inferInstanceAs (Decidable (∀ _ ∈ _, _ ∧ _))
  | .start (.router (.recordUnbindDone _ _)) => isFalse id
  | .start q => by
      rcases q with _ | _ | _ | _ | _ | _ | c
      case router => cases c <;> first | exact isTrue trivial | exact isFalse id
      all_goals exact isTrue trivial
  | .drop _ | .wake _ | .env _ => isTrue trivial

/-- The renderer is unregistered under ack tracking; the display is about to be synced. -/
def teardown : List DaemonLabel :=
  sceneBound ++ [.start (.router (.beginUnbindAckTracking 7)), .run 5 .tick,
    .start (.router (.unregisterRenderer 7)), .run 6 .tick, .run 6 .tick]

def tornDown : DaemonPool :=
  Transition.reached semantics.step (start sceneRegistry) teardown (by decide +kernel)

def unbound : DaemonPool :=
  Transition.reached semantics.step tornDown [.run 6 .tick] (by decide +kernel)

/-- The endpoint forwards the unbind and the display replies. -/
def reply : List DaemonLabel :=
  List.replicate 3 (.run 4 .tick) ++ [.run 4 (.client (.unbindDone 1)), .run 4 .tick]

def replied : DaemonPool :=
  Transition.reached semantics.step unbound reply (by decide +kernel)

theorem replied_of_unbindAcked_replied :
    sentUnbinds tornDown.shared 1 1 < repliedUnbinds replied.shared 1 1 := by
  have hrun : Run sceneRegistry teardown tornDown := Transition.run_reached _ _
  have hstep : semantics.step tornDown (.run 6 .tick) = some unbound :=
    (Transition.run_singleton _ _ _).symm.trans (Transition.run_reached _ _)
  have hreply : Transition.run semantics.step unbound reply = some replied :=
    Transition.run_reached _ _
  have hu : (tornDown.tasks[6]?.bind fun t => t.stack.head?).bind tornDown.shared.trackedUnbind =
      some (7, 1, 1) := by decide
  exact replied_of_unbindAcked hrun hstep hreply (by decide) hu (by decide)

/-- Before the display replies, its next renderer, with a pool of the same generation, is torn
down as well. -/
def secondTeardown : List DaemonLabel :=
  teardown ++ List.replicate 4 (.run 6 .tick) ++
  [.start (.rendererSpawn ⟨"scene", ∅, none⟩), .run 7 (.spawned 8 none ⟨0, 0⟩ false)] ++
  List.replicate 9 (.run 7 .tick) ++ .run 8 (.received (.bindBuffers (scenePool 1))) ::
  List.replicate 3 (.run 8 .tick) ++ List.replicate 5 (.run 9 .tick) ++
  .start (.router (.relinkAllDisplaysTo 8)) :: List.replicate 11 (.run 10 .tick) ++
  [.start (.router (.beginUnbindAckTracking 8)), .run 11 .tick,
    .start (.router (.unregisterRenderer 8)), .run 12 .tick, .run 12 .tick]

def tornDownTwice : DaemonPool :=
  Transition.reached semantics.step (start sceneRegistry) secondTeardown (by decide +kernel)

def unboundTwice : DaemonPool :=
  Transition.reached semantics.step tornDownTwice [.run 12 .tick] (by decide +kernel)

def repliedOnce : DaemonPool :=
  Transition.reached semantics.step unboundTwice reply (by decide +kernel)

/-- One reply ends the waits for both renderers. -/
theorem not_replied_of_unbindAcked :
    ¬∀ (registry : HashMap String (List String)) (ls ms : List DaemonLabel)
      (p p' q : DaemonPool) (i : ℕ) (x : Choice), Run registry ls p →
      semantics.step p (.run i x) = some p' → Transition.run semantics.step p' ms = some q →
      ∀ (r : RendererId) (d : DisplayId) (g : ℕ),
      (p.tasks[i]?.bind fun t => t.stack.head?).bind p.shared.trackedUnbind = some (r, d, g) →
      q.shared.inner.unbindAcked r = true →
      sentUnbinds p.shared d g < repliedUnbinds q.shared d g := by
  intro h
  have hstep : semantics.step tornDownTwice (.run 12 .tick) = some unboundTwice :=
    (Transition.run_singleton _ _ _).symm.trans (Transition.run_reached _ _)
  have hu : (tornDownTwice.tasks[12]?.bind fun t => t.stack.head?).bind
      tornDownTwice.shared.trackedUnbind = some (8, 1, 1) := by decide
  have hlt := h sceneRegistry secondTeardown reply tornDownTwice unboundTwice repliedOnce 12 .tick
    (Transition.run_reached _ _) hstep (Transition.run_reached _ _) 8 1 1 hu (by decide)
  revert hlt
  decide

end Waywallen
