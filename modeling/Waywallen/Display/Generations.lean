import Waywallen.Display.Sequence

/-!
# The numbers of the configurations

Every configuration gets the next number of the router. A sync and a resync draw it and put the
configuration on the display's channel under one acquisition of the router's lock; a change of a
link's geometry puts it there under a second one. The numbers on a channel increase as long as
nothing is put there while a configuration with a lower number is still to be put.
-/

namespace Waywallen

open TaskPool

def Dispatch.configGeneration : Dispatch → Option ℕ
  | .setConfig p => some p.configGeneration
  | _ => none

/-- The numbers of the configurations put on the channel of a display. -/
def Daemon.configGenerations (s : Daemon) (d : DisplayId) : List ℕ :=
  (s.channels d).filterMap Dispatch.configGeneration

/-- The call draws a number and puts the configuration on the channel of `d` at once. -/
def Daemon.configuresAtOnce (s : Daemon) (d : DisplayId) : Call → Bool
  | .router (.syncDisplay e) => e == d && (s.inner.displays.lookup d).any fun state =>
      let target := s.inner.syncTarget s.slots d
      target.isSome && !Inner.gated s.slots state target && Inner.needsUpdate state target
  | .router (.resyncDisplaySetConfig e) => e == d && s.inner.displays.containsKey d &&
      (s.inner.syncTarget s.slots d).isSome
  | _ => false

/-- Nothing is put on a channel while a configuration with a lower number waits to be put there. -/
def PutInTurn (p : DaemonPool) : DaemonLabel → Prop
  | .run i _ => ∀ c ∈ (p.tasks[i]?.bind fun t => t.stack.head?),
      ∀ a ∈ pending Call.configures p.tasks, p.shared.configuresAtOnce a.1 c = false ∧
        ∀ b ∈ c.configures, b.1 = a.1 → p.shared.inner.displays.containsKey b.1 = true →
          b.2.configGeneration ≤ a.2.configGeneration
  | _ => True

section Exec

variable {x : Choice} {fresh : ℕ} {s : Daemon} {c : Call} {o : Step} {d : DisplayId}

/-- A sync puts the next number on the channel of its display, or none. -/
theorem configGenerations_syncDisplay (s : Daemon) (d : DisplayId) :
    let after := s.inner.syncDisplay s.settings s.slots d
    after.2.filterMap Dispatch.configGeneration = [] ∧
        after.1.nextConfigGeneration = s.inner.nextConfigGeneration ∨
      s.configuresAtOnce d (.router (.syncDisplay d)) = true ∧
        after.1.nextConfigGeneration = s.inner.nextConfigGeneration + 1 ∧
        after.2.filterMap Dispatch.configGeneration = [s.inner.nextConfigGeneration + 1] := by
  have hunbind (g : Option ℕ) :
      (g.toList.map Dispatch.unbind).filterMap Dispatch.configGeneration = [] := by
    cases g <;> rfl
  unfold Inner.syncDisplay
  cases hd : s.inner.displays.lookup d with
  | none => exact .inl ⟨rfl, rfl⟩
  | some state =>
    dsimp only
    split
    · exact .inl ⟨rfl, rfl⟩
    · rename_i hsync
      simp only [Bool.or_eq_true, Bool.not_eq_true', not_or, Bool.not_eq_true,
        Bool.not_eq_false] at hsync
      rw [Inner.recordPendingUnbind_eq]
      cases htarget : s.inner.syncTarget s.slots d with
      | none => exact .inl ⟨hunbind _, rfl⟩
      | some target =>
        obtain ⟨link, h, g⟩ := target
        rw [htarget] at hsync
        refine .inr ⟨?_, rfl, ?_⟩
        · simp [Daemon.configuresAtOnce, hd, htarget, hsync.1, hsync.2]
        · have hreplay : (Inner.replayFrame s.slots h g).filterMap Dispatch.configGeneration = [] := by
            unfold Inner.replayFrame
            split
            · exact List.filterMap_eq_nil_iff.2 fun e he => by
                obtain ⟨f, -, rfl⟩ := List.mem_map.1 he
                rfl
            · rfl
          rw [List.filterMap_append, hunbind, List.nil_append, List.filterMap_cons_none rfl]
          exact congrArg (List.cons (s.inner.nextConfigGeneration + 1)) hreplay

/-- The numbers a call puts on a channel: none, the next one, or one drawn before. -/
theorem configGenerations_dispatched (s : Daemon) (c : Call) (d : DisplayId) :
    (c.dispatched s d).filterMap Dispatch.configGeneration = [] ∨
      (s.configuresAtOnce d c = true ∧
        (c.innerAfter s).nextConfigGeneration = s.inner.nextConfigGeneration + 1 ∧
        (c.dispatched s d).filterMap Dispatch.configGeneration =
          [s.inner.nextConfigGeneration + 1]) ∨
      ∃ cfg, c = .router (.sendLinkConfig d cfg) ∧ s.inner.displays.containsKey d = true ∧
        (c.dispatched s d).filterMap Dispatch.configGeneration = [cfg.configGeneration] := by
  cases c with
  | router c =>
    cases c with
    | syncDisplay e =>
      by_cases hd : d = e
      · subst hd
        rw [Call.dispatched, if_pos rfl]
        exact (configGenerations_syncDisplay s d).elim (fun h => .inl h.1) fun h => .inr (.inl h)
      · rw [Call.dispatched, if_neg hd]
        exact .inl rfl
    | resyncDisplaySetConfig e =>
      by_cases hd : d = e
      · subst hd
        rw [Call.dispatched, if_pos rfl]
        simp only [Call.innerAfter, RouterCall.innerAfter, Inner.resyncDisplaySetConfig]
        cases hst : s.inner.displays.lookup d with
        | none => exact .inl rfl
        | some state =>
          cases ht : s.inner.syncTarget s.slots d with
          | none => exact .inl rfl
          | some target =>
            refine .inr (.inl ⟨?_, rfl, rfl⟩)
            simp [Daemon.configuresAtOnce, HashMap.containsKey, hst, ht]
      · rw [Call.dispatched, if_neg hd]
        exact .inl rfl
    | sendLinkConfig e cfg =>
      by_cases hd : d = e ∧ s.inner.displays.containsKey e = true
      · obtain ⟨rfl, hkey⟩ := hd
        rw [Call.dispatched, if_pos ⟨rfl, hkey⟩]
        exact .inr (.inr ⟨cfg, rfl, hkey, rfl⟩)
      · rw [Call.dispatched, if_neg hd]
        exact .inl rfl
    | onRendererFrame q index seq point =>
      refine .inl (List.filterMap_eq_nil_iff.2 fun e he => ?_)
      simp only [Call.dispatched] at he
      split at he
      · cases he
      · split at he
        · cases he
        · rw [(List.mem_replicate.1 he).2]
          rfl
    | _ => exact .inl rfl
  | _ => exact .inl rfl

/-- The configuration to send for a new geometry has the number that is drawn for it. -/
theorem nextConfigGeneration_setLinkGeometry (s : Daemon) (lid : LinkId) (g : LinkGeometry) :
    let after := s.inner.setLinkGeometry s.settings s.slots lid g
    after.2 = none ∧ after.1.nextConfigGeneration = s.inner.nextConfigGeneration ∨
      ∃ a, after.2 = some a ∧ a.2.configGeneration = s.inner.nextConfigGeneration + 1 ∧
        after.1.nextConfigGeneration = s.inner.nextConfigGeneration + 1 := by
  unfold Inner.setLinkGeometry
  dsimp only
  split
  · exact .inl ⟨rfl, rfl⟩
  · split
    · exact .inl ⟨rfl, rfl⟩
    · split
      · split
        · exact .inr ⟨_, rfl, rfl, rfl⟩
        · exact .inl ⟨rfl, rfl⟩
      · exact .inl ⟨rfl, rfl⟩

theorem nextConfigGeneration_le (s : Daemon) (c : Call) :
    s.inner.nextConfigGeneration ≤ (c.innerAfter s).nextConfigGeneration := by
  cases c with
  | router c =>
    rw [Call.innerAfter]
    cases c with
    | syncDisplay d =>
      rcases configGenerations_syncDisplay s d with ⟨-, h⟩ | ⟨-, h, -⟩
      · exact h.ge
      · exact (Nat.le_succ _).trans h.ge
    | resyncDisplaySetConfig d =>
      rw [RouterCall.innerAfter, Inner.resyncDisplaySetConfig]
      split
      · exact Nat.le_succ _
      · exact le_rfl
    | setLinkGeometry lid g =>
      rcases nextConfigGeneration_setLinkGeometry s lid g with ⟨-, h⟩ | ⟨a, -, -, h⟩
      · exact h.ge
      · exact (Nat.le_succ _).trans h.ge
    | beginUnbindAckTracking r => rw [RouterCall.innerAfter, Inner.beginUnbindAckTracking_eq]
    | updateClearColors r clear => rw [RouterCall.innerAfter, Inner.updateClearColors_eq]
    | updateDisplayWindowState d flags =>
      rw [RouterCall.innerAfter, Inner.updateDisplayWindowState_eq]
    | resumeAutopause d gen => rw [RouterCall.innerAfter, Inner.resumeAutopause_eq]
    | updateSessionState locked inactive =>
      rw [RouterCall.innerAfter, Inner.updateSessionState_eq]
    | relinkDisplaysTo ds r => rw [RouterCall.innerAfter, Inner.relinkDisplaysTo_eq]
    | relinkAllDisplaysTo r => rw [RouterCall.innerAfter, Inner.relinkAllDisplaysTo_eq]
    | _ =>
      simp only [RouterCall.innerAfter]
      (try split) <;> exact le_rfl
  | _ => exact le_rfl

theorem configGenerations_exec (ho : c.exec x fresh s = some o) (d : DisplayId) :
    o.shared.configGenerations d =
      s.configGenerations d ++ (c.dispatched s d).filterMap Dispatch.configGeneration := by
  rw [Daemon.configGenerations, Call.channels_exec ho, List.filterMap_append]
  rfl

end Exec

/-! ## Runs -/

/-- The numbers on every channel increase, and those still to be put there come after them. -/
structure Numbered (p : DaemonPool) : Prop where
  sorted : ∀ d, (p.shared.configGenerations d).Pairwise (· < ·)
  drawn : ∀ d, ∀ n ∈ p.shared.configGenerations d, n ≤ p.shared.inner.nextConfigGeneration
  waiting : ∀ a ∈ pending Call.configures p.tasks,
    a.2.configGeneration ≤ p.shared.inner.nextConfigGeneration ∧
      ∀ n ∈ p.shared.configGenerations a.1, n < a.2.configGeneration
  distinct : ((pending Call.configures p.tasks).map fun a => a.2.configGeneration).Nodup

section Run

variable {p p' : DaemonPool} {l : DaemonLabel}

/-- What the call on top of a task puts on a channel comes after what is there and before what is
still to be put there. -/
theorem Numbered.between (hp : Numbered p) {i : ℕ} {x : Choice} {t : DaemonTask} {c : Call}
    {rest : List Call} (hC : PutInTurn p (.run i x)) (ht : p.tasks[i]? = some t)
    (hc : t.stack = c :: rest) {others : List (DisplayId × Projection)}
    (hpend : (pending Call.configures p.tasks).Perm (c.configures.toList ++ others))
    (d : DisplayId) {m : ℕ}
    (hm : m ∈ (c.dispatched p.shared d).filterMap Dispatch.configGeneration) :
    (c.dispatched p.shared d).filterMap Dispatch.configGeneration = [m] ∧
      (∀ n ∈ p.shared.configGenerations d, n < m) ∧
      m ≤ (c.innerAfter p.shared).nextConfigGeneration ∧
      ∀ a ∈ others, a.1 = d → m < a.2.configGeneration := by
  have hguard := hC c (by simp [ht, hc])
  rcases configGenerations_dispatched p.shared c d with h | ⟨honce, hnext, h⟩ | ⟨cfg, rfl, hkey, h⟩
  · rw [h] at hm
    cases hm
  · rw [h, List.mem_singleton] at hm
    subst hm
    refine ⟨h, fun n hn => Nat.lt_succ_of_le (hp.drawn d n hn), hnext.ge, fun a ha hd => ?_⟩
    have hnot := (hguard a (hpend.mem_iff.2 (List.mem_append_right _ ha))).1
    rw [hd, honce] at hnot
    cases hnot
  · rw [h, List.mem_singleton] at hm
    subst hm
    have hpend : (pending Call.configures p.tasks).Perm ((d, cfg) :: others) := hpend
    obtain ⟨hle, hlt⟩ := hp.waiting _ (hpend.mem_iff.2 List.mem_cons_self)
    refine ⟨h, hlt, hle.trans (nextConfigGeneration_le _ _), fun a ha hd => ?_⟩
    have hle := (hguard a (hpend.mem_iff.2 (List.mem_cons_of_mem _ ha))).2 _ rfl hd.symm hkey
    have hne := (List.nodup_cons.1 ((hpend.map _).nodup_iff.1 hp.distinct)).1
    exact lt_of_le_of_ne hle fun heq => hne (List.mem_map.2 ⟨a, ha, heq.symm⟩)

/-- What a call goes on to put on a channel has just been drawn. -/
theorem configures_next_eq {x : Choice} {fresh : ℕ} {s : Daemon} {c : Call} {o : Step}
    (ho : c.exec x fresh s = some o) :
    o.next.filterMap Call.configures = [] ∨
      ∃ a, o.next.filterMap Call.configures = [a] ∧
        a.2.configGeneration = s.inner.nextConfigGeneration + 1 ∧
        o.shared.inner.nextConfigGeneration = s.inner.nextConfigGeneration + 1 ∧
        ∀ d, c.dispatched s d = [] := by
  by_cases hc : ∃ lid g, c = .router (.setLinkGeometry lid g)
  · obtain ⟨lid, g, rfl⟩ := hc
    obtain rfl := Option.some_inj.1 (show some _ = some o from ho)
    rcases nextConfigGeneration_setLinkGeometry s lid g with ⟨h, -⟩ | ⟨a, h, hnum, hnext⟩
    · refine .inl ?_
      rw [h]
      rfl
    · refine .inr ⟨a, ?_, hnum, hnext, fun d => rfl⟩
      rw [h]
      rfl
  · refine .inl (List.filterMap_eq_nil_iff.2 fun k hk => ?_)
    cases Call.continues ho hk with
    | geometrySend hp => exact absurd ⟨_, _, rfl⟩ hc
    | _ => rfl

theorem Numbered.step (hp : Numbered p) (hC : PutInTurn p l)
    (h : semantics.step p l = some p') : Numbered p' := by
  refine Semantics.preserves (C := PutInTurn) ?_ ?_ ?_ ?_ ?_ p l p' hp hC h
  · intro p i x t c rest o hp hC ht _ hc ho
    have hexec : c.exec x p.tasks.length p.shared = some o := ho
    have hinner := Call.inner_exec hexec
    have hmono := hinner ▸ nextConfigGeneration_le p.shared c
    obtain ⟨others, hbefore, hafter⟩ := pending_resume_perm ht hc o Call.configures
    rw [configures_spawn ho, List.append_nil] at hafter
    have hbetween := fun d {m} => hp.between (m := m) hC ht hc hbefore d
    have hothers : ∀ a ∈ others, a ∈ pending Call.configures p.tasks := fun a ha =>
      hbefore.mem_iff.2 (List.mem_append_right _ ha)
    refine ⟨fun d => ?_, fun d n hn => ?_, fun a ha => ?_, ?_⟩
    · show (o.shared.configGenerations d).Pairwise (· < ·)
      rw [configGenerations_exec hexec, List.pairwise_append]
      refine ⟨hp.sorted d, ?_, fun n hn m hm => (hbetween d hm).2.1 n hn⟩
      rcases hlist : (c.dispatched p.shared d).filterMap Dispatch.configGeneration with _ | ⟨m, ms⟩
      · exact .nil
      · have hm := (hbetween d (by rw [hlist]; exact List.mem_cons_self)).1
        rw [← hlist, hm]
        exact List.pairwise_singleton _ _
    · have hn : n ∈ o.shared.configGenerations d := hn
      rw [configGenerations_exec hexec, List.mem_append] at hn
      rcases hn with hn | hn
      · exact (hp.drawn d n hn).trans hmono
      · exact hinner ▸ (hbetween d hn).2.2.1
    · rcases List.mem_append.1 (hafter.mem_iff.1 ha) with ha | ha
      · rcases configures_next_eq hexec with hnone | ⟨b, hb, hnum, hnext, hsilent⟩
        · rw [hnone] at ha
          cases ha
        · rw [hb, List.mem_singleton] at ha
          subst ha
          refine ⟨(hnum.trans hnext.symm).le, fun n hn => ?_⟩
          have hn : n ∈ o.shared.configGenerations a.1 := hn
          rw [configGenerations_exec hexec, hsilent, List.filterMap_nil, List.append_nil] at hn
          rw [hnum]
          exact Nat.lt_succ_of_le (hp.drawn _ n hn)
      · obtain ⟨hle, hlt⟩ := hp.waiting a (hothers a ha)
        refine ⟨hle.trans hmono, fun n hn => ?_⟩
        have hn : n ∈ o.shared.configGenerations a.1 := hn
        rw [configGenerations_exec hexec, List.mem_append] at hn
        rcases hn with hn | hn
        · exact hlt n hn
        · exact (hbetween a.1 hn).2.2.2 a ha rfl
    · rw [(hafter.map _).nodup_iff, List.map_append]
      have hrest := (hbefore.map fun a => a.2.configGeneration).nodup_iff.1 hp.distinct
      rw [List.map_append] at hrest
      replace hrest := (List.nodup_append.1 hrest).2.1
      rcases configures_next_eq hexec with hnone | ⟨b, hb, hnum, -, -⟩
      · rw [hnone]
        exact hrest
      · rw [hb]
        refine List.nodup_cons.2 ⟨fun hmem => ?_, hrest⟩
        obtain ⟨a, ha, heq⟩ := List.mem_map.1 hmem
        have hle := (hp.waiting a (hothers a ha)).1
        dsimp only at heq
        omega
  · intro p i t hp _ ht _
    exact ⟨hp.sorted, hp.drawn, pending_wake ht _ ▸ hp.waiting, pending_wake ht _ ▸ hp.distinct⟩
  · intro p i t hp _ ht _
    have hperm := pending_drop_perm ht Call.configures
    refine ⟨hp.sorted, hp.drawn, fun a ha => hp.waiting a ?_, ?_⟩
    · exact hperm.mem_iff.2 (List.mem_append_right _ ha)
    · have hnodup := (hperm.map fun a => a.2.configGeneration).nodup_iff.1 hp.distinct
      rw [List.map_append] at hnodup
      exact (List.nodup_append.1 hnodup).2.1
  · intro p q s t hp _ ha
    have hpend := Request.pending_accept (fun _ => Call.configures_of_isRequested) ha p.tasks
    obtain rfl | ⟨id, -, rfl⟩ := Request.accept_shared ha <;>
      exact ⟨hp.sorted, hp.drawn, hpend ▸ hp.waiting, hpend ▸ hp.distinct⟩
  · intro p e s hp _ ha
    obtain rfl := Option.some_inj.1 ha
    cases e <;> exact ⟨hp.sorted, hp.drawn, hp.waiting, hp.distinct⟩

theorem numbered_start (registry : HashMap String (List String)) :
    Numbered (start registry) where
  sorted d := .nil
  drawn d n h := by cases h
  waiting a ha := by simp [start, pending, Call.configures] at ha
  distinct := List.nodup_nil

/-- If nothing is put on a channel before a configuration with a lower number, the numbers on every
channel increase. -/
theorem configGenerations_increase {registry : HashMap String (List String)}
    {ls : List DaemonLabel} {p : DaemonPool} (hrun : Run registry ls p)
    (hC : Transition.Along semantics.step PutInTurn (start registry) ls) (d : DisplayId) :
    (p.shared.configGenerations d).Pairwise (· < ·) :=
  (Transition.invariant_of_run (fun _ _ _ hp hC h => Numbered.step hp hC h)
    (numbered_start registry) hC hrun).sorted d

end Run

instance PutInTurn.decidable (p : DaemonPool) : (l : DaemonLabel) → Decidable (PutInTurn p l)
  | .run i _ => inferInstanceAs (Decidable
      (∀ c ∈ (p.tasks[i]?.bind fun t => t.stack.head?),
        ∀ a ∈ pending Call.configures p.tasks, p.shared.configuresAtOnce a.1 c = false ∧
          ∀ b ∈ c.configures, b.1 = a.1 → p.shared.inner.displays.containsKey b.1 = true →
            b.2.configGeneration ≤ a.2.configGeneration))
  | .wake _ | .drop _ | .start _ | .env _ => .isTrue trivial

/-- The link of the display is turned by a quarter. -/
def turnLink : DaemonLabel :=
  .start (.router (.setLinkGeometry 1 ⟨none, none, some 1, none, none⟩))

/-- The link of a bound display is turned, and then its configuration is sent once more. -/
def sceneTurned : List DaemonLabel :=
  sceneBound ++ turnLink :: List.replicate 3 (.run 5 .tick) ++
    [.start (.router (.resyncDisplaySetConfig 1)), .run 6 .tick]

def turned : DaemonPool :=
  Transition.reached semantics.step (start sceneRegistry) sceneTurned (by decide +kernel)

theorem configGenerations_increase_turned :
    (turned.shared.configGenerations 1).Pairwise (· < ·) := by
  have hrun : Run sceneRegistry sceneTurned turned := Transition.run_reached _ _
  exact configGenerations_increase hrun (by decide) 1

/-- The configuration is sent once more between the change of the link and its own message. -/
def sceneOutOfTurn : List DaemonLabel :=
  sceneBound ++ [turnLink, .run 5 .tick, .start (.router (.resyncDisplaySetConfig 1)),
    .run 6 .tick, .run 5 .tick]

def outOfTurn : DaemonPool :=
  Transition.reached semantics.step (start sceneRegistry) sceneOutOfTurn (by decide +kernel)

theorem not_configGenerations_increase : ¬∀ (registry : HashMap String (List String))
    (ls : List DaemonLabel) (p : DaemonPool), Run registry ls p → (∀ l ∈ ls, calm l = true) →
    ∀ d, (p.shared.configGenerations d).Pairwise (· < ·) := by
  intro h
  have hrun : Run sceneRegistry sceneOutOfTurn outOfTurn := Transition.run_reached _ _
  have hsorted := h _ _ _ hrun (by decide) 1
  revert hsorted
  decide

end Waywallen
