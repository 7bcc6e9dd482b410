import Waywallen.Daemon.Continues

/-!
# The orphan reaper

The reaper picks a renderer without displays in one critical section and drops it in a later one.
What it drops is still without displays as long as none is linked to it in between.
-/

namespace Waywallen

open TaskPool

/-- The renderer the call links a display to. -/
def Call.linksTo (s : Daemon) : Call → Option RendererId
  | router (.registerDisplay _ _) => s.inner.table.firstRenderer
  | router (.relinkDisplaysTo ds r) => if s.inner.relinkTargets ds = [] then none else some r
  | router (.relinkAllDisplaysTo r) => if s.inner.displays.keys = [] then none else some r
  | _ => none

/-- The call is the reaper's removal of renderer `r`. -/
def Call.reaps (r : RendererId) : Call → Bool
  | router (.killOrphanNow q) => q == r
  | _ => false

/-- No display is linked to a renderer that the reaper has picked and not dropped yet. -/
def SparesPicked (p : DaemonPool) : DaemonLabel → Prop
  | .run i _ => ∀ c ∈ (p.tasks[i]?.bind fun t => t.stack.head?), ∀ r ∈ c.linksTo p.shared,
      ∀ k ∈ calls p.tasks, k.reaps r = false
  | _ => True

/-- What the reaper is about to drop is an orphan. -/
def PickedOrphans (p : DaemonPool) : Prop :=
  ∀ r, .router (.killOrphanNow r) ∈ calls p.tasks → p.shared.inner.isOrphan r = true

section Exec

variable {x : Choice} {fresh : ℕ} {s : Daemon} {c k : Call} {o : Step} {r : RendererId}

/-- A renderer stays an orphan unless a call links a display to it. -/
theorem isOrphan_exec (h : s.inner.isOrphan r = true) (hc : c.linksTo s ≠ some r)
    (ho : c.exec x fresh s = some o) : o.shared.inner.isOrphan r = true := by
  rw [Inner.isOrphan_iff] at h ⊢
  rw [Call.inner_exec ho]
  intro d hd
  cases c with
  | router c =>
    rw [Call.innerAfter, (RouterCall.frame s c).table, RouterCall.routeOf_tableAfter] at hd
    cases c with
    | unregisterRenderer q | killOrphanNow q => exact h d (Option.eq_some_of_filter_eq_some hd)
    | registerDisplay reg b =>
      dsimp only at hd
      split at hd
      · obtain hd | ⟨-, hd⟩ := Option.or_eq_some_iff.1 hd
        · exact hc hd
        · exact h d hd
      · exact h d hd
    | unregisterDisplay e =>
      dsimp only at hd
      split at hd
      · cases hd
      · exact h d hd
    | relinkDisplaysTo ds q =>
      dsimp only at hd
      split at hd
      · rename_i hmem
        exact hc (by simp [Call.linksTo, List.ne_nil_of_mem hmem, Option.some_inj.1 hd])
      · exact h d hd
    | relinkAllDisplaysTo q =>
      dsimp only at hd
      split at hd
      · rename_i hmem
        exact hc (by simp [Call.linksTo, List.ne_nil_of_mem hmem, Option.some_inj.1 hd])
      · exact h d hd
    | _ => exact h d hd
  | _ => exact h d hd

/-- The reaper picks orphans. -/
theorem isOrphan_of_picked (ho : c.exec x fresh s = some o)
    (hk : .router (.killOrphanNow r) ∈ o.next) : s.inner.isOrphan r = true ∧ c.linksTo s = none := by
  cases Call.continues ho hk with
  | reap hr =>
    cases hr with
    | orphan hr hl => exact ⟨(by simpa using (List.mem_filter.1 hr).2 : _ ∧ _).2, rfl⟩
    | timer hr horphan => exact ⟨horphan, rfl⟩

end Exec

theorem PickedOrphans.step {p p' : DaemonPool} {l : DaemonLabel} (hp : PickedOrphans p)
    (hC : SparesPicked p l) (h : semantics.step p l = some p') : PickedOrphans p' := by
  refine Semantics.preserves (C := SparesPicked) ?_ ?_ ?_ ?_ ?_ p l p' hp hC h
  · intro p i x t c rest o hp hC ht _ hc ho r hr
    obtain hr | hr | hr := mem_calls_resume ht hc hr
    · obtain ⟨horphan, hlinks⟩ := isOrphan_of_picked ho hr
      exact isOrphan_exec horphan (by simp [hlinks]) ho
    · obtain hs | ⟨t, hs, ht⟩ := Call.spawns ho
      · simp [hs] at hr
      · rw [hs, calls_cons, calls_nil, List.append_nil] at hr
        cases ht <;> simp at hr
    · refine isOrphan_exec (hp r hr) (fun hl => ?_) ho
      have := hC c (by simp [ht, hc]) r hl _ hr
      simp [Call.reaps] at this
  · intro p i t hp _ ht _ r hr
    rw [calls_wake ht] at hr
    exact hp r hr
  · exact fun p i t hp _ ht _ r hr => hp r (mem_calls_drop ht hr)
  · intro p q s t hp _ hq r hr
    rw [calls_append, List.mem_append] at hr
    obtain hr | hr := hr
    · exact (Request.inner_accept hq).symm ▸ hp r hr
    · have := (Request.isRequested_accept hq).2 _ (by simpa using hr)
      simp [Call.isRequested, RouterCall.isPublic] at this
  · intro p e s hp _ he r hr
    cases he
    have h := hp r hr
    cases e with
    | promoteRegistered q =>
      rw [Inner.isOrphan_iff] at h ⊢
      exact h
    | _ => exact h

/-- As long as no display is linked to a renderer the reaper has picked, the reaper drops orphans
only. -/
theorem isOrphan_of_killOrphanNow {registry : HashMap String (List String)}
    {ls : List DaemonLabel} {p : DaemonPool} (hrun : Run registry ls p)
    (hC : Transition.Along semantics.step SparesPicked (start registry) ls) {r : RendererId}
    (hr : .router (.killOrphanNow r) ∈ calls p.tasks) : p.shared.inner.isOrphan r = true :=
  Transition.invariant_of_run (I := PickedOrphans) (fun _ _ _ hp hC h => hp.step hC h)
    (fun r hr => by simp [start] at hr) hC hrun r hr

instance (p : DaemonPool) : DecidablePred (SparesPicked p)
  | .run _ _ => inferInstanceAs (Decidable (∀ _ ∈ _, _))
  | .drop _ | .wake _ | .start _ | .env _ => isTrue trivial

/-- The display is relinked to a new renderer, and the old one is picked. -/
def replaced : List DaemonLabel :=
  sceneBound ++ [.start (.rendererSpawn ⟨"scene", ∅, none⟩), .run 5 (.spawned 8 none ⟨0, 0⟩ false)] ++
  List.replicate 9 (.run 5 .tick) ++ .start (.router (.relinkAllDisplaysTo 8)) ::
  List.replicate 12 (.run 8 .tick)

def picked : DaemonPool :=
  Transition.reached semantics.step (start sceneRegistry) replaced (by decide +kernel)

/-- The reaper is about to drop renderer `r`. -/
def picks (r : RendererId) (p : DaemonPool) : Bool := (calls p.tasks).any (Call.reaps r)

theorem mem_calls_of_picks {r : RendererId} {p : DaemonPool} (h : picks r p = true) :
    .router (.killOrphanNow r) ∈ calls p.tasks := by
  obtain ⟨c, hc, hr⟩ := List.any_eq_true.1 h
  cases c with
  | router c =>
    cases c <;> simp [Call.reaps] at hr
    exact hr ▸ hc
  | _ => cases hr

theorem isOrphan_of_killOrphanNow_picked : picked.shared.inner.isOrphan 7 = true := by
  have hrun : Run sceneRegistry replaced picked := Transition.run_reached _ _
  exact isOrphan_of_killOrphanNow hrun (by decide +kernel)
    (mem_calls_of_picks (by decide))

/-- A display registers and is linked to the renderer before it is dropped. -/
def registeredBetween : List DaemonLabel :=
  replaced ++ .start (.connect ⟨"B", none, 1920, 1080, 60, ⟨0, 0⟩, none⟩) ::
  List.replicate 2 (.run 9 .tick)

def linkedAgain : DaemonPool :=
  Transition.reached semantics.step (start sceneRegistry) registeredBetween (by decide +kernel)

/-- The reaper may drop a renderer with a display. -/
theorem not_isOrphan_of_killOrphanNow :
    ¬∀ (registry : HashMap String (List String)) (ls : List DaemonLabel) (p : DaemonPool),
      Run registry ls p → ∀ (i : ℕ) (r : RendererId),
      (p.tasks[i]?.bind fun t => t.stack.head?).any (Call.reaps r) = true →
      p.shared.inner.isOrphan r = true := by
  intro h
  have horphan := h sceneRegistry registeredBetween linkedAgain (Transition.run_reached _ _) 8 7
    (by decide)
  revert horphan
  decide

end Waywallen
