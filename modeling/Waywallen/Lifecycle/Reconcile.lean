import Mathlib.Data.List.Nodup
import Waywallen.Daemon.Registration

/-!
# A reconcile pass

What one pass over the registered renderers decides, and what the passes of a run decide one after
the other: the messages for one renderer alternate, and the renderer is in the paused set exactly
when the last of them was a pause.
-/

namespace Waywallen

open TaskPool

/-! ## One pass -/

namespace Inner

variable (settings : Option Settings) (inner : Inner)

theorem mem_foldl_reconcileRenderer (ids : List RendererId)
    (p : Finset RendererId × List (RendererId × Lifecycle)) (r : RendererId) :
    r ∈ (ids.foldl (inner.reconcileRenderer settings) p).1 ↔
      if r ∈ ids then inner.shouldPause settings r = true else r ∈ p.1 := by
  induction ids generalizing p with
  | nil => simp
  | cons i ids ih =>
    have hone : r ∈ (inner.reconcileRenderer settings p i).1 ↔
        if r = i then inner.shouldPause settings r = true else r ∈ p.1 := by
      unfold reconcileRenderer
      by_cases hri : r = i
      · subst hri
        cases hs : inner.shouldPause settings r <;> by_cases hp : r ∈ p.1 <;> simp [hp]
      · cases hs : inner.shouldPause settings i <;> by_cases hp : i ∈ p.1 <;> simp [hp, hri]
    rw [List.foldl_cons, ih, hone]
    by_cases hr : r ∈ ids <;> by_cases hri : r = i <;> simp [hr, hri]

/-- The paused set after a pass: exactly the registered renderers with a pause cause. -/
theorem mem_pausedRenderers_reconcileLifecycle (r : RendererId) :
    r ∈ (inner.reconcileLifecycle settings).1.pausedRenderers ↔
      if r ∈ inner.table.rendererIds then inner.shouldPause settings r = true
      else r ∈ inner.pausedRenderers :=
  inner.mem_foldl_reconcileRenderer settings _ _ r

/-- What a pass has to tell a renderer: nothing when the paused set is right about it. -/
def diff (r : RendererId) : List Lifecycle :=
  if inner.shouldPause settings r = decide (r ∈ inner.pausedRenderers) then []
  else if inner.shouldPause settings r then [.pause] else [.play]

theorem length_diff_le (r : RendererId) : (inner.diff settings r).length ≤ 1 := by
  unfold diff
  repeat' split
  all_goals simp

/-- The messages for one renderer in a list of messages. -/
def messagesTo (r : RendererId) (ms : List (RendererId × Lifecycle)) : List Lifecycle :=
  (ms.filter (·.1 = r)).map Prod.snd

theorem messagesTo_foldl_reconcileRenderer (ids : List RendererId) (hnd : ids.Nodup)
    (p : Finset RendererId × List (RendererId × Lifecycle)) (r : RendererId)
    (hp : r ∈ ids → (r ∈ p.1 ↔ r ∈ inner.pausedRenderers)) :
    messagesTo r (ids.foldl (inner.reconcileRenderer settings) p).2 =
      messagesTo r p.2 ++ if r ∈ ids then inner.diff settings r else [] := by
  induction ids generalizing p with
  | nil => simp
  | cons i ids ih =>
    obtain ⟨hi, hnd'⟩ := List.nodup_cons.1 hnd
    have hother (h : r ≠ i) : (r ∈ (inner.reconcileRenderer settings p i).1 ↔ r ∈ p.1) ∧
        messagesTo r (inner.reconcileRenderer settings p i).2 = messagesTo r p.2 := by
      have h' : i ≠ r := fun e => h e.symm
      unfold reconcileRenderer
      cases hs : inner.shouldPause settings i <;> by_cases hpi : i ∈ p.1 <;>
        simp [hpi, h, h', messagesTo]
    rw [List.foldl_cons]
    by_cases hri : r = i
    · subst hri
      have hself : messagesTo r (inner.reconcileRenderer settings p r).2 =
          messagesTo r p.2 ++ inner.diff settings r := by
        have hp := hp List.mem_cons_self
        unfold reconcileRenderer diff
        cases hs : inner.shouldPause settings r <;> by_cases hpr : r ∈ inner.pausedRenderers <;>
          simp [hp, hpr, messagesTo]
      rw [ih hnd' _ fun h => absurd h hi, hself, if_neg hi, if_pos List.mem_cons_self,
        List.append_nil]
    · obtain ⟨hmem, hmsg⟩ := hother hri
      rw [ih hnd' _ fun h => hmem.trans (hp (List.mem_cons_of_mem _ h)), hmsg]
      simp [hri]

theorem nodup_rendererIds (t : RoutingTable) : t.rendererIds.Nodup :=
  t.raw.renderers.nodupKeys

/-- What a pass tells a renderer. -/
theorem messagesTo_reconcileLifecycle (r : RendererId) :
    messagesTo r (inner.reconcileLifecycle settings).2 =
      if r ∈ inner.table.rendererIds then inner.diff settings r else [] :=
  inner.messagesTo_foldl_reconcileRenderer settings _ (nodup_rendererIds _) _ r fun _ => .rfl

end Inner

def Call.isReconcile : Call → Bool
  | router .reconcileLifecycle => true
  | _ => false

theorem Call.isReconcile_iff {c : Call} :
    c.isReconcile = true ↔ c = .router .reconcileLifecycle := by
  cases c with
  | router c => cases c <;> simp [isReconcile]
  | _ => simp [isReconcile]

/-! ## The messages of a run -/

/-- The messages for one renderer. -/
def told (r : RendererId) (ds : List Decision) : List Lifecycle :=
  (ds.filter (·.renderer = r)).map Decision.message

@[simp] theorem told_nil (r : RendererId) : told r [] = [] := rfl

@[simp] theorem told_append (r : RendererId) (ds es : List Decision) :
    told r (ds ++ es) = told r ds ++ told r es := by
  simp [told]

theorem told_singleton (r : RendererId) (d : Decision) :
    told r [d] = if d.renderer = r then [d.message] else [] := by
  unfold told
  by_cases h : d.renderer = r <;> simp [h]

/-- What a pass tells a renderer, as decisions. -/
theorem told_map (r : RendererId) (n : ℕ) (ms : List (RendererId × Lifecycle)) :
    told r (ms.map fun p => ⟨n, p.1, p.2⟩) = Inner.messagesTo r ms := by
  simp only [told, Inner.messagesTo, List.filter_map, List.map_map]
  rfl

/-- Pause, Play, Pause, … -/
def Alternates (l : List Lifecycle) : Prop :=
  ∀ i m, l[i]? = some m → m = if i % 2 = 0 then .pause else .play

theorem alternates_nil : Alternates [] := by
  intro i m h
  simp at h

theorem Alternates.append_singleton {l : List Lifecycle} (h : Alternates l) {m : Lifecycle}
    (hm : m = if l.length % 2 = 0 then .pause else .play) : Alternates (l ++ [m]) := by
  intro i k hk
  rw [List.getElem?_append] at hk
  split at hk
  · exact h i k hk
  · rename_i hi
    have hil : i - l.length = 0 := by
      by_contra hne
      obtain ⟨j, hj⟩ := Nat.exists_eq_succ_of_ne_zero hne
      simp [hj] at hk
    have : i = l.length := by omega
    subst this
    simp only [Nat.sub_self, List.getElem?_cons_zero, Option.some_inj] at hk
    rw [← hk, hm]

theorem Alternates.of_append {l m : List Lifecycle} (h : Alternates (l ++ m)) : Alternates l := by
  intro i k hk
  obtain ⟨hi, -⟩ := List.getElem?_eq_some_iff.1 hk
  exact h i k (by rw [List.getElem?_append_left hi, hk])

/-- An alternating list ends in a pause if its length is odd. -/
theorem Alternates.getLast? {l : List Lifecycle} (h : Alternates l) :
    l.getLast? = some .pause ↔ l.length % 2 = 1 := by
  rw [List.getLast?_eq_getElem?]
  constructor
  · intro hl
    obtain ⟨hlt, -⟩ := List.getElem?_eq_some_iff.1 hl
    have := h _ _ hl
    by_contra hodd
    rw [if_neg (by omega)] at this
    cases this
  · intro hodd
    have hlt : l.length - 1 < l.length := by omega
    have := h _ _ (List.getElem?_eq_getElem hlt)
    rw [if_pos (by omega)] at this
    rw [List.getElem?_eq_getElem hlt, this]

/-- The messages decided for each renderer alternate, and the paused set says how they end. -/
structure Alternation (s : Daemon) : Prop where
  alternates : ∀ r, Alternates (told r s.history.decided)
  paused : ∀ r ∈ s.inner.table.rendererIds,
    (r ∈ s.inner.pausedRenderers ↔ (told r s.history.decided).length % 2 = 1)
  subset : ∀ r ∈ s.inner.pausedRenderers, r ∈ s.inner.table.rendererIds
  fresh : ∀ r ∉ s.history.registered, told r s.history.decided = []

theorem Alternation.congr {s s' : Daemon} (h : Alternation s)
    (hids : ∀ r, r ∈ s'.inner.table.rendererIds ↔ r ∈ s.inner.table.rendererIds)
    (hpaused : s'.inner.pausedRenderers = s.inner.pausedRenderers)
    (hdecided : s'.history.decided = s.history.decided)
    (hregistered : s'.history.registered = s.history.registered) : Alternation s' where
  alternates := hdecided ▸ h.alternates
  paused r hr := by rw [hpaused, hdecided, h.paused r ((hids r).1 hr)]
  subset r hr := (hids r).2 (h.subset r (hpaused ▸ hr))
  fresh := hdecided ▸ hregistered ▸ h.fresh

/-- A pass extends the messages of each renderer by what the paused set lacks. -/
theorem Alternation.reconcile {s s' : Daemon} (h : Alternation s)
    (hids : ∀ r, r ∈ s'.inner.table.rendererIds ↔ r ∈ s.inner.table.rendererIds)
    (hpaused : s'.inner.pausedRenderers =
      (s.inner.reconcileLifecycle s.settings).1.pausedRenderers)
    (hdecided : s'.history.decided = s.history.decided ++
      (s.inner.reconcileLifecycle s.settings).2.map fun p => ⟨s.history.passes, p.1, p.2⟩)
    (hregistered : s'.history.registered = s.history.registered)
    (hreg : ∀ r ∈ s.inner.table.rendererIds, r ∈ s.history.registered) : Alternation s' := by
  have htold (r : RendererId) : told r s'.history.decided = told r s.history.decided ++
      if r ∈ s.inner.table.rendererIds then s.inner.diff s.settings r else [] := by
    rw [hdecided, told_append, told_map, Inner.messagesTo_reconcileLifecycle]
  refine ⟨fun r => ?_, fun r hr => ?_, fun r hr => ?_, fun r hr => ?_⟩
  · rw [htold]
    split
    · rename_i hr
      have hp := h.paused r hr
      unfold Inner.diff
      split
      · rw [List.append_nil]
        exact h.alternates r
      · rename_i hne
        split <;> rename_i hs
        · refine (h.alternates r).append_singleton (if_pos ?_).symm
          have : r ∉ s.inner.pausedRenderers := fun hm => hne (by simp [hs, hm])
          rw [hp] at this
          omega
        · refine (h.alternates r).append_singleton (if_neg ?_).symm
          have : r ∈ s.inner.pausedRenderers := by
            by_contra hm
            exact hne (by simp [hs, hm])
          rw [hp] at this
          omega
    · rw [List.append_nil]
      exact h.alternates r
  · rw [hids] at hr
    have hp := h.paused r hr
    rw [hpaused, Inner.mem_pausedRenderers_reconcileLifecycle, if_pos hr, htold, if_pos hr]
    unfold Inner.diff
    split
    · rename_i heq
      rw [List.append_nil, ← hp, heq, decide_eq_true_iff]
    · rename_i hne
      split <;> rename_i hs <;> rw [List.length_append]
      · have : r ∉ s.inner.pausedRenderers := fun hm => hne (by simp [hs, hm])
        rw [hp] at this
        refine iff_of_true hs ?_
        rw [List.length_singleton]
        omega
      · have : r ∈ s.inner.pausedRenderers := by
          by_contra hm
          exact hne (by simp [hs, hm])
        rw [hp] at this
        refine iff_of_false hs ?_
        rw [List.length_singleton]
        omega
  · rw [hids]
    rw [hpaused, Inner.mem_pausedRenderers_reconcileLifecycle] at hr
    split at hr
    · assumption
    · exact h.subset r hr
  · rw [hregistered] at hr
    rw [htold, h.fresh r hr, if_neg fun hm => hr (hreg r hm)]
    rfl

theorem Alternation.exec {x : Choice} {fresh : ℕ} {s : Daemon} {c : Call} {o : Step}
    (h : Alternation s) (hreg : ∀ r ∈ s.inner.table.rendererIds, r ∈ s.history.registered)
    (hnew : ∀ k i, c = .router (.addRenderer k i) → k.id ∉ s.history.registered)
    (ho : c.exec x fresh s = some o) : Alternation o.shared := by
  have hinner : o.shared.inner = c.innerAfter s := Call.inner_exec ho
  have hdecided : o.shared.history.decided = c.decidedAfter s :=
    congrArg History.decided (Call.history_exec ho)
  have hregistered : o.shared.history.registered = c.registeredAfter s :=
    congrArg History.registered (Call.history_exec ho)
  cases c with
  | router c =>
    have hf : RouterCall.Frame s c o.shared.inner := RouterCall.frame_exec ho
    have hpaused := hf.pausedRenderers
    have hids := RouterCall.mem_rendererIds_tableAfter s c
    rw [← hf.table] at hids
    cases c with
    | reconcileLifecycle => exact h.reconcile hids hpaused hdecided hregistered hreg
    | addRenderer k i =>
      have hk := hnew k i rfl
      have htold := h.fresh _ hk
      have hnot : k.id ∉ s.inner.pausedRenderers := fun hm => hk (hreg _ (h.subset _ hm))
      refine ⟨hdecided ▸ h.alternates, fun r hr => ?_, fun r hr => ?_, fun r hr => ?_⟩
      · rw [hpaused, hdecided]
        obtain rfl | hr := (hids r).1 hr
        · exact iff_of_false hnot (by simp [Call.decidedAfter, htold])
        · exact h.paused r hr
      · rw [hpaused] at hr
        exact (hids r).2 (.inr (h.subset r hr))
      · rw [hregistered] at hr
        rw [hdecided]
        exact h.fresh r fun hm => hr (List.mem_append_left _ hm)
    | unregisterRenderer q | killOrphanNow q =>
      refine ⟨hdecided ▸ h.alternates, fun r hr => ?_, fun r hr => ?_, fun r hr => ?_⟩
      · obtain ⟨hrq, hr⟩ := (hids r).1 hr
        rw [hpaused, hdecided]
        exact (Finset.mem_erase.trans (and_iff_right hrq)).trans (h.paused r hr)
      · rw [hpaused] at hr
        obtain ⟨hrq, hr⟩ := Finset.mem_erase.1 hr
        exact (hids r).2 ⟨hrq, h.subset r hr⟩
      · rw [hregistered] at hr
        rw [hdecided]
        exact h.fresh r hr
    | _ => exact h.congr hids hpaused hdecided hregistered
  | _ => exact h.congr (fun r => by rw [hinner]; rfl) (by rw [hinner]; rfl) hdecided hregistered

/-- The renderer of a pending `addRenderer` has not been registered. -/
theorem RegisteredOnce.not_registered {p : DaemonPool} (hp : RegisteredOnce p) {k : RendererHandle}
    {i : ℕ} (hk : .router (.addRenderer k i) ∈ calls p.tasks) :
    k.id ∉ p.shared.history.registered := by
  intro hm
  have hpos : 0 < (calls p.tasks).countP (Call.registers k.id) :=
    List.countP_pos_iff.2 ⟨_, hk, by simp [Call.registers]⟩
  have hcount := List.count_pos_iff.2 hm
  have honce := hp.once k.id
  split at honce <;> omega

theorem Alternation.step {p p' : DaemonPool} {l : DaemonLabel}
    (hp : RegisteredOnce p ∧ Alternation p.shared) (h : semantics.step p l = some p') :
    RegisteredOnce p' ∧ Alternation p'.shared := by
  refine ⟨hp.1.step h, ?_⟩
  refine Semantics.preserves (I := fun p => Alternation p.shared)
    (C := fun p _ => RegisteredOnce p) ?_ ?_ ?_ ?_ ?_ p l p' hp.2 hp.1 h
  · intro p i x t c rest o hp hreg ht _ hc ho
    refine hp.exec hreg.registered (fun k j hk => hreg.not_registered (i := j) ?_) ho
    exact mem_calls.2 ⟨t, List.mem_of_getElem? ht, hc ▸ hk ▸ List.mem_cons_self ..⟩
  · exact fun p i t hp _ _ _ => hp
  · exact fun p i t hp _ _ _ => hp
  · intro p q s t hp _ hq
    obtain rfl | ⟨r, -, rfl⟩ := Request.accept_shared hq
    · exact hp
    · exact hp.congr (fun _ => .rfl) rfl rfl rfl
  · intro p e s hp _ he
    cases he
    cases e with
    | promoteRegistered r =>
      refine hp.congr (fun q => ?_) rfl rfl rfl
      simp [Environment.act, Daemon.withInner, RoutingTable.mem_rendererIds]
    | _ => exact hp.congr (fun _ => .rfl) rfl rfl rfl

theorem alternation_start (registry : HashMap String (List String)) :
    Alternation (start registry).shared :=
  ⟨fun _ => alternates_nil, nofun, nofun, fun _ _ => rfl⟩

/-- The messages decided in a run alternate, whatever the interleaving. -/
theorem alternation_of_run {registry : HashMap String (List String)} {ls : List DaemonLabel}
    {p : DaemonPool} (h : Run registry ls p) : RegisteredOnce p ∧ Alternation p.shared :=
  Transition.invariant (fun _ _ _ hp hs => Alternation.step hp hs)
    ⟨registeredOnce_start registry, alternation_start registry⟩ h

end Waywallen
