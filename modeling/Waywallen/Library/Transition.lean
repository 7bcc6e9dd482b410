import Mathlib.Logic.Basic

/-!
# Runs of a labelled transition system

A system is a partial step function over labels: `step s l = none` when the label is not enabled
in `s`. A run is a list of labels. Properties of runs are stated for the state a run ends in;
since every prefix of a run is a run, they hold in every state passed on the way.
-/

universe u v w

namespace Transition

variable {σ : Type u} {ι : Type v} (step : σ → ι → Option σ)

/-- The state reached by taking the labels in order, if each is enabled in its turn. -/
def run (s : σ) : List ι → Option σ
  | [] => some s
  | l :: ls => (step s l).bind fun t => run t ls

/-- Every label taken satisfies `C` in the state it is taken in. -/
def Along (C : σ → ι → Prop) (s : σ) : List ι → Prop
  | [] => True
  | l :: ls => C s l ∧ (step s l).elim True fun t => Along C t ls

instance Along.decidable (C : σ → ι → Prop) [∀ s l, Decidable (C s l)] (s : σ) :
    (ls : List ι) → Decidable (Along step C s ls)
  | [] => .isTrue trivial
  | l :: ls =>
      match h : step s l with
      | none => decidable_of_iff (C s l) (by simp [Along, h])
      | some t =>
          have := Along.decidable C t ls
          decidable_of_iff (C s l ∧ Along step C t ls) (by simp [Along, h])

@[simp] theorem run_nil (s : σ) : run step s [] = some s := rfl

@[simp] theorem run_singleton (s : σ) (l : ι) : run step s [l] = step s l :=
  Option.bind_fun_some _

/-- The state a run that can be taken ends in. -/
def reached (s : σ) (ls : List ι) (h : (run step s ls).isSome = true) : σ :=
  (run step s ls).get h

theorem run_reached {s : σ} {ls : List ι} (h : (run step s ls).isSome = true) :
    run step s ls = some (reached step s ls h) :=
  (Option.some_get h).symm

theorem run_cons_eq_some {s t : σ} {l : ι} {ls : List ι} :
    run step s (l :: ls) = some t ↔ ∃ m, step s l = some m ∧ run step m ls = some t := by
  simp only [run, Option.bind_eq_some_iff]

theorem run_append_eq_some {s t : σ} {ls ms : List ι} :
    run step s (ls ++ ms) = some t ↔ ∃ m, run step s ls = some m ∧ run step m ms = some t := by
  induction ls generalizing s with
  | nil => simp
  | cons l ls ih =>
    rw [List.cons_append, run_cons_eq_some]
    constructor
    · rintro ⟨m, hm, h⟩
      obtain ⟨k, hk, h⟩ := ih.1 h
      exact ⟨k, (run_cons_eq_some step).2 ⟨m, hm, hk⟩, h⟩
    · rintro ⟨k, hk, h⟩
      obtain ⟨m, hm, hk⟩ := (run_cons_eq_some step).1 hk
      exact ⟨m, hm, ih.2 ⟨k, hk, h⟩⟩

variable {step} {C D : σ → ι → Prop}

/-- Labels that do not change a state do not change it one after the other. -/
theorem run_of_fixed {s : σ} {ls : List ι} (h : ∀ l ∈ ls, step s l = some s) :
    run step s ls = some s := by
  induction ls with
  | nil => rfl
  | cons l ls ih =>
    exact (run_cons_eq_some step).2 ⟨s, h l List.mem_cons_self,
      ih fun k hk => h k (List.mem_cons_of_mem _ hk)⟩

theorem along_cons {s : σ} {l : ι} {ls : List ι} :
    Along step C s (l :: ls) ↔ C s l ∧ ∀ t, step s l = some t → Along step C t ls := by
  cases h : step s l <;> simp [Along, h]

theorem Along.mono (hCD : ∀ s l, C s l → D s l) {s : σ} {ls : List ι} (h : Along step C s ls) :
    Along step D s ls := by
  induction ls generalizing s with
  | nil => trivial
  | cons l ls ih =>
    rw [along_cons] at h ⊢
    exact ⟨hCD _ _ h.1, fun t ht => ih (h.2 t ht)⟩

theorem along_append {s : σ} {ls ms : List ι} :
    Along step C s (ls ++ ms) ↔
      Along step C s ls ∧ ∀ t, run step s ls = some t → Along step C t ms := by
  induction ls generalizing s with
  | nil => simp [Along]
  | cons l ls ih =>
    rw [List.cons_append, along_cons, along_cons]
    constructor
    · rintro ⟨hC, h⟩
      refine ⟨⟨hC, fun t ht => (ih.1 (h t ht)).1⟩, fun t ht => ?_⟩
      obtain ⟨m, hm, hr⟩ := (run_cons_eq_some step).1 ht
      exact (ih.1 (h m hm)).2 t hr
    · rintro ⟨⟨hC, h₁⟩, h₂⟩
      exact ⟨hC, fun t ht => ih.2 ⟨h₁ t ht, fun k hk =>
        h₂ k ((run_cons_eq_some step).2 ⟨t, ht, hk⟩)⟩⟩

/-- The invariant rule: what every guarded step preserves, every guarded run preserves. -/
theorem invariant_of_run {I : σ → Prop}
    (hstep : ∀ s l t, I s → C s l → step s l = some t → I t) {s t : σ} {ls : List ι}
    (hs : I s) (hC : Along step C s ls) (hr : run step s ls = some t) : I t := by
  induction ls generalizing s with
  | nil =>
    rw [run_nil, Option.some_inj] at hr
    exact hr ▸ hs
  | cons l ls ih =>
    obtain ⟨m, hm, hr⟩ := (run_cons_eq_some step).1 hr
    rw [along_cons] at hC
    exact ih (hstep s l m hs hC.1 hm) (hC.2 m hm) hr

theorem along_true (s : σ) (ls : List ι) : Along step (fun _ _ => True) s ls := by
  induction ls generalizing s with
  | nil => trivial
  | cons l ls ih => exact along_cons.2 ⟨trivial, fun t _ => ih t⟩

/-- Labels that are all of a kind are so wherever they are taken. -/
theorem along_of_forall {P : ι → Prop} {ls : List ι} (h : ∀ l ∈ ls, P l) (s : σ) :
    Along step (fun _ => P) s ls := by
  induction ls generalizing s with
  | nil => trivial
  | cons l ls ih =>
    exact along_cons.2 ⟨h l List.mem_cons_self, fun t _ => ih (fun k hk =>
      h k (List.mem_cons_of_mem _ hk)) t⟩

/-- The invariant rule without a guard. -/
theorem invariant {I : σ → Prop} (hstep : ∀ s l t, I s → step s l = some t → I t) {s t : σ}
    {ls : List ι} (hs : I s) (hr : run step s ls = some t) : I t :=
  invariant_of_run (fun s l t hI _ => hstep s l t hI) hs (along_true s ls) hr

/-- The refinement rule: where `f` maps steps to steps, it maps runs to runs. -/
theorem map_run {τ : Type w} {step' : τ → ι → Option τ} {f : σ → τ} {I : σ → Prop}
    (hI : ∀ s l t, I s → step s l = some t → I t)
    (hstep : ∀ s l, I s → (step s l).map f = step' (f s) l) {s : σ} (hs : I s) (ls : List ι) :
    (run step s ls).map f = run step' (f s) ls := by
  induction ls generalizing s with
  | nil => rfl
  | cons l ls ih =>
    rw [run, run, ← hstep s l hs]
    cases h : step s l with
    | none => rfl
    | some t => exact ih (hI s l t hs h)

theorem Along.and {s : σ} {ls : List ι} (hC : Along step C s ls) (hD : Along step D s ls) :
    Along step (fun s l => C s l ∧ D s l) s ls := by
  induction ls generalizing s with
  | nil => trivial
  | cons l ls ih =>
    rw [along_cons] at hC hD ⊢
    exact ⟨⟨hC.1, hD.1⟩, fun t ht => ih (hC.2 t ht) (hD.2 t ht)⟩

/-- The exactness rule: when a step keeps `I` exactly under the guard, a run keeps `I` all along
exactly when all its steps are guarded. -/
theorem along_iff_of_step {I : σ → Prop}
    (hstep : ∀ s l t, I s → step s l = some t → (I t ↔ C s l)) {s t : σ} {ls : List ι}
    (hs : I s) (hr : run step s ls = some t) :
    Along step (fun s l => ∀ t, step s l = some t → I t) s ls ↔ Along step C s ls := by
  induction ls generalizing s with
  | nil => exact .rfl
  | cons l ls ih =>
    obtain ⟨m, hm, hr⟩ := (run_cons_eq_some step).1 hr
    rw [along_cons, along_cons]
    constructor
    · rintro ⟨hI, h⟩
      refine ⟨(hstep s l m hs hm).1 (hI m hm), fun k hk => ?_⟩
      obtain rfl := Option.some_inj.1 (hm.symm.trans hk)
      exact (ih (hI m hm) hr).1 (h m hm)
    · rintro ⟨hC, h⟩
      have hI := (hstep s l m hs hm).2 hC
      refine ⟨fun k hk => ?_, fun k hk => ?_⟩
      · exact Option.some_inj.1 (hm.symm.trans hk) ▸ hI
      · obtain rfl := Option.some_inj.1 (hm.symm.trans hk)
        exact (ih hI hr).2 (h m hm)

/-- Guards that agree on the steps of a run, given what holds all along, agree on the run. -/
theorem along_congr {E : σ → ι → Prop} {s t : σ} {ls : List ι} (hr : run step s ls = some t)
    (hE : Along step E s ls)
    (h : ∀ s l t, E s l → step s l = some t → (C s l ↔ D s l)) :
    Along step C s ls ↔ Along step D s ls := by
  induction ls generalizing s with
  | nil => exact .rfl
  | cons l ls ih =>
    obtain ⟨m, hm, hr⟩ := (run_cons_eq_some step).1 hr
    rw [along_cons] at hE
    rw [along_cons, along_cons]
    refine and_congr (h s l m hE.1 hm) (forall_congr' fun k => imp_congr_right fun hk => ?_)
    obtain rfl := Option.some_inj.1 (hm.symm.trans hk)
    exact ih hr (hE.2 m hm)

/-- An invariant holds wherever a guarded run passes. -/
theorem along_invariant {I : σ → Prop}
    (hstep : ∀ s l t, I s → C s l → step s l = some t → I t) {s : σ} {ls : List ι}
    (hs : I s) (hC : Along step C s ls) : Along step (fun s _ => I s) s ls := by
  induction ls generalizing s with
  | nil => trivial
  | cons l ls ih =>
    rw [along_cons] at hC ⊢
    exact ⟨hs, fun t ht => ih (hstep s l t hs hC.1 ht) (hC.2 t ht)⟩

end Transition
