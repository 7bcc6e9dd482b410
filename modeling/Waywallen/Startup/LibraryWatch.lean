import Mathlib.Data.List.Basic
import Mathlib.Order.Nat
import Waywallen.Library.Transition

/-!
# Watching the libraries

Changes of watched directories are gathered for three seconds and then looked at together: a rescan
is triggered unless one was less than ten seconds before, in which case the changes are passed over.
No change is forgotten while it is gathered, although most of them do not fit in the channel.
-/

namespace Waywallen

/-- The loop that watches the libraries. Times are in milliseconds. -/
structure LibraryWatch where
  now : ℕ
  debounceDeadline : ℕ
  lastRescan : ℕ
  /-- When the next fallback poll is due. -/
  pollTick : ℕ
  /-- There is a watcher; without one the libraries are polled. -/
  watcher : Bool
  /-- Events in the channel. -/
  queued : ℕ := 0
  pending : Bool := false
  /-- The libraries are being listed, for a new watcher. -/
  listing : Bool := false
  scanInProgress : Bool := false
  stopped : Bool := false
  /-- When the changes came that wait for the debounce timer. -/
  waiting : List ℕ := []
  /-- When the other changes came, and when the timer fired for them. -/
  settled : List (ℕ × ℕ) := []
  /-- When the timer triggered a rescan. -/
  triggers : List ℕ := []
  polls : List ℕ := []
  /-- When a rescan was started. -/
  rescans : List ℕ := []

inductive WatchLabel where
  | pass (d : ℕ)
  | change
  | recv
  | fire
  | listed (watcher : Bool)
  | poll
  | scan (inProgress : Bool)
  | shutdown

namespace LibraryWatch

def channelCap : ℕ := 4

def debounce : ℕ := 3000

def cooldown : ℕ := 10000

def fallbackPoll : ℕ := 30000

/-- The loop at its start. The last rescan counts as long ago, if the clock goes that far back. -/
def start (now : ℕ) (watcher : Bool) : LibraryWatch where
  now
  debounceDeadline := now + debounce
  lastRescan := if cooldown ≤ now then now - cooldown else now
  pollTick := now + fallbackPoll
  watcher

variable (s : LibraryWatch)

def triggerRescan : LibraryWatch :=
  { s with rescans := if s.scanInProgress then s.rescans else s.rescans ++ [s.now] }

def change : LibraryWatch :=
  { s with queued := min channelCap (s.queued + 1), waiting := s.waiting ++ [s.now] }

def recv : LibraryWatch :=
  let s := { s with queued := s.queued - 1 }
  if s.pending then s
  else { s with debounceDeadline := s.now + debounce, pending := true }

/-- The timer fires: what is left in the channel belongs to the same burst. -/
def fire : LibraryWatch :=
  let s := { s with
    queued := 0
    pending := false
    waiting := []
    settled := s.settled ++ s.waiting.map (·, s.now) }
  if s.lastRescan + cooldown ≤ s.now then
    { s.triggerRescan with
      lastRescan := s.now, listing := true, triggers := s.triggers ++ [s.now] }
  else s

def poll : LibraryWatch :=
  { s.triggerRescan with
    pollTick := s.now + fallbackPoll - (s.now - s.pollTick) % fallbackPoll
    polls := s.polls ++ [s.now] }

/-- Nothing else is waited for while the libraries are listed. -/
def idle : Bool := !s.listing && !s.stopped

def step : WatchLabel → Option LibraryWatch
  | .pass d => some { s with now := s.now + d }
  | .change => if s.watcher ∧ s.stopped = false then some s.change else none
  | .recv => if s.idle ∧ 0 < s.queued then some s.recv else none
  | .fire => if s.idle ∧ s.pending ∧ s.debounceDeadline ≤ s.now then some s.fire else none
  | .listed watcher => if s.listing then some { s with listing := false, watcher } else none
  | .poll =>
      if s.idle ∧ s.watcher = false ∧ s.pollTick ≤ s.now then some s.poll else none
  | .scan inProgress => some { s with scanInProgress := inProgress }
  | .shutdown => if s.idle then some { s with stopped := true } else none

/-- The timer fired less than ten seconds after a rescan was triggered, or after the clock began. -/
def CoolingDown (t₀ : ℕ) (triggers : List ℕ) (f : ℕ) : Prop :=
  ∃ t, (t ∈ triggers ∨ t = t₀ ∧ t₀ < cooldown) ∧ t ≤ f ∧ f < t + cooldown

/-- What a run keeps. -/
structure Gathers (t₀ : ℕ) (s : LibraryWatch) : Prop where
  start_le : t₀ ≤ s.now
  /-- A change that waits is in the channel, or the timer runs. -/
  waiting : s.waiting ≠ [] ↔ 0 < s.queued ∨ s.pending = true
  past : ∀ c ∈ s.waiting, c ≤ s.now
  deadline : s.pending = true → s.debounceDeadline ≤ s.now + debounce ∧
    ∃ c ∈ s.waiting, c + debounce ≤ s.debounceDeadline
  lastRescan_le : s.lastRescan ≤ s.now
  lastRescan : s.lastRescan ∈ s.triggers ∨ s.triggers = [] ∧
    (s.lastRescan + cooldown = t₀ ∨ s.lastRescan = t₀ ∧ t₀ < cooldown)
  triggers_le : ∀ t ∈ s.triggers, t ≤ s.lastRescan
  spaced : s.triggers.Pairwise fun t t' => t + cooldown ≤ t'
  triggers : ∀ t ∈ s.triggers, ∃ c, (c, t) ∈ s.settled ∧ c + debounce ≤ t
  settled : ∀ p ∈ s.settled, p.1 ≤ p.2 ∧ (p.2 ∈ s.triggers ∨ CoolingDown t₀ s.triggers p.2)
  /-- Polls are due every thirty seconds. -/
  pollTick : t₀ + fallbackPoll ≤ s.pollTick ∧ (s.pollTick - t₀) % fallbackPoll = 0
  polls_lt : ∀ t ∈ s.polls, t < s.pollTick
  polls : s.polls.Pairwise fun t t' => (t - t₀) / fallbackPoll < (t' - t₀) / fallbackPoll

theorem gathers_start (t₀ : ℕ) (watcher : Bool) : (start t₀ watcher).Gathers t₀ where
  start_le := le_refl t₀
  waiting := by simp [start]
  past _ hc := absurd hc List.not_mem_nil
  deadline h := absurd h Bool.false_ne_true
  lastRescan_le := by
    simp only [start]
    split <;> omega
  lastRescan := by
    refine .inr ⟨rfl, ?_⟩
    simp only [start]
    split
    · exact .inl (by omega)
    · exact .inr ⟨rfl, by omega⟩
  triggers_le _ ht := absurd ht List.not_mem_nil
  spaced := .nil
  triggers _ ht := absurd ht List.not_mem_nil
  settled _ hp := absurd hp List.not_mem_nil
  pollTick := by
    simp only [start, fallbackPoll]
    omega
  polls_lt _ ht := absurd ht List.not_mem_nil
  polls := .nil

namespace Gathers

variable {s t : LibraryWatch} {t₀ : ℕ}

theorem pass (h : s.Gathers t₀) (d : ℕ) : Gathers t₀ { s with now := s.now + d } :=
  { h with
    start_le := h.start_le.trans (Nat.le_add_right _ _)
    past := fun c hc => (h.past c hc).trans (Nat.le_add_right _ _)
    deadline := fun hpending => by
      obtain ⟨hle, hc⟩ := h.deadline hpending
      exact ⟨hle.trans (Nat.add_le_add_right (Nat.le_add_right _ _) _), hc⟩
    lastRescan_le := h.lastRescan_le.trans (Nat.le_add_right _ _) }

/-- A change that does not fit in the channel is waited for with those that do. -/
theorem change (h : s.Gathers t₀) : s.change.Gathers t₀ :=
  { h with
    waiting := by
      simp only [LibraryWatch.change, channelCap, ne_eq, List.append_eq_nil_iff, List.cons_ne_self,
        and_false, not_false_eq_true, true_iff]
      omega
    past := fun c hc => by
      obtain hc | hc := List.mem_append.1 hc
      · exact h.past c hc
      · exact (List.mem_singleton.1 hc).le
    deadline := fun hpending => by
      obtain ⟨hle, c, hc, hlate⟩ := h.deadline hpending
      exact ⟨hle, c, List.mem_append_left _ hc, hlate⟩ }

theorem recv (h : s.Gathers t₀) (hqueued : 0 < s.queued) : s.recv.Gathers t₀ := by
  have hwaiting : s.waiting ≠ [] := h.waiting.2 (.inl hqueued)
  rw [LibraryWatch.recv]
  dsimp only
  split
  · rename_i hpending
    exact { h with waiting := ⟨fun _ => .inr hpending, fun _ => hwaiting⟩ }
  · obtain ⟨c, hc⟩ := List.exists_mem_of_ne_nil _ hwaiting
    exact { h with
      waiting := ⟨fun _ => .inr rfl, fun _ => hwaiting⟩
      deadline := fun _ => ⟨le_refl _, c, hc, Nat.add_le_add_right (h.past c hc) _⟩ }

/-- All changes that wait are settled when the timer fires. -/
theorem settled_fire (h : s.Gathers t₀) {triggers : List ℕ}
    (hold : ∀ t ∈ s.triggers, t ∈ triggers)
    (hfire : s.now ∈ triggers ∨ CoolingDown t₀ triggers s.now) :
    ∀ p ∈ s.settled ++ s.waiting.map (·, s.now),
      p.1 ≤ p.2 ∧ (p.2 ∈ triggers ∨ CoolingDown t₀ triggers p.2) := by
  intro p hp
  obtain hp | hp := List.mem_append.1 hp
  · obtain ⟨hle, htrigger⟩ := h.settled p hp
    refine ⟨hle, htrigger.imp (hold _) ?_⟩
    rintro ⟨t, ht, hwithin⟩
    exact ⟨t, ht.imp_left (hold t), hwithin⟩
  · obtain ⟨c, hc, rfl⟩ := List.mem_map.1 hp
    exact ⟨h.past c hc, hfire⟩

theorem nothing_waits : ([] : List ℕ) ≠ [] ↔ 0 < 0 ∨ false = true := by simp

theorem fire (h : s.Gathers t₀) (hpending : s.pending = true)
    (hdeadline : s.debounceDeadline ≤ s.now) : s.fire.Gathers t₀ := by
  rw [LibraryWatch.fire]
  dsimp only
  split
  · rename_i hcool
    obtain ⟨-, c, hc, hlate⟩ := h.deadline hpending
    have hspaced : ∀ t ∈ s.triggers, t + cooldown ≤ s.now := fun t ht =>
      (Nat.add_le_add_right (h.triggers_le t ht) _).trans hcool
    have hnew : s.now ∈ s.triggers ++ [s.now] :=
      List.mem_append_right _ (List.mem_singleton_self _)
    refine { h with
      waiting := nothing_waits
      past := fun c hc => absurd hc List.not_mem_nil
      deadline := fun hp => absurd hp Bool.false_ne_true
      lastRescan_le := le_refl s.now
      lastRescan := .inl hnew
      triggers_le := fun t ht => ?_
      spaced := List.pairwise_append.2
        ⟨h.spaced, List.pairwise_singleton _ _, fun t ht t' ht' => ?_⟩
      triggers := fun t ht => ?_
      settled := h.settled_fire (fun _ => List.mem_append_left _) (.inl hnew) }
    · obtain ht | ht := List.mem_append.1 ht
      · exact (Nat.le_add_right t cooldown).trans (hspaced t ht)
      · exact (List.mem_singleton.1 ht).le
    · rw [List.mem_singleton.1 ht']
      exact hspaced t ht
    · obtain ht | ht := List.mem_append.1 ht
      · obtain ⟨c, hc, hlate⟩ := h.triggers t ht
        exact ⟨c, List.mem_append_left _ hc, hlate⟩
      · rw [List.mem_singleton.1 ht]
        exact ⟨c, List.mem_append_right _ (List.mem_map_of_mem hc), hlate.trans hdeadline⟩
  · rename_i hcool
    refine { h with
      waiting := nothing_waits
      past := fun c hc => absurd hc List.not_mem_nil
      deadline := fun hp => absurd hp Bool.false_ne_true
      triggers := fun t ht => ?_
      settled := h.settled_fire (fun _ ht => ht) (.inr ?_) }
    · obtain ⟨c, hc, hlate⟩ := h.triggers t ht
      exact ⟨c, List.mem_append_left _ hc, hlate⟩
    · have hlt : s.now < s.lastRescan + cooldown := not_le.1 hcool
      obtain hlast | ⟨-, hlast | hlast⟩ := h.lastRescan
      · exact ⟨s.lastRescan, .inl hlast, h.lastRescan_le, hlt⟩
      · exact absurd h.start_le (not_le.2 (hlast ▸ hlt))
      · exact ⟨s.lastRescan, .inr hlast, h.lastRescan_le, hlt⟩

theorem poll (h : s.Gathers t₀) (hdue : s.pollTick ≤ s.now) : s.poll.Gathers t₀ := by
  obtain ⟨hle, hmod⟩ := h.pollTick
  have hnext : s.now < s.now + fallbackPoll - (s.now - s.pollTick) % fallbackPoll ∧
      (s.now + fallbackPoll - (s.now - s.pollTick) % fallbackPoll - t₀) % fallbackPoll = 0 := by
    simp only [fallbackPoll] at hle hmod ⊢
    omega
  refine { h with
    pollTick := ⟨(hle.trans hdue).trans hnext.1.le, hnext.2⟩
    polls_lt := fun t ht => ?_
    polls := List.pairwise_append.2 ⟨h.polls, List.pairwise_singleton _ _, fun t ht t' ht' => ?_⟩ }
  · obtain ht | ht := List.mem_append.1 ht
    · exact ((h.polls_lt t ht).trans_le hdue).trans hnext.1
    · rw [List.mem_singleton.1 ht]
      exact hnext.1
  · rw [List.mem_singleton.1 ht']
    have hlt := h.polls_lt t ht
    simp only [fallbackPoll] at hle hmod ⊢
    omega

theorem step {l : WatchLabel} (h : s.Gathers t₀) (hstep : s.step l = some t) : t.Gathers t₀ := by
  cases l with
  | pass d =>
    cases hstep
    exact h.pass d
  | change =>
    obtain ⟨-, hstep⟩ := Option.ite_none_right_eq_some.1 hstep
    cases hstep
    exact h.change
  | recv =>
    obtain ⟨⟨-, hqueued⟩, hstep⟩ := Option.ite_none_right_eq_some.1 hstep
    cases hstep
    exact h.recv hqueued
  | fire =>
    obtain ⟨⟨-, hpending, hdeadline⟩, hstep⟩ := Option.ite_none_right_eq_some.1 hstep
    cases hstep
    exact h.fire hpending hdeadline
  | listed watcher =>
    obtain ⟨-, hstep⟩ := Option.ite_none_right_eq_some.1 hstep
    cases hstep
    exact { h with }
  | poll =>
    obtain ⟨⟨-, -, hdue⟩, hstep⟩ := Option.ite_none_right_eq_some.1 hstep
    cases hstep
    exact h.poll hdue
  | scan inProgress =>
    cases hstep
    exact { h with }
  | shutdown =>
    obtain ⟨-, hstep⟩ := Option.ite_none_right_eq_some.1 hstep
    cases hstep
    exact { h with }

end Gathers

/-! ## Changes are settled -/

/-- The changes that wait can be settled within three seconds. -/
def Settles (s : LibraryWatch) : Prop :=
  ∃ ls t, Transition.run step s ls = some t ∧ t.waiting = [] ∧ t.now ≤ s.now + debounce

variable {s t : LibraryWatch} {t₀ : ℕ}

theorem waiting_fire (s : LibraryWatch) : s.fire.waiting = [] := by
  rw [fire]
  split <;> rfl

theorem now_fire (s : LibraryWatch) : s.fire.now = s.now := by
  rw [fire]
  split <;> rfl

theorem Settles.of_step {l : WatchLabel} (hstep : s.step l = some t) (hnow : t.now = s.now)
    (h : t.Settles) : s.Settles := by
  obtain ⟨ls, u, hrun, hwaiting, hle⟩ := h
  exact ⟨l :: ls, u, (Transition.run_cons_eq_some _).2 ⟨t, hstep, hrun⟩, hwaiting, hnow ▸ hle⟩

theorem settles_pending (h : s.Gathers t₀) (hidle : s.idle = true) (hpending : s.pending = true) :
    s.Settles := by
  let late : LibraryWatch := { s with now := s.now + debounce }
  have hfire : late.step .fire = some late.fire := if_pos ⟨hidle, hpending, (h.deadline hpending).1⟩
  refine ⟨[.pass debounce, .fire], late.fire, ?_, waiting_fire late, (now_fire late).le⟩
  exact (Transition.run_cons_eq_some _).2 ⟨late, rfl, (Transition.run_singleton _ _ _).trans hfire⟩

theorem settles_idle (h : s.Gathers t₀) (hidle : s.idle = true) : s.Settles := by
  by_cases hpending : s.pending = true
  · exact settles_pending h hidle hpending
  · by_cases hqueued : 0 < s.queued
    · have hrecv : s.step .recv = some s.recv := if_pos ⟨hidle, hqueued⟩
      have hnew : s.recv = { s with
          queued := s.queued - 1, debounceDeadline := s.now + debounce, pending := true } := by
        rw [recv]
        exact if_neg hpending
      refine .of_step hrecv (by rw [hnew]) (settles_pending (h.recv hqueued) ?_ (by rw [hnew]))
      rw [hnew]
      exact hidle
    · have hwaiting : s.waiting = [] := by
        by_contra hne
        exact (h.waiting.1 hne).elim hqueued hpending
      exact ⟨[], s, rfl, hwaiting, Nat.le_add_right _ _⟩

theorem Gathers.settles (h : s.Gathers t₀) (hrunning : s.stopped = false) : s.Settles := by
  by_cases hlisting : s.listing = true
  · have hlisted : s.step (.listed s.watcher) = some { s with listing := false } := if_pos hlisting
    refine .of_step hlisted rfl (settles_idle { h with } ?_)
    simp [idle, hrunning]
  · exact settles_idle h (by simp [idle, hrunning, hlisting])

/-- A file that is written while its directory is looked at: seven changes, of which the last comes
during the cooldown and is passed over. -/
def manyFiles : List WatchLabel :=
  [.change, .change, .recv, .change, .change, .change, .change, .pass 3000, .fire, .listed true,
    .pass 2000, .change, .recv, .pass 3000, .fire]

end LibraryWatch

end Waywallen
