import Mathlib.Data.List.Perm.Basic
import Waywallen.Library.History
import Waywallen.Library.Transition

/-!
# The rotation handle

Clones of the handle share a channel and a counter. Both operations read the configuration and then
send a changed copy of it, so that each can undo what the other has sent in between.
-/

namespace Waywallen

open History Transition

structure RotationConfig where
  intervalSecs : UInt32
  kick : UInt64
  deriving DecidableEq

inductive RotationCall
  | setInterval (intervalSecs : UInt32)
  | kick
  deriving DecidableEq

/-- How far a call has come. -/
inductive RotationPhase
  | invoked
  /-- `set_interval` has read a configuration with another interval. -/
  | borrowed (cur : RotationConfig)
  /-- `kick` has taken its number. -/
  | counted (next : UInt64)
  /-- `kick` has read the configuration. -/
  | ready (next : UInt64) (cur : RotationConfig)
  | returned (time : ℕ)
  deriving DecidableEq

structure RunningCall where
  call : RotationCall
  invoked : ℕ
  phase : RotationPhase
  deriving DecidableEq

structure RotationState where
  channel : RotationConfig
  kickCounter : UInt64
  /-- Every call that has been made on a clone of the handle. -/
  calls : List RunningCall
  clock : ℕ
  deriving DecidableEq

/-- `make_handle`. -/
def RotationState.init : RotationState :=
  ⟨⟨0, 0⟩, 0, [], 0⟩

inductive RotationEvent
  | invoke (call : RotationCall)
  /-- The `i`-th call takes its next access to the channel or the counter. -/
  | advance (i : ℕ)
  deriving DecidableEq

namespace RotationState

/-- One access of a call: its phase, the channel and the counter afterwards. -/
def access (s : RotationState) (r : RunningCall) :
    Option (RotationPhase × RotationConfig × UInt64) :=
  match r.call, r.phase with
  | .setInterval secs, .invoked =>
    if s.channel.intervalSecs = secs then some (.returned s.clock, s.channel, s.kickCounter)
    else some (.borrowed s.channel, s.channel, s.kickCounter)
  | .setInterval secs, .borrowed cur => some (.returned s.clock, ⟨secs, cur.kick⟩, s.kickCounter)
  | .kick, .invoked => some (.counted (s.kickCounter + 1), s.channel, s.kickCounter + 1)
  | .kick, .counted next => some (.ready next s.channel, s.channel, s.kickCounter)
  | .kick, .ready next cur => some (.returned s.clock, ⟨cur.intervalSecs, next⟩, s.kickCounter)
  | _, _ => none

def step (s : RotationState) : RotationEvent → Option RotationState
  | .invoke call => some { s with
      calls := s.calls ++ [⟨call, s.clock, .invoked⟩]
      clock := s.clock + 1 }
  | .advance i => (s.calls[i]?).bind fun r => (s.access r).map fun (phase, channel, kickCounter) =>
      { channel, kickCounter, calls := s.calls.set i { r with phase }, clock := s.clock + 1 }

end RotationState

/-! ## What the handle is for -/

def RotationPhase.time : RotationPhase → Option ℕ
  | returned time => some time
  | _ => none

def RunningCall.span (r : RunningCall) : Span RotationCall :=
  ⟨r.call, r.invoked, r.phase.time⟩

def RotationCall.interval : RotationCall → Option UInt32
  | setInterval secs => some secs
  | kick => none

namespace RotationState

/-- The calls of `set_interval`. -/
def sets (s : RotationState) : List (Span RotationCall) :=
  (s.calls.filter fun r => r.call.interval.isSome).map RunningCall.span

/-- The interval is the one that was set last, in an order of the calls that real time allows. -/
def LastSet (s : RotationState) : Prop :=
  ∃ order, order.Perm s.sets ∧ Consistent order ∧
    s.channel.intervalSecs = (order.getLast?.bind fun a => a.op.interval).getD 0

def AllReturned (s : RotationState) : Prop :=
  ∀ r ∈ s.calls, r.phase.time.isSome

instance (s : RotationState) : Decidable s.AllReturned :=
  inferInstanceAs (Decidable (∀ r ∈ s.calls, _))

/-- The step does not take the number of kicks back. -/
def KickKept (s : RotationState) (e : RotationEvent) : Prop :=
  ∀ t, s.step e = some t → s.channel.kick ≤ t.channel.kick

/-- The outcome of a run from `make_handle`. -/
structure RunCorrect (events : List RotationEvent) (s : RotationState) : Prop where
  kick : Along step KickKept init events
  interval : s.AllReturned → s.LastSet

end RotationState

/-- What the call is about to send has nothing in it that was overwritten since it was read:
`set_interval` finds the kick that it has read, and `kick` the interval and no higher number. -/
def RunningCall.undisturbed (r : RunningCall) (channel : RotationConfig) : Bool :=
  match r.call, r.phase with
  | .setInterval _, .borrowed cur => channel.kick == cur.kick
  | .kick, .ready next cur => channel.intervalSecs == cur.intervalSecs && decide (channel.kick ≤ next)
  | _, _ => true

/-- Nothing comes between the read and the send of a call. -/
def RotationState.Undisturbed (s : RotationState) : RotationEvent → Prop
  | .invoke _ => True
  | .advance i => ∀ r ∈ s.calls[i]?, r.undisturbed s.channel = true

instance (s : RotationState) : (e : RotationEvent) → Decidable (s.Undisturbed e)
  | .invoke _ => inferInstanceAs (Decidable True)
  | .advance i => inferInstanceAs (Decidable (∀ r ∈ s.calls[i]?, r.undisturbed s.channel = true))

/-! ## Runs in which nothing is overwritten -/

section

variable {s t : RotationState} {r r' : RunningCall} {phase : RotationPhase}
  {channel : RotationConfig} {kickCounter : UInt64} {e : RotationEvent} {i : ℕ}

/-- What an access does to the channel: the number of kicks does not go back, and the interval is
the one of a `set_interval` that returns. -/
theorem access_of_undisturbed (h : s.access r = some (phase, channel, kickCounter))
    (hr : r.undisturbed s.channel = true) :
    r.phase.time = none ∧ s.channel.kick ≤ channel.kick ∧
      ((phase.time = none ∧ channel.intervalSecs = s.channel.intervalSecs) ∨
        phase.time = some s.clock ∧
          channel.intervalSecs = r.call.interval.getD s.channel.intervalSecs) := by
  obtain ⟨call, invoked, p⟩ := r
  cases call with
  | setInterval secs =>
    cases p with
    | invoked =>
      simp only [RotationState.access] at h
      split at h
      · rename_i hsame
        cases h
        exact ⟨rfl, UInt64.le_refl _, .inr ⟨rfl, hsame⟩⟩
      · cases h
        exact ⟨rfl, UInt64.le_refl _, .inl ⟨rfl, rfl⟩⟩
    | borrowed cur =>
      cases h
      have hkick : s.channel.kick = cur.kick := by simpa [RunningCall.undisturbed] using hr
      exact ⟨rfl, hkick ▸ UInt64.le_refl _, .inr ⟨rfl, rfl⟩⟩
    | _ => cases h
  | kick =>
    cases p with
    | invoked =>
      cases h
      exact ⟨rfl, UInt64.le_refl _, .inl ⟨rfl, rfl⟩⟩
    | counted next =>
      cases h
      exact ⟨rfl, UInt64.le_refl _, .inl ⟨rfl, rfl⟩⟩
    | ready next cur =>
      cases h
      have hboth : s.channel.intervalSecs = cur.intervalSecs ∧ s.channel.kick ≤ next := by
        simpa [RunningCall.undisturbed] using hr
      exact ⟨rfl, hboth.2, .inr ⟨rfl, hboth.1.symm⟩⟩
    | _ => cases h

theorem step_advance_cases (h : s.step (.advance i) = some t) :
    ∃ r phase channel kickCounter, s.calls[i]? = some r ∧
      s.access r = some (phase, channel, kickCounter) ∧
      t = ⟨channel, kickCounter, s.calls.set i { r with phase }, s.clock + 1⟩ := by
  obtain ⟨r, hr, h⟩ := Option.bind_eq_some_iff.1 h
  obtain ⟨⟨phase, channel, kickCounter⟩, haccess, rfl⟩ := Option.map_eq_some_iff.1 h
  exact ⟨r, phase, channel, kickCounter, hr, haccess, rfl⟩

theorem kickKept_of_undisturbed (h : s.Undisturbed e) : s.KickKept e := by
  intro t ht
  cases e with
  | invoke call =>
    cases ht
    exact UInt64.le_refl _
  | advance i =>
    obtain ⟨r, phase, channel, kickCounter, hr, haccess, rfl⟩ := step_advance_cases ht
    exact (access_of_undisturbed haccess (h r hr)).2.1

/-- A call of `set_interval` that has returned. -/
def RunningCall.isSet (r : RunningCall) : Bool :=
  r.call.interval.isSome && r.phase.time.isSome

def RotationState.returnedSets (s : RotationState) : List (Span RotationCall) :=
  (s.calls.filter RunningCall.isSet).map RunningCall.span

/-- The calls of `set_interval` took effect in the order in which they returned. -/
structure RotationState.Linear (s : RotationState) : Prop where
  invoked : ∀ r ∈ s.calls, r.invoked < s.clock
  order : ∃ order, order.Perm s.returnedSets ∧ Consistent order ∧
    s.channel.intervalSecs = (order.getLast?.bind fun a => a.op.interval).getD 0

theorem linear_init : RotationState.init.Linear :=
  ⟨fun _ h => (List.not_mem_nil h).elim, [], .nil, consistent_nil, rfl⟩

/-- A call that goes on is a returned one at most afterwards. -/
theorem returnedSets_set (hr : s.calls[i]? = some r) (htime : r.phase.time = none) :
    (((s.calls.set i r').filter RunningCall.isSet).map RunningCall.span).Perm
      ((if r'.isSet then [r'.span] else []) ++ s.returnedSets) := by
  obtain ⟨hi, hget⟩ := List.getElem?_eq_some_iff.1 hr
  have hold : r.isSet = false := by
    rw [RunningCall.isSet, htime]
    exact Bool.and_false _
  have hrest : ((s.calls.eraseIdx i).filter RunningCall.isSet).Perm
      (s.calls.filter RunningCall.isSet) := by
    have hperm := (List.getElem_cons_eraseIdx_perm hi).filter RunningCall.isSet
    rwa [hget, List.filter_cons_of_neg (by rw [hold]; exact Bool.false_ne_true)] at hperm
  have hset := (List.set_perm_cons_eraseIdx hi r').filter RunningCall.isSet
  refine (hset.map _).trans ?_
  by_cases hnew : r'.isSet = true
  · rw [List.filter_cons_of_pos hnew, if_pos hnew]
    exact (hrest.map _).cons _
  · rw [List.filter_cons_of_neg hnew, if_neg hnew]
    exact hrest.map _

theorem invoked_of_mem_returnedSets {a : Span RotationCall} (ha : a ∈ s.returnedSets) :
    ∃ r ∈ s.calls, a.invoked = r.invoked := by
  obtain ⟨r, hr, rfl⟩ := List.mem_map.1 ha
  exact ⟨r, List.mem_of_mem_filter hr, rfl⟩

theorem linear_step (h : s.Linear) (hguard : s.Undisturbed e) (ht : s.step e = some t) :
    t.Linear := by
  obtain ⟨order, hperm, hconsistent, hinterval⟩ := h.order
  cases e with
  | invoke call =>
    cases ht
    refine ⟨fun r hr => ?_, order, ?_, hconsistent, hinterval⟩
    · rcases List.mem_append.1 hr with hr | hr
      · exact Nat.lt_succ_of_lt (h.invoked r hr)
      · rw [List.mem_singleton.1 hr]
        exact Nat.lt_succ_self _
    · have hnew : RunningCall.isSet ⟨call, s.clock, .invoked⟩ = false := Bool.and_false _
      simpa [RotationState.returnedSets, List.filter_append, hnew] using hperm
  | advance i =>
    obtain ⟨r, phase, channel, kickCounter, hr, haccess, rfl⟩ := step_advance_cases ht
    obtain ⟨htime, -, heffect⟩ := access_of_undisturbed haccess (hguard r hr)
    have hinvoked : ∀ r' ∈ s.calls.set i { r with phase }, r'.invoked < s.clock + 1 := by
      intro r' hr'
      rcases List.mem_or_eq_of_mem_set hr' with hmem | rfl
      · exact Nat.lt_succ_of_lt (h.invoked r' hmem)
      · exact Nat.lt_succ_of_lt (h.invoked r (List.mem_of_getElem? hr))
    have hsets : (((s.calls.set i { r with phase }).filter RunningCall.isSet).map
        RunningCall.span).Perm (_ ++ s.returnedSets) := returnedSets_set hr htime
    by_cases hnew : RunningCall.isSet { r with phase } = true
    · rw [if_pos hnew] at hsets
      obtain ⟨hcall, hreturned⟩ := Bool.and_eq_true_iff.1 hnew
      obtain ⟨secs, hsecs⟩ := Option.isSome_iff_exists.1 hcall
      rcases heffect with ⟨hnone, -⟩ | ⟨hnow, hvalue⟩
      · rw [hnone] at hreturned
        cases hreturned
      · refine ⟨hinvoked, order ++ [RunningCall.span { r with phase }], ?_, ?_, ?_⟩
        · exact (List.perm_append_comm.trans (hperm.append_left _)).trans hsets.symm
        · refine hconsistent.concat hnow fun a ha => ?_
          obtain ⟨r', hr', heq⟩ := invoked_of_mem_returnedSets (hperm.subset ha)
          exact heq ▸ Nat.le_of_lt (h.invoked r' hr')
        · have hsecs : r.call.interval = some secs := hsecs
          rw [hvalue, hsecs, List.getLast?_concat]
          show secs = (r.call.interval).getD 0
          rw [hsecs]
          rfl
    · rw [if_neg hnew, List.nil_append] at hsets
      refine ⟨hinvoked, order, hperm.trans hsets.symm, hconsistent, ?_⟩
      rcases heffect with ⟨-, hsame⟩ | ⟨hnow, hvalue⟩
      · exact hsame.trans hinterval
      · have hkick : r.call.interval = none := by
          cases hcall : r.call.interval with
          | none => rfl
          | some secs =>
            refine absurd ?_ hnew
            rw [RunningCall.isSet, hcall, hnow]
            rfl
        rw [hkick] at hvalue
        exact hvalue.trans hinterval

theorem lastSet_of_linear (h : s.Linear) (hreturned : s.AllReturned) : s.LastSet := by
  obtain ⟨order, hperm, hconsistent, hinterval⟩ := h.order
  have hsets : s.returnedSets = s.sets := by
    refine congrArg _ (List.filter_congr fun r hr => ?_)
    rw [RunningCall.isSet, hreturned r hr, Bool.and_true]
  exact ⟨order, hsets ▸ hperm, hconsistent, hinterval⟩

end

namespace RotationState

theorem runCorrect_of_undisturbed (events : List RotationEvent) (s : RotationState)
    (hrun : run step init events = some s) (h : Along step Undisturbed init events) :
    RunCorrect events s where
  kick := h.mono fun _ _ => kickKept_of_undisturbed
  interval := lastSet_of_linear
    (invariant_of_run (fun _ _ _ hs hguard ht => linear_step hs hguard ht) linear_init h hrun)

/-- An interval is set while a kick has its number and has not read the configuration yet. -/
def overlapping : List RotationEvent :=
  [.invoke .kick, .advance 0, .invoke (.setInterval 60), .advance 1, .advance 1, .advance 0,
    .advance 0]

theorem runCorrect_overlapping :
    RunCorrect overlapping (reached step init overlapping (by decide +kernel)) :=
  runCorrect_of_undisturbed overlapping _ (run_reached step _) (by decide)

/-- A kick that has read the old interval restores it after a new one has been set. -/
def restoring : List RotationEvent :=
  [.invoke .kick, .advance 0, .advance 0, .invoke (.setInterval 60), .advance 1, .advance 1,
    .advance 0]

theorem not_runCorrect :
    ¬ ∀ events s, run step init events = some s → RunCorrect events s := by
  intro h
  obtain ⟨order, hperm, -, hinterval⟩ :=
    (h restoring (reached step init restoring (by decide)) (run_reached step _)).interval
      (by decide)
  have hsets : (reached step init restoring (by decide)).sets =
      [⟨.setInterval 60, 3, some 5⟩] := by decide
  rw [hsets, List.perm_singleton] at hperm
  subst hperm
  exact absurd hinterval (by decide)

end RotationState

end Waywallen
