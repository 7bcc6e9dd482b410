import Mathlib.Data.List.Basic

/-!
# Bounded broadcast channels

Every receiver gets every message sent since it subscribed, in order, except that the channel holds
on to the latest messages only: a receiver that has fallen behind is told that it lags, and goes on
with the oldest message still held. What the messages tell of is missed no more than that, so that
a receiver which looks at the source itself whenever it lags misses nothing.
-/

universe u v

/-- A channel with all the messages sent so far, of which it holds the last `capacity`. -/
structure Broadcast (α : Type u) where
  capacity : ℕ
  sent : List α := []
deriving DecidableEq

namespace Broadcast

/-- What a receiver is given. -/
inductive Received (α : Type u) where
  | message (a : α)
  | lagged (missed : ℕ)
deriving DecidableEq

variable {α : Type u} {κ : Type v} (c : Broadcast α)

def send (a : α) : Broadcast α := { c with sent := c.sent ++ [a] }

/-- Where a receiver starts that subscribes now. A receiver is the number of messages that are
behind it. -/
def subscribe : ℕ := c.sent.length

/-- How many messages are no longer held. -/
def oldest : ℕ := c.sent.length - c.capacity

/-- What the receiver gets next and where it is afterwards, `none` if it has to wait. -/
def recv (next : ℕ) : Option (Received α × ℕ) :=
  if next < c.oldest then some (.lagged (c.oldest - next), c.oldest)
  else c.sent[next]?.map fun a => (.message a, next + 1)

@[simp] theorem sent_send (a : α) : (c.send a).sent = c.sent ++ [a] := rfl

@[simp] theorem capacity_send (a : α) : (c.send a).capacity = c.capacity := rfl

theorem oldest_le : c.oldest ≤ c.sent.length := Nat.sub_le ..

variable {c} {next n : ℕ} {a : α}

theorem recv_eq_message (h : c.recv next = some (.message a, n)) :
    c.sent[next]? = some a ∧ n = next + 1 := by
  rw [recv] at h
  split at h
  · cases h
  · obtain ⟨b, hb, h⟩ := Option.map_eq_some_iff.1 h
    cases h
    exact ⟨hb, rfl⟩

theorem recv_eq_lagged {missed : ℕ} (h : c.recv next = some (.lagged missed, n)) :
    next < c.oldest ∧ n = c.oldest ∧ next + missed = n := by
  rw [recv] at h
  split at h
  · rename_i hlt
    cases h
    exact ⟨hlt, rfl, Nat.add_sub_cancel' (Nat.le_of_lt hlt)⟩
  · obtain ⟨b, hb, h⟩ := Option.map_eq_some_iff.1 h
    cases h

theorem recv_eq_none : c.recv next = none ↔ c.sent.length ≤ next := by
  have hle := c.oldest_le
  rw [recv]
  split
  · simp only [reduceCtorEq, false_iff]
    omega
  · rw [Option.map_eq_none_iff, List.getElem?_eq_none_iff]

/-- A receiver never gets ahead of the channel. -/
theorem le_of_recv {r : Received α} (h : c.recv next = some (r, n)) :
    next ≤ n ∧ n ≤ c.sent.length := by
  cases r with
  | message a =>
    obtain ⟨ha, rfl⟩ := recv_eq_message h
    exact ⟨Nat.le_succ _, (List.getElem?_eq_some_iff.1 ha).1⟩
  | lagged missed =>
    obtain ⟨hlt, rfl, -⟩ := recv_eq_lagged h
    exact ⟨Nat.le_of_lt hlt, c.oldest_le⟩

/-! ## What the messages tell of -/

/-- A message that the receiver has still to get tells of `k`. -/
def Awaits (c : Broadcast α) (tells : α → κ → Prop) (next : ℕ) (k : κ) : Prop :=
  ∃ a ∈ c.sent.drop next, tells a k

variable {tells : α → κ → Prop} {k : κ}

theorem Awaits.send (h : c.Awaits tells next k) (b : α) : (c.send b).Awaits tells next k := by
  obtain ⟨a, ha, htells⟩ := h
  refine ⟨a, ?_, htells⟩
  rw [sent_send, List.drop_append]
  exact List.mem_append_left _ ha

/-- A message tells of `k` from when it is sent until it is received. -/
theorem awaits_send (hn : next ≤ c.sent.length) (h : tells a k) :
    (c.send a).Awaits tells next k := by
  refine ⟨a, ?_, h⟩
  rw [sent_send, List.drop_append_of_le_length hn]
  exact List.mem_append_right _ (List.mem_singleton_self a)

theorem Awaits.recv_message (h : c.Awaits tells next k) (hr : c.recv next = some (.message a, n)) :
    tells a k ∨ c.Awaits tells n k := by
  obtain ⟨ha, rfl⟩ := recv_eq_message hr
  obtain ⟨hlt, rfl⟩ := List.getElem?_eq_some_iff.1 ha
  obtain ⟨b, hb, htells⟩ := h
  rw [List.drop_eq_getElem_cons hlt, List.mem_cons] at hb
  obtain rfl | hb := hb
  · exact .inl htells
  · exact .inr ⟨b, hb, htells⟩

/-- A receiver that waits has been told of all there is. -/
theorem not_awaits (h : c.recv next = none) : ¬ c.Awaits tells next k := by
  rintro ⟨a, ha, -⟩
  rw [List.drop_eq_nil_of_le (recv_eq_none.1 h)] at ha
  cases ha

end Broadcast
