import Mathlib.Data.List.Basic
import Mathlib.Order.Lattice

/-!
# Byte streams that carry descriptors

A stream of bytes between two ends. What is sent in one call with descriptors attaches them to its
first byte. A reader that wants a number of bytes reads until it has them; how many it gets at a
time is the kernel's choice and does not matter.
-/

universe u

/-- One byte of a stream, with the descriptors that come with it. -/
structure Cell (F : Type u) where
  byte : UInt8
  fds : List F

namespace ByteStream

variable {F : Type u}

def plain (bytes : List UInt8) : List (Cell F) := bytes.map fun b => ⟨b, []⟩

/-- The descriptors come with the first byte. -/
def message : List UInt8 → List F → List (Cell F)
  | [], _ => []
  | b :: bytes, fds => ⟨b, fds⟩ :: plain bytes

@[simp]
theorem length_plain (bytes : List UInt8) : (plain bytes : List (Cell F)).length = bytes.length :=
  List.length_map _

@[simp]
theorem length_message (bytes : List UInt8) (fds : List F) :
    (message bytes fds).length = bytes.length := by
  cases bytes <;> simp [message]

@[simp]
theorem bytes_plain (bytes : List UInt8) : (plain bytes : List (Cell F)).map Cell.byte = bytes := by
  simp [plain, Function.comp_def]

@[simp]
theorem bytes_message (bytes : List UInt8) (fds : List F) :
    (message bytes fds).map Cell.byte = bytes := by
  cases bytes <;> simp [message]

/-- A message that goes out in two calls, of which the second carries no descriptors. -/
theorem take_message_append {bytes : List UInt8} {fds : List F} {n m : ℕ} (hn : 0 < n) :
    (message bytes fds).take n ++ (plain (bytes.drop n)).take m =
      (message bytes fds).take (n + m) := by
  obtain ⟨n, rfl⟩ := Nat.exists_eq_succ_of_ne_zero (Nat.ne_of_gt hn)
  cases bytes with
  | nil => simp [message, plain]
  | cons b bytes =>
    rw [Nat.succ_add]
    simp [message, plain, List.map_drop, List.take_add]

/-- How much of `avail` bytes one call takes that can take some: at least one. -/
def took (choice avail : ℕ) : ℕ := max 1 (min choice avail)

theorem took_pos (choice avail : ℕ) : 0 < took choice avail := by
  unfold took
  omega

theorem took_le (choice : ℕ) {avail : ℕ} (h : 0 < avail) : took choice avail ≤ avail := by
  unfold took
  omega

/-- Read until `want` bytes are there; `chunks` are the kernel's choices, from the `i`-th on, and
the index of the next one is returned. `none` while the reader waits for more. -/
def fill (chunks : ℕ → ℕ) (i want : ℕ) (stream : List (Cell F)) :
    Option (List (Cell F) × ℕ × List (Cell F)) :=
  if want = 0 then some ([], i, stream)
  else if stream = [] then none
  else
    let n := took (chunks i) (min want stream.length)
    (fill chunks (i + 1) (want - n) (stream.drop n)).map fun r => (stream.take n ++ r.1, r.2)
termination_by want
decreasing_by
  have hn := took_pos (chunks i) (min want stream.length)
  omega

/-- The reader gets exactly the bytes that it wants, whatever the kernel chooses. -/
theorem fill_eq (chunks : ℕ → ℕ) (i want : ℕ) (stream : List (Cell F))
    (h : want ≤ stream.length) :
    ∃ j, fill chunks i want stream = some (stream.take want, j, stream.drop want) := by
  induction i, want, stream using fill.induct chunks with
  | case1 i stream => exact ⟨i, by simp [fill]⟩
  | case2 i want hwant => exact absurd (Nat.le_zero.1 h) hwant
  | case3 i want stream hwant hstream n ih =>
    have hlength : 0 < stream.length := List.length_pos_iff.2 hstream
    have hn : n ≤ min want stream.length := took_le _ (by omega)
    obtain ⟨j, hj⟩ := ih (by rw [List.length_drop]; omega)
    refine ⟨j, ?_⟩
    rw [fill, if_neg hwant, if_neg hstream]
    change (fill chunks (i + 1) (want - n) (stream.drop n)).map _ = _
    rw [hj, Option.map_some, ← List.take_add, List.drop_drop,
      Nat.add_sub_cancel' (by omega : n ≤ want)]

/-- Until then it waits. -/
theorem fill_eq_none (chunks : ℕ → ℕ) (i : ℕ) {want : ℕ} {stream : List (Cell F)}
    (h : stream.length < want) : fill chunks i want stream = none := by
  induction i, want, stream using fill.induct chunks with
  | case1 i stream => exact absurd h (Nat.not_lt_zero _)
  | case2 i want hwant => simp [fill, hwant]
  | case3 i want stream hwant hstream n ih =>
    have hlength : 0 < stream.length := List.length_pos_iff.2 hstream
    have hn : n ≤ min want stream.length := took_le _ (by omega)
    rw [fill, if_neg hwant, if_neg hstream]
    change (fill chunks (i + 1) (want - n) (stream.drop n)).map _ = _
    rw [Option.map_eq_none_iff]
    refine ih ?_
    rw [List.length_drop]
    omega

end ByteStream
