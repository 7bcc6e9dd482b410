import Mathlib.Data.List.Perm.Basic

/-!
# The state of the queue

In shuffle mode the queue walks a cached permutation of item ids, the round. It is drawn by a
Fisher–Yates shuffle from a xorshift generator.
-/

namespace Waywallen

inductive Mode
  | sequential
  | shuffle
  | random
  deriving DecidableEq

instance : Inhabited Mode := ⟨.sequential⟩

namespace Mode

def asStr : Mode → String
  | sequential => "sequential"
  | shuffle => "shuffle"
  | random => "random"

def fromStr : String → Option Mode
  | "sequential" => some sequential
  | "shuffle" => some shuffle
  | "random" => some random
  | _ => none

theorem fromStr_asStr (m : Mode) : fromStr m.asStr = some m := by
  cases m <;> rfl

end Mode

structure QueueState where
  mode : Mode
  /-- The entry applied last. -/
  current : Option String
  /-- The item applied last. -/
  lastDbId : Option ℕ
  /-- Item ids that matched the filter; empty means that there is no round. -/
  shuffleRound : Array ℕ
  shufflePos : ℕ
  shuffleSeed : UInt64
  /-- The state of the generator; 0 before its first use. -/
  rng : UInt64

instance : Inhabited QueueState := ⟨⟨default, none, none, #[], 0, 0, 0⟩⟩

namespace QueueState

variable (q : QueueState)

def setMode (mode : Mode) : QueueState :=
  if mode = q.mode then q
  else { q with
    mode := mode
    shuffleRound := #[]
    shufflePos := 0 }

def resetShuffleRound : QueueState :=
  { q with
    shuffleRound := #[]
    shufflePos := 0 }

section

-- the system time at the first use of the generator, in nanoseconds
variable (nanos : UInt64)

def rngNext : UInt64 × QueueState :=
  let seed := if q.shuffleSeed ≠ 0 then q.shuffleSeed else nanos
  let x := if q.rng = 0 then (if seed = 0 then 0xdeadbeefcafebabe else seed) else q.rng
  let x := x ^^^ (x <<< 13)
  let x := x ^^^ (x >>> 7)
  let x := x ^^^ (x <<< 17)
  (x, { q with rng := x })

def rngRange (n : UInt32) : UInt32 × QueueState :=
  if n = 0 then (0, q)
  else
    let (x, q) := q.rngNext nanos
    ((x % n.toUInt64).toUInt32, q)

def swap (i j : ℕ) : QueueState :=
  { q with shuffleRound := q.shuffleRound.swapIfInBounds i j }

/-- The steps of the shuffle for the positions from `i` down to 1. -/
def shuffleFrom (q : QueueState) : ℕ → QueueState
  | 0 => q
  | i + 1 =>
      let (j, q) := q.rngRange nanos (UInt32.ofNat (i + 2))
      (q.swap (i + 1) j.toNat).shuffleFrom i

/-- Draw a new round from the candidates, with `avoid` not at `targetPos` if that is possible. -/
def buildShuffleRound (candidates : Array ℕ) (avoid : Option ℕ) (targetPos : ℕ) : QueueState :=
  let n := candidates.size
  let q := shuffleFrom nanos { q with shuffleRound := candidates } (n - 1)
  if 1 < n ∧ avoid.isSome ∧ q.shuffleRound[targetPos]? = avoid then
    let (raw, q) := q.rngRange nanos (UInt32.ofNat (n - 1))
    q.swap targetPos (if targetPos ≤ raw.toNat then raw.toNat + 1 else raw.toNat)
  else q

end

/-! ## What a shuffle keeps -/

section

variable {q} {q' : QueueState} {nanos : UInt64}

/-- The two states differ in the round and the generator alone, and the rounds in their order. -/
structure Shuffled (q q' : QueueState) : Prop where
  mode : q'.mode = q.mode
  current : q'.current = q.current
  lastDbId : q'.lastDbId = q.lastDbId
  shufflePos : q'.shufflePos = q.shufflePos
  shuffleRound : q'.shuffleRound.Perm q.shuffleRound

theorem Shuffled.refl (q : QueueState) : Shuffled q q := ⟨rfl, rfl, rfl, rfl, .rfl⟩

theorem Shuffled.trans {q₁ q₂ q₃ : QueueState} (h : Shuffled q₁ q₂) (h' : Shuffled q₂ q₃) :
    Shuffled q₁ q₃ where
  mode := h'.mode.trans h.mode
  current := h'.current.trans h.current
  lastDbId := h'.lastDbId.trans h.lastDbId
  shufflePos := h'.shufflePos.trans h.shufflePos
  shuffleRound := h'.shuffleRound.trans h.shuffleRound

theorem shuffled_swap (i j : ℕ) : Shuffled q (q.swap i j) := by
  refine ⟨rfl, rfl, rfl, rfl, ?_⟩
  show (q.shuffleRound.swapIfInBounds i j).Perm q.shuffleRound
  unfold Array.swapIfInBounds
  split
  · split
    · exact Array.swap_perm ..
    · exact .rfl
  · exact .rfl

theorem shuffled_rngRange (n : UInt32) : Shuffled q (q.rngRange nanos n).2 := by
  unfold rngRange
  split
  · exact .refl q
  · exact ⟨rfl, rfl, rfl, rfl, .rfl⟩

theorem shuffled_shuffleFrom (i : ℕ) : Shuffled q (shuffleFrom nanos q i) := by
  induction i generalizing q with
  | zero => exact .refl q
  | succ i ih => exact ((shuffled_rngRange _).trans (shuffled_swap _ _)).trans ih

theorem shuffled_buildShuffleRound (candidates : Array ℕ) (avoid : Option ℕ) (targetPos : ℕ) :
    Shuffled { q with shuffleRound := candidates }
      (q.buildShuffleRound nanos candidates avoid targetPos) := by
  unfold buildShuffleRound
  dsimp only
  split
  · exact ((shuffled_shuffleFrom _).trans (shuffled_rngRange _)).trans (shuffled_swap _ _)
  · exact shuffled_shuffleFrom _

/-- A round is a permutation of the candidates it was drawn from. -/
theorem mem_buildShuffleRound {candidates : Array ℕ} {avoid : Option ℕ} {targetPos id : ℕ} :
    id ∈ (q.buildShuffleRound nanos candidates avoid targetPos).shuffleRound ↔ id ∈ candidates :=
  (shuffled_buildShuffleRound candidates avoid targetPos).shuffleRound.mem_iff

theorem size_buildShuffleRound (candidates : Array ℕ) (avoid : Option ℕ) (targetPos : ℕ) :
    (q.buildShuffleRound nanos candidates avoid targetPos).shuffleRound.size = candidates.size :=
  (shuffled_buildShuffleRound candidates avoid targetPos).shuffleRound.size_eq

end

end QueueState

end Waywallen
