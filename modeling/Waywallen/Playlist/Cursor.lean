import Mathlib.Algebra.Group.Nat.Defs
import Waywallen.Library.Shuffle
import Waywallen.Library.Transition
import Waywallen.Queue.State

/-!
# The cursor of a playlist

A cursor walks the items of a playlist: one after the other, at random, or along a shuffled order
that is drawn anew whenever the walk comes to its first place. Whoever owns the cursor may replace
its items and its mode; the order is then as long as the old list until some operation draws it
again. `none` is a panic: an index out of bounds, or a division by zero.
-/

namespace Waywallen

structure PlaylistCursor where
  items : List String
  mode : Mode
  pos : ℕ
  /-- The positions of the items in the order of the shuffle. -/
  order : Array ℕ
  orderPos : ℕ
  rng : UInt64
  current : Option String

/-- `delta.rem_euclid(n as i32) as usize`. -/
def remEuclid (delta : Int32) (n : ℕ) : Option ℕ :=
  let m := (Int32.ofNat n).toInt
  -- a division by zero, or an overflow
  if m = 0 ∨ delta = Int32.minValue ∧ m = -1 then none
  else some (delta.toInt % m).toNat

/-- The state of the generator after it is advanced, which is also the number it yields. -/
def rngNext (rng : UInt64) : UInt64 :=
  let x := if rng = 0 then 0xdeadbeefcafebabe else rng
  let x := x ^^^ (x <<< 13)
  let x := x ^^^ (x >>> 7)
  x ^^^ (x <<< 17)

def rngRange (n : ℕ) (rng : UInt64) : ℕ × UInt64 :=
  if n = 0 then (0, rng) else ((rngNext rng).toNat % n, rngNext rng)

namespace PlaylistCursor

variable (c : PlaylistCursor)

/-- Draw a new order. -/
def buildOrder : Option PlaylistCursor :=
  let n := c.items.length
  (Shuffle.shuffleFrom rngRange (n - 1) (Array.range n) c.rng).map fun drawn =>
    { c with order := drawn.1, rng := drawn.2, orderPos := 0 }

def new (items : List String) (mode : Mode) (seed : UInt64) : Option PlaylistCursor :=
  let c : PlaylistCursor :=
    ⟨items, mode, 0, #[], 0, if seed = 0 then 0xdeadbeefcafebabe else seed, none⟩
  if mode = .shuffle then c.buildOrder else some c

/-- Draw an order if there is none for the items. -/
def ensureOrder : Option PlaylistCursor :=
  if c.order.size ≠ c.items.length then c.buildOrder else some c

/-- The position to go to, in each mode. -/
def advance (delta : Int32) : Option (ℕ × PlaylistCursor) :=
  let n := c.items.length
  match c.mode with
  | .sequential => do
      let step ← remEuclid delta n
      let pos := (c.pos + step) % n
      some (pos, { c with pos })
  | .random => do
      let (idx, rng) := rngRange n c.rng
      let id ← c.items[idx]?
      let idx := if 1 < n ∧ some id = c.current then (idx + 1) % n else idx
      some (idx, { c with pos := idx, rng })
  | .shuffle => do
      let c ← c.ensureOrder
      let step ← remEuclid delta c.order.size
      let c := { c with orderPos := (c.orderPos + step) % c.order.size }
      let c ← if c.orderPos = 0 then c.buildOrder else some c
      let idx ← c.order[c.orderPos]?
      some (idx, c)

/-- Go `delta` items on. -/
def next (delta : Int32) : Option (Option String × PlaylistCursor) :=
  if c.items = [] then some (none, c)
  else do
    let (idx, c) ← c.advance delta
    let id ← c.items[idx]?
    some (some id, { c with current := some id })

/-- Go to the item, if it is there. -/
def setCurrent (id : String) : Option (Bool × PlaylistCursor) :=
  match c.items.idxOf? id with
  | none => some (false, c)
  | some idx => do
      let c := { c with pos := idx }
      let c ← if c.mode = .shuffle then do
          let c ← c.ensureOrder
          some { c with orderPos := (c.order.idxOf? idx).getD c.orderPos }
        else some c
      some (true, { c with current := some id })

def first : Option (Option String × PlaylistCursor) :=
  if c.items = [] then some (none, c)
  else do
    let (id, c) ← match c.mode with
      | .shuffle => do
          let c ← c.ensureOrder
          let idx ← c.order[0]?
          let id ← c.items[idx]?
          some (id, { c with orderPos := 0 })
      | .random => do
          let (idx, rng) := rngRange c.items.length c.rng
          let id ← c.items[idx]?
          some (id, { c with pos := idx, rng })
      | .sequential => do
          let id ← c.items[0]?
          some (id, { c with pos := 0 })
    some (some id, { c with current := some id })

/-- The owner replaces the items and the mode, and keeps the current item if it is still there;
without items the playlist is deactivated, and its cursor is left alone. -/
def rebuildForPlaylist (items : List String) (mode : Mode) :
    Option (Option String × PlaylistCursor) :=
  if items = [] then some (none, c)
  else
    let c := { c with items, mode }
    match c.current.filter (· ∈ items) with
    | some id => (c.setCurrent id).map fun r => (some id, r.2)
    | none => c.first

end PlaylistCursor

/-- What the status of a display says of the cursor of its rotation. -/
structure DisplayStatus where
  mode : Mode
  currentId : Option String
  position : UInt32
  count : UInt32

def PlaylistCursor.status (c : PlaylistCursor) : DisplayStatus where
  mode := c.mode
  currentId := c.current
  position := UInt32.ofNat c.pos
  count := UInt32.ofNat c.items.length

inductive CursorOp
  | next (delta : Int32)
  | first
  | setCurrent (id : String)
  | rebuildForPlaylist (items : List String) (mode : Mode)

/-- The id the operation goes to, if any, and the cursor after it. -/
def CursorOp.exec (c : PlaylistCursor) : CursorOp → Option (Option String × PlaylistCursor)
  | next delta => c.next delta
  | first => c.first
  | setCurrent id => (c.setCurrent id).map fun r => (if r.1 then some id else none, r.2)
  | rebuildForPlaylist items mode => c.rebuildForPlaylist items mode

def CursorOp.step (c : PlaylistCursor) (op : CursorOp) : Option PlaylistCursor :=
  (op.exec c).map Prod.snd

end Waywallen
