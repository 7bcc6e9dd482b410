import Waywallen.Playlist.Cursor

/-!
# The order of a playlist's shuffle

Whatever is done to a cursor, its order is a permutation of the positions below its own length, and
no operation panics. The length may be another one than that of the items, if these were replaced
while the playlist was not shuffled; every operation in shuffle mode begins with drawing a new order
in this case.
-/

namespace Waywallen

variable {n : ℕ} {delta : Int32}

theorem rngRange_lt (n : ℕ) (rng : UInt64) (hn : 0 < n) : (rngRange n rng).1 < n := by
  rw [rngRange, if_neg (Nat.pos_iff_ne_zero.1 hn)]
  exact Nat.mod_lt _ hn

theorem succ_mod_ne {i : ℕ} (hn : 1 < n) (hi : i < n) : (i + 1) % n ≠ i := by
  rcases Nat.lt_or_ge (i + 1) n with h | h
  · rw [Nat.mod_eq_of_lt h]
    omega
  · have heq : i + 1 = n := Nat.le_antisymm hi h
    rw [heq, Nat.mod_self]
    omega

variable (delta) in
/-- Below 2³¹ the number of items keeps its value as a divisor. -/
theorem remEuclid_eq (hn : 0 < n) (h : n < 2 ^ 31) :
    remEuclid delta n = some (delta.toInt % n).toNat := by
  rw [remEuclid, Int32.toInt_ofNat_of_lt h]
  exact if_neg (by omega)

namespace PlaylistCursor

variable {c : PlaylistCursor}

/-- A permutation of the positions below its length; the empty order is one. -/
def Ordered (c : PlaylistCursor) : Prop := c.order.Perm (Array.range c.order.size)

/-! ## What the operations do -/

theorem buildOrder_eq (c : PlaylistCursor) :
    ∃ order rng, c.buildOrder = some { c with order, rng, orderPos := 0 } ∧
      order.Perm (Array.range c.items.length) := by
  obtain ⟨order, rng, h, hperm⟩ := Shuffle.shuffleFrom_perm rngRange_lt (i := c.items.length - 1)
    (a := Array.range c.items.length) c.rng (by
      rw [Array.size_range]
      omega)
  exact ⟨order, rng, by rw [buildOrder, h]; rfl, hperm⟩

/-- An order of the right length is of the items. -/
theorem ensureOrder_eq (h : c.Ordered) :
    ∃ order orderPos rng, c.ensureOrder = some { c with order, orderPos, rng } ∧
      order.Perm (Array.range c.items.length) := by
  unfold ensureOrder
  split
  · obtain ⟨order, rng, hc, hperm⟩ := c.buildOrder_eq
    exact ⟨order, 0, rng, hc, hperm⟩
  · rename_i hsize
    refine ⟨c.order, c.orderPos, c.rng, rfl, ?_⟩
    rw [Ordered, not_not.1 hsize] at h
    exact h

theorem ensureOrder_of_perm (h : c.order.Perm (Array.range c.items.length)) :
    c.ensureOrder = some c :=
  if_neg (not_not.2 (Shuffle.size_of_perm_range h))

theorem ordered_of_perm {d : PlaylistCursor} (h : d.order.Perm (Array.range n)) : d.Ordered := by
  rw [Ordered, Shuffle.size_of_perm_range h]
  exact h

section

variable (hne : c.items ≠ [])
include hne

theorem next_sequential (hm : c.mode = .sequential) {step : ℕ}
    (hstep : remEuclid delta c.items.length = some step) :
    ∃ id, c.next delta = some (some id, { c with
        pos := (c.pos + step) % c.items.length
        current := some id }) ∧ c.items[(c.pos + step) % c.items.length]? = some id := by
  have hlt := Nat.mod_lt (c.pos + step) (List.length_pos_of_ne_nil hne)
  refine ⟨c.items[(c.pos + step) % c.items.length], ?_, List.getElem?_eq_getElem hlt⟩
  rw [next, if_neg hne]
  simp only [advance, hm, hstep, Option.bind_eq_bind, Option.bind_some,
    List.getElem?_eq_getElem hlt]

variable (delta) in
/-- At random the cursor goes to another item than the current one, if there is one. -/
theorem next_random (hm : c.mode = .random) :
    ∃ idx id rng, c.next delta = some (some id, { c with
        pos := idx
        rng
        current := some id }) ∧ c.items[idx]? = some id ∧
      (1 < c.items.length → c.items.Nodup → c.current ≠ some id) := by
  have hpos := List.length_pos_of_ne_nil hne
  have hlt := rngRange_lt _ c.rng hpos
  have hnext := Nat.mod_lt ((rngRange c.items.length c.rng).1 + 1) hpos
  rw [next, if_neg hne]
  simp only [advance, hm, Option.bind_eq_bind, Option.bind_some, List.getElem?_eq_getElem hlt]
  split
  · rename_i hcur
    refine ⟨_, _, _, by rw [List.getElem?_eq_getElem hnext]; rfl, List.getElem?_eq_getElem hnext,
      fun h1 hnd heq => ?_⟩
    have heq : c.items[(rngRange c.items.length c.rng).1]? =
        c.items[((rngRange c.items.length c.rng).1 + 1) % c.items.length]? := by
      rw [List.getElem?_eq_getElem hlt, List.getElem?_eq_getElem hnext, hcur.2, heq]
    exact succ_mod_ne h1 hlt ((List.getElem?_inj hlt hnd).1 heq).symm
  · rename_i hcur
    exact ⟨_, _, _, by rw [List.getElem?_eq_getElem hlt]; rfl, List.getElem?_eq_getElem hlt,
      fun h1 _ heq => hcur ⟨h1, heq.symm⟩⟩

theorem first_sequential (hm : c.mode = .sequential) :
    ∃ id, c.first = some (some id, { c with
        pos := 0
        current := some id }) ∧ c.items[0]? = some id := by
  have hlt := List.length_pos_of_ne_nil hne
  refine ⟨c.items[0], ?_, List.getElem?_eq_getElem hlt⟩
  rw [first, if_neg hne]
  simp only [hm, Option.bind_eq_bind, Option.bind_some, List.getElem?_eq_getElem hlt]

theorem first_random (hm : c.mode = .random) :
    ∃ idx id rng, c.first = some (some id, { c with
        pos := idx
        rng
        current := some id }) ∧ c.items[idx]? = some id := by
  have hlt := rngRange_lt _ c.rng (List.length_pos_of_ne_nil hne)
  refine ⟨_, _, (rngRange c.items.length c.rng).2, ?_, List.getElem?_eq_getElem hlt⟩
  rw [first, if_neg hne]
  simp only [hm, Option.bind_eq_bind, Option.bind_some, List.getElem?_eq_getElem hlt]

theorem first_shuffle (hm : c.mode = .shuffle) (h : c.Ordered) :
    ∃ order rng idx id, c.first = some (some id, { c with
        order
        rng
        orderPos := 0
        current := some id }) ∧ order.Perm (Array.range c.items.length) ∧
      order[0]? = some idx ∧ c.items[idx]? = some id := by
  obtain ⟨order, orderPos, rng, hc, hperm⟩ := ensureOrder_eq h
  obtain ⟨idx, hidx, hlt⟩ :=
    Shuffle.getElem?_of_perm_range hperm (List.length_pos_of_ne_nil hne)
  refine ⟨order, rng, idx, c.items[idx], ?_, hperm, hidx, List.getElem?_eq_getElem hlt⟩
  rw [first, if_neg hne]
  simp only [hm, hc, hidx, Option.bind_eq_bind, Option.bind_some, List.getElem?_eq_getElem hlt]

omit hne in
theorem advance_shuffle (hm : c.mode = .shuffle) :
    c.advance delta = (do
      let c ← c.ensureOrder
      let step ← remEuclid delta c.order.size
      let c := { c with orderPos := (c.orderPos + step) % c.order.size }
      let c ← if c.orderPos = 0 then c.buildOrder else some c
      let idx ← c.order[c.orderPos]?
      some (idx, c)) := by
  unfold advance
  split
  · rename_i h
    cases hm.symm.trans h
  · rename_i h
    cases hm.symm.trans h
  · rfl

/-- In the middle of the order the cursor goes on. -/
theorem next_shuffle_pos (hm : c.mode = .shuffle)
    (h : c.order.Perm (Array.range c.items.length)) {step : ℕ}
    (hstep : remEuclid delta c.items.length = some step)
    (hpos : (c.orderPos + step) % c.items.length ≠ 0) :
    ∃ idx id, c.next delta = some (some id, { c with
        orderPos := (c.orderPos + step) % c.items.length
        current := some id }) ∧
      c.order[(c.orderPos + step) % c.items.length]? = some idx ∧ c.items[idx]? = some id := by
  obtain ⟨idx, hidx, hlt⟩ := Shuffle.getElem?_of_perm_range h
    (Nat.mod_lt (c.orderPos + step) (List.length_pos_of_ne_nil hne))
  refine ⟨idx, c.items[idx], ?_, hidx, List.getElem?_eq_getElem hlt⟩
  rw [next, if_neg hne, advance_shuffle hm, ensureOrder_of_perm h]
  simp only [Shuffle.size_of_perm_range h, hstep, if_neg hpos, hidx,
    Option.bind_eq_bind, Option.bind_some, List.getElem?_eq_getElem hlt]

/-- At the first place of the order a new one is drawn. -/
theorem next_shuffle_zero (hm : c.mode = .shuffle)
    (h : c.order.Perm (Array.range c.items.length)) {step : ℕ}
    (hstep : remEuclid delta c.items.length = some step)
    (hpos : (c.orderPos + step) % c.items.length = 0) :
    ∃ order rng idx id, c.buildOrder = some { c with order, rng, orderPos := 0 } ∧
      order.Perm (Array.range c.items.length) ∧
      c.next delta = some (some id, { c with
        order
        rng
        orderPos := 0
        current := some id }) ∧
      order[0]? = some idx ∧ c.items[idx]? = some id := by
  obtain ⟨order, rng, hc, hperm⟩ := c.buildOrder_eq
  have hc' : buildOrder { c with orderPos := 0 } = some { c with order, rng, orderPos := 0 } := hc
  obtain ⟨idx, hidx, hlt⟩ :=
    Shuffle.getElem?_of_perm_range hperm (List.length_pos_of_ne_nil hne)
  refine ⟨order, rng, idx, c.items[idx], hc, hperm, ?_, hidx, List.getElem?_eq_getElem hlt⟩
  rw [next, if_neg hne, advance_shuffle hm, ensureOrder_of_perm h]
  simp only [Shuffle.size_of_perm_range h, hstep, hpos, if_true, hc', hidx,
    Option.bind_eq_bind, Option.bind_some, List.getElem?_eq_getElem hlt]

theorem next_shuffle (hm : c.mode = .shuffle) (h : c.Ordered) {step : ℕ}
    (hstep : remEuclid delta c.items.length = some step) :
    ∃ order orderPos rng idx id, c.next delta = some (some id, { c with
        order
        orderPos
        rng
        current := some id }) ∧ order.Perm (Array.range c.items.length) ∧
      order[orderPos]? = some idx ∧ c.items[idx]? = some id := by
  obtain ⟨order, orderPos, rng, hc, hperm⟩ := ensureOrder_eq h
  -- the walk is that of the cursor that has its order
  have hnext : c.next delta = next { c with order, orderPos, rng } delta := by
    have hperm : ensureOrder { c with order, orderPos, rng } = some { c with order, orderPos, rng } :=
      ensureOrder_of_perm hperm
    rw [next, next, if_neg hne, if_neg hne, advance_shuffle hm, hc,
      advance_shuffle (c := { c with order, orderPos, rng }) hm, hperm]
  rw [hnext]
  by_cases hpos : (orderPos + step) % c.items.length = 0
  · obtain ⟨order', rng', idx, id, -, hperm', heq, hidx, hid⟩ :=
      next_shuffle_zero (c := { c with order, orderPos, rng }) hne hm hperm hstep hpos
    exact ⟨order', 0, rng', idx, id, heq, hperm', hidx, hid⟩
  · obtain ⟨idx, id, heq, hidx, hid⟩ :=
      next_shuffle_pos (c := { c with order, orderPos, rng }) hne hm hperm hstep hpos
    exact ⟨order, _, rng, idx, id, heq, hperm, hidx, hid⟩

end

theorem setCurrent_of_notMem {id : String} (hid : id ∉ c.items) :
    c.setCurrent id = some (false, c) := by
  rw [setCurrent, List.idxOf?_eq_none_iff.2 hid]

section

variable {id : String} {idx : ℕ} (hidx : c.items.idxOf? id = some idx)
include hidx

theorem setCurrent_of_ne (hm : c.mode ≠ .shuffle) :
    c.setCurrent id = some (true, { c with
      pos := idx
      current := some id }) := by
  rw [setCurrent, hidx]
  simp only [if_neg hm, Option.bind_eq_bind, Option.bind_some]

theorem setCurrent_shuffle (hm : c.mode = .shuffle) (h : c.Ordered) :
    ∃ order orderPos rng, c.setCurrent id = some (true, { c with
        pos := idx
        order
        orderPos
        rng
        current := some id }) ∧ order.Perm (Array.range c.items.length) ∧
      order[orderPos]? = some idx := by
  obtain ⟨hlt, -, -⟩ := List.idxOf?_eq_some_iff.1 hidx
  obtain ⟨order, orderPos, rng, hc, hperm⟩ :=
    ensureOrder_eq (c := { c with pos := idx }) h
  obtain ⟨p, hp, hget⟩ := Shuffle.idxOf?_of_perm_range hperm hlt
  refine ⟨order, p, rng, ?_, hperm, hget⟩
  rw [setCurrent, hidx]
  simp only [if_pos hm, hc, hp, Option.getD_some, Option.bind_eq_bind, Option.bind_some]

end

/-! ## Runs of operations -/

theorem mode_cases (m : Mode) : m = .sequential ∨ m = .random ∨ m = .shuffle := by
  cases m <;> simp

theorem next_ordered (delta : Int32) (hlen : c.items.length < 2 ^ 31) (h : c.Ordered) :
    ∃ r, c.next delta = some r ∧ r.2.Ordered ∧ r.2.items = c.items := by
  by_cases hne : c.items = []
  · exact ⟨(none, c), if_pos hne, h, rfl⟩
  · have hstep := remEuclid_eq delta (List.length_pos_of_ne_nil hne) hlen
    obtain hm | hm | hm := mode_cases c.mode
    · obtain ⟨id, hc, -⟩ := next_sequential hne hm hstep
      exact ⟨_, hc, h, rfl⟩
    · obtain ⟨idx, id, rng, hc, -⟩ := next_random delta hne hm
      exact ⟨_, hc, h, rfl⟩
    · obtain ⟨order, orderPos, rng, idx, id, hc, hperm, -⟩ := next_shuffle hne hm h hstep
      exact ⟨_, hc, ordered_of_perm hperm, rfl⟩

theorem first_ordered (h : c.Ordered) :
    ∃ r, c.first = some r ∧ r.2.Ordered ∧ r.2.items = c.items := by
  by_cases hne : c.items = []
  · exact ⟨(none, c), if_pos hne, h, rfl⟩
  · obtain hm | hm | hm := mode_cases c.mode
    · obtain ⟨id, hc, -⟩ := first_sequential hne hm
      exact ⟨_, hc, h, rfl⟩
    · obtain ⟨idx, id, rng, hc, -⟩ := first_random hne hm
      exact ⟨_, hc, h, rfl⟩
    · obtain ⟨order, rng, idx, id, hc, hperm, -⟩ := first_shuffle hne hm h
      exact ⟨_, hc, ordered_of_perm hperm, rfl⟩

theorem setCurrent_ordered (id : String) (h : c.Ordered) :
    ∃ r, c.setCurrent id = some r ∧ r.2.Ordered ∧ r.2.items = c.items := by
  cases hidx : c.items.idxOf? id with
  | none => exact ⟨_, setCurrent_of_notMem (List.idxOf?_eq_none_iff.1 hidx), h, rfl⟩
  | some idx =>
    by_cases hm : c.mode = .shuffle
    · obtain ⟨order, orderPos, rng, hc, hperm, -⟩ := setCurrent_shuffle hidx hm h
      exact ⟨_, hc, ordered_of_perm hperm, rfl⟩
    · exact ⟨_, setCurrent_of_ne hidx hm, h, rfl⟩

theorem rebuildForPlaylist_ordered (items : List String) (mode : Mode) (h : c.Ordered) :
    ∃ r, c.rebuildForPlaylist items mode = some r ∧ r.2.Ordered ∧
      (r.2.items = items ∨ r.2.items = c.items) := by
  unfold rebuildForPlaylist
  split
  · exact ⟨_, rfl, h, .inr rfl⟩
  · have h : Ordered { c with items, mode } := h
    dsimp only
    split
    · rename_i id _
      obtain ⟨r, hr, ho, hitems⟩ := setCurrent_ordered id h
      exact ⟨_, by rw [hr]; rfl, ho, .inl hitems⟩
    · obtain ⟨r, hr, ho, hitems⟩ := first_ordered h
      exact ⟨r, hr, ho, .inl hitems⟩

end PlaylistCursor

namespace CursorOp

open PlaylistCursor

/-- A list that comes with the operation has fewer than 2³¹ items. -/
def Short : CursorOp → Prop
  | rebuildForPlaylist items _ => items.length < 2 ^ 31
  | _ => True

theorem exec_ordered {op : CursorOp} (hop : op.Short) {c : PlaylistCursor}
    (hlen : c.items.length < 2 ^ 31) (h : c.Ordered) :
    ∃ r, op.exec c = some r ∧ r.2.Ordered ∧ r.2.items.length < 2 ^ 31 := by
  cases op with
  | next delta =>
    obtain ⟨r, hr, ho, hitems⟩ := next_ordered delta hlen h
    exact ⟨r, hr, ho, by rwa [hitems]⟩
  | first =>
    obtain ⟨r, hr, ho, hitems⟩ := first_ordered h
    exact ⟨r, hr, ho, by rwa [hitems]⟩
  | setCurrent id =>
    obtain ⟨r, hr, ho, hitems⟩ := setCurrent_ordered id h
    exact ⟨_, by rw [exec, hr]; rfl, ho, by rwa [hitems]⟩
  | rebuildForPlaylist items mode =>
    obtain ⟨r, hr, ho, hitems | hitems⟩ := rebuildForPlaylist_ordered items mode h
    · exact ⟨r, hr, ho, by rwa [hitems]⟩
    · exact ⟨r, hr, ho, by rwa [hitems]⟩

end CursorOp

namespace PlaylistCursor

variable {items : List String}

theorem new_ordered (items : List String) (mode : Mode) (seed : UInt64) :
    ∃ c, new items mode seed = some c ∧ c.Ordered ∧ c.items = items ∧ c.mode = mode ∧
      c.current = none := by
  unfold new
  dsimp only
  split
  · obtain ⟨order, rng, hc, hperm⟩ := buildOrder_eq
      ⟨items, mode, 0, #[], 0, if seed = 0 then 0xdeadbeefcafebabe else seed, none⟩
    exact ⟨_, hc, ordered_of_perm hperm, rfl, rfl, rfl⟩
  · exact ⟨_, rfl, .rfl, rfl, rfl, rfl⟩

theorem run_ordered {c : PlaylistCursor} (hlen : c.items.length < 2 ^ 31) (h : c.Ordered)
    {ops : List CursorOp} (hops : ∀ op ∈ ops, op.Short) :
    ∃ d, Transition.run CursorOp.step c ops = some d ∧ d.Ordered ∧ d.items.length < 2 ^ 31 := by
  induction ops generalizing c with
  | nil => exact ⟨c, rfl, h, hlen⟩
  | cons op ops ih =>
    obtain ⟨r, hr, ho, hl⟩ := CursorOp.exec_ordered (hops op List.mem_cons_self) hlen h
    obtain ⟨d, hd, hod⟩ := ih hl ho fun op hop => hops op (List.mem_cons_of_mem _ hop)
    have hstep : CursorOp.step c op = some r.2 := by rw [CursorOp.step, hr]; rfl
    exact ⟨d, (Transition.run_cons_eq_some _).2 ⟨r.2, hstep, hd⟩, hod⟩

/-- Whatever happens to a cursor of short lists, no operation panics and its order stays a
permutation of its own positions. -/
theorem order_perm_of_run (hlen : items.length < 2 ^ 31) (mode : Mode) (seed : UInt64)
    {ops : List CursorOp} (hops : ∀ op ∈ ops, op.Short) :
    ∃ c d, new items mode seed = some c ∧ Transition.run CursorOp.step c ops = some d ∧
      (d.order = #[] ∨ d.order.Perm (Array.range d.order.size)) := by
  obtain ⟨c, hc, ho, hitems, -⟩ := new_ordered items mode seed
  obtain ⟨d, hd, hod, -⟩ := run_ordered (hitems ▸ hlen) ho hops
  exact ⟨c, d, hc, hd, .inr hod⟩

theorem order_perm_of_replaced : ∃ c d, new ["a", "b", "c"] .shuffle 7 = some c ∧
    Transition.run CursorOp.step c
      [.first, .next (-5), .rebuildForPlaylist ["b", "d"] .random, .next 1,
        .rebuildForPlaylist ["e", "b", "d", "a"] .shuffle, .next 2147483647, .setCurrent "e"] =
      some d ∧ (d.order = #[] ∨ d.order.Perm (Array.range d.order.size)) :=
  order_perm_of_run (by decide) .shuffle 7 (by simp [CursorOp.Short])

end PlaylistCursor

end Waywallen
