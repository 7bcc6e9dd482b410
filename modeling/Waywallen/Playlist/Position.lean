import Waywallen.Playlist.Order

/-!
# What the status says of a cursor

The status of a display reads `pos`. An operation that does not go along the shuffled order leaves
`pos` at the item it goes to; `next` and `first` in shuffle mode move `orderPos` alone, and the
status then tells the place of an item that was current before, which may not even exist any more.
-/

namespace Waywallen

namespace PlaylistCursor

variable {c : PlaylistCursor} {id : String}

/-- What is current stands at `pos`, and the status tells its place. -/
def Placed (c : PlaylistCursor) : Prop :=
  ∀ id, c.current = some id → c.items[c.pos]? = some id ∧
    c.status.position < c.status.count ∧ c.items[c.status.position.toNat]? = some id

instance : Decidable c.Placed :=
  inferInstanceAs (Decidable (∀ id ∈ c.current, c.items[c.pos]? = some id ∧
    c.status.position < c.status.count ∧ c.items[c.status.position.toNat]? = some id))

/-- A list of fewer than 2³² items is counted right. -/
theorem placed_of_getElem? (hlen : c.items.length < 2 ^ 32) (hcur : c.current = some id)
    (hid : c.items[c.pos]? = some id) : c.Placed := by
  rintro id' hid'
  obtain rfl := Option.some_inj.1 (hcur.symm.trans hid')
  obtain ⟨hlt, -⟩ := List.getElem?_eq_some_iff.1 hid
  have hpos : c.status.position.toNat = c.pos :=
    UInt32.toNat_ofNat_of_lt' (Nat.lt_trans hlt hlen)
  have hcount : c.status.count.toNat = c.items.length := UInt32.toNat_ofNat_of_lt' hlen
  refine ⟨hid, UInt32.lt_iff_toNat_lt.2 ?_, ?_⟩
  · rw [hpos, hcount]
    exact hlt
  · rw [hpos]
    exact hid

/-- In every mode `setCurrent` moves `pos` to the item. -/
theorem setCurrent_eq {idx : ℕ} (hidx : c.items.idxOf? id = some idx) :
    ∃ order orderPos rng, c.setCurrent id = some (true, { c with
      pos := idx
      order
      orderPos
      rng
      current := some id }) := by
  by_cases hm : c.mode = .shuffle
  · have hensure : ∃ order orderPos rng, ensureOrder { c with pos := idx } =
        some { c with pos := idx, order, orderPos, rng } := by
      unfold ensureOrder
      split
      · obtain ⟨order, rng, hc, -⟩ := buildOrder_eq { c with pos := idx }
        exact ⟨order, 0, rng, hc⟩
      · exact ⟨c.order, c.orderPos, c.rng, rfl⟩
    obtain ⟨order, orderPos, rng, hc⟩ := hensure
    refine ⟨order, (order.idxOf? idx).getD orderPos, rng, ?_⟩
    rw [setCurrent, hidx]
    simp only [if_pos hm, hc, Option.bind_eq_bind, Option.bind_some]
  · exact ⟨c.order, c.orderPos, c.rng, setCurrent_of_ne hidx hm⟩

theorem setCurrent_placed {r : Bool × PlaylistCursor} (hlen : c.items.length < 2 ^ 32)
    (hr : c.setCurrent id = some r) :
    id ∉ c.items ∧ r = (false, c) ∨
      r.2.current = some id ∧ r.2.Placed ∧ r.2.items = c.items := by
  cases hidx : c.items.idxOf? id with
  | none =>
    have hid := List.idxOf?_eq_none_iff.1 hidx
    rw [setCurrent_of_notMem hid] at hr
    exact .inl ⟨hid, (Option.some_inj.1 hr).symm⟩
  | some idx =>
    obtain ⟨hlt, heq, -⟩ := List.idxOf?_eq_some_iff.1 hidx
    obtain ⟨order, orderPos, rng, hc⟩ := setCurrent_eq hidx
    rw [hc] at hr
    obtain rfl := Option.some_inj.1 hr
    refine .inr ⟨rfl, placed_of_getElem? hlen rfl ?_, rfl⟩
    show c.items[idx]? = some id
    rw [List.getElem?_eq_getElem hlt, heq]

theorem next_placed {delta : Int32} {r : Option String × PlaylistCursor}
    (hlen : c.items.length < 2 ^ 32) (hm : c.mode ≠ .shuffle) (hr : c.next delta = some r) :
    c.items = [] ∧ r = (none, c) ∨
      r.2.current = r.1 ∧ r.2.Placed ∧ r.2.items = c.items := by
  by_cases hne : c.items = []
  · rw [next, if_pos hne] at hr
    exact .inl ⟨hne, (Option.some_inj.1 hr).symm⟩
  · obtain hm' | hm' | hm' := mode_cases c.mode
    · cases hstep : remEuclid delta c.items.length with
      | none =>
        rw [next, if_neg hne, advance, hm'] at hr
        simp [hstep] at hr
      | some step =>
        obtain ⟨id, hc, hid⟩ := next_sequential hne hm' hstep
        rw [hc] at hr
        obtain rfl := Option.some_inj.1 hr
        exact .inr ⟨rfl, placed_of_getElem? hlen rfl hid, rfl⟩
    · obtain ⟨idx, id, rng, hc, hid, -⟩ := next_random delta hne hm'
      rw [hc] at hr
      obtain rfl := Option.some_inj.1 hr
      exact .inr ⟨rfl, placed_of_getElem? hlen rfl hid, rfl⟩
    · exact absurd hm' hm

theorem first_placed {r : Option String × PlaylistCursor} (hlen : c.items.length < 2 ^ 32)
    (hm : c.mode ≠ .shuffle) (hr : c.first = some r) :
    c.items = [] ∧ r = (none, c) ∨
      r.2.current = r.1 ∧ r.2.Placed ∧ r.2.items = c.items := by
  by_cases hne : c.items = []
  · rw [first, if_pos hne] at hr
    exact .inl ⟨hne, (Option.some_inj.1 hr).symm⟩
  · obtain hm' | hm' | hm' := mode_cases c.mode
    · obtain ⟨id, hc, hid⟩ := first_sequential hne hm'
      rw [hc] at hr
      obtain rfl := Option.some_inj.1 hr
      exact .inr ⟨rfl, placed_of_getElem? hlen rfl hid, rfl⟩
    · obtain ⟨idx, id, rng, hc, hid⟩ := first_random hne hm'
      rw [hc] at hr
      obtain rfl := Option.some_inj.1 hr
      exact .inr ⟨rfl, placed_of_getElem? hlen rfl hid, rfl⟩
    · exact absurd hm' hm

end PlaylistCursor

namespace CursorOp

open PlaylistCursor

/-- The operation does not go to an item along the shuffled order, and a list that comes with it
has fewer than 2³² items. -/
def Straight (c : PlaylistCursor) : CursorOp → Prop
  | next _ => c.mode ≠ .shuffle
  | first => c.mode ≠ .shuffle
  | setCurrent _ => True
  | rebuildForPlaylist items mode => items.length < 2 ^ 32 ∧
      (mode ≠ .shuffle ∨ items = [] ∨ ∃ id ∈ items, c.current = some id)

instance (c : PlaylistCursor) : (op : CursorOp) → Decidable (op.Straight c)
  | next _ => inferInstanceAs (Decidable (c.mode ≠ .shuffle))
  | first => inferInstanceAs (Decidable (c.mode ≠ .shuffle))
  | setCurrent _ => .isTrue trivial
  | rebuildForPlaylist items mode => inferInstanceAs (Decidable (items.length < 2 ^ 32 ∧
      (mode ≠ .shuffle ∨ items = [] ∨ ∃ id ∈ items, c.current = some id)))

/-- What the operation goes to is current after it, and the status tells its place. -/
def Tells (c : PlaylistCursor) (op : CursorOp) : Prop :=
  ∀ r, op.exec c = some r → (∀ id, r.1 = some id → r.2.current = some id) ∧ r.2.Placed

instance (c : PlaylistCursor) (op : CursorOp) : Decidable (op.Tells c) :=
  inferInstanceAs (Decidable (∀ r ∈ op.exec c,
    (∀ id ∈ r.1, r.2.current = some id) ∧ r.2.Placed))

theorem exec_placed {c : PlaylistCursor} {op : CursorOp} {r : Option String × PlaylistCursor}
    (hlen : c.items.length < 2 ^ 32) (h : c.Placed) (hop : op.Straight c)
    (hr : op.exec c = some r) :
    (∀ id, r.1 = some id → r.2.current = some id) ∧ r.2.Placed ∧ r.2.items.length < 2 ^ 32 := by
  cases op with
  | next delta =>
    obtain ⟨-, rfl⟩ | ⟨hcur, hp, hitems⟩ := next_placed hlen hop hr
    · exact ⟨by simp, h, hlen⟩
    · exact ⟨fun id hid => hcur.trans hid, hp, by rwa [hitems]⟩
  | first =>
    obtain ⟨-, rfl⟩ | ⟨hcur, hp, hitems⟩ := first_placed hlen hop hr
    · exact ⟨by simp, h, hlen⟩
    · exact ⟨fun id hid => hcur.trans hid, hp, by rwa [hitems]⟩
  | setCurrent id =>
    obtain ⟨r', hr', rfl⟩ := Option.map_eq_some_iff.1 hr
    obtain ⟨-, rfl⟩ | ⟨hcur, hp, hitems⟩ := setCurrent_placed hlen hr'
    · exact ⟨by simp, h, hlen⟩
    · refine ⟨fun id' hid' => ?_, hp, by rwa [hitems]⟩
      dsimp only at hid'
      split at hid'
      · exact hcur.trans hid'
      · cases hid'
  | rebuildForPlaylist items mode =>
    obtain ⟨hlen', hgo⟩ := hop
    rw [exec, PlaylistCursor.rebuildForPlaylist] at hr
    split at hr
    · obtain rfl := Option.some_inj.1 hr
      exact ⟨by simp, h, hlen⟩
    · rename_i hne
      dsimp only at hr
      split at hr
      · rename_i id hid
        obtain ⟨hid, hmem⟩ := Option.filter_eq_some_iff.1 hid
        obtain ⟨r', hr', rfl⟩ := Option.map_eq_some_iff.1 hr
        obtain ⟨hno, rfl⟩ | ⟨hcur, hp, hitems⟩ := setCurrent_placed hlen' hr'
        · exact absurd (of_decide_eq_true hmem) hno
        · exact ⟨fun id' hid' => hcur.trans hid', hp, by rwa [hitems]⟩
      · rename_i hlost
        have hm : mode ≠ .shuffle := by
          obtain hm | hitems | ⟨id, hmem, hcur⟩ := hgo
          · exact hm
          · exact absurd hitems hne
          · simp [hcur, hmem] at hlost
        obtain ⟨hno, rfl⟩ | ⟨hcur, hp, hitems⟩ := first_placed hlen' hm hr
        · exact absurd hno hne
        · exact ⟨fun id' hid' => hcur.trans hid', hp, by rwa [hitems]⟩

end CursorOp

namespace PlaylistCursor

/-- As long as no operation goes to an item along a shuffled order, the status of the display tells
the place of the item that is shown. -/
theorem tells_of_straight {items : List String} (hlen : items.length < 2 ^ 32) {mode : Mode}
    {seed : UInt64} {c : PlaylistCursor} (hc : new items mode seed = some c) {ops : List CursorOp}
    (hops : Transition.Along CursorOp.step CursorOp.Straight c ops) :
    Transition.Along CursorOp.step CursorOp.Tells c ops := by
  have hstart : c.Placed ∧ c.items.length < 2 ^ 32 := by
    obtain ⟨c', hc', -, hitems, -, hcur⟩ := new_ordered items mode seed
    obtain rfl := Option.some_inj.1 (hc'.symm.trans hc)
    exact ⟨fun id hid => by simp [hcur] at hid, by rwa [hitems]⟩
  have hinv := Transition.along_invariant (I := fun c => c.Placed ∧ c.items.length < 2 ^ 32)
    (fun c op d hI hop hd => by
      obtain ⟨r, hr, rfl⟩ := Option.map_eq_some_iff.1 hd
      exact (CursorOp.exec_placed hI.2 hI.1 hop hr).2) hstart hops
  refine (hinv.and hops).mono fun c op h r hr => ?_
  obtain ⟨hcur, hp, -⟩ := CursorOp.exec_placed h.1.2 h.1.1 h.2 hr
  exact ⟨hcur, hp⟩

theorem tells_of_straight_shuffled : ∃ c, new ["a", "b", "c"] .shuffle 1 = some c ∧
    Transition.Along CursorOp.step CursorOp.Tells c
      [.setCurrent "b", .rebuildForPlaylist ["b", "c"] .sequential, .next 1] := by
  have hc : (new ["a", "b", "c"] .shuffle 1).isSome = true := by decide
  exact ⟨_, (Option.some_get hc).symm,
    tells_of_straight (by decide) (Option.some_get hc).symm (by decide +revert)⟩

/-- When the current item is lost, `first` leaves `pos` at its place, which may be past the end. -/
theorem not_tells_after_first : ∃ c, new ["a", "b", "c"] .sequential 1 = some c ∧
    ¬ Transition.Along CursorOp.step CursorOp.Tells c
      [.setCurrent "c", .rebuildForPlaylist ["a", "b"] .shuffle] :=
  ⟨_, rfl, by decide⟩

end PlaylistCursor

end Waywallen
