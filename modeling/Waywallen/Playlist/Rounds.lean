import Mathlib.Data.List.Nodup
import Waywallen.Library.Rounds
import Waywallen.Playlist.Order

/-!
# Walking a playlist

In shuffle mode the cursor walks its order from the first place to the last and draws a new one
whenever it comes to the first place, from either side. So the picks go in rounds, and a step back
undoes a step on as long as neither of them draws.
-/

namespace Waywallen

namespace PlaylistCursor

open Rounds

variable {c : PlaylistCursor} {id : String}

/-! ## Where the cursor stands -/

/-- The item is the one that the cursor stands at. -/
structure StandsAt (c : PlaylistCursor) (id : String) : Prop where
  shuffle : c.mode = .shuffle → c.order.Perm (Array.range c.items.length) ∧
    ∃ idx, c.order[c.orderPos]? = some idx ∧ c.items[idx]? = some id
  straight : c.mode ≠ .shuffle → c.items[c.pos]? = some id

/-- The cursor stands at what is current. -/
def Stands (c : PlaylistCursor) : Prop := ∀ id, c.current = some id → c.StandsAt id

theorem stands_of_straight (hm : c.mode ≠ .shuffle) (hcur : c.current = some id)
    (hid : c.items[c.pos]? = some id) : c.Stands := by
  rintro id' hid'
  obtain rfl := Option.some_inj.1 (hcur.symm.trans hid')
  exact ⟨fun h => absurd h hm, fun _ => hid⟩

theorem stands_of_shuffle {idx : ℕ} (hm : c.mode = .shuffle) (hcur : c.current = some id)
    (h : c.order.Perm (Array.range c.items.length)) (hidx : c.order[c.orderPos]? = some idx)
    (hid : c.items[idx]? = some id) : c.Stands := by
  rintro id' hid'
  obtain rfl := Option.some_inj.1 (hcur.symm.trans hid')
  exact ⟨fun _ => ⟨h, idx, hidx, hid⟩, fun h => absurd hm h⟩

theorem ne_shuffle_of_eq {m m' : Mode} (h : m = m') (hm' : m' ≠ .shuffle) : m ≠ .shuffle :=
  h ▸ hm'

theorem next_stands {delta : Int32} {r : Option String × PlaylistCursor}
    (hlen : c.items.length < 2 ^ 31) (ho : c.Ordered) (h : c.Stands)
    (hr : c.next delta = some r) : r.2.Stands := by
  by_cases hne : c.items = []
  · rw [next, if_pos hne] at hr
    obtain rfl := Option.some_inj.1 hr
    exact h
  · have hstep := remEuclid_eq delta (List.length_pos_of_ne_nil hne) hlen
    obtain hm | hm | hm := mode_cases c.mode
    · obtain ⟨id, hc, hid⟩ := next_sequential hne hm hstep
      obtain rfl := Option.some_inj.1 (hc.symm.trans hr)
      exact stands_of_straight (ne_shuffle_of_eq hm (by decide)) rfl hid
    · obtain ⟨idx, id, rng, hc, hid, -⟩ := next_random delta hne hm
      obtain rfl := Option.some_inj.1 (hc.symm.trans hr)
      exact stands_of_straight (ne_shuffle_of_eq hm (by decide)) rfl hid
    · obtain ⟨order, orderPos, rng, idx, id, hc, hperm, hidx, hid⟩ := next_shuffle hne hm ho hstep
      obtain rfl := Option.some_inj.1 (hc.symm.trans hr)
      exact stands_of_shuffle hm rfl hperm hidx hid

theorem first_stands {r : Option String × PlaylistCursor} (hne : c.items ≠ []) (ho : c.Ordered)
    (hr : c.first = some r) : r.2.Stands := by
  obtain hm | hm | hm := mode_cases c.mode
  · obtain ⟨id, hc, hid⟩ := first_sequential hne hm
    obtain rfl := Option.some_inj.1 (hc.symm.trans hr)
    exact stands_of_straight (ne_shuffle_of_eq hm (by decide)) rfl hid
  · obtain ⟨idx, id, rng, hc, hid⟩ := first_random hne hm
    obtain rfl := Option.some_inj.1 (hc.symm.trans hr)
    exact stands_of_straight (ne_shuffle_of_eq hm (by decide)) rfl hid
  · obtain ⟨order, rng, idx, id, hc, hperm, hidx, hid⟩ := first_shuffle hne hm ho
    obtain rfl := Option.some_inj.1 (hc.symm.trans hr)
    exact stands_of_shuffle hm rfl hperm hidx hid

theorem setCurrent_stands {r : Bool × PlaylistCursor} (hid : id ∈ c.items) (ho : c.Ordered)
    (hr : c.setCurrent id = some r) : r.2.Stands := by
  obtain ⟨idx, hidx⟩ := Option.isSome_iff_exists.1 (List.isSome_idxOf?.2 hid)
  obtain ⟨hlt, heq, -⟩ := List.idxOf?_eq_some_iff.1 hidx
  have hget : c.items[idx]? = some id := by rw [List.getElem?_eq_getElem hlt, heq]
  by_cases hm : c.mode = .shuffle
  · obtain ⟨order, orderPos, rng, hc, hperm, hpos⟩ := setCurrent_shuffle hidx hm ho
    obtain rfl := Option.some_inj.1 (hc.symm.trans hr)
    exact stands_of_shuffle hm rfl hperm hpos hget
  · obtain rfl := Option.some_inj.1 ((setCurrent_of_ne hidx hm).symm.trans hr)
    exact stands_of_straight hm rfl hget

theorem exec_stands {op : CursorOp} {r : Option String × PlaylistCursor}
    (hlen : c.items.length < 2 ^ 31) (ho : c.Ordered) (h : c.Stands) (hr : op.exec c = some r) :
    r.2.Stands := by
  cases op with
  | next delta => exact next_stands hlen ho h hr
  | first =>
    by_cases hne : c.items = []
    · rw [CursorOp.exec, first, if_pos hne] at hr
      obtain rfl := Option.some_inj.1 hr
      exact h
    · exact first_stands hne ho hr
  | setCurrent id =>
    obtain ⟨r', hr', rfl⟩ := Option.map_eq_some_iff.1 hr
    by_cases hid : id ∈ c.items
    · exact setCurrent_stands hid ho hr'
    · rw [setCurrent_of_notMem hid] at hr'
      obtain rfl := Option.some_inj.1 hr'
      exact h
  | rebuildForPlaylist items mode =>
    rw [CursorOp.exec, rebuildForPlaylist] at hr
    split at hr
    · obtain rfl := Option.some_inj.1 hr
      exact h
    · rename_i hne
      have ho : Ordered { c with items, mode } := ho
      dsimp only at hr
      split at hr
      · rename_i id hid
        obtain ⟨-, hmem⟩ := Option.filter_eq_some_iff.1 hid
        obtain ⟨r', hr', rfl⟩ := Option.map_eq_some_iff.1 hr
        exact setCurrent_stands (of_decide_eq_true hmem) ho hr'
      · exact first_stands hne ho hr

theorem run_stands {d : PlaylistCursor} (hlen : c.items.length < 2 ^ 31) (ho : c.Ordered)
    (h : c.Stands) {ops : List CursorOp} (hops : ∀ op ∈ ops, op.Short)
    (hr : Transition.run CursorOp.step c ops = some d) :
    d.items.length < 2 ^ 31 ∧ d.Ordered ∧ d.Stands := by
  refine Transition.invariant_of_run
    (I := fun c => c.items.length < 2 ^ 31 ∧ c.Ordered ∧ c.Stands) ?_ ⟨hlen, ho, h⟩
    (Transition.along_of_forall hops c) hr
  rintro c op d ⟨hlen, ho, h⟩ hop hd
  obtain ⟨r, hr, rfl⟩ := Option.map_eq_some_iff.1 hd
  obtain ⟨r', hr', ho', hlen'⟩ := CursorOp.exec_ordered hop hlen ho
  obtain rfl := Option.some_inj.1 (hr'.symm.trans hr)
  exact ⟨hlen', ho', exec_stands hlen ho h hr⟩

/-! ## A step back -/

variable {n d : ℕ}

theorem remEuclid_on (hlen : n < 2 ^ 31) (hd : 0 < d) (hdn : d < n) :
    remEuclid (Int32.ofNat d) n = some d := by
  have hmod : ((d : Int) % n) = d := Int.emod_eq_of_lt (by omega) (by omega)
  rw [remEuclid_eq _ (by omega) hlen, Int32.toInt_ofNat_of_lt (by omega), hmod, Int.toNat_natCast]

theorem remEuclid_back (hlen : n < 2 ^ 31) (hd : 0 < d) (hdn : d < n) :
    remEuclid (-Int32.ofNat d) n = some (n - d) := by
  have hneg : (-Int32.ofNat d).toInt = -(d : Int) := by
    rw [Int32.toInt_neg, Int32.toInt_ofNat_of_lt (by omega)]
    exact Int.bmod_eq_of_le (by omega) (by omega)
  have hmod : (-(d : Int)) % n = (n - d : ℕ) := by
    rw [← Int.add_emod_right, Int.emod_eq_of_lt (by omega) (by omega)]
    omega
  rw [remEuclid_eq _ (by omega) hlen, hneg, hmod, Int.toNat_natCast]

/-- The two steps cancel. -/
theorem add_on_back {p : ℕ} (hp : p < n) (hdn : d < n) : ((p + d) % n + (n - d)) % n = p := by
  have hsum : p + d + (n - d) = p + n := by omega
  rw [Nat.mod_add_mod, hsum, Nat.add_mod_right, Nat.mod_eq_of_lt hp]

theorem on_eq_zero {p : ℕ} (hp : p < n) (hd : 0 < d) (hdn : d < n) :
    (p + d) % n = 0 ↔ p + d = n := by
  rcases Nat.lt_or_ge (p + d) n with h | h
  · rw [Nat.mod_eq_of_lt h]
    omega
  · rw [Nat.mod_eq_sub_mod h, Nat.mod_eq_of_lt (by omega)]
    omega

/-- What the cursor goes to when it goes on and back. -/
def onAndBack (c : PlaylistCursor) (d : ℕ) : Option (Option String) :=
  (c.next (Int32.ofNat d)).bind fun r => (r.2.next (-Int32.ofNat d)).map Prod.fst

theorem buildOrder_with (c : PlaylistCursor) (p : ℕ) (current : Option String) :
    buildOrder { c with orderPos := p, current } =
      c.buildOrder.map fun e => { e with current } := by
  rw [buildOrder, buildOrder, Option.map_map]
  rfl

theorem onAndBack_sequential (hlen : c.items.length < 2 ^ 31) (hm : c.mode = .sequential)
    (hid : c.items[c.pos]? = some id) (hd : 0 < d) (hdn : d < c.items.length) :
    c.onAndBack d = some (some id) := by
  obtain ⟨hpos, -⟩ := List.getElem?_eq_some_iff.1 hid
  have hne : c.items ≠ [] := List.ne_nil_of_length_pos (by omega)
  obtain ⟨id₁, hc₁, -⟩ := next_sequential hne hm (remEuclid_on hlen hd hdn)
  obtain ⟨id₂, hc₂, hid₂⟩ := next_sequential (c := { c with
    pos := (c.pos + d) % c.items.length
    current := some id₁ }) hne hm (remEuclid_back hlen hd hdn)
  have hback : ((c.pos + d) % c.items.length + (c.items.length - d)) % c.items.length = c.pos :=
    add_on_back hpos hdn
  rw [hback, hid] at hid₂
  rw [onAndBack, hc₁, Option.bind_some, hc₂, Option.map_some, hid₂]

section

variable {idx : ℕ} (hlen : c.items.length < 2 ^ 31) (hm : c.mode = .shuffle)
  (h : c.order.Perm (Array.range c.items.length)) (hidx : c.order[c.orderPos]? = some idx)
  (hid : c.items[idx]? = some id) (hd : 0 < d) (hdn : d < c.items.length)
include hlen hm h hidx hd hdn

/-- At an end of the order the way back answers what a new one has at the old place. -/
theorem exists_onAndBack_end (hpos : c.orderPos = 0 ∨ c.orderPos + d = c.items.length) :
    ∃ e idx' id', c.buildOrder = some e ∧ c.onAndBack d = some (some id') ∧
      e.order[c.orderPos]? = some idx' ∧ c.items[idx']? = some id' := by
  have hlt : c.orderPos < c.items.length := by
    rw [← Shuffle.size_of_perm_range h]
    exact (Array.getElem?_eq_some_iff.1 hidx).1
  have hne : c.items ≠ [] := List.ne_nil_of_length_pos (by omega)
  have hback := add_on_back hlt hdn
  by_cases hpos' : c.orderPos + d = c.items.length
  · have hon := (on_eq_zero hlt hd hdn).2 hpos'
    obtain ⟨order, rng, -, id₁, hb, hperm, hc₁, -⟩ :=
      next_shuffle_zero hne hm h (remEuclid_on hlen hd hdn) hon
    have hback' : (0 + (c.items.length - d)) % c.items.length = c.orderPos := by
      rw [← hback, hon]
    obtain ⟨idx₂, id₂, hc₂, hidx₂, hid₂⟩ := next_shuffle_pos (c := { c with
      order
      rng
      orderPos := 0
      current := some id₁ }) hne hm hperm (remEuclid_back hlen hd hdn) (by
        dsimp only
        omega)
    dsimp only at hidx₂ hid₂
    rw [hback'] at hidx₂
    exact ⟨_, idx₂, id₂, hb, by rw [onAndBack, hc₁, Option.bind_some, hc₂, Option.map_some],
      hidx₂, hid₂⟩
  · have hzero : c.orderPos = 0 := hpos.resolve_right hpos'
    have hon : (c.orderPos + d) % c.items.length ≠ 0 := (on_eq_zero hlt hd hdn).not.2 hpos'
    obtain ⟨-, id₁, hc₁, -⟩ := next_shuffle_pos hne hm h (remEuclid_on hlen hd hdn) hon
    obtain ⟨order, rng, idx₂, id₂, hb, hperm, hc₂, hidx₂, hid₂⟩ := next_shuffle_zero (c := { c with
      orderPos := (c.orderPos + d) % c.items.length
      current := some id₁ }) hne hm h (remEuclid_back hlen hd hdn) (hback.trans hzero)
    rw [buildOrder_with] at hb
    obtain ⟨e, he, heq⟩ := Option.map_eq_some_iff.1 hb
    have horder : e.order = order := congrArg PlaylistCursor.order heq
    refine ⟨e, idx₂, id₂, he, by rw [onAndBack, hc₁, Option.bind_some, hc₂, Option.map_some],
      ?_, hid₂⟩
    rw [horder, hzero]
    exact hidx₂

include hid

/-- Away from the ends of the order nothing is drawn. -/
theorem onAndBack_middle (hpos : c.orderPos ≠ 0) (hpos' : c.orderPos + d ≠ c.items.length) :
    c.onAndBack d = some (some id) := by
  have hlt : c.orderPos < c.items.length := by
    rw [← Shuffle.size_of_perm_range h]
    exact (Array.getElem?_eq_some_iff.1 hidx).1
  have hne : c.items ≠ [] := List.ne_nil_of_length_pos (by omega)
  have hon : (c.orderPos + d) % c.items.length ≠ 0 := (on_eq_zero hlt hd hdn).not.2 hpos'
  have hback := add_on_back hlt hdn
  obtain ⟨-, id₁, hc₁, -⟩ := next_shuffle_pos hne hm h (remEuclid_on hlen hd hdn) hon
  obtain ⟨idx₂, id₂, hc₂, hidx₂, hid₂⟩ := next_shuffle_pos (c := { c with
    orderPos := (c.orderPos + d) % c.items.length
    current := some id₁ }) hne hm h (remEuclid_back hlen hd hdn) (by
      dsimp only
      rwa [hback])
  dsimp only at hidx₂ hid₂
  rw [hback, hidx, Option.some_inj] at hidx₂
  rw [← hidx₂, hid] at hid₂
  rw [onAndBack, hc₁, Option.bind_some, hc₂, Option.map_some, hid₂]

/-- At an end of the order the way back goes along a new one. -/
theorem onAndBack_end (hnd : c.items.Nodup)
    (hpos : c.orderPos = 0 ∨ c.orderPos + d = c.items.length) :
    c.onAndBack d = some (some id) ↔
      ∃ e, c.buildOrder = some e ∧ e.order[c.orderPos]? = c.order[c.orderPos]? := by
  obtain ⟨e, idx', id', hb, hback, hidx', hid'⟩ := exists_onAndBack_end hlen hm h hidx hd hdn hpos
  rw [hback, Option.some_inj, Option.some_inj]
  constructor
  · rintro rfl
    refine ⟨e, hb, ?_⟩
    rw [hidx', hidx, Option.some_inj]
    exact (List.getElem?_inj (List.getElem?_eq_some_iff.1 hid').1 hnd).1 (hid'.trans hid.symm)
  · rintro ⟨e', hb', heq⟩
    obtain rfl := Option.some_inj.1 (hb.symm.trans hb')
    rw [hidx', hidx, Option.some_inj] at heq
    rw [heq, hid, Option.some_inj] at hid'
    exact hid'.symm

end

/-- A step back undoes a step on exactly if the walk does not draw a new order on the way, or draws
one that has the same item at the old place. -/
theorem onAndBack_iff {items : List String} (hlen : items.length < 2 ^ 31) {mode : Mode}
    {seed : UInt64} {c₀ : PlaylistCursor} (hc₀ : new items mode seed = some c₀)
    {ops : List CursorOp} (hops : ∀ op ∈ ops, op.Short)
    (hr : Transition.run CursorOp.step c₀ ops = some c) (hnd : c.items.Nodup)
    (hm : c.mode ≠ .random) (hcur : c.current ≠ none) (hd : 0 < d) (hdn : d < c.items.length) :
    c.onAndBack d = some c.current ↔ c.mode = .sequential ∨
      c.orderPos ≠ 0 ∧ c.orderPos + d ≠ c.items.length ∨
      ∃ e, c.buildOrder = some e ∧ e.order[c.orderPos]? = c.order[c.orderPos]? := by
  obtain ⟨c₀', hc₀', ho, hitems, -, hcurrent⟩ := new_ordered items mode seed
  obtain rfl := Option.some_inj.1 (hc₀'.symm.trans hc₀)
  obtain ⟨hlen, -, hs⟩ := run_stands (by rwa [hitems]) ho
    (fun id hid => by simp [hcurrent] at hid) hops hr
  obtain ⟨id, hid⟩ := Option.ne_none_iff_exists'.1 hcur
  rw [hid]
  obtain hm' | hm' | hm' := mode_cases c.mode
  · have hget := (hs id hid).straight (ne_shuffle_of_eq hm' (by decide))
    exact iff_of_true (onAndBack_sequential hlen hm' hget hd hdn) (.inl hm')
  · exact absurd hm' hm
  · obtain ⟨hperm, idx, hidx, hget⟩ := (hs id hid).shuffle hm'
    by_cases hpos : c.orderPos ≠ 0 ∧ c.orderPos + d ≠ c.items.length
    · exact iff_of_true (onAndBack_middle hlen hm' hperm hidx hget hd hdn hpos.1 hpos.2)
        (.inr (.inl hpos))
    · have hend : c.orderPos = 0 ∨ c.orderPos + d = c.items.length := by omega
      rw [onAndBack_end hlen hm' hperm hidx hget hd hdn hnd hend]
      simp [hm', hpos]

theorem onAndBack_middle_of_five : ∃ c₀ c,
    new ["a", "b", "c", "d", "e"] .shuffle 1 = some c₀ ∧
    Transition.run CursorOp.step c₀ [.first, .next 2] = some c ∧
    c.onAndBack 1 = some c.current := by
  have hc₀ : (new ["a", "b", "c", "d", "e"] .shuffle 1).isSome = true := by decide
  have hc : (Transition.run CursorOp.step ((new ["a", "b", "c", "d", "e"] .shuffle 1).get hc₀)
      [.first, .next 2]).isSome = true := by
    decide +revert
  refine ⟨_, _, (Option.some_get hc₀).symm, (Option.some_get hc).symm,
    (onAndBack_iff (by decide) (Option.some_get hc₀).symm (by simp [CursorOp.Short])
      (Option.some_get hc).symm ?_ ?_ ?_ ?_ ?_).2 (.inr (.inl ?_))⟩
  all_goals decide +revert

/-- At the start of the order the step back draws a new one. -/
theorem onAndBack_first_ne : ∃ c₀ c, new ["a", "b", "c"] .shuffle 5 = some c₀ ∧
    Transition.run CursorOp.step c₀ [.first] = some c ∧ c.onAndBack 1 ≠ some c.current := by
  have hc₀ : (new ["a", "b", "c"] .shuffle 5).isSome = true := by decide
  have hc : (Transition.run CursorOp.step ((new ["a", "b", "c"] .shuffle 5).get hc₀)
      [.first]).isSome = true := by
    decide +revert
  exact ⟨_, _, (Option.some_get hc₀).symm, (Option.some_get hc).symm, by decide +revert⟩

/-! ## Rounds -/

/-- What `first` and then `k` times `next 1` go to. -/
def picks (c : PlaylistCursor) : ℕ → Option (List (Option String) × PlaylistCursor)
  | 0 => c.first.map fun r => ([r.1], r.2)
  | k + 1 => (c.picks k).bind fun p => (p.2.next 1).map fun r => (p.1 ++ [r.1], r.2)

/-- The items in the order of the cursor. -/
def round (c : PlaylistCursor) : List (Option String) :=
  c.order.toList.map fun idx => c.items[idx]?

theorem round_perm (h : c.order.Perm (Array.range c.items.length)) :
    c.round.Perm (c.items.map some) := by
  have hrange : (List.range c.items.length).map (c.items[·]?) = c.items.map some := by
    apply List.ext_getElem
    · simp
    · intro i hi _
      simp only [List.getElem_map, List.getElem_range]
      exact List.getElem?_eq_getElem _
  rw [round, ← hrange, ← Array.toList_range]
  exact h.toList.map _

theorem round_getElem? {p idx : ℕ} (hidx : c.order[p]? = some idx) (hid : c.items[idx]? = some id) :
    c.round[p]? = some (some id) := by
  rw [round, List.getElem?_map, Array.getElem?_toList, hidx, Option.map_some, hid]

/-- The picks so far go in rounds, and the cursor is at the last of them. -/
structure Walks (items : List String) (c : PlaylistCursor) (picks : List (Option String)) :
    Prop where
  items : c.items = items
  mode : c.mode = .shuffle
  order : c.order.Perm (Array.range c.items.length)
  walk : Walk (c.items.map some) c.round c.orderPos picks

theorem walks_next {items : List String} {ps : List (Option String)}
    (hstep : remEuclid 1 items.length = some (1 % items.length)) (h : Walks items c ps) :
    ∃ r, c.next 1 = some r ∧ Walks items r.2 (ps ++ [r.1]) := by
  obtain ⟨rfl, hm, hperm, hw⟩ := h
  have hlt : c.orderPos < c.items.length := by simpa using hw.pos_lt
  have hne : c.items ≠ [] := List.ne_nil_of_length_pos (by omega)
  have hmod : (c.orderPos + 1 % c.items.length) % c.items.length =
      (c.orderPos + 1) % c.items.length := Nat.add_mod_mod ..
  rcases Nat.lt_or_ge (c.orderPos + 1) c.items.length with hon | hend
  · have hpos : (c.orderPos + 1 % c.items.length) % c.items.length = c.orderPos + 1 := by
      rw [hmod, Nat.mod_eq_of_lt hon]
    obtain ⟨idx, id, hc, hidx, hid⟩ := next_shuffle_pos hne hm hperm hstep (by omega)
    rw [hpos] at hc hidx
    exact ⟨_, hc, rfl, hm, hperm, hw.advance (round_getElem? hidx hid)⟩
  · have hend : c.orderPos + 1 = c.items.length := by omega
    have hpos : (c.orderPos + 1 % c.items.length) % c.items.length = 0 := by
      rw [hmod, hend, Nat.mod_self]
    obtain ⟨order, rng, idx, id, -, hperm', hc, hidx, hid⟩ :=
      next_shuffle_zero hne hm hperm hstep hpos
    refine ⟨_, hc, rfl, hm, hperm', hw.renew (by simpa using hend) (round_perm hperm') ?_⟩
    exact round_getElem? hidx hid

theorem walks_first {items : List String} (hne : items ≠ []) (hitems : c.items = items)
    (hm : c.mode = .shuffle) (ho : c.Ordered) :
    ∃ r, c.first = some r ∧ Walks items r.2 [r.1] := by
  subst hitems
  obtain ⟨order, rng, idx, id, hc, hperm, hidx, hid⟩ := first_shuffle hne hm ho
  exact ⟨_, hc, rfl, hm, hperm, Walk.start (round_perm hperm) (round_getElem? hidx hid)⟩

theorem picks_walks {items : List String} (hne : items ≠ [])
    (hstep : remEuclid 1 items.length = some (1 % items.length)) (hitems : c.items = items)
    (hm : c.mode = .shuffle) (ho : c.Ordered) (k : ℕ) :
    ∃ ps d, c.picks k = some (ps, d) ∧ Walks items d ps := by
  induction k with
  | zero =>
    obtain ⟨r, hr, hw⟩ := walks_first hne hitems hm ho
    exact ⟨_, _, by rw [picks, hr]; rfl, hw⟩
  | succ k ih =>
    obtain ⟨ps, d, hps, hw⟩ := ih
    obtain ⟨r, hr, hw⟩ := walks_next hstep hw
    exact ⟨_, _, by rw [picks, hps, Option.bind_some, hr]; rfl, hw⟩

/-- Without items nothing is picked. -/
theorem picks_of_nil (hitems : c.items = []) (k : ℕ) :
    c.picks k = some (List.replicate (k + 1) none, c) := by
  induction k with
  | zero => rw [picks, first, if_pos hitems]; rfl
  | succ k ih =>
    rw [picks, ih, Option.bind_some, next, if_pos hitems, List.replicate_succ' (n := k + 1)]
    rfl

theorem length_picks {k : ℕ} {p : List (Option String) × PlaylistCursor}
    (hp : c.picks k = some p) : p.1.length = k + 1 := by
  induction k generalizing p with
  | zero =>
    obtain ⟨r, -, rfl⟩ := Option.map_eq_some_iff.1 hp
    rfl
  | succ k ih =>
    obtain ⟨q, hq, hr⟩ := Option.bind_eq_some_iff.1 hp
    obtain ⟨r, -, rfl⟩ := Option.map_eq_some_iff.1 hr
    rw [List.length_append, ih hq, List.length_singleton]

/-- Without a remainder the first step panics. -/
theorem picks_of_none {items : List String} (hne : items ≠ [])
    (hstep : remEuclid 1 items.length = none) (seed : UInt64) :
    ∃ c, new items .shuffle seed = some c ∧ c.picks 1 = none := by
  obtain ⟨c, hc, ho, hitems, hm, -⟩ := new_ordered items .shuffle seed
  obtain ⟨r, hr, rfl, hm, hperm, -⟩ := walks_first hne hitems hm ho
  have hnext : r.2.next 1 = none := by
    rw [next, if_neg hne, advance_shuffle hm, ensureOrder_of_perm hperm]
    simp only [Shuffle.size_of_perm_range hperm, hstep, Option.bind_eq_bind, Option.bind_some,
      Option.bind_none]
  refine ⟨c, hc, ?_⟩
  rw [picks, picks, hr, Option.map_some, Option.bind_some, hnext]
  rfl

/-- The names `""`, `"a"`, `"aa"` and so on. -/
def runsOfA (n : ℕ) : List String := (List.range n).map fun k => String.ofList (List.replicate k 'a')

theorem length_runsOfA (n : ℕ) : (runsOfA n).length = n := by
  rw [runsOfA, List.length_map, List.length_range]

theorem nodup_runsOfA (n : ℕ) : (runsOfA n).Nodup := by
  refine List.Nodup.map (fun j k h => ?_) List.nodup_range
  have hlen := congrArg List.length (String.ofList_injective h)
  rwa [List.length_replicate, List.length_replicate] at hlen

end PlaylistCursor

end Waywallen
