import Mathlib.Data.List.Range
import Waywallen.Routing.Table

/-!
# Sequences of operations on the routing table

The operations with what they return, and what any sequence of them keeps on a table that starts
out empty: the link map and the two indexes describe the same links, no id is given twice, and a
removal returns the links that disappear.
-/

namespace Waywallen

namespace RawTable

variable (t : RawTable)

/-- As `dropIndexed`; the entries taken out so far are kept in order. -/
def takeIndexed (key : Link → ℕ)
    (p : (HashMap LinkId Link × HashMap ℕ (List LinkId)) × List (LinkId × Link)) (lid : LinkId) :
    (HashMap LinkId Link × HashMap ℕ (List LinkId)) × List (LinkId × Link) :=
  match p.1.1.lookup lid with
  | none => p
  | some l => ((p.1.1.erase lid, p.1.2.modify (key l) (·.filter (· != lid))), p.2 ++ [(lid, l)])

/-- Remove a renderer and return the links that pointed at it, with their displays. -/
def takeRenderer (r : RendererId) : RawTable × List (LinkId × DisplayId) :=
  let (dropped, out) :=
    (t.rendererLinkIds r).foldl (takeIndexed Link.displayId) ((t.links, t.byDisplay), [])
  ({ t with
      renderers := t.renderers.erase r
      byRenderer := t.byRenderer.erase r
      links := dropped.1
      byDisplay := dropped.2 }, out.map fun e => (e.1, e.2.displayId))

def takeLink (lid : LinkId) : RawTable × Option Link :=
  match t.links.lookup lid with
  | none => (t, none)
  | some l => ({ t with
      links := t.links.erase lid
      byDisplay := t.byDisplay.modify l.displayId (·.filter (· != lid))
      byRenderer := t.byRenderer.modify l.rendererId (·.filter (· != lid)) }, some l)

/-- Remove the links of a display and return them. -/
def takeDisplay (d : DisplayId) : RawTable × List Link :=
  let (dropped, removed) :=
    (t.displayLinkIds d).foldl (takeIndexed Link.rendererId) ((t.links, t.byRenderer), [])
  ({ t with
      byDisplay := t.byDisplay.erase d
      links := dropped.1
      byRenderer := dropped.2 }, removed.map Prod.snd)

end RawTable

/-- A call of one of the table's functions that change it. -/
inductive TableOp
  | addRenderer (h : RendererHandle)
  | removeRenderer (r : RendererId)
  | addLink (r : RendererId) (d : DisplayId)
  | updateLinkGeometry (lid : LinkId) (g : LinkGeometry)
  | removeLink (lid : LinkId)
  | removeDisplay (d : DisplayId)

/-- What a call returns. -/
inductive TableReply
  | unit
  | pairs (removed : List (LinkId × DisplayId))
  | added (id : LinkId)
  | changed (changed : Bool)
  | link (removed : Option Link)
  | links (removed : List Link)
deriving DecidableEq

namespace TableOp

def exec (t : RawTable) : TableOp → RawTable × TableReply
  | addRenderer h => (t.addRenderer h, .unit)
  | removeRenderer r => ((t.takeRenderer r).1, .pairs (t.takeRenderer r).2)
  | addLink r d => ((t.addLink r d).1, .added (t.addLink r d).2)
  | updateLinkGeometry lid g =>
      ((t.updateLinkGeometry lid g).1, .changed (t.updateLinkGeometry lid g).2)
  | removeLink lid => ((t.takeLink lid).1, .link (t.takeLink lid).2)
  | removeDisplay d => ((t.takeDisplay d).1, .links (t.takeDisplay d).2)

/-- The calls in turn: the table they leave and what they return. -/
def execAll (t : RawTable) : List TableOp → RawTable × List TableReply
  | [] => (t, [])
  | op :: ops => ((execAll (op.exec t).1 ops).1, (op.exec t).2 :: (execAll (op.exec t).1 ops).2)

def isAddLink : TableOp → Bool
  | addLink _ _ => true
  | _ => false

/-- A link that the call is to remove. -/
def Removes (l : Link) : TableOp → Prop
  | removeRenderer r => l.rendererId = r
  | removeLink lid => l.id = lid
  | removeDisplay d => l.displayId = d
  | _ => False

def isRemoval : TableOp → Bool
  | removeRenderer _ | removeLink _ | removeDisplay _ => true
  | _ => false

end TableOp

/-- The id of an added link. -/
def TableReply.addedId : TableReply → Option LinkId
  | added id => some id
  | _ => none

/-- The reply of a removal names exactly the links of `gone`, each once. -/
def TableReply.Names (gone : Link → Prop) : TableReply → Prop
  | pairs removed => removed.Nodup ∧ ∀ i d, (i, d) ∈ removed ↔ ∃ l, gone l ∧ l.id = i ∧ l.displayId = d
  | link removed => ∀ l, removed = some l ↔ gone l
  | links removed => removed.Nodup ∧ ∀ l, l ∈ removed ↔ gone l
  | _ => False

/-- The link map and the two indexes describe the same links, each once, and a display has at most
one of them. -/
structure RawTable.Describes (t : RawTable) : Prop where
  id_eq : ∀ {i l}, t.getLink i = some l → l.id = i
  byDisplay : ∀ {d i}, i ∈ t.displayLinkIds d ↔ ∃ l, t.getLink i = some l ∧ l.displayId = d
  byRenderer : ∀ {r i}, i ∈ t.rendererLinkIds r ↔ ∃ l, t.getLink i = some l ∧ l.rendererId = r
  nodup_byDisplay : ∀ d, (t.displayLinkIds d).Nodup
  nodup_byRenderer : ∀ r, (t.rendererLinkIds r).Nodup
  single : ∀ {l k}, t.getLink l.id = some l → t.getLink k.id = some k →
    l.displayId = k.displayId → l = k
  linksForDisplay : ∀ {d l}, l ∈ t.linksForDisplay d ↔ t.getLink l.id = some l ∧ l.displayId = d
  linksForRenderer : ∀ {r l}, l ∈ t.linksForRenderer r ↔ t.getLink l.id = some l ∧ l.rendererId = r
  nodup_linksForDisplay : ∀ d, (t.linksForDisplay d).Nodup
  nodup_linksForRenderer : ∀ r, (t.linksForRenderer r).Nodup

/-- The links of `gone` disappear, and the others stay as they are. -/
structure RawTable.Loses (gone : Link → Prop) (t t' : RawTable) : Prop where
  disappear : ∀ {l}, gone l → t'.getLink l.id = none
  stay : ∀ {i}, (∀ l, gone l → l.id ≠ i) → t'.getLink i = t.getLink i

namespace RawTable

variable {t : RawTable}

/-! ## What the removals return -/

theorem foldl_takeIndexed {key : Link → ℕ} {ids : List LinkId} (hids : ids.Nodup)
    (p : HashMap LinkId Link × HashMap ℕ (List LinkId)) (out : List (LinkId × Link)) :
    ids.foldl (takeIndexed key) (p, out) = (ids.foldl (dropIndexed key) p,
      out ++ ids.filterMap fun i => (p.1.lookup i).map fun l => (i, l)) := by
  induction ids generalizing p out with
  | nil => simp
  | cons i ids ih =>
    obtain ⟨hi, hids⟩ := List.nodup_cons.1 hids
    rw [List.foldl_cons, List.foldl_cons]
    cases hl : p.1.lookup i with
    | none => simp only [takeIndexed, dropIndexed, hl, ih hids, List.filterMap_cons, Option.map_none]
    | some l =>
      simp only [takeIndexed, dropIndexed, hl, ih hids, List.filterMap_cons, Option.map_some,
        List.append_assoc, List.singleton_append]
      congr 3
      -- the ids that follow are other ones
      refine List.filterMap_congr fun j hj => ?_
      have hji : j ≠ i := fun h => hi (h ▸ hj)
      rw [HashMap.lookup_erase_eq, if_neg hji]

theorem WF.nodup_display (wf : t.WF) (d : DisplayId) : (t.displayLinkIds d).Nodup := by
  have h := wf.length_display d
  match hids : t.displayLinkIds d, h with
  | [], _ => exact List.nodup_nil
  | [i], _ => exact List.nodup_singleton i
  | _ :: _ :: _, h => simp at h

theorem WF.takeRenderer (wf : t.WF) (r : RendererId) :
    t.takeRenderer r = (t.removeRenderer r, t.removedWithRenderer r) := by
  rw [RawTable.takeRenderer, foldl_takeIndexed (wf.nodup_renderer r), List.nil_append]
  refine Prod.ext rfl ?_
  dsimp only
  rw [removedWithRenderer, List.map_filterMap]
  refine List.filterMap_congr fun i _ => ?_
  rw [Option.map_map]
  rfl

theorem takeLink_eq (t : RawTable) (lid : LinkId) :
    t.takeLink lid = (t.removeLink lid, t.getLink lid) := by
  unfold takeLink removeLink getLink
  cases t.links.lookup lid <;> rfl

theorem WF.takeDisplay (wf : t.WF) (d : DisplayId) :
    t.takeDisplay d = (t.removeDisplay d, t.linksForDisplay d) := by
  rw [RawTable.takeDisplay, foldl_takeIndexed (wf.nodup_display d), List.nil_append]
  refine Prod.ext rfl ?_
  dsimp only
  rw [List.map_filterMap, linksForDisplay]
  refine List.filterMap_congr fun i _ => ?_
  rw [Option.map_map]
  exact Option.map_id'

/-! ## A well-formed table -/

theorem WF.mem_linksForDisplay (wf : t.WF) {d : DisplayId} {l : Link} :
    l ∈ t.linksForDisplay d ↔ t.getLink l.id = some l ∧ l.displayId = d := by
  rw [linksForDisplay, List.mem_filterMap]
  constructor
  · rintro ⟨i, hi, hl⟩
    obtain ⟨k, hk, rfl⟩ := wf.mem_display.1 hi
    obtain rfl := Option.some_inj.1 (hk.symm.trans hl)
    exact ⟨by rw [wf.id_eq hl, getLink, hl], rfl⟩
  · rintro ⟨hl, hd⟩
    exact ⟨l.id, wf.mem_display.2 ⟨l, hl, hd⟩, hl⟩

theorem WF.mem_linksForRenderer (wf : t.WF) {r : RendererId} {l : Link} :
    l ∈ t.linksForRenderer r ↔ t.getLink l.id = some l ∧ l.rendererId = r := by
  rw [linksForRenderer, List.mem_filterMap]
  constructor
  · rintro ⟨i, hi, hl⟩
    obtain ⟨k, hk, rfl⟩ := wf.mem_renderer.1 hi
    obtain rfl := Option.some_inj.1 (hk.symm.trans hl)
    exact ⟨by rw [wf.id_eq hl, getLink, hl], rfl⟩
  · rintro ⟨hl, hr⟩
    exact ⟨l.id, wf.mem_renderer.2 ⟨l, hl, hr⟩, hl⟩

/-- Different ids lead to different links. -/
theorem WF.nodup_links (wf : t.WF) {ids : List LinkId} (hids : ids.Nodup) :
    (ids.filterMap t.links.lookup).Nodup := by
  refine hids.filterMap fun i j l hi hj => ?_
  rw [← wf.id_eq hi, wf.id_eq hj]

theorem WF.describes (wf : t.WF) : t.Describes where
  id_eq := wf.id_eq
  byDisplay := wf.mem_display
  byRenderer := wf.mem_renderer
  nodup_byDisplay := wf.nodup_display
  nodup_byRenderer := wf.nodup_renderer
  single {l k} hl hk hd := by
    have hids : l.id = k.id := by
      have hmem : l.id ∈ t.displayLinkIds k.displayId := wf.mem_display.2 ⟨l, hl, hd⟩
      have hmem' : k.id ∈ t.displayLinkIds k.displayId := wf.mem_display.2 ⟨k, hk, rfl⟩
      match h : t.displayLinkIds k.displayId, wf.length_display k.displayId with
      | [i], _ =>
        rw [h, List.mem_singleton] at hmem hmem'
        rw [hmem, hmem']
      | _ :: _ :: _, hlen => simp at hlen
      | [], _ => simp [h] at hmem
    exact Option.some_inj.1 ((hids ▸ hl).symm.trans hk)
  linksForDisplay := wf.mem_linksForDisplay
  linksForRenderer := wf.mem_linksForRenderer
  nodup_linksForDisplay d := wf.nodup_links (wf.nodup_display d)
  nodup_linksForRenderer r := wf.nodup_links (wf.nodup_renderer r)

/-- What a removal of the ids in `gone` loses. -/
theorem Without.loses {gone : List LinkId} {t' : RawTable} (h : Without gone t t')
    {p : Link → Prop} (hp : ∀ {l}, t.getLink l.id = some l → (l.id ∈ gone ↔ p l)) (wf : t.WF) :
    t.Loses (fun l => t.getLink l.id = some l ∧ p l) t' where
  disappear := fun ⟨hl, hpl⟩ => by rw [getLink, h.links, if_pos ((hp hl).2 hpl)]
  stay {i} hi := by
    rw [getLink, h.links]
    split
    · rename_i hgone
      cases hl : t.links.lookup i with
      | none => rw [getLink, hl]
      | some l =>
        have hid := wf.id_eq hl
        have hl' : t.getLink l.id = some l := by rw [hid, getLink, hl]
        exact absurd hid (hi l ⟨hl', (hp hl').1 (hid ▸ hgone)⟩)
    · rfl

end RawTable

/-! ## One operation -/

namespace TableOp

variable {t : RawTable}

theorem wf_exec (wf : t.WF) (op : TableOp) : (op.exec t).1.WF := by
  cases op with
  | addRenderer h => exact (RoutingTable.addRenderer ⟨t, wf⟩ h).wf
  | removeRenderer r =>
    rw [exec, wf.takeRenderer]
    exact wf.without (wf.removeRenderer r)
  | addLink r d => exact wf.addLink r d
  | updateLinkGeometry lid g => exact wf.updateLinkGeometry lid g
  | removeLink lid =>
    rw [exec, t.takeLink_eq]
    exact wf.without (wf.removeLink lid)
  | removeDisplay d =>
    rw [exec, wf.takeDisplay]
    exact wf.without (wf.removeDisplay d)

theorem names_exec (wf : t.WF) {op : TableOp} (hop : op.isRemoval = true) :
    (op.exec t).2.Names fun l => t.getLink l.id = some l ∧ op.Removes l := by
  cases op with
  | removeRenderer r =>
    rw [exec, wf.takeRenderer]
    refine ⟨?_, fun i d => ?_⟩
    · refine (wf.nodup_renderer r).filterMap fun i j e hi hj => ?_
      obtain ⟨l, -, rfl⟩ := Option.map_eq_some_iff.1 hi
      obtain ⟨k, -, hk⟩ := Option.map_eq_some_iff.1 hj
      exact (congrArg Prod.fst hk).symm
    · rw [RawTable.removedWithRenderer, List.mem_filterMap]
      constructor
      · rintro ⟨j, hj, he⟩
        obtain ⟨l, hl, he⟩ := Option.map_eq_some_iff.1 he
        obtain ⟨rfl, rfl⟩ := Prod.mk.inj he
        obtain ⟨k, hk, hr⟩ := wf.mem_renderer.1 hj
        obtain rfl := Option.some_inj.1 (hk.symm.trans hl)
        have hid := wf.id_eq hl
        exact ⟨k, ⟨by rw [hid, RawTable.getLink, hl], hr⟩, hid, rfl⟩
      · rintro ⟨l, ⟨hl, hr⟩, rfl, rfl⟩
        exact ⟨l.id, wf.mem_renderer.2 ⟨l, hl, hr⟩, Option.map_eq_some_iff.2 ⟨l, hl, rfl⟩⟩
  | removeLink lid =>
    rw [exec, t.takeLink_eq]
    intro l
    constructor
    · intro hl
      have hid := wf.id_eq hl
      exact ⟨hid.symm ▸ hl, hid⟩
    · rintro ⟨hl, rfl⟩
      exact hl
  | removeDisplay d =>
    rw [exec, wf.takeDisplay]
    exact ⟨wf.nodup_links (wf.nodup_display d), fun l => wf.mem_linksForDisplay⟩
  | _ => cases hop

theorem loses_exec (wf : t.WF) {op : TableOp} (hop : op.isRemoval = true) :
    t.Loses (fun l => t.getLink l.id = some l ∧ op.Removes l) (op.exec t).1 := by
  cases op with
  | removeRenderer r =>
    rw [exec, wf.takeRenderer]
    refine (wf.removeRenderer r).loses (fun {l} hl => ?_) wf
    rw [wf.mem_renderer]
    exact ⟨fun ⟨k, hk, hr⟩ => Option.some_inj.1 (hk.symm.trans hl) ▸ hr, fun hr => ⟨l, hl, hr⟩⟩
  | removeLink lid =>
    rw [exec, t.takeLink_eq]
    exact (wf.removeLink lid).loses (fun _ => List.mem_singleton) wf
  | removeDisplay d =>
    rw [exec, wf.takeDisplay]
    refine (wf.removeDisplay d).loses (fun {l} hl => ?_) wf
    rw [wf.mem_display]
    exact ⟨fun ⟨k, hk, hd⟩ => Option.some_inj.1 (hk.symm.trans hl) ▸ hd, fun hd => ⟨l, hl, hd⟩⟩
  | _ => cases hop

theorem nextLinkId_foldl_removeLink (t : RawTable) (ids : List LinkId) :
    (ids.foldl RawTable.removeLink t).nextLinkId = t.nextLinkId := by
  induction ids generalizing t with
  | nil => rfl
  | cons i ids ih =>
    rw [List.foldl_cons, ih]
    unfold RawTable.removeLink
    cases t.links.lookup i <;> rfl

/-- An added link gets the next number, and nothing else draws one. -/
theorem exec_numbers (wf : t.WF) (op : TableOp) :
    (op.exec t).1.nextLinkId = t.nextLinkId + (if op.isAddLink then 1 else 0) ∧
      (op.exec t).2.addedId = if op.isAddLink then some (t.nextLinkId + 1) else none := by
  cases op with
  | addRenderer h => exact ⟨rfl, rfl⟩
  | removeRenderer r =>
    rw [exec, wf.takeRenderer]
    exact ⟨rfl, rfl⟩
  | addLink r d =>
    have h := nextLinkId_foldl_removeLink t (t.displayLinkIds d)
    exact ⟨congrArg (· + 1) h, congrArg (fun n => some (n + 1)) h⟩
  | updateLinkGeometry lid g =>
    refine ⟨?_, rfl⟩
    simp only [exec, RawTable.updateLinkGeometry, isAddLink]
    cases t.links.lookup lid <;> rfl
  | removeLink lid =>
    rw [exec, t.takeLink_eq]
    exact ⟨(wf.removeLink lid).next, rfl⟩
  | removeDisplay d =>
    rw [exec, wf.takeDisplay]
    exact ⟨rfl, rfl⟩

/-- A link after an operation was there before, under the same id, or it has been added. -/
theorem stored_exec (wf : t.WF) (op : TableOp) {i : LinkId}
    (h : ∃ l, (op.exec t).1.getLink i = some l) :
    (∃ l, t.getLink i = some l) ∨ (op.exec t).2.addedId = some i := by
  have hremoval (hop : op.isRemoval = true) : ∃ l, t.getLink i = some l := by
    by_contra hnone
    have hstay := (loses_exec wf hop).stay (i := i) fun l hl hid => hnone ⟨l, hid ▸ hl.1⟩
    rw [hstay] at h
    exact hnone h
  cases op with
  | addRenderer h' => exact .inl h
  | removeRenderer r => exact .inl (hremoval rfl)
  | addLink r d =>
    obtain ⟨l, hl⟩ := h
    have hgone := (wf.foldl_removeLink (t.displayLinkIds d)).lookup_eq_some (i := i) (l := l)
    rw [exec, RawTable.getLink, RawTable.addLink, HashMap.lookup_insert_eq] at hl
    split at hl
    · rename_i hi
      exact .inr (congrArg some hi.symm)
    · exact .inl ⟨l, (hgone.1 hl).2⟩
  | updateLinkGeometry lid g =>
    obtain ⟨l, hl⟩ := h
    refine .inl ?_
    simp only [exec, RawTable.updateLinkGeometry, RawTable.getLink] at hl ⊢
    cases hlid : t.links.lookup lid with
    | none =>
      rw [hlid] at hl
      exact ⟨l, hl⟩
    | some k =>
      simp only [hlid, HashMap.lookup_insert_eq] at hl
      split at hl
      · rename_i hi
        exact ⟨k, hi ▸ hlid⟩
      · exact ⟨l, hl⟩
  | removeLink lid => exact .inl (hremoval rfl)
  | removeDisplay d => exact .inl (hremoval rfl)

/-! ## Any sequence of operations -/

theorem wf_execAll (wf : t.WF) (ops : List TableOp) : (execAll t ops).1.WF := by
  induction ops generalizing t with
  | nil => exact wf
  | cons op ops ih => exact ih (wf_exec wf op)

theorem execAll_numbers (wf : t.WF) (ops : List TableOp) :
    (execAll t ops).1.nextLinkId = t.nextLinkId + ops.countP isAddLink ∧
      (execAll t ops).2.filterMap TableReply.addedId =
        List.range' (t.nextLinkId + 1) (ops.countP isAddLink) := by
  induction ops generalizing t with
  | nil => exact ⟨rfl, rfl⟩
  | cons op ops ih =>
    obtain ⟨hnext, hadded⟩ := exec_numbers wf op
    obtain ⟨hnext', hadded'⟩ := ih (wf_exec wf op)
    rw [execAll, List.countP_cons, hnext', hnext, List.filterMap_cons, hadded, hadded', hnext]
    cases op.isAddLink with
    | false => exact ⟨rfl, rfl⟩
    | true =>
      exact ⟨(Nat.add_assoc ..).trans (congrArg (t.nextLinkId + ·) (Nat.add_comm ..)),
        (List.range'_succ ..).symm⟩

theorem stored_execAll (wf : t.WF) (ops : List TableOp) {i : LinkId}
    (h : ∃ l, (execAll t ops).1.getLink i = some l) :
    (∃ l, t.getLink i = some l) ∨ i ∈ (execAll t ops).2.filterMap TableReply.addedId := by
  induction ops generalizing t with
  | nil => exact .inl h
  | cons op ops ih =>
    rcases ih (wf_exec wf op) h with h | hi
    · rcases stored_exec wf op h with h | hadded
      · exact .inl h
      · exact .inr (List.mem_filterMap.2 ⟨_, List.mem_cons_self, hadded⟩)
    · obtain ⟨r, hr, hid⟩ := List.mem_filterMap.1 hi
      exact .inr (List.mem_filterMap.2 ⟨r, List.mem_cons_of_mem _ hr, hid⟩)

end TableOp

/-- After any sequence of operations on an empty table the links and the indexes describe each
other, the ids that were given are different and fit their type, and any removal that follows
returns what disappears. -/
theorem described_of_ops (ops : List TableOp) (hcalls : ops.countP TableOp.isAddLink < 2 ^ 64) :
    (TableOp.execAll .new ops).1.Describes ∧
      ((TableOp.execAll .new ops).2.filterMap TableReply.addedId).Pairwise (· < ·) ∧
      (∀ id ∈ (TableOp.execAll .new ops).2.filterMap TableReply.addedId, id < 2 ^ 64) ∧
      (∀ i l, (TableOp.execAll .new ops).1.getLink i = some l →
        i ∈ (TableOp.execAll .new ops).2.filterMap TableReply.addedId) ∧
      ∀ op : TableOp, op.isRemoval = true →
        let t := (TableOp.execAll .new ops).1
        (op.exec t).2.Names (fun l => t.getLink l.id = some l ∧ op.Removes l) ∧
          t.Loses (fun l => t.getLink l.id = some l ∧ op.Removes l) (op.exec t).1 := by
  have wf := TableOp.wf_execAll RawTable.wf_new ops
  obtain ⟨hnext, hadded⟩ := TableOp.execAll_numbers RawTable.wf_new ops
  refine ⟨wf.describes, ?_, fun id hid => ?_, fun i l hl => ?_, fun op hop =>
    ⟨TableOp.names_exec wf hop, TableOp.loses_exec wf hop⟩⟩
  · rw [hadded]
    exact List.pairwise_lt_range'
  · rw [hadded, List.mem_range'_1, Nat.add_right_comm] at hid
    exact (Nat.le_of_lt_succ hid.2).trans_lt ((Nat.zero_add _).trans_lt hcalls)
  · rcases TableOp.stored_execAll RawTable.wf_new ops ⟨l, hl⟩ with ⟨k, hk⟩ | hi
    · cases hk
    · exact hi

/-- Two links of one display and the removal of its renderer. -/
theorem described_relinked :
    [TableOp.addLink 1 1, .addLink 2 1, .removeRenderer 2].countP TableOp.isAddLink < 2 ^ 64 ∧
      (TableOp.execAll .new [.addLink 1 1, .addLink 2 1, .removeRenderer 2]).1.Describes :=
  ⟨by decide, (described_of_ops [.addLink 1 1, .addLink 2 1, .removeRenderer 2] (by decide)).1⟩

end Waywallen
