import Mathlib.Algebra.Order.Monoid.Unbundled.WithTop
import Waywallen.Renderer.Handle

/-!
# The routing table

Renderers, links and the two indexes of the links. `RawTable` has the operations as the program
computes them; `RawTable.WF` is what they keep: both indexes list exactly the links of their key,
and a display has at most one link. `RoutingTable` is a table with the proof that it is well
formed, and `linkOf`, the link of a display, is all that can be observed of its links.
-/

namespace Waywallen

abbrev LinkId := ℕ

/-- A rectangle whose size may be the sentinel `⊤` (`f32::INFINITY`). -/
structure LinkRect where
  x : ℚ
  y : ℚ
  w : WithTop ℚ
  h : WithTop ℚ
deriving DecidableEq

/-- Use the renderer's full texture, or the display's full surface. -/
def LinkRect.full : LinkRect := ⟨0, 0, ⊤, ⊤⟩

/-- A single renderer-to-display routing edge. -/
structure Link where
  id : LinkId
  rendererId : RendererId
  displayId : DisplayId
  enabled : Bool
  srcRect : LinkRect
  dstRect : LinkRect
  transform : UInt32
  clearRgba : Rgba
  zOrder : ℤ
deriving DecidableEq

/-- What a geometry update may set; `none` leaves a field alone. -/
structure LinkGeometry where
  src : Option LinkRect
  dst : Option LinkRect
  transform : Option UInt32
  clearRgba : Option Rgba
  zOrder : Option ℤ
deriving DecidableEq

def LinkGeometry.applyTo (g : LinkGeometry) (l : Link) : Link :=
  { l with
    srcRect := g.src.getD l.srcRect
    dstRect := g.dst.getD l.dstRect
    transform := g.transform.getD l.transform
    clearRgba := g.clearRgba.getD l.clearRgba
    zOrder := g.zOrder.getD l.zOrder }

/-- The link `addLink` makes. -/
def Link.fresh (id : LinkId) (r : RendererId) (d : DisplayId) : Link :=
  ⟨id, r, d, true, .full, .full, 0, Rgba.black, 0⟩

structure RawTable where
  nextLinkId : LinkId
  renderers : HashMap RendererId RendererHandle
  links : HashMap LinkId Link
  byDisplay : HashMap DisplayId (List LinkId)
  byRenderer : HashMap RendererId (List LinkId)

namespace RawTable

def new : RawTable := ⟨0, ∅, ∅, ∅, ∅⟩

variable (t : RawTable)

def displayLinkIds (d : DisplayId) : List LinkId := (t.byDisplay.lookup d).getD []

def rendererLinkIds (r : RendererId) : List LinkId := (t.byRenderer.lookup r).getD []

def addRenderer (h : RendererHandle) : RawTable :=
  { t with renderers := t.renderers.insert h.id h }

/-- Take a link out of the link map and out of one index, the one keyed by `key`. -/
def dropIndexed (key : Link → ℕ) (p : HashMap LinkId Link × HashMap ℕ (List LinkId))
    (lid : LinkId) : HashMap LinkId Link × HashMap ℕ (List LinkId) :=
  match p.1.lookup lid with
  | none => p
  | some l => (p.1.erase lid, p.2.modify (key l) (·.filter (· != lid)))

/-- The (link, display) pairs `removeRenderer` removes. -/
def removedWithRenderer (r : RendererId) : List (LinkId × DisplayId) :=
  (t.rendererLinkIds r).filterMap fun lid =>
    (t.links.lookup lid).map fun l => (lid, l.displayId)

/-- Remove a renderer and the links pointing at it. -/
def removeRenderer (r : RendererId) : RawTable :=
  let dropped := (t.rendererLinkIds r).foldl (dropIndexed Link.displayId) (t.links, t.byDisplay)
  { t with
    renderers := t.renderers.erase r
    byRenderer := t.byRenderer.erase r
    links := dropped.1
    byDisplay := dropped.2 }

def removeLink (lid : LinkId) : RawTable :=
  match t.links.lookup lid with
  | none => t
  | some l => { t with
      links := t.links.erase lid
      byDisplay := t.byDisplay.modify l.displayId (·.filter (· != lid))
      byRenderer := t.byRenderer.modify l.rendererId (·.filter (· != lid)) }

/-- Add a link and return its id, first deleting any prior link of the display. -/
def addLink (r : RendererId) (d : DisplayId) : RawTable × LinkId :=
  let t := (t.displayLinkIds d).foldl removeLink t
  let id := t.nextLinkId + 1
  ({ t with
      nextLinkId := id
      links := t.links.insert id (.fresh id r d)
      byDisplay := t.byDisplay.insert d (t.displayLinkIds d ++ [id])
      byRenderer := t.byRenderer.insert r (t.rendererLinkIds r ++ [id]) }, id)

/-- Mutate a link in place; whether the link existed and any field changed. -/
def updateLinkGeometry (lid : LinkId) (g : LinkGeometry) : RawTable × Bool :=
  match t.links.lookup lid with
  | none => (t, false)
  | some l => ({ t with links := t.links.insert lid (g.applyTo l) }, g.applyTo l != l)

def getLink (lid : LinkId) : Option Link := t.links.lookup lid

def linksForDisplay (d : DisplayId) : List Link :=
  (t.displayLinkIds d).filterMap t.links.lookup

def linksForRenderer (r : RendererId) : List Link :=
  (t.rendererLinkIds r).filterMap t.links.lookup

def removeDisplay (d : DisplayId) : RawTable :=
  let dropped := (t.displayLinkIds d).foldl (dropIndexed Link.rendererId) (t.links, t.byRenderer)
  { t with
    byDisplay := t.byDisplay.erase d
    links := dropped.1
    byRenderer := dropped.2 }

def getRenderer (r : RendererId) : Option RendererHandle := t.renderers.lookup r

def rendererIds : List RendererId := t.renderers.keys

/-- The smallest renderer id, to seed a new display's initial link. -/
def firstRenderer : Option RendererId := t.renderers.keys.min?

/-! ## Well-formedness -/

/-- Both indexes describe the link map, and no display has two links. -/
structure WF : Prop where
  handle_id : ∀ {r h}, t.renderers.lookup r = some h → h.id = r
  id_eq : ∀ {i l}, t.links.lookup i = some l → l.id = i
  id_le : ∀ {i l}, t.links.lookup i = some l → i ≤ t.nextLinkId
  enabled : ∀ {i l}, t.links.lookup i = some l → l.enabled = true
  mem_display : ∀ {d i}, i ∈ t.displayLinkIds d ↔ ∃ l, t.links.lookup i = some l ∧ l.displayId = d
  mem_renderer : ∀ {r i},
    i ∈ t.rendererLinkIds r ↔ ∃ l, t.links.lookup i = some l ∧ l.rendererId = r
  nodup_renderer : ∀ r, (t.rendererLinkIds r).Nodup
  length_display : ∀ d, (t.displayLinkIds d).length ≤ 1

theorem wf_new : new.WF := by
  constructor <;> simp [new, displayLinkIds, rendererLinkIds]

variable {t}

/-- `t'` holds the links of `t` but those whose id is in `gone`, and no new renderer. -/
structure Without (gone : List LinkId) (t t' : RawTable) : Prop where
  handles : ∀ {r h}, t'.renderers.lookup r = some h → t.renderers.lookup r = some h
  next : t'.nextLinkId = t.nextLinkId
  links : ∀ i, t'.links.lookup i = if i ∈ gone then none else t.links.lookup i
  display : ∀ d, t'.displayLinkIds d = (t.displayLinkIds d).filter (· ∉ gone)
  renderer : ∀ r, t'.rendererLinkIds r = (t.rendererLinkIds r).filter (· ∉ gone)

theorem Without.lookup_eq_some {gone : List LinkId} {t' : RawTable} (h : Without gone t t')
    {i : LinkId} {l : Link} :
    t'.links.lookup i = some l ↔ i ∉ gone ∧ t.links.lookup i = some l := by
  rw [h.links]
  by_cases hi : i ∈ gone <;> simp [hi]

theorem WF.without (wf : t.WF) {gone : List LinkId} {t' : RawTable} (h : Without gone t t') :
    t'.WF where
  handle_id hh := wf.handle_id (h.handles hh)
  id_eq hl := wf.id_eq (h.lookup_eq_some.1 hl).2
  id_le hl := h.next ▸ wf.id_le (h.lookup_eq_some.1 hl).2
  enabled hl := wf.enabled (h.lookup_eq_some.1 hl).2
  mem_display {d i} := by
    simp only [h.display, List.mem_filter, decide_eq_true_eq, wf.mem_display, h.lookup_eq_some]
    exact ⟨fun ⟨⟨l, hl, hd⟩, hi⟩ => ⟨l, ⟨hi, hl⟩, hd⟩, fun ⟨l, ⟨hi, hl⟩, hd⟩ => ⟨⟨l, hl, hd⟩, hi⟩⟩
  mem_renderer {r i} := by
    simp only [h.renderer, List.mem_filter, decide_eq_true_eq, wf.mem_renderer, h.lookup_eq_some]
    exact ⟨fun ⟨⟨l, hl, hd⟩, hi⟩ => ⟨l, ⟨hi, hl⟩, hd⟩, fun ⟨l, ⟨hi, hl⟩, hd⟩ => ⟨⟨l, hl, hd⟩, hi⟩⟩
  nodup_renderer r := by
    rw [h.renderer]
    exact (wf.nodup_renderer r).filter _
  length_display d := by
    rw [h.display]
    exact (List.length_filter_le _ _).trans (wf.length_display d)

theorem filter_filter_not_mem (is js ks : List LinkId) :
    (is.filter (· ∉ js)).filter (· ∉ ks) = is.filter (· ∉ js ++ ks) := by
  rw [List.filter_filter]
  refine List.filter_congr fun i _ => ?_
  by_cases hj : i ∈ js <;> by_cases hk : i ∈ ks <;> simp [hj, hk]

theorem filter_not_mem_self {is : List LinkId} {i : LinkId} (h : i ∉ is) :
    is.filter (· ∉ [i]) = is :=
  List.filter_eq_self.2 fun a ha => by
    have : a ≠ i := fun hai => h (hai ▸ ha)
    simpa using this

theorem Without.refl (t : RawTable) : Without [] t t :=
  ⟨id, rfl, by simp, by simp, by simp⟩

theorem Without.trans {gone gone' : List LinkId} {t' t'' : RawTable} (h : Without gone t t')
    (h' : Without gone' t' t'') : Without (gone ++ gone') t t'' where
  handles hh := h.handles (h'.handles hh)
  next := h'.next.trans h.next
  links i := by
    rw [h'.links, h.links]
    by_cases hi : i ∈ gone <;> by_cases hi' : i ∈ gone' <;> simp [hi, hi']
  display d := by rw [h'.display, h.display, filter_filter_not_mem]
  renderer r := by rw [h'.renderer, h.renderer, filter_filter_not_mem]

/-! ### Indexes -/

section Index

variable {links : HashMap LinkId Link} {index : HashMap ℕ (List LinkId)} {key : Link → ℕ}

/-- Every entry of an index is a link of its key. -/
def IndexSound (key : Link → ℕ) (links : HashMap LinkId Link) (index : HashMap ℕ (List LinkId)) :
    Prop :=
  ∀ k, ∀ i ∈ (index.lookup k).getD [], ∃ l, links.lookup i = some l ∧ key l = k

theorem getD_lookup_modify {k j : ℕ} {f : List LinkId → List LinkId} (hf : f [] = []) :
    ((index.modify k f).lookup j).getD [] =
      if j = k then f ((index.lookup j).getD []) else (index.lookup j).getD [] := by
  rw [HashMap.lookup_modify]
  by_cases h : j = k
  · subst h
    cases index.lookup j <;> simp [hf]
  · simp [h]

/-- In a sound index, taking a link out of the list of its key takes it out of every list. -/
theorem IndexSound.filter (h : IndexSound key links index) {i : LinkId} {l : Link}
    (hl : links.lookup i = some l) (j : ℕ) :
    ((index.modify (key l) (·.filter (· != i))).lookup j).getD [] =
      ((index.lookup j).getD []).filter (· ∉ [i]) := by
  rw [getD_lookup_modify (by simp)]
  have hfilter : (fun x => decide (x ∉ [i])) = (· != i) := by
    funext x
    by_cases hx : x = i <;> simp [hx]
  by_cases hj : j = key l
  · rw [if_pos hj, hfilter]
  · rw [if_neg hj, filter_not_mem_self]
    intro hi
    obtain ⟨l', hl', rfl⟩ := h j i hi
    rw [hl, Option.some_inj] at hl'
    exact hj (hl' ▸ rfl)

theorem IndexSound.not_mem (h : IndexSound key links index) {i : LinkId}
    (hl : links.lookup i = none) (j : ℕ) : i ∉ (index.lookup j).getD [] := fun hi => by
  obtain ⟨l, hl', -⟩ := h j i hi
  simp [hl] at hl'

/-- What dropping links from a sound index leaves. -/
theorem IndexSound.foldl_dropIndexed (h : IndexSound key links index) (ids : List LinkId) :
    (∀ i, (ids.foldl (dropIndexed key) (links, index)).1.lookup i =
      if i ∈ ids then none else links.lookup i) ∧
    ∀ j, ((ids.foldl (dropIndexed key) (links, index)).2.lookup j).getD [] =
      ((index.lookup j).getD []).filter (· ∉ ids) := by
  induction ids generalizing links index with
  | nil => simp
  | cons i ids ih =>
    have hstep : ∃ links' index', dropIndexed key (links, index) i = (links', index') ∧
        (∀ j, links'.lookup j = if j = i then none else links.lookup j) ∧
        ∀ j, (index'.lookup j).getD [] = ((index.lookup j).getD []).filter (· ∉ [i]) := by
      unfold dropIndexed
      cases hl : links.lookup i with
      | none =>
        refine ⟨links, index, rfl, fun j => ?_, fun j => ?_⟩
        · by_cases hj : j = i
          · rw [if_pos hj, hj, hl]
          · rw [if_neg hj]
        · rw [filter_not_mem_self (h.not_mem hl j)]
      | some l =>
        refine ⟨_, _, rfl, fun j => ?_, h.filter hl⟩
        exact HashMap.lookup_erase_eq links i j
    obtain ⟨links', index', heq, hlinks, hindex⟩ := hstep
    have hsound : IndexSound key links' index' := fun j k hk => by
      rw [hindex, List.mem_filter] at hk
      obtain ⟨l, hl, hj⟩ := h j k hk.1
      refine ⟨l, ?_, hj⟩
      rw [hlinks, if_neg (by simpa using hk.2), hl]
    obtain ⟨h₁, h₂⟩ := ih hsound
    rw [List.foldl_cons, heq]
    refine ⟨fun j => ?_, fun j => ?_⟩
    · rw [h₁, hlinks]
      by_cases hj : j = i <;> by_cases hj' : j ∈ ids <;> simp [hj, hj']
    · rw [h₂, hindex, filter_filter_not_mem]
      rfl

end Index

theorem WF.displaySound (wf : t.WF) : IndexSound Link.displayId t.links t.byDisplay :=
  fun _ _ hi => wf.mem_display.1 hi

theorem WF.rendererSound (wf : t.WF) : IndexSound Link.rendererId t.links t.byRenderer :=
  fun _ _ hi => wf.mem_renderer.1 hi

/-! ### What each operation keeps -/

theorem WF.removeLink (wf : t.WF) (lid : LinkId) : Without [lid] t (t.removeLink lid) := by
  unfold RawTable.removeLink
  cases hl : t.links.lookup lid with
  | none =>
    refine ⟨id, rfl, fun i => ?_,
      fun d => (filter_not_mem_self (wf.displaySound.not_mem hl d)).symm,
      fun r => (filter_not_mem_self (wf.rendererSound.not_mem hl r)).symm⟩
    by_cases hi : i = lid
    · subst hi
      simp [hl]
    · simp [hi]
  | some l =>
    refine ⟨id, rfl, fun i => ?_, wf.displaySound.filter hl, wf.rendererSound.filter hl⟩
    rw [HashMap.lookup_erase_eq]
    simp

theorem WF.foldl_removeLink (wf : t.WF) (ids : List LinkId) :
    Without ids t (ids.foldl RawTable.removeLink t) := by
  induction ids generalizing t with
  | nil => exact .refl t
  | cons i ids ih =>
    have h := wf.removeLink i
    exact h.trans (ih (wf.without h))

/-- Erasing the whole list of a key is filtering its links out of every list. -/
theorem getD_lookup_erase {m : HashMap ℕ (List LinkId)} {k : ℕ} {is : List LinkId}
    (hk : (m.lookup k).getD [] = is) (h : ∀ j, j ≠ k → ∀ i ∈ (m.lookup j).getD [], i ∉ is)
    (j : ℕ) : ((m.erase k).lookup j).getD [] = ((m.lookup j).getD []).filter (· ∉ is) := by
  rw [HashMap.lookup_erase_eq]
  by_cases hj : j = k
  · rw [if_pos hj, hj, hk, Option.getD_none, eq_comm, List.filter_eq_nil_iff]
    simp
  · rw [if_neg hj, eq_comm, List.filter_eq_self]
    exact fun i hi => by simpa using h j hj i hi

theorem WF.removeRenderer (wf : t.WF) (r : RendererId) :
    Without (t.rendererLinkIds r) t (t.removeRenderer r) := by
  obtain ⟨hlinks, hindex⟩ := wf.displaySound.foldl_dropIndexed (t.rendererLinkIds r)
  refine ⟨fun {q h} hh => ?_, rfl, hlinks, hindex,
    getD_lookup_erase rfl fun q hq i hi hi' => ?_⟩
  · have hh : (t.renderers.erase r).lookup q = some h := hh
    rw [HashMap.lookup_erase_eq] at hh
    split at hh
    · cases hh
    · exact hh
  obtain ⟨l, hl, rfl⟩ := wf.mem_renderer.1 hi
  obtain ⟨l', hl', rfl⟩ := wf.mem_renderer.1 hi'
  rw [hl, Option.some_inj] at hl'
  exact hq (hl' ▸ rfl)

theorem WF.removeDisplay (wf : t.WF) (d : DisplayId) :
    Without (t.displayLinkIds d) t (t.removeDisplay d) := by
  obtain ⟨hlinks, hindex⟩ := wf.rendererSound.foldl_dropIndexed (t.displayLinkIds d)
  refine ⟨id, rfl, hlinks, getD_lookup_erase rfl fun e he i hi hi' => ?_, hindex⟩
  obtain ⟨l, hl, rfl⟩ := wf.mem_display.1 hi
  obtain ⟨l', hl', rfl⟩ := wf.mem_display.1 hi'
  rw [hl, Option.some_inj] at hl'
  exact he (hl' ▸ rfl)

theorem renderers_removeLink (t : RawTable) (lid : LinkId) :
    (t.removeLink lid).renderers = t.renderers := by
  unfold RawTable.removeLink
  cases t.links.lookup lid <;> rfl

theorem renderers_foldl_removeLink (t : RawTable) (ids : List LinkId) :
    (ids.foldl RawTable.removeLink t).renderers = t.renderers := by
  induction ids generalizing t with
  | nil => rfl
  | cons i ids ih => rw [List.foldl_cons, ih, renderers_removeLink]

/-- `addLink` on a display that has no link left. -/
theorem WF.addFresh (wf : t.WF) {r : RendererId} {d : DisplayId} (hd : t.displayLinkIds d = []) :
    WF { t with
      nextLinkId := t.nextLinkId + 1
      links := t.links.insert (t.nextLinkId + 1) (.fresh (t.nextLinkId + 1) r d)
      byDisplay := t.byDisplay.insert d (t.displayLinkIds d ++ [t.nextLinkId + 1])
      byRenderer := t.byRenderer.insert r (t.rendererLinkIds r ++ [t.nextLinkId + 1]) } := by
  have hnew : t.links.lookup (t.nextLinkId + 1) = none := by
    cases hl : t.links.lookup (t.nextLinkId + 1) with
    | none => rfl
    | some l => exact absurd (wf.id_le hl) (Nat.not_succ_le_self _)
  have hdisplay : ∀ e, ((t.byDisplay.insert d (t.displayLinkIds d ++
      [t.nextLinkId + 1])).lookup e).getD [] =
        if e = d then [t.nextLinkId + 1] else t.displayLinkIds e := fun e => by
    rw [HashMap.lookup_insert_eq]
    by_cases he : e = d
    · simp [he, hd]
    · simp [he, displayLinkIds]
  have hrenderer : ∀ q, ((t.byRenderer.insert r (t.rendererLinkIds r ++
      [t.nextLinkId + 1])).lookup q).getD [] =
        if q = r then t.rendererLinkIds r ++ [t.nextLinkId + 1] else t.rendererLinkIds q :=
    fun q => by
      rw [HashMap.lookup_insert_eq]
      by_cases hq : q = r <;> simp [hq, rendererLinkIds]
  have hmem : ∀ q, t.nextLinkId + 1 ∉ t.rendererLinkIds q := fun q hi => by
    obtain ⟨l, hl, -⟩ := wf.mem_renderer.1 hi
    simp [hnew] at hl
  refine ⟨wf.handle_id, ?_, ?_, ?_, ?_, ?_, ?_, ?_⟩
  · intro i l hl
    rw [HashMap.lookup_insert_eq] at hl
    split at hl
    · rename_i hi
      rw [← Option.some_inj.1 hl, hi]
      rfl
    · exact wf.id_eq hl
  · intro i l hl
    rw [HashMap.lookup_insert_eq] at hl
    split at hl
    · exact le_of_eq ‹_›
    · exact Nat.le_succ_of_le (wf.id_le hl)
  · intro i l hl
    rw [HashMap.lookup_insert_eq] at hl
    split at hl
    · rw [← Option.some_inj.1 hl]
      rfl
    · exact wf.enabled hl
  · intro e i
    simp only [displayLinkIds] at hdisplay ⊢
    rw [hdisplay, HashMap.lookup_insert_eq]
    by_cases hi : i = t.nextLinkId + 1
    · subst hi
      by_cases he : e = d
      · simp [he, Link.fresh]
      · simp only [if_neg he, if_true, Option.some_inj, exists_eq_left', Link.fresh]
        refine ⟨fun h => ?_, fun h => absurd h.symm he⟩
        obtain ⟨l, hl, -⟩ := wf.mem_display.1 h
        simp [hnew] at hl
    · rw [if_neg hi, ← wf.mem_display]
      by_cases he : e = d
      · subst he
        simp [hi, hd]
      · simp [he, displayLinkIds]
  · intro q i
    simp only [rendererLinkIds] at hrenderer hmem ⊢
    rw [hrenderer, HashMap.lookup_insert_eq]
    by_cases hi : i = t.nextLinkId + 1
    · subst hi
      by_cases hq : q = r
      · simp [hq, Link.fresh]
      · simp only [if_neg hq, if_true, Option.some_inj, exists_eq_left', Link.fresh]
        exact ⟨fun h => absurd h (hmem q), fun h => absurd h.symm hq⟩
    · rw [if_neg hi, ← wf.mem_renderer]
      by_cases hq : q = r
      · subst hq
        simp [hi, rendererLinkIds]
      · simp [hq, rendererLinkIds]
  · intro q
    simp only [rendererLinkIds] at hrenderer hmem ⊢
    rw [hrenderer]
    by_cases hq : q = r
    · rw [if_pos hq, List.nodup_append]
      refine ⟨wf.nodup_renderer r, List.nodup_singleton _, fun a ha b hb hab => ?_⟩
      rw [List.mem_singleton] at hb
      exact hmem r (hb ▸ hab ▸ ha)
    · rw [if_neg hq]
      exact wf.nodup_renderer q
  · intro e
    simp only [displayLinkIds] at hdisplay ⊢
    rw [hdisplay]
    by_cases he : e = d
    · simp [he]
    · rw [if_neg he]
      exact wf.length_display e

theorem WF.addLink (wf : t.WF) (r : RendererId) (d : DisplayId) : (t.addLink r d).1.WF := by
  have h := wf.foldl_removeLink (t.displayLinkIds d)
  refine WF.addFresh (wf.without h) ?_
  rw [h.display, List.filter_eq_nil_iff]
  simp

theorem WF.updateLinkGeometry (wf : t.WF) (lid : LinkId) (g : LinkGeometry) :
    (t.updateLinkGeometry lid g).1.WF := by
  unfold RawTable.updateLinkGeometry
  cases hl : t.links.lookup lid with
  | none => exact wf
  | some l =>
    -- the update changes neither the id nor the ends of the link
    have key : ∀ i (p : Link → Prop), p (g.applyTo l) = p l →
        ((∃ k, (t.links.insert lid (g.applyTo l)).lookup i = some k ∧ p k) ↔
          ∃ k, t.links.lookup i = some k ∧ p k) := fun i p hp => by
      rw [HashMap.lookup_insert_eq]
      by_cases hi : i = lid
      · subst hi
        simp [hl, hp]
      · rw [if_neg hi]
    have all : ∀ {p : LinkId → Link → Prop}, (∀ {i k}, t.links.lookup i = some k → p i k) →
        p lid (g.applyTo l) →
        ∀ {i k}, (t.links.insert lid (g.applyTo l)).lookup i = some k → p i k := by
      intro p hp hpl i k hk
      rw [HashMap.lookup_insert_eq] at hk
      split at hk
      · rename_i hi
        rw [hi, ← Option.some_inj.1 hk]
        exact hpl
      · exact hp hk
    exact
      { handle_id := wf.handle_id
        id_eq := all (p := fun i k => k.id = i) wf.id_eq (wf.id_eq hl : l.id = lid)
        id_le := all (p := fun i _ => i ≤ t.nextLinkId) wf.id_le (wf.id_le hl)
        enabled := all (p := fun _ k => k.enabled = true) wf.enabled
          (wf.enabled hl : l.enabled = true)
        mem_display := wf.mem_display.trans (key _ (fun k => k.displayId = _) rfl).symm
        mem_renderer := wf.mem_renderer.trans (key _ (fun k => k.rendererId = _) rfl).symm
        nodup_renderer := wf.nodup_renderer
        length_display := wf.length_display }

end RawTable

/-! ## The table -/

/-- A routing table: well formed by construction. -/
structure RoutingTable where
  raw : RawTable
  wf : raw.WF

namespace RoutingTable

def new : RoutingTable := ⟨.new, RawTable.wf_new⟩

variable (t : RoutingTable)

def addRenderer (h : RendererHandle) : RoutingTable :=
  ⟨t.raw.addRenderer h, { t.wf with
    handle_id := fun {r k} hk => by
      have hk : (t.raw.renderers.insert h.id h).lookup r = some k := hk
      rw [HashMap.lookup_insert_eq] at hk
      split at hk
      · rename_i hr
        rw [← Option.some_inj.1 hk, hr]
      · exact t.wf.handle_id hk }⟩

def removeRenderer (r : RendererId) : RoutingTable :=
  ⟨t.raw.removeRenderer r, t.wf.without (t.wf.removeRenderer r)⟩

def removedWithRenderer (r : RendererId) : List (LinkId × DisplayId) :=
  t.raw.removedWithRenderer r

def addLink (r : RendererId) (d : DisplayId) : RoutingTable :=
  ⟨(t.raw.addLink r d).1, t.wf.addLink r d⟩

def updateLinkGeometry (lid : LinkId) (g : LinkGeometry) : RoutingTable × Bool :=
  (⟨(t.raw.updateLinkGeometry lid g).1, t.wf.updateLinkGeometry lid g⟩,
    (t.raw.updateLinkGeometry lid g).2)

def removeLink (lid : LinkId) : RoutingTable :=
  ⟨t.raw.removeLink lid, t.wf.without (t.wf.removeLink lid)⟩

def removeDisplay (d : DisplayId) : RoutingTable :=
  ⟨t.raw.removeDisplay d, t.wf.without (t.wf.removeDisplay d)⟩

/-- A new iteration order of the renderers. -/
def promoteRenderer (r : RendererId) : RoutingTable :=
  ⟨{ t.raw with renderers := t.raw.renderers.promote r }, { t.wf with
    handle_id := fun hk => t.wf.handle_id ((HashMap.lookup_promote _ _ _).symm.trans hk) }⟩

def getLink (lid : LinkId) : Option Link := t.raw.getLink lid

def linksForDisplay (d : DisplayId) : List Link := t.raw.linksForDisplay d

def linksForRenderer (r : RendererId) : List Link := t.raw.linksForRenderer r

def getRenderer (r : RendererId) : Option RendererHandle := t.raw.getRenderer r

def rendererIds : List RendererId := t.raw.rendererIds

def firstRenderer : Option RendererId := t.raw.firstRenderer

/-- The link of a display. -/
def linkOf (d : DisplayId) : Option Link := (t.linksForDisplay d).head?

/-- The renderer a display is linked to. -/
def routeOf (d : DisplayId) : Option RendererId := (t.linkOf d).map Link.rendererId

variable {t}

theorem linksForDisplay_eq (t : RoutingTable) (d : DisplayId) :
    t.linksForDisplay d = (t.linkOf d).toList := by
  have h : (t.linksForDisplay d).length ≤ 1 :=
    (List.length_filterMap_le _ _).trans (t.wf.length_display d)
  unfold linkOf
  match hl : t.linksForDisplay d, h with
  | [], _ => rfl
  | [_], _ => rfl
  | _ :: _ :: _, h => simp at h

theorem linkOf_eq_some {d : DisplayId} {l : Link} :
    t.linkOf d = some l ↔ t.raw.links.lookup l.id = some l ∧ l.displayId = d := by
  have hmem : t.linkOf d = some l ↔ l ∈ t.linksForDisplay d := by
    rw [linksForDisplay_eq, Option.mem_toList]
  rw [hmem, linksForDisplay, RawTable.linksForDisplay, List.mem_filterMap]
  constructor
  · rintro ⟨i, hi, hl⟩
    obtain ⟨l', hl', hd⟩ := t.wf.mem_display.1 hi
    rw [hl, Option.some_inj] at hl'
    exact ⟨by rw [t.wf.id_eq hl, hl], hl' ▸ hd⟩
  · rintro ⟨hl, hd⟩
    exact ⟨l.id, t.wf.mem_display.2 ⟨l, hl, hd⟩, hl⟩

theorem enabled_of_linkOf {d : DisplayId} {l : Link} (h : t.linkOf d = some l) :
    l.enabled = true :=
  t.wf.enabled (linkOf_eq_some.1 h).1

theorem displayId_of_linkOf {d : DisplayId} {l : Link} (h : t.linkOf d = some l) :
    l.displayId = d :=
  (linkOf_eq_some.1 h).2

theorem mem_linksForRenderer {r : RendererId} {l : Link} :
    l ∈ t.linksForRenderer r ↔ t.linkOf l.displayId = some l ∧ l.rendererId = r := by
  rw [linkOf_eq_some, linksForRenderer, RawTable.linksForRenderer, List.mem_filterMap]
  constructor
  · rintro ⟨i, hi, hl⟩
    obtain ⟨l', hl', hr⟩ := t.wf.mem_renderer.1 hi
    rw [hl, Option.some_inj] at hl'
    exact ⟨⟨by rw [t.wf.id_eq hl, hl], rfl⟩, hl' ▸ hr⟩
  · rintro ⟨⟨hl, -⟩, hr⟩
    exact ⟨l.id, t.wf.mem_renderer.2 ⟨l, hl, hr⟩, hl⟩

/-- All enabled links of a display: at most one. -/
theorem find?_enabled_linksForDisplay (t : RoutingTable) (d : DisplayId) :
    (t.linksForDisplay d).find? (·.enabled) = t.linkOf d := by
  rw [linksForDisplay_eq]
  cases h : t.linkOf d with
  | none => rfl
  | some l => simp [enabled_of_linkOf h]

theorem mem_rendererIds {r : RendererId} : r ∈ t.rendererIds ↔ (t.getRenderer r).isSome := by
  rw [rendererIds, RawTable.rendererIds, HashMap.mem_keys_iff, Option.isSome_iff_exists]
  rfl

/-! ### The links after each operation -/

theorem linkOf_of_without {t' : RoutingTable} {gone : List LinkId}
    (h : RawTable.Without gone t.raw t'.raw) {d : DisplayId} {l : Link} :
    t'.linkOf d = some l ↔ l.id ∉ gone ∧ t.linkOf d = some l := by
  rw [linkOf_eq_some, linkOf_eq_some, h.lookup_eq_some, and_assoc]

@[simp] theorem linkOf_addRenderer (h : RendererHandle) (d : DisplayId) :
    (t.addRenderer h).linkOf d = t.linkOf d := rfl

@[simp] theorem linkOf_promoteRenderer (r : RendererId) (d : DisplayId) :
    (t.promoteRenderer r).linkOf d = t.linkOf d := rfl

theorem linkOf_removeRenderer (r : RendererId) (d : DisplayId) :
    (t.removeRenderer r).linkOf d = (t.linkOf d).filter fun l => l.rendererId ≠ r := by
  ext l
  rw [linkOf_of_without (t.wf.removeRenderer r), Option.filter_eq_some_iff, decide_eq_true_iff,
    and_comm, and_congr_right_iff]
  refine fun hl => not_congr ?_
  rw [t.wf.mem_renderer, (linkOf_eq_some.1 hl).1]
  simp

theorem linkOf_removeLink (lid : LinkId) (d : DisplayId) :
    (t.removeLink lid).linkOf d = (t.linkOf d).filter fun l => l.id ≠ lid := by
  ext l
  rw [linkOf_of_without (t.wf.removeLink lid), Option.filter_eq_some_iff, decide_eq_true_iff,
    and_comm, List.mem_singleton]

theorem linkOf_removeDisplay (d e : DisplayId) :
    (t.removeDisplay d).linkOf e = if e = d then none else t.linkOf e := by
  ext l
  rw [linkOf_of_without (t.wf.removeDisplay d), t.wf.mem_display, linkOf_eq_some]
  by_cases he : e = d
  · subst he
    rw [if_pos rfl]
    exact ⟨fun ⟨h, hl⟩ => absurd ⟨l, hl⟩ h, fun h => nomatch h⟩
  · rw [if_neg he, linkOf_eq_some, and_iff_right_iff_imp]
    rintro ⟨hl, rfl⟩ ⟨l', hl', hd⟩
    rw [hl, Option.some_inj] at hl'
    exact he (hl' ▸ hd)

theorem linkOf_addLink (r : RendererId) (d e : DisplayId) :
    (t.addLink r d).linkOf e =
      if e = d then some (.fresh (t.raw.nextLinkId + 1) r d) else t.linkOf e := by
  have h := t.wf.foldl_removeLink (t.raw.displayLinkIds d)
  have hlookup : ∀ i, (t.addLink r d).raw.links.lookup i =
      if i = t.raw.nextLinkId + 1 then some (.fresh (t.raw.nextLinkId + 1) r d)
      else if i ∈ t.raw.displayLinkIds d then none else t.raw.links.lookup i := fun i => by
    rw [← h.next, ← h.links i]
    exact HashMap.lookup_insert_eq _ _ _ _
  have hfresh : ∀ {l}, t.raw.links.lookup l.id = some l → l.id ≠ t.raw.nextLinkId + 1 :=
    fun hl hid => absurd (hid ▸ t.wf.id_le hl) (Nat.not_succ_le_self _)
  ext l
  rw [linkOf_eq_some, hlookup]
  by_cases he : e = d
  · subst he
    simp only [if_true, Option.some_inj]
    constructor
    · rintro ⟨hl, hd⟩
      split at hl
      · exact Option.some_inj.1 hl
      · split at hl
        · cases hl
        · exact absurd (t.wf.mem_display.2 ⟨l, hl, hd⟩) ‹_›
    · rintro rfl
      exact ⟨by simp [Link.fresh], rfl⟩
  · rw [if_neg he, linkOf_eq_some]
    constructor
    · rintro ⟨hl, hd⟩
      split at hl
      · rw [← Option.some_inj.1 hl] at hd
        exact absurd hd.symm he
      · split at hl
        · cases hl
        · exact ⟨hl, hd⟩
    · rintro ⟨hl, hd⟩
      have hid : l.id ∉ t.raw.displayLinkIds d := fun h => by
        obtain ⟨l', hl', hd'⟩ := t.wf.mem_display.1 h
        rw [hl, Option.some_inj] at hl'
        exact he (hd.symm.trans (hl' ▸ hd'))
      exact ⟨by rw [if_neg (hfresh hl), if_neg hid, hl], hd⟩

theorem linkOf_updateLinkGeometry (lid : LinkId) (g : LinkGeometry) (d : DisplayId) :
    (t.updateLinkGeometry lid g).1.linkOf d =
      (t.linkOf d).map fun l => if l.id = lid then g.applyTo l else l := by
  ext l
  rw [Option.map_eq_some_iff, linkOf_eq_some]
  simp only [updateLinkGeometry, RawTable.updateLinkGeometry]
  cases hm : t.raw.links.lookup lid with
  | none =>
    have hid : ∀ k, t.linkOf d = some k → k.id ≠ lid := fun k hk h => by
      rw [linkOf_eq_some, h, hm] at hk
      cases hk.1
    constructor
    · intro hl
      have hl : t.linkOf d = some l := linkOf_eq_some.2 hl
      exact ⟨l, hl, if_neg (hid l hl)⟩
    · rintro ⟨k, hk, rfl⟩
      rw [if_neg (hid k hk)]
      exact linkOf_eq_some.1 hk
  | some m =>
    have hmid : m.id = lid := t.wf.id_eq hm
    rw [HashMap.lookup_insert_eq]
    constructor
    · rintro ⟨hl, hd⟩
      split at hl
      · obtain rfl := Option.some_inj.1 hl
        exact ⟨m, linkOf_eq_some.2 ⟨by rw [hmid, hm], hd⟩, if_pos hmid⟩
      · rename_i hne
        exact ⟨l, linkOf_eq_some.2 ⟨hl, hd⟩, if_neg hne⟩
    · rintro ⟨k, hk, rfl⟩
      rw [linkOf_eq_some] at hk
      by_cases hkid : k.id = lid
      · have hkm : k = m := by
          rw [hkid, hm] at hk
          exact (Option.some_inj.1 hk.1).symm
        subst hkm
        have hgid : (g.applyTo k).id = lid := hmid
        rw [if_pos hkid, if_pos hgid]
        exact ⟨rfl, hk.2⟩
      · rw [if_neg hkid, if_neg hkid]
        exact hk

theorem mem_removedWithRenderer {r : RendererId} {d : DisplayId} :
    d ∈ (t.removedWithRenderer r).map Prod.snd ↔ ∃ l, t.linkOf d = some l ∧ l.rendererId = r := by
  simp only [removedWithRenderer, RawTable.removedWithRenderer, List.map_filterMap,
    List.mem_filterMap, Option.map_map, Option.map_eq_some_iff, linkOf_eq_some, t.wf.mem_renderer]
  constructor
  · rintro ⟨i, ⟨l, hl, hr⟩, k, hk, rfl⟩
    rw [hl, Option.some_inj] at hk
    subst hk
    exact ⟨l, ⟨by rw [t.wf.id_eq hl, hl], rfl⟩, hr⟩
  · rintro ⟨l, ⟨hl, rfl⟩, hr⟩
    exact ⟨l.id, ⟨l, hl, hr⟩, l, hl, rfl⟩

/-! ### The renderers after each operation -/

theorem id_of_getRenderer {r : RendererId} {h : RendererHandle} (hr : t.getRenderer r = some h) :
    h.id = r :=
  t.wf.handle_id hr

theorem getRenderer_addRenderer (h : RendererHandle) (r : RendererId) :
    (t.addRenderer h).getRenderer r = if r = h.id then some h else t.getRenderer r :=
  HashMap.lookup_insert_eq _ _ _ _

theorem getRenderer_removeRenderer (r q : RendererId) :
    (t.removeRenderer r).getRenderer q = if q = r then none else t.getRenderer q :=
  HashMap.lookup_erase_eq _ _ _

@[simp] theorem getRenderer_promoteRenderer (r q : RendererId) :
    (t.promoteRenderer r).getRenderer q = t.getRenderer q :=
  HashMap.lookup_promote _ _ _

@[simp] theorem getRenderer_addLink (r q : RendererId) (d : DisplayId) :
    (t.addLink r d).getRenderer q = t.getRenderer q :=
  congrArg (fun m => AList.lookup q m) (RawTable.renderers_foldl_removeLink t.raw _)

@[simp] theorem getRenderer_removeLink (lid : LinkId) (q : RendererId) :
    (t.removeLink lid).getRenderer q = t.getRenderer q :=
  congrArg (fun m => AList.lookup q m) (RawTable.renderers_removeLink t.raw lid)

@[simp] theorem getRenderer_removeDisplay (d : DisplayId) (q : RendererId) :
    (t.removeDisplay d).getRenderer q = t.getRenderer q := rfl

@[simp] theorem getRenderer_updateLinkGeometry (lid : LinkId) (g : LinkGeometry)
    (q : RendererId) : (t.updateLinkGeometry lid g).1.getRenderer q = t.getRenderer q := by
  have h : (t.raw.updateLinkGeometry lid g).1.renderers = t.raw.renderers := by
    unfold RawTable.updateLinkGeometry
    cases t.raw.links.lookup lid <;> rfl
  exact congrArg (fun m => AList.lookup q m) h

end RoutingTable

end Waywallen
