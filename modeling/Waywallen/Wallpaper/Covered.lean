import Waywallen.Wallpaper.Shown

/-!
# Every aspect is right or still to be sent

The invariant behind `Faithful`: each aspect of a wallpaper that a renderer shows is right, or some
call that is still to be made brings it. What a call touches is right afterwards by its guard, and
what it does not touch stays as it is.
-/

namespace Waywallen

open TaskPool

variable {fl : FloatOps} {w : PropertySources fl}

/-! ## Rows -/

namespace UserProperties

/-- Two tables that agree on the keys they have agree. -/
theorem get_eq_of_keys {u v : UserProperties} {p : String → Prop}
    (h : ∀ k ∈ u.map.keys ++ v.map.keys, p k → u.get k = v.get k) {k : String} (hk : p k) :
    u.get k = v.get k := by
  by_cases hmem : k ∈ u.map.keys ++ v.map.keys
  · exact h k hmem hk
  · rw [List.mem_append, not_or, HashMap.mem_keys_iff, HashMap.mem_keys_iff] at hmem
    have hu : u.get k = none := Option.eq_none_iff_forall_ne_some.2 fun x hx => hmem.1 ⟨x, hx⟩
    have hv : v.get k = none := Option.eq_none_iff_forall_ne_some.2 fun x hx => hmem.2 ⟨x, hx⟩
    rw [hu, hv]

end UserProperties

section Rows

variable (parsePercent : String → Option ℕ) {u v : UserProperties} {row row' : WallpaperRow}

theorem lookup_renderProperties (row : WallpaperRow) (key : String) :
    (row.getWallpaperRenderProperties parsePercent).1.lookup key =
      if isDaemonDisplayPropertyKey key then none else row.getUserPropertyOverrides.get key :=
  row.getUserPropertyOverrides.get_clearLayout key

theorem splitRendererProperties_layout
    (h : ∀ k, isDaemonDisplayPropertyKey k = true → u.get k = v.get k) :
    (splitRendererProperties parsePercent u).2 = (splitRendererProperties parsePercent v).2 := by
  simp only [splitRendererProperties, h locationXKey rfl, h locationYKey rfl, h fillModeKey rfl,
    h rotationKey rfl]

end Rows

theorem canonical_of_isDaemon {key : String} (h : isDaemonDisplayPropertyKey key = true) :
    canonicalUserPropertyKey key = key := by
  refine if_neg fun hkey => ?_
  rw [hkey] at h
  cases h

theorem isDaemon_canonical {key : String} (h : isDaemonDisplayPropertyKey key = false) :
    isDaemonDisplayPropertyKey (canonicalUserPropertyKey key) = false := by
  unfold canonicalUserPropertyKey
  split
  · rfl
  · exact h

/-! ## The invariant -/

/-- Every id in use has been listed. -/
def WallpaperState.IdsUsed (s : WallpaperState) : Prop :=
  (∀ id ∈ s.renderers.keys, id ∈ s.used) ∧ (∀ id ∈ s.registered, id ∈ s.used) ∧
    ∀ id ∈ s.layoutOverrides.keys, id ∈ s.used

variable (w) in
/-- Every aspect of a shown wallpaper is right or still to be sent; ids are not used again. -/
structure AllCovered (s : WallpaperState) (cs : List PropertyCall) : Prop where
  used : s.IdsUsed
  evicted : ∀ id, .unregister id ∈ cs → id ∈ s.used ∧ id ∉ s.renderers.keys
  covered : s.ForShown fun item row id h => ∀ a, Covered w s cs item row id h a

section Steps

variable {s s' : WallpaperState} {c : PropertyCall} {next rest cs : List PropertyCall}

theorem WallpaperState.forShown_iff
    {P : ItemId → WallpaperRow → RendererId → ShownRenderer → Prop} :
    s.ForShown P ↔ ∀ item row id h, s.items.lookup item = some row →
      s.renderers.lookup id = some h → h.extras.lookup "path" = some row.resource →
      P item row id h :=
  ⟨fun hP item row id h hitem hid => hP ⟨item, row⟩ (AList.mem_lookup_iff.1 hitem) ⟨id, h⟩
      (AList.mem_lookup_iff.1 hid),
    fun hP i hi e he => hP i.1 i.2 e.1 e.2 (AList.mem_lookup_iff.2 hi) (AList.mem_lookup_iff.2 he)⟩

theorem PropertyCall.Owes.mono {k : PropertyCall} {path : Option String} {id : RendererId}
    {a : Aspect} (h : k.Owes s path id a)
    (hfile : ∀ item, s.IsFile item path → s'.IsFile item path) : k.Owes s' path id a := by
  cases k with
  | pushProperty item => exact ⟨hfile item h.1, h.2⟩
  | pushLayout item => exact ⟨hfile item h.1, h.2⟩
  | _ => exact h

theorem PropertyCall.Seeks.owes {k : PropertyCall} {path : Option String} {a : Aspect}
    (h : k.Seeks s path a) (id : RendererId) : k.Owes s path id a := by
  cases k with
  | pushProperty => exact h
  | pushLayout => exact h
  | _ => exact h.elim

/-- What a call does not touch stays covered. -/
theorem AllCovered.step (h : AllCovered w s (c :: rest))
    (hfile : ∀ item path, s.IsFile item path → s'.IsFile item path)
    (hused : s'.IdsUsed)
    (hkept : ∀ id ∈ s.used, id ∈ s'.used ∧ (id ∈ s'.renderers.keys → id ∈ s.renderers.keys))
    (hnext : ∀ id, .unregister id ∈ next → id ∈ s'.used ∧ id ∉ s'.renderers.keys)
    (hstep : s'.ForShown fun item row' id h' => ∀ a,
      Covered w s' (next ++ rest) item row' id h' a ∨
      ∃ row h, s.items.lookup item = some row ∧ s.renderers.lookup id = some h ∧
        row.resource = row'.resource ∧ h.extras = h'.extras ∧
        (s.Met w item row id h a → s'.Met w item row' id h' a) ∧
        ¬c.Owes s (h.extras.lookup "path") id a) :
    AllCovered w s' (next ++ rest) where
  used := hused
  evicted id hid := by
    obtain hid | hid := List.mem_append.1 hid
    · exact hnext id hid
    · obtain ⟨hid, hgone⟩ := h.evicted id (List.mem_cons_of_mem _ hid)
      exact ⟨(hkept id hid).1, fun hback => hgone ((hkept id hid).2 hback)⟩
  covered := by
    refine WallpaperState.forShown_iff.2 fun item row' id h' hitem' hid' hpath a => ?_
    obtain hdone | ⟨row, v, hitem, hid, hrow, hv, hmet, howes⟩ :=
      WallpaperState.forShown_iff.1 hstep item row' id h' hitem' hid' hpath a
    · exact hdone
    have hshown : v.extras.lookup "path" = some row.resource := by rw [hv, hpath, hrow]
    obtain hold | ⟨k, hk, hsends⟩ :=
      WallpaperState.forShown_iff.1 h.covered item row id v hitem hid hshown a
    · exact .inl (hmet hold)
    obtain rfl | hk := List.mem_cons.1 hk
    · exact absurd hsends howes
    · refine .inr ⟨k, List.mem_append_right _ hk, ?_⟩
      rw [← hv]
      exact hsends.mono fun item => hfile item _

theorem AllCovered.perm (h : AllCovered w s cs) (hcs : cs.Perm rest) : AllCovered w s rest where
  used := h.used
  evicted id hid := h.evicted id (hcs.mem_iff.2 hid)
  covered i hi e he hpath a := (h.covered i hi e he hpath a).imp_right
    fun ⟨k, hk, hsends⟩ => ⟨k, hcs.mem_iff.1 hk, hsends⟩

/-- Calls that touch nothing and send nothing. -/
theorem AllCovered.quiet (h : AllCovered w s (c :: rest))
    (hc : ∀ path id a, ¬c.Owes s path id a) (hnext : ∀ id, .unregister id ∉ next) :
    AllCovered w s (next ++ rest) :=
  h.step (fun _ _ => id) h.used (fun _ hid => ⟨hid, id⟩) (fun id hid => absurd hid (hnext id)) <|
    WallpaperState.forShown_iff.2 fun _ row id v hitem hid _ a =>
      .inr ⟨row, v, hitem, hid, rfl, rfl, fun hmet => hmet, hc _ id a⟩

/-- A call that hands over what it owes to the next one. -/
theorem AllCovered.relay (h : AllCovered w s (c :: rest))
    (hc : ∀ path id a, c.Owes s path id a → ∃ k ∈ next, k.Owes s path id a)
    (hnext : ∀ id, .unregister id ∉ next) : AllCovered w s (next ++ rest) := by
  refine h.step (fun _ _ hfile => hfile) h.used (fun _ hid => ⟨hid, fun hid => hid⟩)
    (fun id hid => absurd hid (hnext id)) ?_
  refine WallpaperState.forShown_iff.2 fun _ row id v hitem hid _ a => ?_
  by_cases howes : c.Owes s (v.extras.lookup "path") id a
  · obtain ⟨k, hk, howes⟩ := hc _ id a howes
    exact .inl (.inr ⟨k, List.mem_append_left _ hk, howes⟩)
  · exact .inr ⟨row, v, hitem, hid, rfl, rfl, fun hmet => hmet, howes⟩

/-! ## Writing a row -/

theorem WallpaperState.isFile_setRow {item : ItemId} {row row' : WallpaperRow}
    (hrow : s.items.lookup item = some row) (hres : row'.resource = row.resource)
    (sets : List (ItemId × String × String)) (i : ItemId) (path : Option String)
    (h : s.IsFile i path) : (s.setRow item row' sets).IsFile i path := by
  obtain ⟨r, hr, rfl⟩ := h
  by_cases hi : i = item
  · subst hi
    obtain rfl := Option.some_inj.1 (hrow.symm.trans hr)
    exact ⟨row', (HashMap.lookup_insert_eq _ _ _ _).trans (if_pos rfl), by rw [hres]⟩
  · exact ⟨r, (HashMap.lookup_insert_eq _ _ _ _).trans ((if_neg hi).trans hr), rfl⟩

/-- A row is rewritten: an aspect that changes is still to be sent. -/
theorem AllCovered.setRow (h : AllCovered w s (c :: rest)) {item : ItemId}
    {row row' : WallpaperRow} (hrow : s.items.lookup item = some row)
    (hres : row'.resource = row.resource) (sets : List (ItemId × String × String))
    (hc : ∀ path id a, ¬c.Owes s path id a) (hnext : ∀ id, .unregister id ∉ next)
    (hmet : ∀ id v a, s.renderers.lookup id = some v →
      v.extras.lookup "path" = some row.resource → s.Met w item row id v a →
      s.Met w item row' id v a ∨
        ∃ k ∈ next, k.Owes (s.setRow item row' sets) (some row.resource) id a) :
    AllCovered w (s.setRow item row' sets) (next ++ rest) := by
  refine h.step (s.isFile_setRow hrow hres sets) h.used (fun _ hid => ⟨hid, fun hid => hid⟩)
    (fun id hid => absurd hid (hnext id)) ?_
  refine WallpaperState.forShown_iff.2 fun i r id v hitem hid hpath a => ?_
  have hlookup : (s.items.insert item row').lookup i = some r := hitem
  rw [HashMap.lookup_insert_eq] at hlookup
  split at hlookup
  · rename_i hi
    subst hi
    obtain rfl := Option.some_inj.1 hlookup
    by_cases hnew : ∃ k ∈ next, k.Owes (s.setRow i row' sets) (some row.resource) id a
    · obtain ⟨k, hk, howes⟩ := hnew
      rw [← hres, ← hpath] at howes
      exact .inl (.inr ⟨k, List.mem_append_left _ hk, howes⟩)
    · refine .inr ⟨row, v, hrow, hid, hres.symm, rfl, fun hold => ?_, hc _ id a⟩
      exact (hmet id v a hid (hpath.trans (by rw [hres])) hold).resolve_right hnew
  · exact .inr ⟨r, v, hlookup, hid, rfl, rfl, fun hold => hold, hc _ id a⟩

/-- One property is written; it is sent next. -/
theorem AllCovered.updateOverrides {item : ItemId} {key value : String}
    {current : UserProperties}
    (h : AllCovered w s (.updateOverrides item key value current :: rest))
    {row : WallpaperRow} (hrow : s.items.lookup item = some row)
    (hreach : OverridesReach s item key value current) :
    AllCovered w (s.setRow item (row.setUserPropertyOverrides (current.merge key value))
      [(item, key, value)]) ([.pushProperty item key value] ++ rest) := by
  obtain ⟨hfresh, hknown⟩ := hreach row hrow
  -- what the row holds afterwards under a key the request is not about
  have hother {k : String} (hk : k ≠ canonicalUserPropertyKey key) :
      (row.setUserPropertyOverrides (current.merge key value)).getUserPropertyOverrides.get k =
        row.getUserPropertyOverrides.get k := by
    rw [row.get_setUserPropertyOverrides, UserProperties.get_merge, if_neg hk]
    exact UserProperties.get_eq_of_keys hfresh hk
  have hres : (row.setUserPropertyOverrides (current.merge key value)).resource = row.resource :=
    rfl
  have hfile := s.isFile_setRow hrow hres [(item, key, value)] item _ ⟨row, hrow, rfl⟩
  refine h.setRow hrow ?_ _ (fun _ _ _ => not_false) ?_
    fun id v a hid hpath hold => ?_
  · rfl
  · intro id hid
    cases List.mem_singleton.1 hid
  by_cases ha : a = aspectOf key
  · exact .inr ⟨_, List.mem_singleton_self _, ⟨hfile, ha⟩⟩
  left
  cases a with
  | value k =>
    intro hk
    rw [PropertySources.shown, PropertySources.shown, lookup_renderProperties]
    have hold := hold hk
    rw [PropertySources.shown, PropertySources.shown, lookup_renderProperties] at hold
    by_cases hdaemon : isDaemonDisplayPropertyKey k = true
    · rw [if_pos hdaemon] at hold ⊢
      exact hold
    rw [if_neg hdaemon] at hold ⊢
    by_cases hkey : k = canonicalUserPropertyKey key
    · subst hkey
      obtain hknown | hnobody | hsame := hknown
      · rw [hknown] at hdaemon ha
        exact absurd (if_neg hdaemon).symm ha
      · exact absurd hpath (hnobody ⟨id, v⟩ (AList.mem_lookup_iff.1 hid))
      · rw [row.get_setUserPropertyOverrides, UserProperties.get_merge, if_pos rfl, ← hsame]
        exact hold
    · rw [hother hkey]
      exact hold
  | layout =>
    have hdaemon : isDaemonDisplayPropertyKey key = false := by
      by_contra hdaemon
      rw [Bool.not_eq_false] at hdaemon
      exact ha (if_pos hdaemon).symm
    have hlayout : ((row.setUserPropertyOverrides
        (current.merge key value)).getWallpaperRenderProperties w.parsePercent).2 =
          (row.getWallpaperRenderProperties w.parsePercent).2 := by
      refine congrArg (row.wallpaperLayoutOverride.getD ·) ?_
      refine splitRendererProperties_layout _ fun k hk => hother fun hkey => ?_
      rw [hkey, isDaemon_canonical hdaemon] at hk
      cases hk
    exact hold.trans hlayout.symm

/-- The layout is cleared, among the properties as well; the default is set next. -/
theorem AllCovered.clearLayout {item : ItemId} {current : UserProperties}
    (h : AllCovered w s (.clearLayout item current :: rest)) {row : WallpaperRow}
    (hrow : s.items.lookup item = some row) (hreach : ClearReaches s item current) :
    AllCovered w (s.setRow item ({ row with
        wallpaperLayoutOverride := none }.setUserPropertyOverrides current.clearLayout)
      (daemonDisplayPropertyKeys.map (item, ·, ""))) ([.pushLayout item default] ++ rest) := by
  refine h.setRow hrow ?_ _ (fun _ _ _ => not_false) ?_
    fun id v a hid hpath hold => ?_
  · rfl
  · intro id hid
    cases List.mem_singleton.1 hid
  cases a with
  | value k =>
    left
    intro hk
    have hold := hold hk
    rw [PropertySources.shown, PropertySources.shown, lookup_renderProperties] at hold ⊢
    by_cases hdaemon : isDaemonDisplayPropertyKey k = true
    · rw [if_pos hdaemon] at hold ⊢
      exact hold
    rw [if_neg hdaemon] at hold ⊢
    rw [WallpaperRow.get_setUserPropertyOverrides, UserProperties.get_clearLayout, if_neg hdaemon]
    have hsame : current.get k = row.getUserPropertyOverrides.get k :=
      UserProperties.get_eq_of_keys (hreach row hrow) (Bool.eq_false_iff.2 hdaemon)
    rw [hsame]
    exact hold
  | layout =>
    exact .inr ⟨_, List.mem_singleton_self _,
      s.isFile_setRow hrow (by rfl) _ item _ ⟨row, hrow, rfl⟩, rfl⟩

/-- A layout is written; it is set next. -/
theorem AllCovered.updateLayout {item : ItemId} {layout : ResolvedLayout}
    (h : AllCovered w s (.updateLayout item layout :: rest)) {row : WallpaperRow}
    (hrow : s.items.lookup item = some row) :
    AllCovered w (s.setRow item { row with
        wallpaperLayoutOverride := some (.fromResolved layout) } [])
      ([.pushLayout item (.fromResolved layout)] ++ rest) := by
  refine h.setRow hrow ?_ _ (fun _ _ _ => not_false) ?_
    fun id v a hid hpath hold => ?_
  · rfl
  · intro id hid
    cases List.mem_singleton.1 hid
  cases a with
  | value k => exact .inl hold
  | layout =>
    exact .inr ⟨_, List.mem_singleton_self _,
      s.isFile_setRow hrow (by rfl) _ item _ ⟨row, hrow, rfl⟩, rfl⟩

/-! ## Reaching the renderers -/

/-- A search: the renderer found is sent the aspect, and the others are covered. -/
theorem AllCovered.findByResource {item : ItemId} {a : Aspect}
    (h : AllCovered w s (c :: rest)) {x : PropertyChoice} {f : RendererId → List PropertyCall}
    (howes : ∀ path id b, c.Owes s path id b → s.IsFile item path ∧ b = a)
    (hf : ∀ id, (∀ i, .unregister i ∉ f id) ∧ ∃ k ∈ f id, ∀ path, k.Owes s path id a)
    (hreach : ∀ id ∈ x.picked, PickReaches w s rest item a id) {o : PropertyStep}
    (ho : s.findByResource x item f = some o) :
    AllCovered w o.shared (o.next ++ rest) := by
  have hsame (hother : s.ForShown fun i row id v => s.IsFile item (v.extras.lookup "path") →
      Covered w s (o.next ++ rest) i row id v a)
      (hnext : ∀ i, .unregister i ∉ o.next) : AllCovered w s (o.next ++ rest) := by
    refine h.step (fun _ _ hfile => hfile) h.used (fun _ hid => ⟨hid, fun hid => hid⟩)
      (fun id hid => absurd hid (hnext id)) ?_
    refine WallpaperState.forShown_iff.2 fun i row id v hitem hid hpath b => ?_
    by_cases hb : c.Owes s (v.extras.lookup "path") id b
    · obtain ⟨hfile, rfl⟩ := howes _ _ _ hb
      exact .inl (WallpaperState.forShown_iff.1 hother i row id v hitem hid hpath hfile)
    · exact .inr ⟨row, v, hitem, hid, rfl, rfl, fun hmet => hmet, hb⟩
  cases x with
  | pick id =>
    rw [WallpaperState.findByResource] at ho
    split at ho <;> cases ho
    refine hsame (WallpaperState.forShown_iff.2 fun i row j v hitem hid hpath hfile => ?_) (hf id).1
    by_cases hj : j = id
    · subst hj
      obtain ⟨k, hk, haddresses⟩ := (hf j).2
      exact .inr ⟨k, List.mem_append_left _ hk, haddresses _⟩
    · exact (WallpaperState.forShown_iff.1 (hreach id rfl) i row j v hitem hid hpath hj
        hfile).imp_right fun ⟨k, hk, howes⟩ => ⟨k, List.mem_append_right _ hk, howes⟩
  | tick =>
    rw [WallpaperState.findByResource] at ho
    split at ho <;> cases ho
    rename_i hnobody
    refine hsame (WallpaperState.forShown_iff.2 fun i row j v hitem hid hpath hfile => ?_)
      fun i hi => absurd hi List.not_mem_nil
    refine absurd ⟨j, (HashMap.mem_keys_iff _ _).2 ⟨v, hid⟩, ?_⟩ hnobody
    rw [WallpaperState.path, hid]
    exact hfile
  | fail => cases ho
  | extras => cases ho
  | uuid => cases ho

/-- A value is delivered. -/
theorem AllCovered.sendProperty {id : RendererId} {key value : String}
    (h : AllCovered w s (.sendProperty id key value :: rest))
    (hreach : SendReaches w s rest id key value) :
    AllCovered w (s.deliver id key value) ([] ++ rest) := by
  have hkeys : (s.deliver id key value).renderers.keys = s.renderers.keys :=
    HashMap.keys_modify _ _ _
  refine h.step (fun _ _ hfile => hfile) ⟨by rw [hkeys]; exact h.used.1, h.used.2⟩
    (fun _ hid => ⟨hid, by rw [hkeys]; exact fun hid => hid⟩)
    (fun id hid => absurd hid List.not_mem_nil) ?_
  refine WallpaperState.forShown_iff.2 fun i row j v hitem hid hpath a => ?_
  rw [WallpaperState.deliver, HashMap.lookup_modify] at hid
  by_cases hj : j = id
  · subst hj
    rw [if_pos rfl] at hid
    obtain ⟨u, hu, rfl⟩ := Option.map_eq_some_iff.1 hid
    by_cases ha : a = .value key
    · subst ha
      by_cases hkey : canonicalUserPropertyKey key = key
      · obtain hright | hsends :=
          WallpaperState.forShown_iff.1 hreach i row j u hitem hu hpath rfl hkey
        · refine .inl (.inl fun _ => ?_)
          rw [PropertySources.shown, HashMap.lookup_insert_eq, if_pos rfl, Option.some_or, hright]
        · exact .inl (.inr hsends)
      · exact .inl (.inl fun hcanonical => absurd hcanonical hkey)
    · refine .inr ⟨row, u, hitem, hu, rfl, rfl, ?_, fun hb => ha hb.2⟩
      cases a with
      | value k =>
        intro hold hk
        have hne : k ≠ key := fun heq => ha (by rw [heq])
        rw [PropertySources.shown, HashMap.lookup_insert_eq, if_neg hne]
        exact hold hk
      | layout => exact fun hold => hold
  · rw [if_neg hj] at hid
    exact .inr ⟨row, v, hitem, hid, rfl, rfl, by cases a <;> exact fun hold => hold,
      fun hb => hj hb.1.symm⟩

theorem WallpaperLayoutOverride.eq_default_of_isEmpty {layout : WallpaperLayoutOverride}
    (h : layout.isEmpty = true) : layout = default := by
  obtain ⟨fillmode, location, rotation⟩ := layout
  simp only [isEmpty, Bool.and_eq_true, Option.isNone_iff_eq_none] at h
  rw [h.1.1, h.1.2, h.2]
  rfl

theorem WallpaperState.layout_setOverride (id : RendererId) (layout : WallpaperLayoutOverride)
    (j : RendererId) : ((s.setOverride id layout).layoutOverrides.lookup j).getD default =
      if j = id ∧ id ∈ s.registered then layout
      else (s.layoutOverrides.lookup j).getD default := by
  unfold setOverride
  by_cases hid : id ∈ s.registered
  · rw [if_pos hid]
    by_cases hempty : layout.isEmpty = true
    · rw [if_pos hempty, HashMap.lookup_erase_eq]
      by_cases hj : j = id
      · rw [if_pos hj, if_pos ⟨hj, hid⟩, WallpaperLayoutOverride.eq_default_of_isEmpty hempty]
        rfl
      · rw [if_neg hj, if_neg fun hb => hj hb.1]
    · rw [if_neg hempty, HashMap.lookup_insert_eq]
      by_cases hj : j = id
      · rw [if_pos hj, if_pos ⟨hj, hid⟩]
        rfl
      · rw [if_neg hj, if_neg fun hb => hj hb.1]
  · rw [if_neg hid, if_neg fun hb => hid hb.2]

theorem WallpaperState.setOverride_eq (id : RendererId) (layout : WallpaperLayoutOverride) :
    ∃ m, s.setOverride id layout = { s with layoutOverrides := m } ∧
      ∀ i ∈ m.keys, i ∈ s.layoutOverrides.keys ∨ i ∈ s.registered := by
  unfold setOverride
  split
  · rename_i hid
    refine ⟨_, rfl, fun i hi => ?_⟩
    obtain ⟨l, hl⟩ := (HashMap.mem_keys_iff _ _).1 hi
    by_cases hne : i = id
    · exact .inr (hne ▸ hid)
    refine .inl ((HashMap.mem_keys_iff _ _).2 ⟨l, ?_⟩)
    split at hl
    · rwa [HashMap.lookup_erase_eq, if_neg hne] at hl
    · rwa [HashMap.lookup_insert_eq, if_neg hne] at hl
  · exact ⟨_, rfl, fun i hi => .inl hi⟩

/-- The layout is set. -/
theorem AllCovered.setOverride {id : RendererId} {layout : WallpaperLayoutOverride}
    (h : AllCovered w s (.setOverride id layout :: rest))
    (hreach : LayoutReaches w s rest id layout) :
    AllCovered w (s.setOverride id layout) ([] ++ rest) := by
  have hlayout := s.layout_setOverride id layout
  obtain ⟨m, hm, hkeys⟩ := s.setOverride_eq id layout
  rw [hm] at hlayout ⊢
  have hused : ∀ i ∈ m.keys, i ∈ s.used := fun i hi =>
    (hkeys i hi).elim (h.used.2.2 i) (h.used.2.1 i)
  refine h.step (fun _ _ hfile => hfile) ⟨h.used.1, h.used.2.1, hused⟩
    (fun _ hid => ⟨hid, fun hid => hid⟩)
    (fun id hid => absurd hid List.not_mem_nil) ?_
  refine WallpaperState.forShown_iff.2 fun i row j v hitem hid hpath a => ?_
  cases a with
  | value key =>
    exact .inr ⟨row, v, hitem, hid, rfl, rfl, fun hold => hold,
      fun hb => by cases hb.2⟩
  | layout =>
    by_cases hj : j = id
    · subst hj
      obtain hright | hsends := WallpaperState.forShown_iff.1 hreach i row j v hitem hid hpath rfl
      · refine .inl (.inl ((hlayout j).trans ?_))
        rw [← hright]
        by_cases hregistered : j ∈ s.registered
        · rw [if_pos ⟨rfl, hregistered⟩, if_pos hregistered]
        · rw [if_neg fun hb => hregistered hb.2, if_neg hregistered]
      · exact .inl (.inr hsends)
    · refine .inr ⟨row, v, hitem, hid, rfl, rfl, fun hold => (hlayout j).trans ?_,
        fun hb => hj hb.1.symm⟩
      rw [if_neg fun hb => hj hb.1]
      exact hold

/-! ## Renderers come and go -/

/-- A spawned renderer is listed; the spawn goes on to register it and to set its layout. -/
theorem AllCovered.insertRenderer {v : ShownRenderer} {layout : Option WallpaperLayoutOverride}
    (h : AllCovered w s (.insertRenderer v layout :: rest))
    (hreach : SpawnReaches w s rest v layout) {id : RendererId} (hid : id ∉ s.used) :
    AllCovered w { s with renderers := s.renderers.insert id v, used := id :: s.used }
      (.register id :: layout.toList.map (.setOverride id) ++ rest) := by
  have hkeys {i : RendererId} (hi : i ∈ (s.renderers.insert id v).keys) :
      i = id ∨ i ∈ s.renderers.keys := by
    obtain ⟨u, hu⟩ := (HashMap.mem_keys_iff _ _).1 hi
    rw [HashMap.lookup_insert_eq] at hu
    split at hu
    · exact .inl ‹_›
    · exact .inr ((HashMap.mem_keys_iff _ _).2 ⟨u, hu⟩)
  refine h.step (fun _ _ hfile => hfile) ⟨fun i hi => ?_,
    fun i hi => List.mem_cons_of_mem _ (h.used.2.1 i hi),
    fun i hi => List.mem_cons_of_mem _ (h.used.2.2 i hi)⟩ (fun i hi => ?_) (fun i hi => ?_) ?_
  · obtain rfl | hi := hkeys hi
    · exact List.mem_cons_self
    · exact List.mem_cons_of_mem _ (h.used.1 i hi)
  · refine ⟨List.mem_cons_of_mem _ hi, fun hback => (hkeys hback).resolve_left ?_⟩
    rintro rfl
    exact hid hi
  · obtain hi | hi := List.mem_cons.1 hi
    · cases hi
    · obtain ⟨l, -, hl⟩ := List.mem_map.1 hi
      cases hl
  refine WallpaperState.forShown_iff.2 fun i row j u hitem hj hpath a => ?_
  rw [HashMap.lookup_insert_eq] at hj
  split at hj
  · rename_i hnew
    subst hnew
    obtain rfl := Option.some_inj.1 hj
    obtain ⟨hvalues, hlayout⟩ := hreach ⟨i, row⟩ (AList.mem_lookup_iff.1 hitem) hpath
    have hseeks {b : Aspect} (hc : ∃ k ∈ rest, k.Seeks s (v.extras.lookup "path") b) :
        Covered w _ (.register j :: layout.toList.map (.setOverride j) ++ rest) i row j v b :=
      let ⟨k, hk, howes⟩ := hc
      .inr ⟨k, List.mem_append_right _ hk, (howes.owes j).mono fun _ h => h⟩
    left
    cases a with
    | value key =>
      by_cases hmem : key ∈ v.userProperties.keys ++
          (row.getWallpaperRenderProperties w.parsePercent).1.keys
      · by_cases hkey : canonicalUserPropertyKey key = key
        · obtain hright | hsends := hvalues key hmem hkey
          · exact .inl fun _ => hright
          · exact hseeks hsends
        · exact .inl fun hcanonical => absurd hcanonical hkey
      · refine .inl fun _ => ?_
        rw [List.mem_append, not_or, HashMap.mem_keys_iff, HashMap.mem_keys_iff] at hmem
        rw [PropertySources.shown, PropertySources.shown,
          Option.eq_none_iff_forall_ne_some.2 fun x hx => hmem.1 ⟨x, hx⟩,
          Option.eq_none_iff_forall_ne_some.2 fun x hx => hmem.2 ⟨x, hx⟩]
    | layout =>
      cases layout with
      | some l =>
        exact .inr ⟨.setOverride j l, List.mem_append_left _
          (List.mem_cons_of_mem _ List.mem_cons_self), rfl, rfl⟩
      | none =>
        obtain hright | hsends := hlayout rfl
        · refine .inl ?_
          have hnone : s.layoutOverrides.lookup j = none :=
            Option.eq_none_iff_forall_ne_some.2 fun l hl =>
              hid (h.used.2.2 j ((HashMap.mem_keys_iff _ _).2 ⟨l, hl⟩))
          rw [WallpaperState.Met, hnone]
          exact hright
        · exact hseeks hsends
  · exact .inr ⟨row, u, hitem, hj, rfl, rfl, by cases a <;> exact fun hold => hold,
      not_false⟩

/-- The router forgets a renderer, which is to be removed next or is gone. -/
theorem AllCovered.unregister (h : AllCovered w s (c :: rest)) {id : RendererId}
    (hc : ∀ path i a, ¬c.Owes s path i a)
    (hid : id ∉ s.renderers.keys ∨ .remove id ∈ next) (hnext : ∀ i, .unregister i ∉ next) :
    AllCovered w (s.unregister id) (next ++ rest) := by
  have hkeys {i : RendererId} (hi : i ∈ (s.layoutOverrides.erase id).keys) :
      i ∈ s.layoutOverrides.keys := by
    obtain ⟨l, hl⟩ := (HashMap.mem_keys_iff _ _).1 hi
    rw [HashMap.lookup_erase_eq] at hl
    split at hl
    · cases hl
    · exact (HashMap.mem_keys_iff _ _).2 ⟨l, hl⟩
  refine h.step (fun _ _ hfile => hfile) ⟨h.used.1,
    fun i hi => h.used.2.1 i (List.mem_filter.1 hi).1, fun i hi => h.used.2.2 i (hkeys hi)⟩
    (fun _ hid => ⟨hid, fun hid => hid⟩) (fun id hid => absurd hid (hnext id)) ?_
  refine WallpaperState.forShown_iff.2 fun i row j v hitem hj hpath a => ?_
  by_cases hji : j = id
  · subst hji
    obtain hgone | hremoved := hid
    · exact absurd ((HashMap.mem_keys_iff _ _).2 ⟨v, hj⟩) hgone
    · exact .inl (.inr ⟨_, List.mem_append_left _ hremoved, rfl⟩)
  · refine .inr ⟨row, v, hitem, hj, rfl, rfl, ?_, hc _ j a⟩
    cases a with
    | value key => exact fun hold => hold
    | layout =>
      intro hold
      rw [WallpaperState.Met, WallpaperState.unregister, HashMap.lookup_erase_eq, if_neg hji]
      exact hold

/-- A renderer is gone. -/
theorem AllCovered.remove (h : AllCovered w s (c :: rest)) {id : RendererId}
    (hc : ∀ path i a, c.Owes s path i a → i = id)
    (hnext : ∀ i, .unregister i ∈ next → i = id ∧ id ∈ s.renderers.keys) :
    AllCovered w (s.remove id) (next ++ rest) := by
  have hkeys {i : RendererId} (hi : i ∈ (s.renderers.erase id).keys) :
      i ≠ id ∧ i ∈ s.renderers.keys := by
    obtain ⟨v, hv⟩ := (HashMap.mem_keys_iff _ _).1 hi
    rw [HashMap.lookup_erase_eq] at hv
    split at hv
    · cases hv
    · exact ⟨‹_›, (HashMap.mem_keys_iff _ _).2 ⟨v, hv⟩⟩
  refine h.step (fun _ _ hfile => hfile) ⟨fun i hi => h.used.1 i (hkeys hi).2, h.used.2⟩
    (fun i hi => ⟨hi, fun hback => (hkeys hback).2⟩) (fun i hi => ?_) ?_
  · obtain ⟨rfl, hlive⟩ := hnext i hi
    exact ⟨h.used.1 i hlive, fun hback => (hkeys hback).1 rfl⟩
  refine WallpaperState.forShown_iff.2 fun i row j v hitem hj hpath a => ?_
  rw [WallpaperState.remove, HashMap.lookup_erase_eq] at hj
  split at hj
  · cases hj
  · rename_i hji
    exact .inr ⟨row, v, hitem, hj, rfl, rfl, by cases a <;> exact fun hold => hold,
      fun howes => hji (hc _ j a howes)⟩

/-- The router knows a renderer that is listed. -/
theorem AllCovered.register {id : RendererId} (h : AllCovered w s (.register id :: rest)) :
    AllCovered w { s with registered :=
      if s.renderers.containsKey id then id :: s.registered else s.registered } ([] ++ rest) := by
  refine h.step (fun _ _ hfile => hfile) ⟨h.used.1, fun i hi => ?_, h.used.2.2⟩
    (fun _ hid => ⟨hid, fun hid => hid⟩) (fun i hi => absurd hi List.not_mem_nil) <|
    WallpaperState.forShown_iff.2 fun i row j v hitem hj _ a => .inr ⟨row, v, hitem, hj, rfl, rfl,
      by cases a <;> exact fun hold => hold, not_false⟩
  have hi : i ∈ if s.renderers.containsKey id then id :: s.registered else s.registered := hi
  split at hi
  · rename_i hlive
    obtain rfl | hi := List.mem_cons.1 hi
    · exact h.used.1 i ((HashMap.mem_keys_iff _ _).2 ((HashMap.containsKey_iff _ _).1 hlive))
    · exact h.used.2.1 i hi
  · exact h.used.2.1 i hi

theorem WallpaperState.onRow_eq_some {x : PropertyChoice} {item : ItemId}
    {f : WallpaperRow → PropertyStep} {o : PropertyStep} (h : s.onRow x item f = some o) :
    o = { shared := s } ∨ ∃ row, s.items.lookup item = some row ∧ o = f row := by
  unfold onRow at h
  split at h
  · exact .inl (Option.some_inj.1 h).symm
  · exact .inr ⟨_, ‹_›, (Option.some_inj.1 h).symm⟩
  · exact .inl (Option.some_inj.1 h).symm
  · cases h

/-- What one call keeps. -/
theorem AllCovered.exec (h : AllCovered w s (c :: rest)) {x : PropertyChoice}
    (hc : c.Reaches w s rest x) (hx : x = .fail → ¬c.Sends) {o : PropertyStep}
    (ho : c.exec w x s = some o) : AllCovered w o.shared (o.next ++ rest) := by
  cases c with
  | propertySet item key value =>
    cases ho
    refine h.quiet (fun _ _ _ => not_false) fun id hid => ?_
    split at hid
    · cases List.mem_singleton.1 hid
    · cases hid
  | mergeOverrides item key value =>
    obtain rfl | ⟨row, -, rfl⟩ := WallpaperState.onRow_eq_some ho
    · exact h.quiet (fun _ _ _ => not_false) fun _ => List.not_mem_nil
    · exact h.quiet (fun _ _ _ => not_false) fun _ => by simp
  | updateOverrides item key value current =>
    obtain rfl | ⟨row, hrow, rfl⟩ := WallpaperState.onRow_eq_some ho
    · exact h.quiet (fun _ _ _ => not_false) fun _ => List.not_mem_nil
    · exact h.updateOverrides hrow hc
  | pushProperty item key value =>
    refine h.findByResource (fun _ _ _ howes => howes) (fun id => ?_) hc ho
    by_cases hdaemon : isDaemonDisplayPropertyKey key = true
    · rw [if_pos hdaemon, aspectOf, if_pos hdaemon]
      exact ⟨fun _ => by simp, _, List.mem_singleton_self _, fun _ => ⟨rfl, rfl⟩⟩
    · rw [if_neg hdaemon, aspectOf, if_neg hdaemon]
      by_cases hvalue : value = ""
      · rw [if_pos hvalue]
        exact ⟨fun _ => by simp, _, List.mem_singleton_self _, fun _ => ⟨rfl, rfl⟩⟩
      · rw [if_neg hvalue]
        exact ⟨fun _ => by simp, _, List.mem_singleton_self _, fun _ => ⟨rfl, rfl⟩⟩
  | readLayout item id =>
    cases x with
    | tick =>
      cases ho
      exact h.relay (fun _ _ _ howes => ⟨_, List.mem_singleton_self _, howes⟩) fun _ => by simp
    | fail => exact absurd trivial (hx rfl)
    | _ => cases ho
  | sendDefault item id key =>
    cases x with
    | tick =>
      cases ho
      exact h.relay (fun _ _ _ howes => ⟨_, List.mem_singleton_self _, howes⟩) fun _ => by simp
    | fail =>
      cases ho
      exact h.relay (fun _ _ _ howes => ⟨_, List.mem_singleton_self _, howes⟩) fun _ => by simp
    | _ => cases ho
  | sendProperty id key value =>
    cases x with
    | tick =>
      cases ho
      exact h.sendProperty hc
    | fail => exact absurd trivial (hx rfl)
    | _ => cases ho
  | layoutSet item layout =>
    cases ho
    refine h.quiet (fun _ _ _ => not_false) fun id hid => ?_
    split at hid
    · cases layout <;> cases List.mem_singleton.1 hid
    · cases hid
  | readCleared item =>
    obtain rfl | ⟨row, -, rfl⟩ := WallpaperState.onRow_eq_some ho
    · exact h.quiet (fun _ _ _ => not_false) fun _ => List.not_mem_nil
    · exact h.quiet (fun _ _ _ => not_false) fun _ => by simp
  | clearLayout item current =>
    obtain rfl | ⟨row, hrow, rfl⟩ := WallpaperState.onRow_eq_some ho
    · exact h.quiet (fun _ _ _ => not_false) fun _ => List.not_mem_nil
    · exact h.clearLayout hrow hc
  | updateLayout item layout =>
    obtain rfl | ⟨row, hrow, rfl⟩ := WallpaperState.onRow_eq_some ho
    · exact h.quiet (fun _ _ _ => not_false) fun _ => List.not_mem_nil
    · exact h.updateLayout hrow
  | pushLayout item layout =>
    refine h.findByResource (fun _ _ _ howes => howes) (fun id => ⟨fun _ => by simp, ?_⟩) hc ho
    exact ⟨.setOverride id layout, List.mem_singleton_self _, fun _ => ⟨rfl, rfl⟩⟩
  | setOverride id layout =>
    cases ho
    exact h.setOverride hc
  | apply item rendererName =>
    cases ho
    refine h.quiet (fun _ _ _ => not_false) fun id hid => ?_
    split at hid
    · cases List.mem_singleton.1 hid
    · cases hid
  | readProperties item rendererName =>
    simp only [PropertyCall.exec] at ho
    split at ho
    · cases ho
      exact h.quiet (fun _ _ _ => not_false) fun _ => List.not_mem_nil
    · cases ho
      exact h.quiet (fun _ _ _ => not_false) fun _ => by simp
    · cases ho
      exact h.quiet (fun _ _ _ => not_false) fun _ => List.not_mem_nil
    · cases ho
  | findReusable req properties =>
    cases x with
    | pick id =>
      rw [PropertyCall.exec] at ho
      split at ho <;> cases ho
      exact h.quiet (fun _ _ _ => not_false) fun _ => by simp
    | tick =>
      rw [PropertyCall.exec] at ho
      split at ho <;> cases ho
      exact h.quiet (fun _ _ _ => not_false) fun _ => by simp
    | _ => cases ho
  | spawn req values layout =>
    simp only [PropertyCall.exec] at ho
    split at ho <;> cases ho
    · exact h.quiet (fun _ _ _ => not_false) fun _ => by simp
    · exact h.quiet (fun _ _ _ => not_false) fun _ => List.not_mem_nil
  | insertRenderer v layout =>
    cases x with
    | uuid id =>
      rw [PropertyCall.exec] at ho
      split at ho <;> cases ho
      exact h.insertRenderer hc ‹_›
    | _ => cases ho
  | register id =>
    cases ho
    exact h.register
  | kill id =>
    cases ho
    exact h.unregister (fun _ _ _ => not_false)
      (.inr (List.mem_singleton_self _)) fun _ => by simp
  | remove id =>
    cases ho
    exact h.remove (fun _ i a howes => howes.symm)
      fun i hi => absurd hi List.not_mem_nil
  | evict id =>
    cases ho
    refine h.remove (fun _ i a howes => howes.elim) fun i hi => ?_
    split at hi
    · cases List.mem_singleton.1 hi
      exact ⟨rfl, (HashMap.mem_keys_iff _ _).2 ((HashMap.containsKey_iff _ _).1 ‹_›)⟩
    · cases hi
  | unregister id =>
    cases ho
    exact h.unregister (fun _ _ _ => not_false)
      (.inl (h.evicted id List.mem_cons_self).2) fun _ => List.not_mem_nil

end Steps

end Waywallen
