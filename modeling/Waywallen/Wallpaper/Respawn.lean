import Waywallen.Wallpaper.Covered

/-!
# A respawn changes nothing

The rows keep every property write, and the renderers show what the rows say, as far as requests
do not get in each other's way; two requests that read the row before either writes it do.
-/

namespace Waywallen

open TaskPool

variable {fl : FloatOps} {w : PropertySources fl}

/-! ## What has been written -/

section Written

variable {s : WallpaperState} {items : HashMap ItemId WallpaperRow}

theorem replay_append (u : UserProperties) (item : ItemId)
    (history sets : List (ItemId × String × String)) :
    replay u item (history ++ sets) = replay (replay u item history) item sets := by
  rw [replay, List.filter_append, List.foldl_append, replay, replay]

theorem replay_of_forall_ne (u : UserProperties) {item : ItemId}
    {sets : List (ItemId × String × String)} (h : ∀ e ∈ sets, e.1 ≠ item) :
    replay u item sets = u := by
  rw [replay, List.filter_eq_nil_iff.2 fun e he => by simpa using h e he, List.foldl_nil]

/-- Removing the keys of the layout, one after the other. -/
theorem get_replay_cleared (u : UserProperties) (item : ItemId) (k : String) :
    (replay u item (daemonDisplayPropertyKeys.map (item, ·, ""))).get k =
      if isDaemonDisplayPropertyKey k then none else u.get k := by
  have h (keys : List String) (hkeys : ∀ key ∈ keys, canonicalUserPropertyKey key = key)
      (u : UserProperties) : (replay u item (keys.map (item, ·, ""))).get k =
        if keys.contains k then none else u.get k := by
    induction keys generalizing u with
    | nil => rfl
    | cons key keys ih =>
      have hsplit : (key :: keys).map ((item, ·, "")) = [(item, key, "")] ++ keys.map (item, ·, "") :=
        rfl
      have hone : replay u item [(item, key, "")] = u.merge key "" := by
        rw [replay, List.filter_cons_of_pos (by simp)]
        rfl
      rw [hsplit, replay_append, ih (fun key hkey => hkeys key (List.mem_cons_of_mem _ hkey)), hone,
        UserProperties.get_merge, hkeys key List.mem_cons_self, List.contains_cons]
      by_cases hk : k = key
      · simp [hk]
      · simp [hk]
  exact h daemonDisplayPropertyKeys (fun key hkey =>
    canonical_of_isDaemon (List.contains_iff_mem.2 hkey)) u

/-- A row is rewritten, and the history with it. -/
theorem WallpaperState.Persisted.setRow (h : s.Persisted items) {item : ItemId}
    {row row' : WallpaperRow} (hrow : s.items.lookup item = some row)
    {sets : List (ItemId × String × String)} (hsets : ∀ e ∈ sets, e.1 = item)
    (hget : ∀ u key, (∀ k, u.get k = row.getUserPropertyOverrides.get k) →
      row'.getUserPropertyOverrides.get key = (replay u item sets).get key) :
    (s.setRow item row' sets).Persisted items := by
  intro i start r hstart hr key
  have hlookup : (s.items.insert item row').lookup i = some r := hr
  rw [HashMap.lookup_insert_eq] at hlookup
  rw [WallpaperState.setRow, replay_append]
  split at hlookup
  · rename_i hi
    subst hi
    obtain rfl := Option.some_inj.1 hlookup
    exact hget _ key fun k => (h i start row hstart hrow k).symm
  · rename_i hi
    rw [replay_of_forall_ne _ fun e he heq => hi (heq.symm.trans (hsets e he))]
    exact h i start r hstart hlookup key

/-- What one call keeps of the history. -/
theorem WallpaperState.Persisted.exec (h : s.Persisted items) {c : PropertyCall}
    {rest : List PropertyCall} {x : PropertyChoice} (hc : c.Reaches w s rest x)
    {o : PropertyStep} (ho : c.exec w x s = some o) : o.shared.Persisted items := by
  cases c with
  | updateOverrides item key value current =>
    obtain rfl | ⟨row, hrow, rfl⟩ := WallpaperState.onRow_eq_some ho
    · exact h
    refine h.setRow hrow (fun e he => by rw [List.mem_singleton.1 he]) fun u k hu => ?_
    have hone : replay u item [(item, key, value)] = u.merge key value := by
      rw [replay, List.filter_cons_of_pos (by simp)]
      rfl
    rw [row.get_setUserPropertyOverrides, hone, UserProperties.get_merge, UserProperties.get_merge]
    by_cases hk : k = canonicalUserPropertyKey key
    · rw [if_pos hk, if_pos hk]
    · rw [if_neg hk, if_neg hk, hu k]
      exact UserProperties.get_eq_of_keys (hc row hrow).1 hk
  | clearLayout item current =>
    obtain rfl | ⟨row, hrow, rfl⟩ := WallpaperState.onRow_eq_some ho
    · exact h
    refine h.setRow hrow (fun e he => ?_) fun u k hu => ?_
    · obtain ⟨key, -, rfl⟩ := List.mem_map.1 he
      rfl
    rw [WallpaperRow.get_setUserPropertyOverrides, UserProperties.get_clearLayout,
      get_replay_cleared, hu k]
    by_cases hk : isDaemonDisplayPropertyKey k = true
    · rw [if_pos hk, if_pos hk]
    · rw [if_neg hk, if_neg hk]
      exact UserProperties.get_eq_of_keys (hc row hrow) (Bool.eq_false_iff.2 hk)
  | updateLayout item layout =>
    obtain rfl | ⟨row, hrow, rfl⟩ := WallpaperState.onRow_eq_some ho
    · exact h
    exact h.setRow hrow (fun e he => absurd he List.not_mem_nil) fun u k hu => (hu k).symm
  | mergeOverrides | readCleared =>
    obtain rfl | ⟨row, -, rfl⟩ := WallpaperState.onRow_eq_some ho <;> exact h
  | setOverride id layout =>
    cases ho
    obtain ⟨m, hm, -⟩ := s.setOverride_eq id layout
    rw [hm]
    exact h
  | _ =>
    simp only [PropertyCall.exec, WallpaperState.findByResource] at ho
    repeat' split at ho
    all_goals cases ho <;> exact h

end Written

/-! ## Runs -/

section Runs

variable (w)

/-- No call starts a task or aborts one. -/
theorem PropertyCall.exec_alone {x : PropertyChoice} {s : WallpaperState} {c : PropertyCall}
    {o : PropertyStep} (ho : c.exec w x s = some o) : o.spawn = [] ∧ o.abort = [] := by
  cases c <;> simp only [exec, WallpaperState.onRow, WallpaperState.findByResource] at ho <;>
    repeat' split at ho
  all_goals cases ho <;> exact ⟨rfl, rfl⟩

theorem steady_propertySemantics : (propertySemantics w).Steady where
  abort ho := (PropertyCall.exec_alone w ho).2
  spawn ho t ht := by
    rw [(PropertyCall.exec_alone w ho).1] at ht
    cases ht
  accept ha := by
    cases ha
    exact ⟨rfl, rfl⟩

variable {w} in
/-- What one step keeps. -/
theorem AllCovered.pool_step {items : HashMap ItemId WallpaperRow} {p p' : PropertyPool}
    {l : PropertyLabel}
    (h : (∀ t ∈ p.tasks, t.Steady) ∧ AllCovered w p.shared (calls p.tasks) ∧
      p.shared.Persisted items)
    (hC : PropertiesReach w p l ∧ PropertySendsSucceed p l)
    (hstep : (propertySemantics w).step p l = some p') :
    (∀ t ∈ p'.tasks, t.Steady) ∧ AllCovered w p'.shared (calls p'.tasks) ∧
      p'.shared.Persisted items := by
  refine (steady_propertySemantics w).preserves
    (I := fun s cs => AllCovered w s cs ∧ s.Persisted items)
    (C := fun p l => PropertiesReach w p l ∧ PropertySendsSucceed p l)
    (fun hperm h => ⟨h.1.perm hperm, h.2⟩) ?_ ?_ (fun p e s => nomatch e) p l p' h hC hstep
  · intro p l i x c o hl hC hc h ho
    rw [(PropertyCall.exec_alone w ho).1, calls_nil, List.append_nil]
    subst hl
    refine ⟨h.1.exec (hC.1 c hc) (fun hx => ?_) ho, h.2.exec (hC.1 c hc) ho⟩
    subst hx
    exact hC.2 c hc
  · intro p q s t _ h hq
    cases hq
    refine ⟨⟨h.1.used, fun id hid => ?_, fun i hi e he hpath a => ?_⟩, h.2⟩
    · refine h.1.evicted id ((List.mem_append.1 hid).resolve_right fun hid => ?_)
      cases q <;> cases List.mem_singleton.1 hid
    · exact (h.1.covered i hi e he hpath a).imp_right fun ⟨k, hk, howes⟩ =>
        ⟨k, List.mem_append_left _ hk, howes⟩

/-- Once all requests are through, the renderers show what the rows say and every property write is
in its row, if each write was made on what had been read and each value reached the renderers
last. -/
theorem faithful_and_persisted {items : HashMap ItemId WallpaperRow} {ls : List PropertyLabel}
    {p : PropertyPool}
    (hr : Transition.run (propertySemantics w).step (startProperties items) ls = some p)
    (hreach : Transition.Along (propertySemantics w).step (PropertiesReach w)
      (startProperties items) ls)
    (hsend : Transition.Along (propertySemantics w).step PropertySendsSucceed
      (startProperties items) ls)
    (hdone : calls p.tasks = []) : p.shared.Faithful w ∧ p.shared.Persisted items := by
  have hstart : (∀ t ∈ (startProperties items).tasks, t.Steady) ∧
      AllCovered w (startProperties items).shared (calls (startProperties items).tasks) ∧
        (startProperties items).shared.Persisted items := by
    refine ⟨fun t ht => absurd ht List.not_mem_nil, ⟨⟨nofun, nofun, nofun⟩, nofun, ?_⟩, ?_⟩
    · exact fun i hi e he => absurd he List.not_mem_nil
    · intro item start row hstart hrow key
      obtain rfl := Option.some_inj.1 (hstart.symm.trans hrow)
      rfl
  obtain ⟨-, hcovered, hpersisted⟩ := Transition.invariant_of_run
    (fun _ _ _ => AllCovered.pool_step) hstart (hreach.and hsend) hr
  refine ⟨fun i hi e he hpath a => ?_, hpersisted⟩
  obtain hmet | ⟨c, hc, -⟩ := hcovered.covered i hi e he hpath a
  · exact hmet
  · rw [hdone] at hc
    cases hc

end Runs

/-! ## Two writes at once -/

/-- The properties of the wallpaper have no defaults. -/
def plainSources : PropertySources wholeFloats where
  registry := videoRegistry
  parsePercent _ := none
  defaultValue _ _ := none

def clip : WallpaperRow := ⟨"/videos/clip.mp4", "video", none, none⟩

def clips : HashMap ItemId WallpaperRow := AList.insert 1 clip ∅

/-- The clip is applied, and a property is set once its renderer is listed. -/
def setOnceShown : List PropertyLabel :=
  [.start (.apply 1 none), .run 0 .tick,
    .run 0 (.extras (AList.insert "path" "/videos/clip.mp4" ∅)), .run 0 .tick, .run 0 .tick,
    .run 0 (.uuid 7), .run 0 .tick, .run 0 .tick,
    .start (.propertySet 1 "speed" "2"), .run 1 .tick, .run 1 .tick, .run 1 .tick,
    .run 1 (.pick 7), .run 1 .tick]

/-- Two properties of the clip are set; both requests read the row before either writes it. -/
def setTogether : List PropertyLabel :=
  [.start (.propertySet 1 "speed" "2"), .start (.propertySet 1 "brightness" "3"),
    .run 0 .tick, .run 0 .tick, .run 1 .tick, .run 1 .tick, .run 0 .tick, .run 1 .tick,
    .run 0 .tick, .run 1 .tick]

theorem faithful_and_persisted_setOnceShown :
    (Transition.reached (propertySemantics plainSources).step (startProperties clips) setOnceShown
        (by decide +kernel)).shared.Faithful plainSources ∧
      (Transition.reached (propertySemantics plainSources).step (startProperties clips)
        setOnceShown (by decide +kernel)).shared.Persisted clips :=
  faithful_and_persisted plainSources (Transition.run_reached _ _) (by decide +kernel)
    (by decide +kernel) (by decide +kernel)

def togetherSet : WallpaperState :=
  (Transition.reached (propertySemantics plainSources).step (startProperties clips) setTogether
    (by decide +kernel)).shared

/-- The second write takes the first property away again. -/
theorem not_faithful_and_persisted : ¬∀ (w : PropertySources wholeFloats)
    (items : HashMap ItemId WallpaperRow) (ls : List PropertyLabel) (p : PropertyPool),
    Transition.run (propertySemantics w).step (startProperties items) ls = some p →
    Transition.Along (propertySemantics w).step PropertySendsSucceed (startProperties items) ls →
    calls p.tasks = [] → p.shared.Faithful w ∧ p.shared.Persisted items := by
  intro h
  have hpersisted : togetherSet.Persisted clips := (h plainSources clips setTogether _
    (Transition.run_reached _ (by decide)) (by decide) (by decide)).2
  have hlost : (togetherSet.items.lookup 1).isSome = true ∧
      ∀ row ∈ togetherSet.items.lookup 1, row.getUserPropertyOverrides.get "speed" = none := by
    decide
  have hset : (replay clip.getUserPropertyOverrides 1 togetherSet.history).get "speed" =
      some "2" := by
    decide
  obtain ⟨row, hrow⟩ := Option.isSome_iff_exists.1 hlost.1
  have hkept := hpersisted 1 clip row rfl hrow "speed"
  rw [hlost.2 row hrow, hset] at hkept
  cases hkept

end Waywallen
