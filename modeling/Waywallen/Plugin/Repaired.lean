import Waywallen.Plugin.Reconcile

/-!
# Reconciling twice

A reconciled table has the declared keys, each with a valid value or with its default, which need
not be valid. There is nothing left to change in it. Of several manifests with one name, the
registry lists the first; the keys of the others are not declared.
-/

namespace Waywallen

variable {fl : FloatOps}

/-- The table has the keys of the schema; what is not valid is the default. -/
structure Repaired (schema : HashMap String (SettingDef fl)) (table : HashMap String String) :
    Prop where
  declared : ∀ k v, table.lookup k = some v → schema.containsKey k = true
  value : ∀ k d, schema.lookup k = some d →
    ∃ v, table.lookup k = some v ∧ (Passes k v d ∨ v = d.defaultText)

section

variable {schema : HashMap String (SettingDef fl)} {table : HashMap String String}

theorem reconciledValue_cases (k : String) (d : SettingDef fl) (v : Option String) :
    (v = some (reconciledValue k d v) ∧ Passes k (reconciledValue k d v) d) ∨
      reconciledValue k d v = d.defaultText := by
  unfold reconciledValue
  cases v with
  | none => exact .inr rfl
  | some v =>
    by_cases hv : Passes k v d
    · refine .inl ?_
      simp [needsDefault, hv]
    · refine .inr ?_
      simp [needsDefault, hv]

theorem reconciledValue_of_passes {k v : String} {d : SettingDef fl} (h : Passes k v d) :
    reconciledValue k d (some v) = v := by
  simp [reconciledValue, needsDefault, h]

theorem repaired_reconcileTable (schema : HashMap String (SettingDef fl))
    (table : HashMap String String) : Repaired schema (reconcileTable schema table).1 where
  declared k v h := by
    rw [lookup_reconcileTable] at h
    obtain ⟨d, hd, -⟩ := Option.map_eq_some_iff.1 h
    rw [HashMap.containsKey, hd]
    rfl
  value k d hd := by
    refine ⟨reconciledValue k d (table.lookup k), ?_, ?_⟩
    · rw [lookup_reconcileTable, hd]
      rfl
    · exact (reconciledValue_cases k d _).imp_left And.right

theorem reconcileKey_of_repaired {key v : String} {d : SettingDef fl} {changed : Bool}
    (hv : table.lookup key = some v) (h : Passes key v d ∨ v = d.defaultText) :
    reconcileKey (table, changed) key d = (table, changed) := by
  unfold reconcileKey
  dsimp only
  rw [hv]
  rcases h with h | rfl
  · rw [if_neg (by simp [needsDefault, h])]
  · rw [if_neg (fun hne : some d.defaultText ≠ _ => hne rfl), ite_self]

theorem foldl_reconcileKey_of_repaired {es : List (Sigma fun _ : String => SettingDef fl)}
    {changed : Bool} (h : ∀ e ∈ es, ∃ v, table.lookup e.1 = some v ∧
      (Passes e.1 v e.2 ∨ v = e.2.defaultText)) :
    es.foldl (fun acc e => reconcileKey acc e.1 e.2) (table, changed) = (table, changed) := by
  induction es with
  | nil => rfl
  | cons e es ih =>
    rw [List.forall_mem_cons] at h
    obtain ⟨v, hv, hvalue⟩ := h.1
    rw [List.foldl_cons, reconcileKey_of_repaired hv hvalue, ih h.2]

/-- Nothing is done to a repaired table. -/
theorem reconcileTable_of_repaired (h : Repaired schema table) :
    reconcileTable schema table = (table, false) := by
  have hstale : (table.keys.filter fun k => !schema.containsKey k) = [] := by
    rw [List.filter_eq_nil_iff]
    intro k hk
    obtain ⟨v, hv⟩ := (HashMap.mem_keys_iff table k).1 hk
    simp [h.declared k v hv]
  unfold reconcileTable
  simp only [hstale, List.foldl_nil]
  refine foldl_reconcileKey_of_repaired fun e he => h.value e.1 e.2 ?_
  exact AList.mem_lookup_iff.2 he

end

section

variable {r : RendererRegistry fl} {plugins : PluginTables} {ds : List (RendererDef fl)}
  {acc : PluginTables × Bool} {name : String}

theorem lookup_reconcilePlugin {d : RendererDef fl} (h : name ≠ d.name) :
    (reconcilePlugin acc d).1.lookup name = acc.1.lookup name := by
  unfold reconcilePlugin
  split
  · rfl
  · exact AList.lookup_insert_ne h

/-- The tables of plugins without a manifest are kept. -/
theorem lookup_foldl_reconcilePlugin (h : ∀ d ∈ ds, d.name ≠ name) :
    (ds.foldl reconcilePlugin acc).1.lookup name = acc.1.lookup name := by
  induction ds generalizing acc with
  | nil => rfl
  | cons d ds ih =>
    rw [List.forall_mem_cons] at h
    rw [List.foldl_cons, ih h.2, lookup_reconcilePlugin (Ne.symm h.1)]

theorem lookup_reconcile (h : ∀ d ∈ r.allRenderers, d.name ≠ name) :
    (reconcile r plugins).1.lookup name = plugins.lookup name :=
  lookup_foldl_reconcilePlugin h

/-- Every manifest with settings has its table repaired. -/
def AllRepaired (ds : List (RendererDef fl)) (plugins : PluginTables) : Prop :=
  ∀ d ∈ ds, d.settings.keys ≠ [] → ∃ table, plugins.lookup d.name = some table ∧
    Repaired d.settings table

theorem allRepaired_reconcile (r : RendererRegistry fl) (plugins : PluginTables) :
    AllRepaired r.allRenderers (reconcile r plugins).1 := by
  intro d hd hschema
  have htable := spawnSettings_reconcile r plugins hd hschema
  have hrepaired := repaired_reconcileTable d.settings (plugins.spawnSettings d.name)
  rw [← htable] at hrepaired
  cases hlookup : (reconcile r plugins).1.lookup d.name with
  | some table =>
    rw [PluginTables.spawnSettings, hlookup] at hrepaired
    exact ⟨table, rfl, hrepaired⟩
  | none =>
    -- a key of the schema would be in a table that is not there
    obtain ⟨key, hkey⟩ := List.exists_mem_of_ne_nil _ hschema
    obtain ⟨def_, hdef⟩ := (HashMap.mem_keys_iff _ _).1 hkey
    obtain ⟨v, hv, -⟩ := hrepaired.value key def_ hdef
    rw [PluginTables.spawnSettings, hlookup] at hv
    cases hv

theorem reconcilePlugin_of_repaired (acc : PluginTables × Bool) {d : RendererDef fl}
    (h : AllRepaired [d] acc.1) :
    (∀ name, (reconcilePlugin acc d).1.lookup name = acc.1.lookup name) ∧
      (reconcilePlugin acc d).2 = acc.2 := by
  unfold reconcilePlugin
  split
  · exact ⟨fun _ => rfl, rfl⟩
  · rename_i hschema
    obtain ⟨table, htable, hrepaired⟩ := h d List.mem_cons_self (by simpa using hschema)
    have hspawn : acc.1.spawnSettings d.name = table := by
      rw [PluginTables.spawnSettings, htable]
      rfl
    rw [hspawn, reconcileTable_of_repaired hrepaired]
    refine ⟨fun name => ?_, Bool.or_false _⟩
    show (acc.1.insert d.name table).lookup name = _
    rw [HashMap.lookup_insert_eq]
    split
    · rename_i hname
      rw [hname, htable]
    · rfl

theorem foldl_reconcilePlugin_of_repaired (acc : PluginTables × Bool) (h : AllRepaired ds acc.1) :
    (∀ name, (ds.foldl reconcilePlugin acc).1.lookup name = acc.1.lookup name) ∧
      (ds.foldl reconcilePlugin acc).2 = acc.2 := by
  induction ds generalizing acc with
  | nil => exact ⟨fun _ => rfl, rfl⟩
  | cons d ds ih =>
    obtain ⟨hlookup, hchanged⟩ := reconcilePlugin_of_repaired acc
      fun e he => h e (List.mem_cons.2 (.inl (List.mem_singleton.1 he)))
    have hrest : AllRepaired ds (reconcilePlugin acc d).1 := fun e he hschema => by
      obtain ⟨table, htable, hrepaired⟩ := h e (List.mem_cons_of_mem _ he) hschema
      exact ⟨table, (hlookup e.name).trans htable, hrepaired⟩
    obtain ⟨hlookups, hchangeds⟩ := ih _ hrest
    exact ⟨fun name => (hlookups name).trans (hlookup name), hchangeds.trans hchanged⟩

end

/-- What reconciling does and does not change, with the manifests that count as declaring. -/
structure ReconcileLaws (r : RendererRegistry fl) (plugins : PluginTables)
    (declares : List (RendererDef fl)) : Prop where
  /-- A second reconcile directly after the first reports no change and makes none. -/
  again : (reconcile r (reconcile r plugins).1).2 = false
  same : ∀ name,
    (reconcile r (reconcile r plugins).1).1.lookup name = (reconcile r plugins).1.lookup name
  /-- A plugin without a manifest keeps its table. -/
  absent : ∀ name, (∀ d ∈ declares, d.name ≠ name) →
    (reconcile r plugins).1.lookup name = plugins.lookup name
  /-- A valid value of a declared key is kept. -/
  kept : ∀ d ∈ declares, ∀ key schema v, d.settings.lookup key = some schema →
    (plugins.spawnSettings d.name).lookup key = some v → Passes key v schema →
      ((reconcile r plugins).1.spawnSettings d.name).lookup key = some v
  /-- Every declared key is present afterwards. -/
  present : ∀ d ∈ declares, ∀ key schema, d.settings.lookup key = some schema →
    (((reconcile r plugins).1.spawnSettings d.name).lookup key).isSome

theorem lookup_reconcile_declared {r : RendererRegistry fl} {d : RendererDef fl} {key : String}
    {schema : SettingDef fl} (h : Declared r d key schema) (plugins : PluginTables) :
    ((reconcile r plugins).1.spawnSettings d.name).lookup key =
      some (reconciledValue key schema ((plugins.spawnSettings d.name).lookup key)) := by
  rw [spawnSettings_reconcile r plugins h.1 h.keys_ne_nil, lookup_reconcileTable, h.2]
  rfl

theorem reconcileLaws (r : RendererRegistry fl) (plugins : PluginTables) :
    ReconcileLaws r plugins r.allRenderers where
  again := (foldl_reconcilePlugin_of_repaired (_, false) (allRepaired_reconcile r plugins)).2
  same := (foldl_reconcilePlugin_of_repaired (_, false) (allRepaired_reconcile r plugins)).1
  absent _ h := lookup_reconcile h
  kept d hd key schema v hkey hv hpasses := by
    rw [lookup_reconcile_declared ⟨hd, hkey⟩, hv, reconciledValue_of_passes hpasses]
  present d hd key schema hkey := by
    rw [lookup_reconcile_declared ⟨hd, hkey⟩]
    rfl

/-- A scene renderer under the name of the video renderer, with a setting of its own. -/
def namesakeRenderer : RendererDef wholeFloats where
  name := "waywallen-video"
  types := ["scene"]
  priority := 100
  settings := AList.insert "speed" volumeDef ∅

def namesakeRegistry : RendererRegistry wholeFloats :=
  videoRegistry.register namesakeRenderer

theorem values_namesakeRegistry :
    namesakeRegistry.byType.values.flatten = [namesakeRenderer, videoRenderer] := by
  have hscene (defs : List (RendererDef wholeFloats)) :
      (AList.insert "video" defs (∅ : HashMap String _)).lookup "scene" = none :=
    AList.lookup_insert_ne (by decide)
  simp only [namesakeRegistry, videoRegistry, RendererRegistry.register, namesakeRenderer,
    videoRenderer, List.foldl_cons, List.foldl_nil, RendererRegistry.new, AList.lookup_empty,
    Option.getD_none, List.nil_append, List.mergeSort_singleton, hscene]
  rfl

theorem allRenderers_namesakeRegistry : namesakeRegistry.allRenderers = [namesakeRenderer] := by
  rw [RendererRegistry.allRenderers, values_namesakeRegistry]
  simp [RendererRegistry.dedupByName, namesakeRenderer, videoRenderer]

/-- Of two renderers with one name, only the settings of one are there. -/
theorem not_reconcileLaws : ¬ ∀ (r : RendererRegistry wholeFloats) plugins,
    ReconcileLaws r plugins r.byType.values.flatten := by
  intro h
  have hvideo : videoRenderer ∈ namesakeRegistry.byType.values.flatten := by
    rw [values_namesakeRegistry]
    exact List.mem_cons_of_mem _ List.mem_cons_self
  have hlisted : namesakeRenderer ∈ namesakeRegistry.allRenderers := by
    rw [allRenderers_namesakeRegistry]
    exact List.mem_cons_self
  have hpresent := (h namesakeRegistry ∅).present videoRenderer hvideo "volume" volumeDef rfl
  have htable : (reconcile namesakeRegistry ∅).1.spawnSettings videoRenderer.name =
      (reconcileTable namesakeRenderer.settings _).1 :=
    spawnSettings_reconcile namesakeRegistry ∅ hlisted (List.cons_ne_nil _ _)
  rw [htable, lookup_reconcileTable] at hpresent
  cases hpresent

end Waywallen
