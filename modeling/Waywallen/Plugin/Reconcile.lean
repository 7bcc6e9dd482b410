import Waywallen.Plugin.Schema

/-!
# Plugin settings from startup on

At startup the loaded tables are reconciled with the manifests: keys a schema does not declare are
dropped, missing and invalid values are replaced by the default of the manifest. From then on a
settings request replaces all the tables by those it carries, once every declared key in it has
been validated.
-/

namespace Waywallen

variable {fl : FloatOps}

/-- The values of every plugin, by plugin name. -/
abbrev PluginTables := HashMap String (HashMap String String)

namespace PluginTables

/-- What a spawn puts into `Init.settings` of a renderer of the plugin. -/
def spawnSettings (plugins : PluginTables) (name : String) : HashMap String String :=
  (plugins.lookup name).getD ∅

end PluginTables

/-! ## Reconcile -/

/-- The text of the default, as `reconcile` stores it. -/
def SettingDef.defaultText (d : SettingDef fl) : String :=
  match d.ty, d.default with
  | .u32, .integer i => toString i
  | .f32, .float f => fl.toString64 f
  | .f32, .integer i => fl.toString (fl.ofInt i)
  | .bool, .boolean b => toString b
  | _, .string s => s
  | _, other => other.toString

/-- Whether the stored value must be replaced. -/
def needsDefault (key : String) (d : SettingDef fl) : Option String → Bool
  | none => true
  | some v => !decide (Passes key v d)

/-- Fill in or reset one declared key; the flag says whether a table has changed. -/
def reconcileKey (acc : HashMap String String × Bool) (key : String) (d : SettingDef fl) :
    HashMap String String × Bool :=
  if needsDefault key d (acc.1.lookup key) then
    if acc.1.lookup key ≠ some d.defaultText then (acc.1.insert key d.defaultText, true) else acc
  else acc

def reconcileTable (schema : HashMap String (SettingDef fl)) (table : HashMap String String) :
    HashMap String String × Bool :=
  let stale := table.keys.filter fun k => !schema.containsKey k
  schema.entries.foldl (fun acc e => reconcileKey acc e.1 e.2)
    (stale.foldl (fun m k => m.erase k) table, !stale.isEmpty)

def reconcilePlugin (acc : PluginTables × Bool) (d : RendererDef fl) : PluginTables × Bool :=
  if d.settings.keys.isEmpty then acc
  else
    let (table, changed) := reconcileTable d.settings (acc.1.spawnSettings d.name)
    (acc.1.insert d.name table, acc.2 || changed)

/-- Bring the tables in line with the schemas of the loaded renderers. -/
def reconcile (r : RendererRegistry fl) (plugins : PluginTables) : PluginTables × Bool :=
  r.allRenderers.foldl reconcilePlugin (plugins, false)

/-- The value of a declared key after `reconcile`. -/
def reconciledValue (key : String) (d : SettingDef fl) (v : Option String) : String :=
  if needsDefault key d v then d.defaultText else v.getD d.defaultText

theorem lookup_reconcileKey (acc : HashMap String String × Bool) (key k : String)
    (d : SettingDef fl) : (reconcileKey acc key d).1.lookup k =
      if k = key then some (reconciledValue key d (acc.1.lookup key)) else acc.1.lookup k := by
  unfold reconcileKey reconciledValue
  rcases hv : acc.1.lookup key with _ | v
  · have hneed : needsDefault key d none = true := rfl
    rw [if_pos hneed, if_pos hneed, if_pos (Option.some_ne_none _).symm]
    exact HashMap.lookup_insert_eq ..
  · by_cases hneed : needsDefault key d (some v)
    · rw [if_pos hneed, if_pos hneed]
      split
      · exact HashMap.lookup_insert_eq ..
      · rename_i hsame
        have hsame : some v = some d.defaultText := not_not.1 hsame
        split
        · rename_i hk
          rw [hk, hv, hsame]
        · rfl
    · rw [if_neg hneed, if_neg hneed]
      split
      · rename_i hk
        rw [hk, hv]
        rfl
      · rfl

theorem lookup_reconcileKeys (es : List (Sigma fun _ : String => SettingDef fl))
    (hnodup : es.NodupKeys) (acc : HashMap String String × Bool) (k : String) :
    (es.foldl (fun acc e => reconcileKey acc e.1 e.2) acc).1.lookup k =
      (es.dlookup k).elim (acc.1.lookup k) fun d =>
        some (reconciledValue k d (acc.1.lookup k)) := by
  induction es generalizing acc with
  | nil => rfl
  | cons e es ih =>
    obtain ⟨key, d⟩ := e
    obtain ⟨hkey, hnodup⟩ := List.nodupKeys_cons.1 hnodup
    rw [List.foldl_cons, ih hnodup, lookup_reconcileKey]
    by_cases hk : k = key
    · subst hk
      have hnone : es.dlookup k = none := List.dlookup_eq_none.2 hkey
      rw [hnone, if_pos rfl, List.dlookup_cons_eq]
      rfl
    · have hcons : List.dlookup k ((⟨key, d⟩ : Sigma fun _ : String => SettingDef fl) :: es) =
          es.dlookup k := List.dlookup_cons_ne es _ hk
      rw [if_neg hk, hcons]

/-- A table holds exactly the declared keys afterwards. -/
theorem lookup_reconcileTable (schema : HashMap String (SettingDef fl))
    (table : HashMap String String) (k : String) :
    (reconcileTable schema table).1.lookup k =
      (schema.lookup k).map fun d => reconciledValue k d (table.lookup k) := by
  have hkept : ((table.keys.filter fun k => !schema.containsKey k).foldl
      (fun m k => m.erase k) table).lookup k = if schema.containsKey k then table.lookup k
        else none := by
    rw [HashMap.lookup_foldl_erase]
    rcases htable : table.lookup k with _ | v
    · simp
    · have hmem : k ∈ table.keys := (HashMap.mem_keys_iff table k).2 ⟨v, htable⟩
      rw [← htable]
      cases hk : schema.containsKey k <;> simp [hmem, hk]
  unfold reconcileTable
  rw [lookup_reconcileKeys _ schema.nodupKeys, hkept]
  show (schema.lookup k).elim _ _ = _
  rcases hk : schema.lookup k with _ | d
  · simp [HashMap.containsKey, hk]
  · simp [HashMap.containsKey, hk]

/-- Tables of other plugins stay as they are. -/
theorem spawnSettings_reconcilePlugin (acc : PluginTables × Bool) (d : RendererDef fl)
    (name : String) : (reconcilePlugin acc d).1.spawnSettings name =
      if name = d.name ∧ d.settings.keys ≠ [] then
        (reconcileTable d.settings (acc.1.spawnSettings d.name)).1
      else acc.1.spawnSettings name := by
  unfold reconcilePlugin
  by_cases hempty : d.settings.keys = []
  · rw [if_pos (by rw [hempty]; rfl), if_neg fun h => h.2 hempty]
  · rw [if_neg (by simpa using hempty)]
    show ((acc.1.insert _ _).lookup name).getD ∅ = _
    rw [HashMap.lookup_insert_eq]
    by_cases hname : name = d.name
    · rw [if_pos hname, if_pos ⟨hname, hempty⟩]
      rfl
    · rw [if_neg hname, if_neg fun h => hname h.1]
      rfl

theorem spawnSettings_reconcile (r : RendererRegistry fl) (plugins : PluginTables)
    {d : RendererDef fl} (hd : d ∈ r.allRenderers) (hschema : d.settings.keys ≠ []) :
    (reconcile r plugins).1.spawnSettings d.name =
      (reconcileTable d.settings (plugins.spawnSettings d.name)).1 := by
  have hnodup := (RendererRegistry.names_dedupByName [] r.byType.values.flatten).1
  unfold reconcile RendererRegistry.allRenderers at *
  generalize RendererRegistry.dedupByName [] r.byType.values.flatten = ds at hd hnodup
  have hother (ds : List (RendererDef fl)) (acc : PluginTables × Bool) (name : String)
      (h : ∀ e ∈ ds, e.name ≠ name) :
      (ds.foldl reconcilePlugin acc).1.spawnSettings name = acc.1.spawnSettings name := by
    induction ds generalizing acc with
    | nil => rfl
    | cons e ds ih =>
      rw [List.foldl_cons, ih _ fun e he => h e (List.mem_cons_of_mem _ he),
        spawnSettings_reconcilePlugin, if_neg fun hname => h e List.mem_cons_self hname.1.symm]
  generalize hacc : ((plugins, false) : PluginTables × Bool) = acc
  have hplugins : plugins = acc.1 := by rw [← hacc]
  rw [hplugins]
  clear hacc hplugins
  induction ds generalizing acc with
  | nil => cases hd
  | cons e ds ih =>
    rw [List.map_cons, List.nodup_cons] at hnodup
    rw [List.foldl_cons]
    rcases List.mem_cons.1 hd with rfl | hd
    · rw [hother ds _ d.name fun e he hname => hnodup.1 (hname ▸ List.mem_map_of_mem he),
        spawnSettings_reconcilePlugin, if_pos ⟨rfl, hschema⟩]
    · have hne : d.name ≠ e.name := fun h => hnodup.1 (h ▸ List.mem_map_of_mem hd)
      rw [ih hd hnodup.2, spawnSettings_reconcilePlugin, if_neg fun h => hne h.1]

/-! ## Startup -/

def gpuDrmDevKey : String := "gpu_drm_dev"

def parseDrmDev (s : String) : Option (ℕ × ℕ) :=
  match s.toList.span (· ≠ ':') with
  | (major, _ :: minor) => do
    return (← parseU32 (String.ofList major), ← parseU32 (String.ofList minor))
  | (_, []) => none

/-- A GPU selection that names no device of this machine. -/
def staleGpu (valid : List (ℕ × ℕ)) (v : String) : Bool :=
  (parseDrmDev v).elim true fun p => !valid.contains p

/-- Drop the selections of devices that are gone. -/
def clearStaleGpu (valid : List (ℕ × ℕ)) (plugins : PluginTables) : PluginTables :=
  HashMap.mapValues plugins fun kv =>
    if (kv.lookup gpuDrmDevKey).any (staleGpu valid) then kv.erase gpuDrmDevKey else kv

/-- The tables when the daemon starts to serve requests, from those of the settings file. -/
def startupPlugins (r : RendererRegistry fl) (valid : List (ℕ × ℕ)) (loaded : PluginTables) :
    PluginTables :=
  clearStaleGpu valid (reconcile r loaded).1

theorem spawnSettings_clearStaleGpu (valid : List (ℕ × ℕ)) (plugins : PluginTables)
    (name k : String) : ((clearStaleGpu valid plugins).spawnSettings name).lookup k =
      if k = gpuDrmDevKey ∧ ((plugins.spawnSettings name).lookup k).any (staleGpu valid) then none
      else (plugins.spawnSettings name).lookup k := by
  unfold clearStaleGpu PluginTables.spawnSettings
  rw [HashMap.lookup_mapValues]
  rcases plugins.lookup name with _ | kv
  · simp
  · simp only [Option.map_some, Option.getD_some]
    by_cases hk : k = gpuDrmDevKey
    · subst hk
      by_cases hstale : (kv.lookup gpuDrmDevKey).any (staleGpu valid)
      · rw [if_pos hstale, if_pos ⟨rfl, hstale⟩, HashMap.lookup_erase_eq, if_pos rfl]
      · rw [if_neg hstale, if_neg fun h => hstale h.2]
    · rw [if_neg (c := k = gpuDrmDevKey ∧ _) fun h => hk h.1]
      split
      · rw [HashMap.lookup_erase_eq, if_neg hk]
      · rfl

/-! ## The request -/

/-- Validate the tables of a request and bring their declared values to canonical form. The error
names the plugin. -/
def validatePlugins (r : RendererRegistry fl) (new : PluginTables) :
    Except (String × ValidationError) PluginTables :=
  HashMap.mapM new fun name kv =>
    match r.allRenderers.find? (·.name = name) with
    | none => .ok kv
    | some d =>
      if d.settings.keys.isEmpty then .ok kv
      else HashMap.mapM kv fun k v =>
        match d.settings.lookup k with
        | none => .ok v
        | some schema => (coerceAndValidate k v schema).mapError (name, ·)

/-- A settings request, as far as the plugin tables go: all of them are replaced, unless one value
is refused. -/
def settingsSet (r : RendererRegistry fl) (plugins new : PluginTables) : PluginTables :=
  match validatePlugins r new with
  | .ok checked => checked
  | .error _ => plugins

/-- A declared key of a loaded renderer. -/
def Declared (r : RendererRegistry fl) (d : RendererDef fl) (key : String) (schema : SettingDef fl) :
    Prop :=
  d ∈ r.allRenderers ∧ d.settings.lookup key = some schema

/-- Every loaded renderer has a valid value for each of the keys it declares. -/
def Complete (r : RendererRegistry fl) (plugins : PluginTables) : Prop :=
  ∀ d key schema, Declared r d key schema →
    ∃ v, (plugins.spawnSettings d.name).lookup key = some v ∧ Passes key v schema

/-- The request has a value for every declared key. -/
def Covers (r : RendererRegistry fl) (new : PluginTables) : Prop :=
  ∀ d key schema, Declared r d key schema →
    ((new.spawnSettings d.name).lookup key).isSome

/-- Each declared key is filled at startup: the value in the settings file or the default of the
manifest is a valid one, and it selects no device that is gone. -/
def Fillable (r : RendererRegistry fl) (valid : List (ℕ × ℕ)) (loaded : PluginTables) : Prop :=
  ∀ d key schema, Declared r d key schema →
    ((∃ v, (loaded.spawnSettings d.name).lookup key = some v ∧ Passes key v schema) ∨
      Passes key schema.defaultText schema) ∧
    (key = gpuDrmDevKey → staleGpu valid
      (reconciledValue key schema ((loaded.spawnSettings d.name).lookup key)) = false)

theorem Declared.keys_ne_nil {r : RendererRegistry fl} {d : RendererDef fl} {key : String}
    {schema : SettingDef fl} (h : Declared r d key schema) : d.settings.keys ≠ [] :=
  List.ne_nil_of_mem ((HashMap.mem_keys_iff _ _).2 ⟨schema, h.2⟩)

theorem passes_reconciledValue (key : String) (schema : SettingDef fl) (v : Option String) :
    Passes key (reconciledValue key schema v) schema ↔
      (∃ w, v = some w ∧ Passes key w schema) ∨ Passes key schema.defaultText schema := by
  unfold reconciledValue
  rcases v with _ | w
  · simp [needsDefault]
  · by_cases hw : Passes key w schema
    · simp [needsDefault, hw]
    · simp [needsDefault, hw]

/-- What startup leaves under a declared key. -/
theorem lookup_startupPlugins {r : RendererRegistry fl} {d : RendererDef fl} {key : String}
    {schema : SettingDef fl} (h : Declared r d key schema) (valid : List (ℕ × ℕ))
    (loaded : PluginTables) :
    ((startupPlugins r valid loaded).spawnSettings d.name).lookup key =
      if key = gpuDrmDevKey ∧ staleGpu valid
          (reconciledValue key schema ((loaded.spawnSettings d.name).lookup key)) then none
      else some (reconciledValue key schema ((loaded.spawnSettings d.name).lookup key)) := by
  rw [startupPlugins, spawnSettings_clearStaleGpu,
    spawnSettings_reconcile r loaded h.1 h.keys_ne_nil, lookup_reconcileTable, h.2]
  rfl

theorem complete_startupPlugins (r : RendererRegistry fl) (valid : List (ℕ × ℕ))
    (loaded : PluginTables) :
    Complete r (startupPlugins r valid loaded) ↔ Fillable r valid loaded := by
  refine forall₄_congr fun d key schema hdecl => ?_
  rw [lookup_startupPlugins hdecl, ← passes_reconciledValue]
  by_cases hgpu : key = gpuDrmDevKey
  · cases staleGpu valid (reconciledValue key schema ((loaded.spawnSettings d.name).lookup key))
      <;> simp [hgpu]
  · simp [hgpu]

/-- The values of a declared key that a valid request stores. -/
theorem lookup_validatePlugins {r : RendererRegistry fl} {new checked : PluginTables}
    (h : validatePlugins r new = .ok checked) {d : RendererDef fl} {key : String}
    {schema : SettingDef fl} (hdecl : Declared r d key schema) :
    ((new.spawnSettings d.name).lookup key = none ∧
        (checked.spawnSettings d.name).lookup key = none) ∨
      ∃ raw v, (new.spawnSettings d.name).lookup key = some raw ∧
        coerceAndValidate key raw schema = .ok v ∧
        (checked.spawnSettings d.name).lookup key = some v := by
  unfold PluginTables.spawnSettings
  rcases HashMap.lookup_mapM h d.name with ⟨hnew, hchecked⟩ | ⟨kv, kv', hnew, hkv, hchecked⟩
  · rw [hnew, hchecked]
    exact .inl ⟨rfl, rfl⟩
  · rw [hnew, hchecked]
    rw [r.find?_allRenderers hdecl.1] at hkv
    simp only [List.isEmpty_iff, if_neg hdecl.keys_ne_nil] at hkv
    rcases HashMap.lookup_mapM hkv key with hnone | ⟨raw, v, hraw, hv, hstored⟩
    · exact .inl hnone
    · refine .inr ⟨raw, v, hraw, ?_, hstored⟩
      rw [hdecl.2] at hv
      rcases hcoerce : coerceAndValidate key raw schema with e | w
      · simp [hcoerce, Except.mapError] at hv
      · simpa [hcoerce, Except.mapError] using hv

/-- The tables of a request that is accepted are complete if it names every declared key. -/
theorem complete_validatePlugins {r : RendererRegistry fl} {new checked : PluginTables}
    (h : validatePlugins r new = .ok checked) : Complete r checked ↔ Covers r new := by
  refine forall₄_congr fun d key schema hdecl => ?_
  rcases lookup_validatePlugins h hdecl with ⟨hnew, hchecked⟩ | ⟨raw, v, hraw, hv, hstored⟩
  · rw [hnew, hchecked]
    simp
  · rw [hraw, hstored]
    simp [passes_of_coerceAndValidate hv]

/-- Every request that is accepted has a value for every declared key. -/
def AllCover (r : RendererRegistry fl) (requests : List PluginTables) : Prop :=
  ∀ new ∈ requests, (∃ checked, validatePlugins r new = .ok checked) → Covers r new

theorem complete_settingsSet {r : RendererRegistry fl} {plugins new : PluginTables}
    (h : Complete r plugins) : Complete r (settingsSet r plugins new) ↔
      ((∃ checked, validatePlugins r new = .ok checked) → Covers r new) := by
  unfold settingsSet
  rcases hnew : validatePlugins r new with e | checked
  · simp [h]
  · simp [complete_validatePlugins hnew]

/-- The settings of every renderer are complete in every state from startup on, if the tables of
the file can be filled and every accepted request has a value for every declared key; and not
otherwise. -/
theorem complete_iff (r : RendererRegistry fl) (valid : List (ℕ × ℕ)) (loaded : PluginTables)
    (requests : List PluginTables) :
    (∀ done, done <+: requests →
      Complete r (done.foldl (settingsSet r) (startupPlugins r valid loaded))) ↔
    Fillable r valid loaded ∧ AllCover r requests := by
  rw [← complete_startupPlugins]
  generalize startupPlugins r valid loaded = plugins
  induction requests generalizing plugins with
  | nil => simp [AllCover]
  | cons new requests ih =>
    have hsplit : (∀ done, done <+: new :: requests →
        Complete r (done.foldl (settingsSet r) plugins)) ↔ Complete r plugins ∧
          ∀ done, done <+: requests →
            Complete r (done.foldl (settingsSet r) (settingsSet r plugins new)) := by
      constructor
      · intro h
        exact ⟨h [] (List.nil_prefix), fun done hdone =>
          h (new :: done) (List.cons_prefix_cons.2 ⟨rfl, hdone⟩)⟩
      · rintro ⟨hnil, hcons⟩ done hdone
        rcases done with _ | ⟨first, done⟩
        · exact hnil
        · obtain ⟨hfirst, hrest⟩ := List.cons_prefix_cons.1 hdone
          rw [hfirst, List.foldl_cons]
          exact hcons done hrest
    rw [hsplit, ih]
    refine and_congr_right fun hplugins => ?_
    rw [complete_settingsSet hplugins, AllCover, AllCover, List.forall_mem_cons]

/-- Floating point restricted to whole numbers, for manifests that declare none. -/
def wholeFloats : FloatOps where
  F32 := ℤ
  F64 := ℤ
  parse := String.toInt?
  lt a b := a < b
  ofInt := id
  ofF64 := id
  toString := toString
  toString64 := toString
  toToml := toString

/-- The volume of the video renderer, from 0 to 100. -/
def volumeDef : SettingDef wholeFloats where
  ty := .u32
  default := .integer 100
  min := some (.integer 0)
  max := some (.integer 100)
  choices := none

def videoRenderer : RendererDef wholeFloats where
  name := "waywallen-video"
  types := ["video"]
  priority := 100
  settings := AList.insert "volume" volumeDef ∅

def videoRegistry : RendererRegistry wholeFloats :=
  RendererRegistry.new.register videoRenderer

theorem allRenderers_videoRegistry : videoRegistry.allRenderers = [videoRenderer] := by
  simp only [videoRegistry, RendererRegistry.register, videoRenderer, List.foldl_cons,
    List.foldl_nil, RendererRegistry.new, AList.lookup_empty, Option.getD_none, List.nil_append,
    List.mergeSort_singleton]
  rfl

/-- A request without plugin tables removes the volume that startup had filled in. -/
theorem not_complete_settingsSet :
    Complete videoRegistry (startupPlugins videoRegistry [] ∅) ∧
    ¬ Complete videoRegistry
      (settingsSet videoRegistry (startupPlugins videoRegistry [] ∅) ∅) := by
  have hdeclared : Declared videoRegistry videoRenderer "volume" volumeDef :=
    ⟨by rw [allRenderers_videoRegistry]; exact List.mem_singleton_self _, rfl⟩
  constructor
  · refine (complete_startupPlugins _ _ _).2 fun d key schema h => ?_
    rw [Declared, allRenderers_videoRegistry, List.mem_singleton] at h
    obtain ⟨rfl, hkey⟩ := h
    have hvolume : key = "volume" := by
      by_contra hne
      rw [videoRenderer, AList.lookup_insert_ne hne] at hkey
      cases hkey
    subst hvolume
    cases hkey
    exact ⟨.inr (by decide), fun h => absurd h (by decide)⟩
  · intro h
    obtain ⟨v, hv, -⟩ := h _ _ _ hdeclared
    cases hv

end Waywallen
