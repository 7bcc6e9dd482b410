import Waywallen.Plugin.Live

/-!
# What live renderers have received

Once all requests are through, every live renderer should have received for each key its plugin
declares what a renderer spawned now would get. This holds when a request reaches every renderer
that its change concerns, and not when a key is removed, when requests overlap, or when a renderer
is listed after the request has listed the renderers.
-/

namespace Waywallen

open TaskPool

variable {fl : FloatOps} (r : RendererRegistry fl) (gpus : ℕ × ℕ → Option String)

/-- The value that a renderer of the plugin would get for the key if it were spawned now. -/
def initValue (plugins : PluginTables) (name key : String) : Option String :=
  (initSettings gpus (plugins.spawnSettings name)).lookup key

/-- What holds for every live renderer and each key that its plugin declares. -/
def SettingsState.ForDeclared (s : SettingsState)
    (P : RendererDef fl → RendererId → LiveRenderer → String → Prop) : Prop :=
  ∀ e ∈ s.renderers.entries, ∀ d ∈ r.allRenderers, d.name = e.2.name → ∀ key ∈ d.settings.keys,
    P d e.1 e.2 key

/-- Every live renderer has received last, for each key its plugin declares, the value that it would
get now. -/
abbrev SettingsState.UpToDate (s : SettingsState) : Prop :=
  s.ForDeclared r fun _ _ h key => h.received.lookup key = initValue gpus s.plugins h.name key

/-- The call goes on to send the key to the renderer of the plugin. -/
def SettingsCall.Sends (id : RendererId) (name key : String) : SettingsCall → Prop
  | pushPlugin n kv => n = name ∧ key ∈ kv.map Prod.fst
  | pushTo i n kv | write i n kv => i = id ∧ n = name ∧ key ∈ kv.map Prod.fst
  | _ => False

/-- The call goes on to list the renderers of the plugin, and to send the key to them. -/
def SettingsCall.SendsAll (name key : String) : SettingsCall → Prop
  | pushPlugin n kv => n = name ∧ key ∈ kv.map Prod.fst
  | _ => False

instance (id : RendererId) (name key : String) :
    (c : SettingsCall) → Decidable (c.Sends id name key)
  | .pushPlugin _ _ => inferInstanceAs (Decidable (_ ∧ _))
  | .pushTo _ _ _ | .write _ _ _ => inferInstanceAs (Decidable (_ ∧ _ ∧ _))
  | .settingsSet _ | .snapshotPlugins _ | .update _ _ | .apply _ | .findReusable _ _
  | .spawn _ _ | .insertRenderer _ | .kill _ => inferInstanceAs (Decidable False)

instance (name key : String) : (c : SettingsCall) → Decidable (c.SendsAll name key)
  | .pushPlugin _ _ => inferInstanceAs (Decidable (_ ∧ _))
  | .pushTo _ _ _ | .write _ _ _ | .settingsSet _ | .snapshotPlugins _ | .update _ _ | .apply _
  | .findReusable _ _ | .spawn _ _ | .insertRenderer _ | .kill _ =>
      inferInstanceAs (Decidable False)

instance (s : SettingsState) (P : RendererDef fl → RendererId → LiveRenderer → String → Prop)
    [∀ d id h key, Decidable (P d id h key)] : Decidable (s.ForDeclared r P) :=
  inferInstanceAs (Decidable (∀ e ∈ s.renderers.entries, ∀ d ∈ r.allRenderers,
    d.name = e.2.name → ∀ key ∈ d.settings.keys, P d e.1 e.2 key))

/-- A request replaces the tables: it sends every declared key of a live renderer that it changes,
or the key is still to be sent anyway. -/
abbrev UpdateReaches (s : SettingsState) (rest : List SettingsCall) (new previous : PluginTables) :
    Prop :=
  s.ForDeclared r fun d id h key =>
    initValue gpus new h.name key = initValue gpus s.plugins h.name key ∨
      key ∈ (pushedSettings d previous new).map Prod.fst ∨ ∃ c ∈ rest, c.Sends id h.name key

/-- Values are delivered: they are those a spawn would get now, or the key is still to be sent. -/
abbrev WriteReaches (s : SettingsState) (rest : List SettingsCall) (id : RendererId)
    (kv : SettingsKv) : Prop :=
  s.ForDeclared r fun _ i h key => i = id → ∀ e ∈ kv, e.1 = key →
    initValue gpus s.plugins h.name key = some e.2 ∨ ∃ c ∈ rest, c.Sends id h.name key

/-- A renderer is listed: the settings it was spawned with are the current ones for every declared
key, or a request that sends the key has yet to list the renderers. -/
abbrev InsertReaches (s : SettingsState) (rest : List SettingsCall) (h : LiveRenderer) : Prop :=
  ∀ d ∈ r.allRenderers, d.name = h.name → ∀ key ∈ d.settings.keys,
    h.received.lookup key = initValue gpus s.plugins h.name key ∨ ∃ c ∈ rest, c.SendsAll h.name key

/-- What a step needs so that every change reaches the renderers it concerns. -/
def SettingsCall.Reaches (s : SettingsState) (rest : List SettingsCall) : SettingsCall → Prop
  | update new previous => UpdateReaches r gpus s rest new previous
  | write id _ kv => WriteReaches r gpus s rest id kv
  | insertRenderer h => InsertReaches r gpus s rest h
  | _ => True

/-- Every change reaches the renderers it concerns. -/
def ChangesReach (p : SettingsPool) (l : SettingsLabel) : Prop :=
  ∀ c ∈ p.executed l, c.Reaches r gpus p.shared (p.remaining l)

instance (s : SettingsState) (rest : List SettingsCall) :
    (c : SettingsCall) → Decidable (c.Reaches r gpus s rest)
  | .update new previous => inferInstanceAs (Decidable (UpdateReaches r gpus s rest new previous))
  | .write id _ kv => inferInstanceAs (Decidable (WriteReaches r gpus s rest id kv))
  | .insertRenderer h => inferInstanceAs (Decidable (InsertReaches r gpus s rest h))
  | .settingsSet _ | .snapshotPlugins _ | .pushPlugin _ _ | .pushTo _ _ _ | .apply _
  | .findReusable _ _ | .spawn _ _ | .kill _ => inferInstanceAs (Decidable True)

instance (p : SettingsPool) (l : SettingsLabel) : Decidable (ChangesReach r gpus p l) :=
  inferInstanceAs (Decidable (∀ c ∈ p.executed l, c.Reaches r gpus p.shared (p.remaining l)))

/-- The call sends values to a renderer. -/
def SettingsCall.Writes : SettingsCall → Prop
  | write _ _ _ => True
  | _ => False

/-- No send fails. -/
def SendsSucceed (p : SettingsPool) : SettingsLabel → Prop
  | .run i .fail => ∀ c ∈ p.executed (.run i .fail : SettingsLabel), ¬c.Writes
  | _ => True

instance : (c : SettingsCall) → Decidable c.Writes
  | .write _ _ _ => inferInstanceAs (Decidable True)
  | .settingsSet _ | .snapshotPlugins _ | .update _ _ | .pushPlugin _ _ | .pushTo _ _ _ | .apply _
  | .findReusable _ _ | .spawn _ _ | .insertRenderer _ | .kill _ =>
      inferInstanceAs (Decidable False)

instance (p : SettingsPool) : (l : SettingsLabel) → Decidable (SendsSucceed p l)
  | .run i .fail => inferInstanceAs
      (Decidable (∀ c ∈ p.executed (.run i .fail : SettingsLabel), ¬c.Writes))
  | .run _ .tick | .run _ (.uuid _) | .wake _ | .drop _ | .start _ =>
      inferInstanceAs (Decidable True)

/-! ## What a request sends -/

section Pushes

variable {r} {previous new : PluginTables} {name : String} {kv : SettingsKv}

theorem lookup_of_mem_pushedSettings {d : RendererDef fl} {key : String}
    (h : key ∈ (pushedSettings d previous new).map Prod.fst) :
    ∃ v, (new.spawnSettings d.name).lookup key = some v ∧
      (previous.spawnSettings d.name).lookup key ≠ some v := by
  rw [pushedSettings, List.map_map] at h
  obtain ⟨e, he, rfl⟩ := List.mem_map.1 h
  obtain ⟨he, hkept⟩ := List.mem_filter.1 he
  refine ⟨e.2, AList.mem_lookup_iff.2 he, ?_⟩
  simpa using (Bool.and_eq_true_iff.1 hkept).2

theorem lookup_of_sameEntries {m n : HashMap String String} (h : m.sameEntries n = true)
    {key v : String} (hv : m.lookup key = some v) : n.lookup key = some v := by
  have hkey := List.all_eq_true.1 (Bool.and_eq_true_iff.1 h).2 key
    ((HashMap.mem_keys_iff m key).2 ⟨v, hv⟩)
  rw [← beq_iff_eq.1 hkey, hv]

/-- A plugin with something to send is among the changed ones. -/
theorem pushPlugin_mem_pushes {d : RendererDef fl} (hd : d ∈ r.allRenderers) {key : String}
    (h : key ∈ (pushedSettings d previous new).map Prod.fst) :
    .pushPlugin d.name (pushedSettings d previous new) ∈ pushes r previous new := by
  obtain ⟨v, hnew, hprevious⟩ := lookup_of_mem_pushedSettings h
  refine List.mem_filterMap.2 ⟨d.name, List.mem_append.2 (.inl ?_), ?_⟩
  · rcases htable : new.lookup d.name with _ | table
    · rw [PluginTables.spawnSettings, htable] at hnew
      cases hnew
    rw [PluginTables.spawnSettings, htable, Option.getD_some] at hnew
    refine List.mem_map.2 ⟨⟨d.name, table⟩, List.mem_filter.2
      ⟨AList.mem_lookup_iff.1 htable, ?_⟩, rfl⟩
    by_contra hsame
    rw [Bool.not_eq_true', Bool.not_eq_false] at hsame
    obtain ⟨old, hold, hsame⟩ := (Option.any_eq_true _ _).1 hsame
    refine hprevious ?_
    rw [PluginTables.spawnSettings, hold, Option.getD_some]
    exact lookup_of_sameEntries hsame hnew
  · have hne : pushedSettings d previous new ≠ [] := fun hnil => by
      rw [hnil] at h
      cases h
    rw [r.find?_allRenderers hd, Option.bind_some, if_neg hne]

end Pushes

/-! ## The invariant -/

/-- Every live renderer has received what it would get now, or it is still to be sent. -/
def Reached (s : SettingsState) (cs : List SettingsCall) : Prop :=
  s.ForDeclared r fun _ id h key => h.received.lookup key = initValue gpus s.plugins h.name key ∨
    ∃ c ∈ cs, c.Sends id h.name key

section Steps

variable {r gpus} {s : SettingsState} {cs rest : List SettingsCall} {c : SettingsCall}

theorem SettingsState.forDeclared_iff
    {P : RendererDef fl → RendererId → LiveRenderer → String → Prop} :
    s.ForDeclared r P ↔ ∀ id h, s.renderers.lookup id = some h → ∀ d ∈ r.allRenderers,
      d.name = h.name → ∀ key ∈ d.settings.keys, P d id h key :=
  ⟨fun hP id h hh => hP ⟨id, h⟩ (AList.mem_lookup_iff.1 hh),
    fun hP e he => hP e.1 e.2 (AList.mem_lookup_iff.2 he)⟩

/-- Pending pushes may be exchanged for others that send the same. -/
theorem Reached.mono (h : Reached r gpus s cs)
    (hcs : ∀ k ∈ cs, ∀ id v, s.renderers.lookup id = some v → ∀ key, k.Sends id v.name key →
      ∃ k' ∈ rest, k'.Sends id v.name key) : Reached r gpus s rest :=
  fun e he d hd hname key hkey => (h e he d hd hname key hkey).imp_right
    fun ⟨k, hk, hsends⟩ => hcs k hk e.1 e.2 (AList.mem_lookup_iff.2 he) key hsends

theorem Reached.append (h : Reached r gpus s rest) (cs : List SettingsCall) :
    Reached r gpus s (cs ++ rest) :=
  h.mono fun k hk _ _ _ _ hsends => ⟨k, List.mem_append_right _ hk, hsends⟩

theorem Reached.perm (h : Reached r gpus s cs) (hcs : cs.Perm rest) : Reached r gpus s rest :=
  h.mono fun k hk _ _ _ _ hsends => ⟨k, hcs.mem_iff.1 hk, hsends⟩

/-- A call that sends nothing does not matter. -/
theorem Reached.quiet (h : Reached r gpus s (c :: rest))
    (hc : ∀ id name key, ¬c.Sends id name key) : Reached r gpus s rest :=
  h.mono fun k hk id v _ key hsends => by
    obtain rfl | hk := List.mem_cons.1 hk
    · exact absurd hsends (hc id v.name key)
    · exact ⟨k, hk, hsends⟩

theorem Reached.kill (h : Reached r gpus s rest) (id : RendererId) :
    Reached r gpus { s with renderers := s.renderers.erase id } rest := by
  refine SettingsState.forDeclared_iff.2 fun i v hv => ?_
  rw [HashMap.lookup_erase_eq] at hv
  split at hv
  · cases hv
  · exact SettingsState.forDeclared_iff.1 h i v hv

theorem Reached.insertRenderer (h : Reached r gpus s rest) {v : LiveRenderer}
    (hreaches : InsertReaches r gpus s rest v) (id : RendererId) (used : List RendererId) :
    Reached r gpus { s with renderers := s.renderers.insert id v, used := used } rest := by
  refine SettingsState.forDeclared_iff.2 fun i w hw d hd hname key hkey => ?_
  rw [HashMap.lookup_insert_eq] at hw
  split at hw
  · cases hw
    refine (hreaches d hd hname key hkey).imp_right fun ⟨c, hc, hsends⟩ => ⟨c, hc, ?_⟩
    cases c with
    | pushPlugin => exact hsends
    | _ => cases hsends
  · exact SettingsState.forDeclared_iff.1 h i w hw d hd hname key hkey

/-- The tables are replaced, and the request goes on to send what it changes. -/
theorem Reached.update (h : Reached r gpus s rest) {new previous : PluginTables}
    (hreaches : UpdateReaches r gpus s rest new previous) :
    Reached r gpus { s with plugins := new } (pushes r previous new ++ rest) := by
  intro e he d hd hname key hkey
  obtain hsame | hsent | ⟨k, hk, hsends⟩ := hreaches e he d hd hname key hkey
  · obtain hreceived | ⟨k, hk, hsends⟩ := h e he d hd hname key hkey
    · exact .inl (hreceived.trans hsame.symm)
    · exact .inr ⟨k, List.mem_append_right _ hk, hsends⟩
  · exact .inr ⟨_, List.mem_append_left _ (pushPlugin_mem_pushes hd hsent), hname, hsent⟩
  · exact .inr ⟨k, List.mem_append_right _ hk, hsends⟩

/-- The renderers are listed, and those of the plugin are among them. -/
theorem Reached.pushPlugin {name : String} {kv : SettingsKv}
    (h : Reached r gpus s (.pushPlugin name kv :: rest)) :
    Reached r gpus s (s.renderers.keys.map (.pushTo · name kv) ++ rest) := by
  refine h.mono fun k hk id v hv key hsends => ?_
  obtain rfl | hk := List.mem_cons.1 hk
  · have hlisted : id ∈ s.renderers.keys := (HashMap.mem_keys_iff _ _).2 ⟨v, hv⟩
    exact ⟨.pushTo id name kv, List.mem_append_left _ (List.mem_map_of_mem hlisted), rfl, hsends⟩
  · exact ⟨k, List.mem_append_right _ hk, hsends⟩

/-- A renderer of the plugin is sent the values; another is not concerned. -/
theorem Reached.pushTo {id : RendererId} {name : String} {kv : SettingsKv}
    (h : Reached r gpus s (.pushTo id name kv :: rest)) :
    Reached r gpus s ((if (s.renderers.lookup id).any (·.name = name) then
      [.write id name kv] else []) ++ rest) := by
  refine h.mono fun k hk i v hv key hsends => ?_
  obtain rfl | hk := List.mem_cons.1 hk
  · obtain ⟨rfl, hname, hkey⟩ := hsends
    have hany : (s.renderers.lookup id).any (·.name = name) = true := by
      rw [hv, Option.any_some, decide_eq_true_iff, hname]
    rw [if_pos hany]
    exact ⟨.write id name kv, List.mem_cons_self, rfl, hname, hkey⟩
  · exact ⟨k, List.mem_append_right _ hk, hsends⟩

/-- What a renderer has received is overwritten by what it is sent. -/
theorem lookup_deliver (h : LiveRenderer) (kv : SettingsKv) (key : String) :
    key ∉ kv.map Prod.fst ∧
        (kv.foldl (fun m e => m.insert e.1 e.2) h.received).lookup key = h.received.lookup key ∨
      ∃ e ∈ kv, e.1 = key ∧
        (kv.foldl (fun m e => m.insert e.1 e.2) h.received).lookup key = some e.2 := by
  rw [HashMap.lookup_foldl_insert]
  rcases hlast : (kv.filter (·.1 = key)).getLast? with _ | e
  · rw [hlast]
    refine .inl ⟨fun hkey => ?_, rfl⟩
    obtain ⟨e, he, rfl⟩ := List.mem_map.1 hkey
    have hmem : e ∈ kv.filter (·.1 = e.1) := List.mem_filter.2 ⟨he, decide_eq_true rfl⟩
    rw [List.getLast?_eq_none_iff.1 hlast] at hmem
    cases hmem
  · obtain ⟨hmem, hkey⟩ := List.mem_filter.1 (List.mem_of_getLast? hlast)
    rw [hlast]
    exact .inr ⟨e, hmem, decide_eq_true_iff.1 hkey, rfl⟩

theorem Reached.write {id : RendererId} {name : String} {kv : SettingsKv}
    (h : Reached r gpus s (.write id name kv :: rest))
    (hreaches : WriteReaches r gpus s rest id kv) : Reached r gpus (s.deliver id kv) rest := by
  refine SettingsState.forDeclared_iff.2 fun i v hv d hd hname key hkey => ?_
  rw [SettingsState.deliver, HashMap.lookup_modify] at hv
  by_cases hi : i = id
  · subst hi
    rw [if_pos rfl] at hv
    obtain ⟨w, hw, rfl⟩ := Option.map_eq_some_iff.1 hv
    obtain ⟨hnone, hkept⟩ | ⟨e, he, hekey, hnew⟩ := lookup_deliver w kv key
    · obtain hreceived | ⟨k, hk, hsends⟩ :=
        SettingsState.forDeclared_iff.1 h i w hw d hd hname key hkey
      · exact .inl (hkept.trans hreceived)
      obtain rfl | hk := List.mem_cons.1 hk
      · exact absurd hsends.2.2 hnone
      · exact .inr ⟨k, hk, hsends⟩
    · refine (SettingsState.forDeclared_iff.1 hreaches i w hw d hd hname key hkey rfl e he
        hekey).imp_left fun hcurrent => hnew.trans hcurrent.symm
  · rw [if_neg hi] at hv
    refine (SettingsState.forDeclared_iff.1 h i v hv d hd hname key hkey).imp_right
      fun ⟨k, hk, hsends⟩ => ?_
    obtain rfl | hk := List.mem_cons.1 hk
    · exact absurd hsends.1.symm hi
    · exact ⟨k, hk, hsends⟩

/-- What one call keeps. -/
theorem Reached.exec (h : Reached r gpus s (c :: rest)) (hc : c.Reaches r gpus s rest)
    {x : SettingsChoice} (hx : x = .fail → ¬c.Writes) {o : SettingsStep} (ho : c.exec r gpus x s = some o) :
    Reached r gpus o.shared (o.next ++ rest) := by
  cases c with
  | settingsSet new =>
    rw [SettingsCall.exec] at ho
    split at ho <;> cases ho
    · exact h.quiet fun _ _ _ => not_false
    · exact (h.quiet fun _ _ _ => not_false).append _
  | snapshotPlugins new =>
    cases ho
    exact (h.quiet fun _ _ _ => not_false).append _
  | update new previous =>
    cases ho
    exact (h.quiet fun _ _ _ => not_false).update hc
  | pushPlugin name kv =>
    cases ho
    exact h.pushPlugin
  | pushTo id name kv =>
    cases ho
    exact h.pushTo
  | write id name kv =>
    cases x with
    | tick =>
      cases ho
      exact h.write hc
    | fail => exact absurd trivial (hx rfl)
    | uuid i => cases ho
  | apply req =>
    rw [SettingsCall.exec] at ho
    split at ho <;> cases ho
    · exact h.quiet fun _ _ _ => not_false
    · exact (h.quiet fun _ _ _ => not_false).append _
  | findReusable req settings =>
    cases ho
    exact (h.quiet fun _ _ _ => not_false).append _
  | spawn req settings =>
    simp only [SettingsCall.exec] at ho
    split at ho <;> cases ho
    · exact (h.quiet fun _ _ _ => not_false).append _
    · exact h.quiet fun _ _ _ => not_false
  | insertRenderer v =>
    cases x with
    | uuid id =>
      rw [SettingsCall.exec] at ho
      split at ho <;> cases ho
      exact (h.quiet fun _ _ _ => not_false).insertRenderer hc id _
    | tick => cases ho
    | fail => cases ho
  | kill id =>
    cases ho
    exact (h.quiet fun _ _ _ => not_false).kill id

end Steps

/-! ## Runs -/

variable {r gpus} in
/-- No call starts a task or aborts one. -/
theorem SettingsCall.exec_alone {x : SettingsChoice} {s : SettingsState} {c : SettingsCall}
    {o : SettingsStep} (ho : c.exec r gpus x s = some o) : o.spawn = [] ∧ o.abort = [] := by
  cases c <;> simp only [exec] at ho
  case settingsSet | apply | spawn | write | insertRenderer =>
    repeat' split at ho
    all_goals cases ho <;> exact ⟨rfl, rfl⟩
  all_goals
    cases ho
    exact ⟨rfl, rfl⟩

theorem steady_settingsSemantics : (settingsSemantics r gpus).Steady where
  abort ho := (SettingsCall.exec_alone ho).2
  spawn ho t ht := by
    rw [(SettingsCall.exec_alone ho).1] at ht
    cases ht
  accept ha := by
    cases ha
    exact ⟨rfl, rfl⟩

variable {r gpus} in
/-- What one step keeps. -/
theorem Reached.step {p p' : SettingsPool} {l : SettingsLabel}
    (h : (∀ t ∈ p.tasks, t.Steady) ∧ Reached r gpus p.shared (calls p.tasks))
    (hC : ChangesReach r gpus p l ∧ SendsSucceed p l)
    (hstep : (settingsSemantics r gpus).step p l = some p') :
    (∀ t ∈ p'.tasks, t.Steady) ∧ Reached r gpus p'.shared (calls p'.tasks) := by
  refine (steady_settingsSemantics r gpus).preserves (I := Reached r gpus)
    (C := fun p l => ChangesReach r gpus p l ∧ SendsSucceed p l)
    (fun hperm h => h.perm hperm) ?_ ?_ (fun p e s => nomatch e) p l p' h hC hstep
  · intro p l i x c o hl hC hc h ho
    rw [(SettingsCall.exec_alone ho).1, calls_nil, List.append_nil]
    refine h.exec (hC.1 c hc) (fun hx => ?_) ho
    subst hl hx
    exact hC.2 c hc
  · intro p q s t _ h hq
    cases hq
    exact (h.append _).perm List.perm_append_comm

/-- Once all requests are through, what the live renderers have received is up to date, if every
change reached the renderers it concerns. -/
theorem upToDate_of_changesReach {plugins : PluginTables} {ls : List SettingsLabel}
    {p : SettingsPool}
    (hr : Transition.run (settingsSemantics r gpus).step (startSettings plugins) ls = some p)
    (hreach : Transition.Along (settingsSemantics r gpus).step (ChangesReach r gpus)
      (startSettings plugins) ls)
    (hsend : Transition.Along (settingsSemantics r gpus).step SendsSucceed
      (startSettings plugins) ls)
    (hdone : calls p.tasks = []) : p.shared.UpToDate r gpus := by
  have hstart : (∀ t ∈ (startSettings plugins).tasks, t.Steady) ∧
      Reached r gpus (startSettings plugins).shared (calls (startSettings plugins).tasks) :=
    ⟨fun t ht => absurd ht List.not_mem_nil, fun e he => absurd he List.not_mem_nil⟩
  have hinv := Transition.invariant_of_run (fun _ _ _ => Reached.step) hstart
    (hreach.and hsend) hr
  intro e he d hd hname key hkey
  obtain hcurrent | ⟨c, hc, -⟩ := hinv.2 e he d hd hname key hkey
  · exact hcurrent
  · rw [hdone] at hc
    cases hc

/-! ## A renderer spawned while its settings change -/

/-- How the video renderer decodes. -/
def hwdecDef : SettingDef wholeFloats where
  ty := .string
  default := .string "auto"
  min := none
  max := none
  choices := some ["auto", "vaapi", "vulkan", "none"]

def decodingRenderer : RendererDef wholeFloats where
  name := "waywallen-video"
  types := ["video"]
  priority := 100
  settings := AList.insert "hwdec" hwdecDef ∅

def decodingRegistry : RendererRegistry wholeFloats :=
  RendererRegistry.new.register decodingRenderer

def decoding (hwdec : String) : PluginTables :=
  AList.insert "waywallen-video" (AList.insert "hwdec" hwdec ∅) ∅

/-- A video is applied; the tables are read. -/
def videoApplied : List SettingsLabel :=
  [.start (.apply ⟨"video", ∅, none⟩), .run 0 .tick, .run 0 .tick, .run 0 .tick]

/-- The user selects another decoder. -/
def decoderSet (i : ℕ) : List SettingsLabel :=
  [.start (.settingsSet (decoding "vulkan")), .run i .tick, .run i .tick, .run i .tick,
    .run i .tick]

/-- The renderer is listed before the user selects another decoder. -/
def setOnceListed : List SettingsLabel :=
  videoApplied ++ [.run 0 (.uuid 1)] ++ decoderSet 1 ++ [.run 1 .tick, .run 1 .tick]

def noGpus (_ : ℕ × ℕ) : Option String := none

theorem upToDate_setOnceListed :
    (Transition.reached (settingsSemantics decodingRegistry noGpus).step
      (startSettings (decoding "auto")) setOnceListed (by decide +kernel)).shared.UpToDate
      decodingRegistry noGpus :=
  upToDate_of_changesReach _ _ (Transition.run_reached _ _) (by decide +kernel)
    (by decide +kernel) (by decide +kernel)

/-- The renderer is listed with the decoder selected before: the request found nobody to send the
other to. -/
theorem not_upToDate : ¬∀ (r : RendererRegistry wholeFloats) (gpus : ℕ × ℕ → Option String)
    (plugins : PluginTables) (ls : List SettingsLabel) (p : SettingsPool),
    Transition.run (settingsSemantics r gpus).step (startSettings plugins) ls = some p →
    Transition.Along (settingsSemantics r gpus).step SendsSucceed (startSettings plugins) ls →
    calls p.tasks = [] → p.shared.UpToDate r gpus := by
  intro h
  have hcurrent := h decodingRegistry noGpus (decoding "auto")
    (videoApplied ++ decoderSet 1 ++ [.run 0 (.uuid 1)]) _
    (Transition.run_reached _ (by decide +kernel)) (by decide +kernel) (by decide +kernel)
  exact absurd hcurrent (by decide +kernel)

end Waywallen
