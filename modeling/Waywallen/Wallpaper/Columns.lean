import Waywallen.Library.Json
import Waywallen.Store.Repo
import Waywallen.Wallpaper.Live

/-!
# The stored properties of a wallpaper

The columns of an item row that concern its properties, as the texts they hold. A content that is
not a map of strings goes to the renderer as it is, but is read as empty when it is to be changed.
-/

namespace Waywallen

theorem trim_trim (s : String) : trim (trim s) = trim s := by
  have h (cs : List Char) : ((cs.dropWhile isWhitespace).rdropWhile isWhitespace).dropWhile
      isWhitespace = (cs.dropWhile isWhitespace).rdropWhile isWhitespace := by
    cases hcs : (cs.dropWhile isWhitespace).rdropWhile isWhitespace with
    | nil => rfl
    | cons c rest =>
      obtain ⟨tail, htail⟩ := List.rdropWhile_prefix isWhitespace (cs.dropWhile isWhitespace)
      rw [hcs, List.cons_append] at htail
      have hc := List.head_dropWhile_not isWhitespace (l := cs) (htail ▸ List.cons_ne_nil _ _)
      simp only [← htail, List.head_cons] at hc
      exact List.dropWhile_cons_of_neg (by simp [hc])
  rw [trim, trim, String.toList_ofList (l := List.rdropWhile _ _), h, List.rdropWhile_idempotent]

/-- What the rows rely on of the JSON library, for values in `V` and for the types that the program
reads and writes. -/
structure SerdeJson (V : Type) where
  valueFromStr : String → Option V
  valueToString : V → String
  mapFromStr : String → Option (HashMap String String)
  mapToString : HashMap String String → String
  persistedFromStr : String → Option ResolvedLayout
  persistedToString : ResolvedLayout → String
  overrideFromStr : String → Option WallpaperLayoutOverride
  asObject : V → Option (HashMap String V)
  object : HashMap String V → V
  string : String → V
  mapFromStr_empty : mapFromStr "" = none
  /-- White space around a text does not count. -/
  mapFromStr_trim {text : String} {m : HashMap String String} :
    mapFromStr text = some m → mapFromStr (trim text) = some m
  /-- A map of strings is read as an object of strings. -/
  valueFromStr_map {text : String} {m : HashMap String String} : mapFromStr text = some m →
    ∃ value n, valueFromStr text = some value ∧ asObject value = some n ∧
      ∀ k, n.lookup k = (m.lookup k).map string
  /-- An object of strings is written in a form that is read as the same map. -/
  mapFromStr_object {n : HashMap String V} {m : HashMap String String} :
    (∀ k, n.lookup k = (m.lookup k).map string) →
      ∃ m', mapFromStr (valueToString (object n)) = some m' ∧ ∀ k, m'.lookup k = m.lookup k
  mapFromStr_toString (m : HashMap String String) :
    ∃ m', mapFromStr (mapToString m) = some m' ∧ ∀ k, m'.lookup k = m.lookup k
  persistedFromStr_empty : persistedFromStr "" = none
  persistedFromStr_toString (layout : ResolvedLayout) :
    persistedFromStr (trim (persistedToString layout)) = some layout

variable {V : Type}

/-! ## Canonical keys -/

/-- Take one entry over: the canonical key wins over an older name for it. -/
def addRemapped (out : HashMap String V) (key : String) (value : V) : HashMap String V :=
  if key = canonicalUserPropertyKey key ∨ out.lookup (canonicalUserPropertyKey key) = none then
    out.insert (canonicalUserPropertyKey key) value
  else out

def remapped (map : HashMap String V) : HashMap String V :=
  map.entries.foldl (fun out e => addRemapped out e.1 e.2) ∅

theorem map_normalizeUserPropertyOverrides (m : HashMap String String) :
    (normalizeUserPropertyOverrides m).map = remapped m := by
  have h (l : List (Sigma fun _ : String => String)) (out : UserProperties) :
      (l.foldl (fun out e => out.addNormalized e.1 e.2) out).map =
        l.foldl (fun out e => addRemapped out e.1 e.2) out.map := by
    induction l generalizing out with
    | nil => rfl
    | cons e l ih =>
      rw [List.foldl_cons, List.foldl_cons, ih]
      congr 1
      unfold UserProperties.addNormalized addRemapped UserProperties.get
      split <;> rfl
  exact h m.entries .empty

theorem lookup_addRemapped (out : HashMap String V) (key k : String) (value : V) :
    (addRemapped out key value).lookup k =
      if k ≠ canonicalUserPropertyKey key then out.lookup k
      else if key = canonicalUserPropertyKey key then some value
      else (out.lookup k).or (some value) := by
  unfold addRemapped
  by_cases hk : k = canonicalUserPropertyKey key
  · subst hk
    by_cases hkey : key = canonicalUserPropertyKey key
    · rw [if_pos (.inl hkey), HashMap.lookup_insert_eq, if_pos rfl]
      simp [← hkey]
    · cases hout : out.lookup (canonicalUserPropertyKey key) <;> simp [hkey, hout]
  · rw [if_pos hk]
    split
    · rw [HashMap.lookup_insert_eq, if_neg hk]
    · rfl

/-- The older name of a key is looked up where the key itself is absent. -/
theorem lookup_remapped (m : HashMap String V) (k : String) : (remapped m).lookup k =
    if k = legacySchemeColorKey then none
    else if k = schemeColorKey then (m.lookup k).or (m.lookup legacySchemeColorKey)
    else m.lookup k := by
  have hcanonical {i : String} (hi : i ≠ legacySchemeColorKey) : canonicalUserPropertyKey i = i :=
    if_neg hi
  have h (l : List (Sigma fun _ : String => V)) (hl : l.NodupKeys) (out : HashMap String V) :
      (l.foldl (fun out e => addRemapped out e.1 e.2) out).lookup k =
        if k = legacySchemeColorKey then out.lookup k
        else (l.dlookup k).or ((out.lookup k).or
          (if k = schemeColorKey then l.dlookup legacySchemeColorKey else none)) := by
    induction l generalizing out with
    | nil => simp
    | cons e l ih =>
      obtain ⟨i, v⟩ := e
      obtain ⟨hi, hl⟩ := List.nodupKeys_cons.1 hl
      rw [List.foldl_cons, ih hl, lookup_addRemapped]
      by_cases hlegacy : k = legacySchemeColorKey
      · have hk : k ≠ canonicalUserPropertyKey i := by
          intro h
          rw [hlegacy] at h
          unfold canonicalUserPropertyKey at h
          split at h
          · exact absurd h (by decide)
          · rename_i hne
            exact hne h.symm
        rw [if_pos hlegacy, if_pos hlegacy, if_pos hk]
      · rw [if_neg hlegacy, if_neg hlegacy]
        by_cases hik : i = k
        · subst hik
          simp [hcanonical hlegacy, List.dlookup_eq_none.2 hi]
        · rw [List.dlookup_cons_ne l ⟨i, v⟩ (Ne.symm hik)]
          by_cases hil : i = legacySchemeColorKey
          · subst hil
            have hname : canonicalUserPropertyKey legacySchemeColorKey = schemeColorKey := rfl
            have hne : legacySchemeColorKey ≠ schemeColorKey := by decide
            rw [List.dlookup_cons_eq, List.dlookup_eq_none.2 hi]
            by_cases hk : k = schemeColorKey <;> simp [hname, hne, hk]
          · rw [List.dlookup_cons_ne l ⟨i, v⟩ (Ne.symm hil), hcanonical hil,
              if_pos (Ne.symm hik)]
  rw [remapped, h m.entries m.nodupKeys, HashMap.lookup_empty, Option.none_or]
  by_cases hk : k = legacySchemeColorKey
  · rw [if_pos hk, if_pos hk]
  · rw [if_neg hk, if_neg hk]
    by_cases hscheme : k = schemeColorKey
    · rw [if_pos hscheme, if_pos hscheme]
      rfl
    · rw [if_neg hscheme, if_neg hscheme, Option.or_none]
      rfl

/-! ## Reading and writing the columns -/

structure WallpaperColumns where
  userPropertyOverrides : Option String
  wallpaperLayoutOverride : Option String

namespace SerdeJson

-- the percentage a text stands for, as for the parsed columns
variable (S : SerdeJson V) (parsePercent : String → Option ℕ)

def normalizeUserPropertyOverridesJson (raw : String) : String :=
  let raw := trim raw
  if raw = "" then ""
  else
    match S.valueFromStr raw with
    | none => raw
    | some value =>
      match S.asObject value with
      | none => raw
      | some map => S.valueToString (S.object (remapped map))

/-- A text that is not a map of strings goes to the renderer whole. -/
def splitRendererProperties (raw : Option String) : Option String × WallpaperLayoutOverride :=
  match raw.filter fun raw => trim raw ≠ "" with
  | none => (none, default)
  | some raw =>
    match S.mapFromStr raw with
    | none => (some raw, default)
    | some map =>
      let renderer := map.retain fun key => !isDaemonDisplayPropertyKey key
      let x := (map.lookup locationXKey).bind parsePercent
      let y := (map.lookup locationYKey).bind parsePercent
      (if renderer.keys = [] then none else some (S.mapToString renderer),
        { fillmode := (map.lookup fillModeKey).bind parseFillmode
          location :=
            if x.isSome ∨ y.isSome then some (Location.new (x.getD 50) (y.getD 50)) else none
          rotation := (map.lookup rotationKey).bind parseRotation })

def wallpaperLayoutOverrideFromJson (raw : String) : Option WallpaperLayoutOverride :=
  let raw := trim raw
  if raw = "" then none
  else
    match S.persistedFromStr raw with
    | some persisted => some (.fromResolved persisted)
    | none => (S.overrideFromStr raw).filter fun parsed => !parsed.isEmpty

/-- The value under a key of the object that a text stands for. -/
def member (text key : String) : Option V := do
  let value ← S.valueFromStr text
  let map ← S.asObject value
  map.lookup key

def parseWallpaperLayoutOverrideRaw (raw : Option String) : Option WallpaperLayoutOverride :=
  (raw.map trim).bind fun raw =>
    if raw = "" then none else S.wallpaperLayoutOverrideFromJson raw

end SerdeJson

namespace WallpaperColumns

variable (S : SerdeJson V) (parsePercent : String → Option ℕ) (row : WallpaperColumns)

def getUserPropertyOverrides : UserProperties :=
  normalizeUserPropertyOverrides ((row.userPropertyOverrides.bind S.mapFromStr).getD ∅)

def getWallpaperRenderProperties : Option String × WallpaperLayoutOverride :=
  let raw := row.userPropertyOverrides.map S.normalizeUserPropertyOverridesJson
  let (renderer, legacy) := S.splitRendererProperties parsePercent raw
  (renderer, (S.parseWallpaperLayoutOverrideRaw row.wallpaperLayoutOverride).getD legacy)

def getWallpaperLayoutOverrideWithLegacy : Option WallpaperLayoutOverride :=
  let layout := (row.getWallpaperRenderProperties S parsePercent).2
  if layout.isEmpty then none else some layout

/-- The column is emptied with the last property. -/
def setUserPropertyOverrides (u : UserProperties) : WallpaperColumns :=
  { row with
    userPropertyOverrides := if u.map.keys = [] then none else some (S.mapToString u.map) }

def mergeUserPropertyOverrides (kv : List (String × String)) : WallpaperColumns :=
  row.setUserPropertyOverrides S
    (kv.foldl (fun u e => u.merge e.1 e.2) (row.getUserPropertyOverrides S))

def setWallpaperLayoutOverride (layout : Option ResolvedLayout) : WallpaperColumns :=
  let row := if layout.isNone then
      row.setUserPropertyOverrides S (row.getUserPropertyOverrides S).clearLayout
    else row
  { row with wallpaperLayoutOverride := layout.map S.persistedToString }

/-- The value that the renderer gets under a key. -/
def passed (key : String) : Option V :=
  (row.getWallpaperRenderProperties S parsePercent).1.bind fun text => S.member text key

/-- The properties are a map of strings. -/
def Readable : Prop :=
  ∀ raw ∈ row.userPropertyOverrides, (S.mapFromStr raw).isSome = true

end WallpaperColumns

/-- A request to change the columns. -/
inductive ColumnWrite
  | mergeUserPropertyOverrides (kv : List (String × String))
  | setWallpaperLayoutOverride (layout : Option ResolvedLayout)

namespace ColumnWrite

variable (S : SerdeJson V) (parsePercent : String → Option ℕ) (row : WallpaperColumns)

def run : ColumnWrite → WallpaperColumns
  | mergeUserPropertyOverrides kv => row.mergeUserPropertyOverrides S kv
  | setWallpaperLayoutOverride layout => row.setWallpaperLayoutOverride S layout

/-- The keys that the request names. -/
def Names (key : String) : ColumnWrite → Prop
  | mergeUserPropertyOverrides kv => ∃ e ∈ kv, key = canonicalUserPropertyKey e.1
  | setWallpaperLayoutOverride _ => isDaemonDisplayPropertyKey key = true

/-- The request changes what the renderer gets under the keys it names only, and a layout that it
sets is the one that is read. -/
structure Keeps (w : ColumnWrite) : Prop where
  passed {key : String} : ¬ w.Names key →
    (w.run S row).passed S parsePercent key = row.passed S parsePercent key
  layout {layout : Option ResolvedLayout} : w = setWallpaperLayoutOverride layout →
    (w.run S row).getWallpaperLayoutOverrideWithLegacy S parsePercent =
      layout.map WallpaperLayoutOverride.fromResolved

/-- The column is written anew. -/
def rewrites : ColumnWrite → Bool
  | mergeUserPropertyOverrides _ => true
  | setWallpaperLayoutOverride layout => layout.isNone

/-- The properties that it is written with. -/
def edit : ColumnWrite → UserProperties → UserProperties
  | mergeUserPropertyOverrides kv, u => kv.foldl (fun u e => u.merge e.1 e.2) u
  | setWallpaperLayoutOverride _, u => u.clearLayout

end ColumnWrite

section

variable {S : SerdeJson V} {parsePercent : String → Option ℕ} {row : WallpaperColumns}
  {w : ColumnWrite} {raw : String} {m : HashMap String String}

theorem SerdeJson.trim_ne_empty (h : S.mapFromStr raw = some m) : trim raw ≠ "" := by
  intro htrim
  have hread := S.mapFromStr_trim h
  rw [htrim, S.mapFromStr_empty] at hread
  cases hread

theorem SerdeJson.member_of_map (h : S.mapFromStr raw = some m) (key : String) :
    S.member raw key = (m.lookup key).map S.string := by
  obtain ⟨value, n, hvalue, hn, hlookup⟩ := S.valueFromStr_map h
  simp [member, hvalue, hn, hlookup]

/-- Both ways of making the keys canonical agree. -/
theorem SerdeJson.mapFromStr_normalize (h : S.mapFromStr raw = some m) :
    ∃ m', S.mapFromStr (S.normalizeUserPropertyOverridesJson raw) = some m' ∧
      ∀ key, m'.lookup key = (normalizeUserPropertyOverrides m).get key := by
  obtain ⟨value, n, hvalue, hn, hlookup⟩ := S.valueFromStr_map (S.mapFromStr_trim h)
  have htexts (key : String) :
      (remapped n).lookup key = ((remapped m).lookup key).map S.string := by
    rw [lookup_remapped, lookup_remapped, hlookup, hlookup]
    by_cases hlegacy : key = legacySchemeColorKey
    · rw [if_pos hlegacy, if_pos hlegacy]
      rfl
    · rw [if_neg hlegacy, if_neg hlegacy]
      by_cases hscheme : key = schemeColorKey
      · rw [if_pos hscheme, if_pos hscheme]
        cases m.lookup key <;> rfl
      · rw [if_neg hscheme, if_neg hscheme]
  obtain ⟨m', hm', hread⟩ := S.mapFromStr_object htexts
  refine ⟨m', ?_, fun key => ?_⟩
  · rw [normalizeUserPropertyOverridesJson]
    simp only [if_neg (trim_ne_empty h), hvalue, hn, hm']
  · rw [hread, UserProperties.get, map_normalizeUserPropertyOverrides]

/-- The part for the renderer is written in a form that is read as it is. -/
theorem SerdeJson.bind_member (m : HashMap String String) (key : String) :
    ((if m.keys = [] then none else some (S.mapToString m)).bind fun text => S.member text key) =
      (m.lookup key).map S.string := by
  by_cases hempty : m.keys = []
  · have hnone : m.lookup key = none := by
      rw [Option.eq_none_iff_forall_ne_some]
      intro v hv
      have hkey := (HashMap.mem_keys_iff m key).2 ⟨v, hv⟩
      rw [hempty] at hkey
      cases hkey
    rw [if_pos hempty, hnone]
    rfl
  · obtain ⟨m', hm', hlookup⟩ := S.mapFromStr_toString m
    rw [if_neg hempty, Option.bind_some, member_of_map hm', hlookup]

theorem layout_of_get_none {u : UserProperties}
    (h : ∀ key, isDaemonDisplayPropertyKey key = true → u.get key = none) :
    (splitRendererProperties parsePercent u).2 = default := by
  have hnone : u.get fillModeKey = none ∧ u.get rotationKey = none ∧
      u.get locationXKey = none ∧ u.get locationYKey = none :=
    ⟨h _ (by decide), h _ (by decide), h _ (by decide), h _ (by decide)⟩
  simp only [splitRendererProperties, hnone]
  rfl

namespace WallpaperColumns

theorem get_of_none (h : row.userPropertyOverrides.bind S.mapFromStr = none) (key : String) :
    (row.getUserPropertyOverrides S).get key = none := by
  rw [getUserPropertyOverrides, h]
  exact HashMap.lookup_empty key

/-- A map of strings is split like the parsed properties. -/
theorem split_of_readable (h : row.Readable S) :
    (∀ key, row.passed S parsePercent key =
      ((row.getUserPropertyOverrides S).clearLayout.get key).map S.string) ∧
    (row.getWallpaperRenderProperties S parsePercent).2 =
      (S.parseWallpaperLayoutOverrideRaw row.wallpaperLayoutOverride).getD
        (splitRendererProperties parsePercent (row.getUserPropertyOverrides S)).2 := by
  cases hraw : row.userPropertyOverrides with
  | none =>
    have hget : ∀ key, (row.getUserPropertyOverrides S).get key = none :=
      get_of_none (by rw [hraw, Option.bind_none])
    refine ⟨fun key => ?_, ?_⟩
    · rw [UserProperties.get_clearLayout, hget, ite_self, passed, getWallpaperRenderProperties,
        hraw]
      rfl
    · rw [getWallpaperRenderProperties, hraw, layout_of_get_none fun key _ => hget key]
      rfl
  | some raw =>
    obtain ⟨m, hm⟩ := Option.isSome_iff_exists.1 (h raw hraw)
    obtain ⟨m', hm', hlookup⟩ := SerdeJson.mapFromStr_normalize hm
    have hget : row.getUserPropertyOverrides S = normalizeUserPropertyOverrides m := by
      rw [getUserPropertyOverrides, hraw, Option.bind_some, hm, Option.getD_some]
    have hfilter : (some (S.normalizeUserPropertyOverridesJson raw)).filter
        (fun raw => trim raw ≠ "") = some (S.normalizeUserPropertyOverridesJson raw) :=
      Option.filter_some_pos (decide_eq_true (SerdeJson.trim_ne_empty hm'))
    refine ⟨fun key => ?_, ?_⟩
    · simp only [passed, getWallpaperRenderProperties, hraw, Option.map_some,
        SerdeJson.splitRendererProperties, hfilter, hm']
      rw [SerdeJson.bind_member, HashMap.lookup_retain, hlookup, UserProperties.get_clearLayout,
        hget]
      cases isDaemonDisplayPropertyKey key <;> rfl
    · simp only [getWallpaperRenderProperties, hraw, Option.map_some,
        SerdeJson.splitRendererProperties, hfilter, hm', hlookup, hget]
      rfl

theorem readable_set (row : WallpaperColumns) (u : UserProperties) :
    (row.setUserPropertyOverrides S u).Readable S := by
  intro raw hraw
  rw [setUserPropertyOverrides] at hraw
  dsimp only at hraw
  split at hraw
  · cases hraw
  · obtain ⟨m', hm', -⟩ := S.mapFromStr_toString u.map
    rw [← Option.some_inj.1 hraw, hm']
    rfl

theorem get_set (row : WallpaperColumns) (u : UserProperties) (key : String) :
    ((row.setUserPropertyOverrides S u).getUserPropertyOverrides S).get key = u.get key := by
  by_cases hempty : u.map.keys = []
  · have hcolumn : (row.setUserPropertyOverrides S u).userPropertyOverrides = none := if_pos hempty
    rw [get_of_none (by rw [hcolumn, Option.bind_none]), eq_comm,
      Option.eq_none_iff_forall_ne_some]
    intro v hv
    have hkey := (HashMap.mem_keys_iff u.map key).2 ⟨v, hv⟩
    rw [hempty] at hkey
    cases hkey
  · obtain ⟨m', hm', hlookup⟩ := S.mapFromStr_toString u.map
    have hcolumn : (row.setUserPropertyOverrides S u).userPropertyOverrides =
        some (S.mapToString u.map) := if_neg hempty
    rw [getUserPropertyOverrides, hcolumn, Option.bind_some, hm', Option.getD_some,
      UserProperties.get, map_normalizeUserPropertyOverrides, lookup_remapped, hlookup, hlookup,
      ← lookup_remapped, ← map_normalizeUserPropertyOverrides]
    exact u.get_normalize key

theorem passed_congr {row' : WallpaperColumns}
    (h : row'.userPropertyOverrides = row.userPropertyOverrides) (key : String) :
    row'.passed S parsePercent key = row.passed S parsePercent key := by
  rw [passed, passed, getWallpaperRenderProperties, getWallpaperRenderProperties, h]

/-- What is set is what the renderer gets, without the daemon's own properties. -/
theorem passed_set (row : WallpaperColumns) (u : UserProperties) (key : String) :
    (row.setUserPropertyOverrides S u).passed S parsePercent key =
      (u.clearLayout.get key).map S.string := by
  rw [(split_of_readable (readable_set row u)).1, UserProperties.get_clearLayout, get_set,
    UserProperties.get_clearLayout]

end WallpaperColumns

theorem get_foldl_merge (kv : List (String × String)) (u : UserProperties) {key : String}
    (h : ¬ ∃ e ∈ kv, key = canonicalUserPropertyKey e.1) :
    (kv.foldl (fun u e => u.merge e.1 e.2) u).get key = u.get key := by
  induction kv generalizing u with
  | nil => rfl
  | cons e kv ih =>
    have hkey : key ≠ canonicalUserPropertyKey e.1 := fun hkey => h ⟨e, List.mem_cons_self, hkey⟩
    rw [List.foldl_cons, ih _ fun ⟨e', he', hkey⟩ => h ⟨e', List.mem_cons_of_mem _ he', hkey⟩,
      UserProperties.get_merge, if_neg hkey]

namespace ColumnWrite

theorem passed_run (hw : w.rewrites = true) (key : String) :
    (w.run S row).passed S parsePercent key =
      ((w.edit (row.getUserPropertyOverrides S)).clearLayout.get key).map S.string := by
  cases w with
  | mergeUserPropertyOverrides kv => exact WallpaperColumns.passed_set row _ key
  | setWallpaperLayoutOverride layout =>
    cases layout with
    | some layout => cases hw
    | none =>
      refine (WallpaperColumns.passed_congr ?_ key).trans (WallpaperColumns.passed_set row _ key)
      rfl

theorem get_edit (u : UserProperties) {key : String} (hkey : ¬ w.Names key) :
    (w.edit u).clearLayout.get key = u.clearLayout.get key := by
  rw [UserProperties.get_clearLayout, UserProperties.get_clearLayout]
  cases w with
  | mergeUserPropertyOverrides kv => rw [edit, get_foldl_merge kv u hkey]
  | setWallpaperLayoutOverride layout =>
    rw [edit, UserProperties.get_clearLayout]
    cases isDaemonDisplayPropertyKey key <;> rfl

theorem passed_run_of_leaves (hw : w.rewrites = false) (key : String) :
    (w.run S row).passed S parsePercent key = row.passed S parsePercent key := by
  cases w with
  | mergeUserPropertyOverrides kv => cases hw
  | setWallpaperLayoutOverride layout =>
    cases layout with
    | none => cases hw
    | some layout => exact WallpaperColumns.passed_congr rfl key

/-- What is not a map of strings is lost. -/
theorem passed_run_of_not_readable (hw : w.rewrites = true) (h : ¬ row.Readable S) {key : String}
    (hkey : ¬ w.Names key) : (w.run S row).passed S parsePercent key = none := by
  have hnone : row.userPropertyOverrides.bind S.mapFromStr = none := by
    unfold WallpaperColumns.Readable at h
    push Not at h
    obtain ⟨raw, hraw, hread⟩ := h
    rw [Option.mem_def.1 hraw, Option.bind_some]
    simpa using hread
  rw [passed_run hw, get_edit _ hkey, UserProperties.get_clearLayout,
    WallpaperColumns.get_of_none hnone, ite_self]
  rfl

theorem layout_run (layout : Option ResolvedLayout) :
    ((setWallpaperLayoutOverride layout).run S row).getWallpaperLayoutOverrideWithLegacy S
      parsePercent = layout.map WallpaperLayoutOverride.fromResolved := by
  cases layout with
  | some layout =>
    have hne : trim (S.persistedToString layout) ≠ "" := by
      intro h
      have hread := S.persistedFromStr_toString layout
      rw [h, S.persistedFromStr_empty] at hread
      cases hread
    have hparsed : S.parseWallpaperLayoutOverrideRaw (some (S.persistedToString layout)) =
        some (.fromResolved layout) := by
      simp only [SerdeJson.parseWallpaperLayoutOverrideRaw, Option.map_some, Option.bind_some,
        SerdeJson.wallpaperLayoutOverrideFromJson, trim_trim, if_neg hne,
        S.persistedFromStr_toString]
    have hlayout : ((row.setWallpaperLayoutOverride S (some layout)).getWallpaperRenderProperties S
        parsePercent).2 = .fromResolved layout := by
      simp only [WallpaperColumns.getWallpaperRenderProperties,
        WallpaperColumns.setWallpaperLayoutOverride, Option.map_some, hparsed, Option.getD_some]
    rw [run, WallpaperColumns.getWallpaperLayoutOverrideWithLegacy, hlayout]
    rfl
  | none =>
    have hread : (row.setWallpaperLayoutOverride S none).Readable S :=
      WallpaperColumns.readable_set row _
    have hnone : (splitRendererProperties parsePercent
        ((row.setWallpaperLayoutOverride S none).getUserPropertyOverrides S)).2 = default := by
      refine layout_of_get_none fun key hkey => ?_
      refine (WallpaperColumns.get_set row _ key).trans ?_
      rw [UserProperties.get_clearLayout, if_pos hkey]
    rw [run, WallpaperColumns.getWallpaperLayoutOverrideWithLegacy,
      (WallpaperColumns.split_of_readable hread).2, hnone]
    rfl

/-- A request keeps what it does not name exactly when it leaves the column alone, when the column
is a map of strings, or when the renderer gets nothing else. -/
theorem keeps_iff (S : SerdeJson V) (parsePercent : String → Option ℕ) (row : WallpaperColumns)
    (w : ColumnWrite) : w.Keeps S parsePercent row ↔ w.rewrites = false ∨ row.Readable S ∨
      ∀ key, ¬ w.Names key → row.passed S parsePercent key = none := by
  constructor
  · intro h
    cases hw : w.rewrites with
    | false => exact .inl rfl
    | true =>
      by_cases hread : row.Readable S
      · exact .inr (.inl hread)
      · exact .inr (.inr fun key hkey =>
          (h.passed hkey).symm.trans (passed_run_of_not_readable hw hread hkey))
  · intro h
    refine ⟨fun {key} hkey => ?_, fun hw => hw ▸ layout_run _⟩
    cases hw : w.rewrites with
    | false => exact passed_run_of_leaves hw key
    | true =>
      by_cases hread : row.Readable S
      · rw [passed_run hw, get_edit _ hkey, (WallpaperColumns.split_of_readable hread).1]
      · have hnone := (h.resolve_left (by simp [hw])).resolve_left hread
        rw [hnone key hkey, passed_run_of_not_readable hw hread hkey]

end ColumnWrite

end

/-! ## A small JSON library -/

namespace PlainJson

def fillModeName : FillMode → String
  | .stretched => "stretched"
  | .preserveAspectFit => "preserve_aspect_fit"
  | .preserveAspectCrop => "preserve_aspect_crop"
  | .centered => "centered"

def rotationName : Rotation → String
  | .normal => "normal"
  | .cw90 => "cw90"
  | .cw180 => "cw180"
  | .cw270 => "cw270"

def layout (l : ResolvedLayout) : Json :=
  .object (.cons "fillmode" (.string (fillModeName l.fillmode))
    (.cons "location" (.object (.cons "x" (.number l.location.x)
      (.cons "y" (.number l.location.y) .nil)))
    (.cons "rotation" (.string (rotationName l.rotation)) .nil)))

def readFillMode : Json → Option FillMode
  | .string text =>
    [FillMode.stretched, .preserveAspectFit, .preserveAspectCrop, .centered].find?
      fun mode => fillModeName mode = text
  | _ => none

def readRotation : Json → Option Rotation
  | .string text =>
    [Rotation.normal, .cw90, .cw180, .cw270].find? fun rotation => rotationName rotation = text
  | _ => none

def readPercent : Json → Option ℕ
  | .number n => some n
  | _ => none

def readLocation (value : Json) : Option Location :=
  value.asObject.map fun map =>
    ⟨((map.lookup "x").bind readPercent).getD 50, ((map.lookup "y").bind readPercent).getD 50⟩

def readOverride (value : Json) : Option WallpaperLayoutOverride :=
  value.asObject.map fun map =>
    { fillmode := (map.lookup "fillmode").bind readFillMode
      location := (map.lookup "location").bind readLocation
      rotation := (map.lookup "rotation").bind readRotation }

def readLayout (value : Json) : Option ResolvedLayout := do
  let layout ← readOverride value
  some ⟨← layout.fillmode, ← layout.location, ← layout.rotation⟩

def read (text : String) : Option Json :=
  Json.ofText (trim text).toList

def write (value : Json) : String :=
  String.ofList value.write

theorem trim_write (members : JsonMembers) :
    trim (write (.object members)) = write (.object members) := by
  have hopen : ¬ isWhitespace '{' = true := by decide
  have hclose : ¬ isWhitespace '}' = true := by decide
  rw [write, Json.write, trim,
    String.toList_ofList (l := '{' :: (Json.writeMembers members ++ ['}'])),
    List.dropWhile_cons_of_neg hopen, ← List.cons_append, List.rdropWhile_concat_neg _ _ _ hclose]

theorem read_write (members : JsonMembers) :
    read (write (.object members)) = some (.object members) := by
  rw [read, trim_write, write, String.toList_ofList (l := Json.write _), Json.ofText_write]

theorem readLayout_layout (l : ResolvedLayout) : readLayout (layout l) = some l := by
  obtain ⟨fillmode, ⟨x, y⟩, rotation⟩ := l
  have hlocation : readLocation (.object (.cons "x" (.number x) (.cons "y" (.number y) .nil))) =
      some ⟨x, y⟩ := rfl
  have hfillmode : readFillMode (.string (fillModeName fillmode)) = some fillmode := by
    cases fillmode <;> decide
  have hrotation : readRotation (.string (rotationName rotation)) = some rotation := by
    cases rotation <;> decide
  have hoverride : readOverride (layout ⟨fillmode, ⟨x, y⟩, rotation⟩) =
      some ⟨readFillMode (.string (fillModeName fillmode)), some ⟨x, y⟩,
        readRotation (.string (rotationName rotation))⟩ := rfl
  simp only [readLayout, hoverride, hfillmode, hrotation, Option.bind_eq_bind, Option.bind_some]

end PlainJson

/-- The values that `PlainJson` reads and writes, in place of the JSON library. -/
def plainJson : SerdeJson Json where
  valueFromStr := PlainJson.read
  valueToString := PlainJson.write
  mapFromStr text := (PlainJson.read text).bind Json.asStrings
  mapToString m := PlainJson.write (Json.ofMap (m.mapValues Json.string))
  persistedFromStr text := (PlainJson.read text).bind PlainJson.readLayout
  persistedToString layout := PlainJson.write (PlainJson.layout layout)
  overrideFromStr text := (PlainJson.read text).bind PlainJson.readOverride
  asObject := Json.asObject
  object := Json.ofMap
  string := Json.string
  mapFromStr_empty := rfl
  mapFromStr_trim h := by
    rwa [PlainJson.read, trim_trim]
  valueFromStr_map h := by
    obtain ⟨value, hvalue, hm⟩ := Option.bind_eq_some_iff.1 h
    obtain ⟨n, hn, htexts⟩ := Json.isTexts_of_asStrings hm
    exact ⟨value, n, hvalue, hn, htexts⟩
  mapFromStr_object h := by
    rw [Json.ofMap, PlainJson.read_write]
    exact Json.asStrings_ofMap h
  mapFromStr_toString m := by
    rw [Json.ofMap, PlainJson.read_write]
    exact Json.asStrings_ofMap fun k => HashMap.lookup_mapValues m _ k
  persistedFromStr_empty := rfl
  persistedFromStr_toString layout := by
    rw [PlainJson.layout, PlainJson.trim_write, PlainJson.read_write]
    exact PlainJson.readLayout_layout layout

/-- A number among the properties. -/
def numbered : WallpaperColumns := ⟨some "\x7b\"a\":1\x7d", none⟩

theorem not_keeps : ¬ ∀ (row : WallpaperColumns) (w : ColumnWrite),
    w.Keeps plainJson (fun _ => none) row := by
  intro h
  have hname : ¬ (ColumnWrite.mergeUserPropertyOverrides [("speed", "2")]).Names "a" := by
    rintro ⟨e, he, hkey⟩
    rw [List.mem_singleton.1 he] at hkey
    exact absurd hkey (by decide)
  have hread : ¬ numbered.Readable plainJson := by
    intro hread
    exact absurd (hread _ rfl) (by decide)
  have hbefore : (numbered.passed plainJson (fun _ => none) "a").isSome = true := by
    decide +kernel
  rw [← (h numbered _).passed hname,
    ColumnWrite.passed_run_of_not_readable rfl hread hname] at hbefore
  cases hbefore

end Waywallen
