import Mathlib.Algebra.Group.Int.Defs
import Mathlib.Algebra.Group.Nat.Defs
import Waywallen.Library.HashMap

/-!
# Settings schemas of renderer plugins

A renderer manifest declares its settings: a type, a default and an envelope of bounds or choices.
Values are strings; `coerceAndValidate` brings a value to its canonical form and checks it,
`checkSettingBounds` checks a value as it stands.

Floating-point text and comparison are a parameter: nothing below depends on how `f32` rounds.
-/

namespace Waywallen

/-- The operations on `f32` and `f64` that the schema uses. -/
structure FloatOps where
  F32 : Type
  F64 : Type
  parse : String → Option F32
  lt : F32 → F32 → Bool
  ofInt : ℤ → F32
  ofF64 : F64 → F32
  toString : F32 → String
  toString64 : F64 → String
  /-- How a TOML document writes the number. -/
  toToml : F64 → String

inductive SettingType
  | u32
  | f32
  | string
  | bool
deriving DecidableEq

variable (fl : FloatOps)

inductive TomlValue
  | string (s : String)
  | integer (i : ℤ)
  | float (f : fl.F64)
  | boolean (b : Bool)
  /-- A date, an array or a table, as a document writes it. -/
  | other (text : String)

/-- The manifest's declaration of one setting, less what only the UI reads. -/
structure SettingDef where
  ty : SettingType
  default : TomlValue fl
  min : Option (TomlValue fl)
  max : Option (TomlValue fl)
  choices : Option (List String)

inductive ValidationError
  | badSettingType (key : String) (expected : SettingType) (got : String)
  | outOfRange (key got : String) (min max : Option String)
  | badChoice (key got : String) (choices : List String)
deriving DecidableEq

/-- `str::parse::<u32>`: digits after at most one plus sign. -/
def parseU32 (s : String) : Option ℕ :=
  let digits := if s.toList.head? = some '+' then s.toList.tail else s.toList
  if digits ≠ [] ∧ digits.all Char.isDigit then
    let n := digits.foldl (fun n c => 10 * n + (c.toNat - '0'.toNat)) 0
    if n < 2 ^ 32 then some n else none
  else none

variable {fl}

/-- `Display`; strings never come here. -/
def TomlValue.toString : TomlValue fl → String
  | .string s => s
  | .integer i => ToString.toString i
  | .float f => fl.toToml f
  | .boolean b => ToString.toString b
  | .other text => text

def tomlValueToDisplay : TomlValue fl → String
  | .integer i => ToString.toString i
  | .float f => fl.toString64 f
  | .string s => s
  | other => other.toString

def tomlToU32 : TomlValue fl → Option ℕ
  | .integer i => if 0 ≤ i ∧ i < 2 ^ 32 then some i.toNat else none
  | .string s => parseU32 s
  | _ => none

def tomlToF32 : TomlValue fl → Option fl.F32
  | .integer i => some (fl.ofInt i)
  | .float f => some (fl.ofF64 f)
  | .string s => fl.parse s
  | _ => none

def outOfRange (key coerced : String) (schema : SettingDef fl) : ValidationError :=
  .outOfRange key coerced (schema.min.map tomlValueToDisplay) (schema.max.map tomlValueToDisplay)

/-- Check an already-typecast setting against the manifest envelope. -/
def checkSettingBounds (key coerced : String) (schema : SettingDef fl) :
    Except ValidationError Unit :=
  match schema.ty with
  | .u32 =>
    match parseU32 coerced with
    | none => .error (.badSettingType key .u32 coerced)
    | some v =>
      if (schema.min.bind tomlToU32).any (v < ·) then .error (outOfRange key coerced schema)
      else if (schema.max.bind tomlToU32).any (· < v) then .error (outOfRange key coerced schema)
      else .ok ()
  | .f32 =>
    match fl.parse coerced with
    | none => .error (.badSettingType key .f32 coerced)
    | some v =>
      if (schema.min.bind tomlToF32).any (fl.lt v) then .error (outOfRange key coerced schema)
      else if (schema.max.bind tomlToF32).any (fl.lt · v) then
        .error (outOfRange key coerced schema)
      else .ok ()
  | .string =>
    match schema.choices with
    | some choices =>
      if choices.contains coerced then .ok () else .error (.badChoice key coerced choices)
    | none => .ok ()
  | .bool => .ok ()

variable (fl) in
/-- The canonical form of a raw value of the type, if it is one. -/
def coerceSetting (raw : String) : SettingType → Option String
  | .u32 => (parseU32 raw).map ToString.toString
  | .f32 => (fl.parse raw).map fl.toString
  | .bool => if raw = "true" ∨ raw = "false" then some raw else none
  | .string => some raw

def coerceAndValidate (key raw : String) (schema : SettingDef fl) :
    Except ValidationError String :=
  match coerceSetting fl raw schema.ty with
  | none => .error (.badSettingType key schema.ty raw)
  | some coerced =>
    match checkSettingBounds key coerced schema with
    | .error e => .error e
    | .ok () => .ok coerced

/-- The value passes the check of the declared setting. -/
def Passes (key value : String) (schema : SettingDef fl) : Prop :=
  checkSettingBounds key value schema = .ok ()

instance (key value : String) (schema : SettingDef fl) : Decidable (Passes key value schema) :=
  match h : checkSettingBounds key value schema with
  | .ok () => .isTrue h
  | .error _ => .isFalse (by rw [Passes, h]; exact nofun)

/-- What `coerceAndValidate` accepts, it returns in a form that passes the check. -/
theorem passes_of_coerceAndValidate {key raw value : String} {schema : SettingDef fl}
    (h : coerceAndValidate key raw schema = .ok value) : Passes key value schema := by
  unfold coerceAndValidate at h
  split at h
  · cases h
  · split at h
    · cases h
    · rename_i hcheck
      cases h
      exact hcheck

/-- The key an error names. -/
def ValidationError.key : ValidationError → String
  | .badSettingType key _ _ => key
  | .outOfRange key _ _ _ => key
  | .badChoice key _ _ => key

/-- Every error names the key that was checked. -/
theorem key_of_checkSettingBounds {key value : String} {schema : SettingDef fl}
    {e : ValidationError} (h : checkSettingBounds key value schema = .error e) : e.key = key := by
  unfold checkSettingBounds at h
  repeat' split at h
  all_goals cases h <;> rfl

/-! ## The registry -/

/-- A renderer component of a manifest, as far as its settings are concerned. -/
structure RendererDef (fl : FloatOps) where
  name : String
  types : List String
  priority : ℕ
  settings : HashMap String (SettingDef fl)

/-- The renderer definitions by wallpaper type; a definition is listed under each of its types. -/
structure RendererRegistry (fl : FloatOps) where
  byType : HashMap String (List (RendererDef fl))

namespace RendererRegistry

def new : RendererRegistry fl := ⟨∅⟩

/-- List the definition under each of its types, by descending priority. -/
def register (r : RendererRegistry fl) (d : RendererDef fl) : RendererRegistry fl where
  byType := d.types.foldl (fun m t =>
    m.insert t (((m.lookup t).getD [] ++ [d]).mergeSort fun a b => b.priority ≤ a.priority)) r.byType

variable (r : RendererRegistry fl)

/-- Keep the first definition of every name. -/
def dedupByName : List String → List (RendererDef fl) → List (RendererDef fl)
  | _, [] => []
  | seen, d :: ds =>
    if d.name ∈ seen then dedupByName seen ds else d :: dedupByName (d.name :: seen) ds

/-- All registered renderer definitions, one for each name. -/
def allRenderers : List (RendererDef fl) :=
  dedupByName [] r.byType.values.flatten

theorem names_dedupByName (seen : List String) (ds : List (RendererDef fl)) :
    ((dedupByName seen ds).map (·.name)).Nodup ∧ ∀ d ∈ dedupByName seen ds, d.name ∉ seen := by
  induction ds generalizing seen with
  | nil => simp [dedupByName]
  | cons d ds ih =>
    rw [dedupByName]
    split
    · exact ih seen
    · rename_i hd
      obtain ⟨hnodup, hseen⟩ := ih (d.name :: seen)
      refine ⟨?_, ?_⟩
      · rw [List.map_cons, List.nodup_cons]
        refine ⟨fun hmem => ?_, hnodup⟩
        obtain ⟨d', hd', heq⟩ := List.mem_map.1 hmem
        exact hseen d' hd' (heq ▸ List.mem_cons_self)
      · intro d' hd'
        rcases List.mem_cons.1 hd' with rfl | hd'
        · exact hd
        · exact fun hmem => hseen d' hd' (List.mem_cons_of_mem _ hmem)

/-- The definition of a name is found from the name. -/
theorem find?_allRenderers {d : RendererDef fl} (hd : d ∈ r.allRenderers) :
    r.allRenderers.find? (·.name = d.name) = some d := by
  have hnodup := (names_dedupByName [] r.byType.values.flatten).1
  change (r.allRenderers.map (·.name)).Nodup at hnodup
  generalize r.allRenderers = ds at hd hnodup
  induction ds with
  | nil => cases hd
  | cons e ds ih =>
    rw [List.map_cons, List.nodup_cons] at hnodup
    rcases List.mem_cons.1 hd with rfl | hd
    · rw [List.find?_cons_of_pos (by simp)]
    · have hne : e.name ≠ d.name := fun h => hnodup.1 (h ▸ List.mem_map_of_mem hd)
      rw [List.find?_cons_of_neg (by simpa using hne)]
      exact ih hd hnodup.2

end RendererRegistry

end Waywallen
