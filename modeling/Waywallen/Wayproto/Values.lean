import Mathlib.Data.List.Forall2

/-!
# Values of messages

The value of an argument, with strings of the type `S`. A float is its bits.
-/

namespace Waywallen.Wayproto

/-- What a helper of the generated code is for, as the end of its name says. -/
inductive Elem
  | u32
  | i32
  | u64
  | i64
  | f32
  | f64
  | string
deriving DecidableEq

/-- A helper of the generated code: `w_u32` and its reader, `w_array_u32` and its reader, ... -/
inductive Helper
  | one (e : Elem)
  | rect
  | kvList
  | array (e : Elem)
deriving DecidableEq

inductive Scalar (S : Type)
  | u32 (v : UInt32)
  | i32 (v : Int32)
  | u64 (v : UInt64)
  | i64 (v : Int64)
  | f32 (bits : UInt32)
  | f64 (bits : UInt64)
  | string (s : S)
deriving DecidableEq

inductive Value (S : Type)
  | one (x : Scalar S)
  | rect (x y w h : UInt32)
  | kvList (xs : List (S × S))
  | array (xs : List (Scalar S))
deriving DecidableEq

variable {S T : Type}

def Scalar.elem : Scalar S → Elem
  | .u32 _ => .u32
  | .i32 _ => .i32
  | .u64 _ => .u64
  | .i64 _ => .i64
  | .f32 _ => .f32
  | .f64 _ => .f64
  | .string _ => .string

/-- The value has the type that the helper takes. -/
def Value.fits : Value S → Helper → Bool
  | .one x, .one e => x.elem = e
  | .rect .., .rect => true
  | .kvList _, .kvList => true
  | .array xs, .array e => xs.all (·.elem = e)
  | _, _ => false

/-- The arguments of a message have the types that its helpers take. -/
def Fits (values : List (Value S)) (helpers : List Helper) : Prop :=
  List.Forall₂ (fun v h => v.fits h = true) values helpers

def Scalar.map (f : S → T) : Scalar S → Scalar T
  | .u32 v => .u32 v
  | .i32 v => .i32 v
  | .u64 v => .u64 v
  | .i64 v => .i64 v
  | .f32 bits => .f32 bits
  | .f64 bits => .f64 bits
  | .string s => .string (f s)

def Value.map (f : S → T) : Value S → Value T
  | .one x => .one (x.map f)
  | .rect x y w h => .rect x y w h
  | .kvList xs => .kvList (xs.map (Prod.map f f))
  | .array xs => .array (xs.map (Scalar.map f))

/-- The strings in a value. -/
def Value.strings : Value S → List S
  | .one (.string s) => [s]
  | .one _ => []
  | .rect .. => []
  | .kvList xs => xs.flatMap fun kv => [kv.1, kv.2]
  | .array xs => xs.filterMap fun
    | .string s => some s
    | _ => none

@[simp]
theorem Scalar.elem_map (f : S → T) (x : Scalar S) : (x.map f).elem = x.elem := by
  cases x <;> rfl

@[simp]
theorem Value.fits_map (f : S → T) (v : Value S) (h : Helper) : (v.map f).fits h = v.fits h := by
  cases v <;> cases h <;> simp [Value.map, Value.fits, List.all_map, Function.comp_def]

theorem fits_map {f : S → T} {values : List (Value S)} {helpers : List Helper} :
    Fits (values.map (Value.map f)) helpers ↔ Fits values helpers := by
  simp [Fits, List.forall₂_map_left_iff]

end Waywallen.Wayproto
