import Waywallen.Wayproto.Parser
import Waywallen.Wayproto.RustWire
import Waywallen.Wayproto.CWire

/-!
# The generators

What the two generators emit for a schema, as far as it depends on the schema: the fields of each
message and the calls that encode it, decode it and count its descriptors. A generator panics on an
array that it has no helper for.
-/

namespace Waywallen.Wayproto

/-- The end of the name of an array's helper. -/
def arraySuffix : ArgType → Option Elem
  | .u32 => some .u32
  | .i32 => some .i32
  | .u64 => some .u64
  | .i64 => some .i64
  | .f32 => some .f32
  | .f64 => some .f64
  | .string => some .string
  | _ => none

/-- Both generators choose the helper of an argument by its type. -/
def helperFor : ArgType → Option Helper
  | .u32 => some (.one .u32)
  | .i32 => some (.one .i32)
  | .u64 => some (.one .u64)
  | .i64 => some (.one .i64)
  | .f32 => some (.one .f32)
  | .f64 => some (.one .f64)
  | .string => some (.one .string)
  | .rect => some .rect
  | .kvList => some .kvList
  | .array elem => (arraySuffix elem).map .array

/-- How the descriptors of a message are counted: a number, or the product of some fields. -/
inductive FdCode
  | count (n : UInt32)
  | product (fields : List String)
deriving DecidableEq

/-- The code that is generated for a message, in either language. -/
structure Code where
  name : String
  opcode : UInt16
  fields : List String
  encode : List Helper
  decode : List Helper
  fds : FdCode
deriving DecidableEq

/-- The codes of the two directions. -/
structure Codec where
  requests : List Code
  events : List Code
deriving DecidableEq

def FdSpec.code (fds : FdSpec) (fieldName : String → String) : FdCode :=
  match fds with
  | .none => .count 0
  | .fixed n => .count n
  | .product fields => .product (fields.map fieldName)

namespace Rust

def fieldName (raw : String) : String :=
  if raw ∈ ["type", "ref", "move", "match", "self", "super", "where", "box"] then "r#" ++ raw
  else raw

def emitEncodeArg (ty : ArgType) : Option Helper := helperFor ty

def emitDecodeArg (ty : ArgType) : Option Helper := helperFor ty

/-- The arms for one message in the `impl` of its enum. -/
def emitVariant (m : Message) : Option Code := do
  let encode ← m.args.mapM fun a => emitEncodeArg a.ty
  let decode ← m.args.mapM fun a => emitDecodeArg a.ty
  return {
    name := m.name
    opcode := m.opcode
    fields := m.args.map fun a => fieldName a.name
    encode, decode
    fds := m.fds.code fieldName }

def emitEnum (msgs : List Message) : Option (List Code) := msgs.mapM emitVariant

def emit (p : Protocol) : Option Codec := do
  let requests ← emitEnum p.requests
  let events ← emitEnum p.events
  return ⟨requests, events⟩

end Rust

namespace C

def cFieldName (raw : String) : String :=
  if raw ∈ ["default", "auto", "register", "restrict", "return", "static", "struct", "union",
    "class", "new", "delete"] then "m_" ++ raw
  else raw

def cType (ty : ArgType) : Option Helper := helperFor ty

def encodeCallFor (ty : ArgType) : Option Helper := helperFor ty

def decodeCallFor (ty : ArgType) : Option Helper := helperFor ty

/-- The fields of the struct of a message. -/
def emitMessageStruct (m : Message) : Option (List (String × Helper)) :=
  m.args.mapM fun a => do return (cFieldName a.name, ← cType a.ty)

def emitHeader (p : Protocol) : Option (List (List (String × Helper))) := do
  let requests ← p.requests.mapM emitMessageStruct
  let events ← p.events.mapM emitMessageStruct
  return requests ++ events

def emitMessageImpl (m : Message) : Option Code := do
  let encode ← m.args.mapM fun a => encodeCallFor a.ty
  let decode ← m.args.mapM fun a => decodeCallFor a.ty
  return {
    name := m.name
    opcode := m.opcode
    fields := m.args.map fun a => cFieldName a.name
    encode, decode
    fds := m.fds.code cFieldName }

def emitSource (p : Protocol) : Option Codec := do
  let requests ← p.requests.mapM emitMessageImpl
  let events ← p.events.mapM emitMessageImpl
  return ⟨requests, events⟩

end C

/-! ## What the generated code does -/

/-- The decoder of a direction: the first arm with the opcode decodes the body. -/
def Rust.decode (codes : List Code) (opcode : UInt16) (body : List UInt8) :
    Except (Stop Rust.DecodeError) (Code × List (Value String)) :=
  match codes.find? (·.opcode = opcode) with
  | none => .error (.error (.unknownOpcode opcode))
  | some code =>
    match Rust.message code.decode body with
    | .error e => .error e
    | .ok values => .ok (code, values)

section

variable {S : Type}

/-- A cast of an integer to 64 bits. -/
def Scalar.asU64 : Scalar S → Option UInt64
  | .u32 v => some v.toUInt64
  | .i32 v => some v.toInt64.toUInt64
  | .u64 v => some v
  | .i64 v => some v.toUInt64
  | _ => none

/-- An integer field of a message by its name. -/
def integerField (fields : List String) (values : List (Value S)) (name : String) :
    Option UInt64 :=
  match (fields.zip values).find? (·.1 = name) with
  | some (_, .one x) => x.asU64
  | _ => none

end

/-- The product of the factors; with overflow checks a multiplication may panic. -/
def Rust.product (overflowChecks : Bool) : List UInt64 → Option UInt64
  | [] => none
  | x :: xs => xs.foldlM (fun acc y =>
      if overflowChecks ∧ 2 ^ 64 ≤ acc.toNat * y.toNat then none else some (acc * y)) x

/-- `expected_fds`; none if it does not compile or panics. -/
def Rust.expectedFds (overflowChecks : Bool) (code : Code) (values : List (Value String)) :
    Option UInt32 :=
  match code.fds with
  | .count n => some n
  | .product names => do
    let factors ← names.mapM (integerField code.fields values)
    let n ← Rust.product overflowChecks factors
    return n.toUInt32

/-- The product of the factors, which wraps around. -/
def C.product : List UInt64 → Option UInt64
  | [] => none
  | x :: xs => some (xs.foldl (· * ·) x)

/-- `expected_fds`; none if it does not compile. -/
def C.expectedFds (code : Code) (values : List (Value (List UInt8))) : Option UInt32 :=
  match code.fds with
  | .count n => some n
  | .product names => do
    let factors ← names.mapM (integerField code.fields values)
    let n ← C.product factors
    return n.toUInt32

/-! ## Directions -/

inductive Direction
  | inbound
  | outbound
deriving DecidableEq

def Protocol.messages (p : Protocol) : Direction → List Message
  | .inbound => p.requests
  | .outbound => p.events

def Codec.codes (c : Codec) : Direction → List Code
  | .inbound => c.requests
  | .outbound => c.events

end Waywallen.Wayproto
