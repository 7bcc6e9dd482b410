import Mathlib.Algebra.Group.Nat.Defs
import Mathlib.Algebra.GroupWithZero.Nat
import Mathlib.Data.List.Basic

/-!
# Protocol schemas

`wayproto-gen` reads a schema from XML: a tree of elements first, then the messages of the protocol.
A source text is its characters; positions are in bytes.
-/

namespace Waywallen.Wayproto

structure ParseError where
  pos : ℕ
  msg : String
deriving DecidableEq

def err {α : Type} (pos : ℕ) (msg : String) : Except ParseError α := .error ⟨pos, msg⟩

inductive ArgType
  | u32
  | i32
  | u64
  | i64
  | f32
  | f64
  | string
  | array (elem : ArgType)
  | kvList
  | rect
deriving DecidableEq

def ArgType.parse (s : String) : Option ArgType :=
  match s with
  | "u32" => some .u32
  | "i32" => some .i32
  | "u64" => some .u64
  | "i64" => some .i64
  | "f32" => some .f32
  | "f64" => some .f64
  | "string" => some .string
  | "kv_list" => some .kvList
  | "rect" => some .rect
  | "array" => some (.array .u32)
  | _ => none

structure Arg where
  name : String
  ty : ArgType
deriving DecidableEq

inductive FdSpec
  | none
  | fixed (n : UInt32)
  | product (fields : List String)
deriving DecidableEq

structure Message where
  name : String
  opcode : UInt16
  args : List Arg
  fds : FdSpec
deriving DecidableEq

inductive InboundKind
  | request
  | eventIn
deriving DecidableEq

structure Protocol where
  name : String
  version : UInt32
  inboundKind : InboundKind
  requests : List Message
  events : List Message
deriving DecidableEq

/-- Minimal XML DOM node. -/
inductive Node
  | mk (name : String) (attrs : List (String × String)) (children : List Node)

namespace Node

def name : Node → String
  | mk name _ _ => name

def attrs : Node → List (String × String)
  | mk _ attrs _ => attrs

def children : Node → List Node
  | mk _ _ children => children

def attr (node : Node) (key : String) : Option String :=
  (node.attrs.find? (·.1 = key)).map Prod.snd

end Node

/-! ## The tree of elements -/

def isAsciiWhitespace (c : Char) : Bool :=
  c = ' ' ∨ c = '\t' ∨ c = '\n' ∨ c = '\x0C' ∨ c = '\r'

def isNameChar (c : Char) : Bool := c.isAlphanum ∨ c = '_' ∨ c = '-' ∨ c = ':'

/-- A value read from the source, and the characters behind it, which are fewer than `n`. -/
structure Parsed (α : Type) (n : ℕ) where
  value : α
  rest : List Char
  shorter : rest.length < n

def Parsed.weaken {α : Type} {n m : ℕ} (p : Parsed α n) (h : n ≤ m) : Parsed α m where
  value := p.value
  rest := p.rest
  shorter := Nat.lt_of_lt_of_le p.shorter h

def skipWhitespace (rest : List Char) : List Char := rest.dropWhile isAsciiWhitespace

theorem length_skipWhitespace (rest : List Char) :
    (skipWhitespace rest).length ≤ rest.length :=
  (List.dropWhile_sublist _).length_le

/-- Everything up to and with the next `needle`. -/
def skipPast (needle : List Char) : List Char → Option (List Char)
  | [] => none
  | c :: cs =>
    if needle.isPrefixOf (c :: cs) then some ((c :: cs).drop needle.length) else skipPast needle cs

theorem length_skipPast {needle cs rest : List Char} (h : skipPast needle cs = some rest) :
    rest.length ≤ cs.length := by
  induction cs with
  | nil => cases h
  | cons c cs ih =>
    rw [skipPast] at h
    split at h
    · cases h
      rw [List.length_drop]
      omega
    · exact Nat.le_succ_of_le (ih h)

section

/- The source has `total` bytes. -/
variable (total : ℕ)

/-- The position of the parser that has `rest` in front of it. -/
def posOf (rest : List Char) : ℕ := total - (rest.map Char.utf8Size).sum

def skipCommentsAndWs (rest : List Char) : Except ParseError (List Char) :=
  if _hcomment : "<!--".toList.isPrefixOf (skipWhitespace rest) then
    match _hskip : skipPast "-->".toList ((skipWhitespace rest).drop 4) with
    | none => err (posOf total []) "unterminated comment"
    | some after => skipCommentsAndWs after
  else .ok (skipWhitespace rest)
termination_by rest.length
decreasing_by
  have hprefix : 4 ≤ (skipWhitespace rest).length :=
    (List.isPrefixOf_iff_prefix.1 _hcomment).length_le
  have hafter := length_skipPast _hskip
  have hws := length_skipWhitespace rest
  rw [List.length_drop] at hafter
  omega

theorem length_skipCommentsAndWs {rest after : List Char}
    (h : skipCommentsAndWs total rest = .ok after) : after.length ≤ rest.length := by
  induction rest using skipCommentsAndWs.induct with
  | case1 rest hcomment hskip =>
    rw [skipCommentsAndWs, dif_pos hcomment] at h
    split at h
    · cases h
    · next hskip' =>
      rw [hskip] at hskip'
      cases hskip'
  | case2 rest hcomment next hskip ih =>
    rw [skipCommentsAndWs, dif_pos hcomment] at h
    split at h
    · cases h
    · next hskip' =>
      obtain rfl : _ = next := Option.some.inj (hskip'.symm.trans hskip)
      have hnext := length_skipPast hskip
      rw [List.length_drop] at hnext
      have hws := length_skipWhitespace rest
      exact Nat.le_trans (ih h) (by omega)
  | case3 rest hcomment =>
    rw [skipCommentsAndWs, dif_neg hcomment] at h
    cases h
    exact length_skipWhitespace rest

def skipProlog (rest : List Char) : Except ParseError (List Char) := do
  let rest ← skipCommentsAndWs total rest
  if "<?xml".toList.isPrefixOf rest then
    match skipPast "?>".toList rest with
    | none => err (posOf total []) "unterminated xml decl"
    | some rest => skipCommentsAndWs total rest
  else skipCommentsAndWs total rest

def parseName (rest : List Char) : Except ParseError (Parsed String rest.length) :=
  if h : (rest.takeWhile isNameChar).length = 0 then err (posOf total rest) "expected name"
  else .ok ⟨String.ofList (rest.takeWhile isNameChar), rest.dropWhile isNameChar, by
    have hsplit := congrArg List.length
      (List.takeWhile_append_dropWhile (p := isNameChar) (l := rest))
    rw [List.length_append] at hsplit
    omega⟩

def parseAttrValue (rest : List Char) : Except ParseError (Parsed String rest.length) :=
  match rest with
  | [] => err (posOf total []) "expected attribute value"
  | quote :: body =>
    if quote ≠ '"' ∧ quote ≠ '\'' then err (posOf total (quote :: body)) "expected quote"
    else
      match h : body.dropWhile (· ≠ quote) with
      | [] => err (posOf total []) "unterminated attribute"
      | _ :: after => .ok ⟨String.ofList (body.takeWhile (· ≠ quote)), after, by
          have hle := (List.dropWhile_sublist (p := (· ≠ quote)) (l := body)).length_le
          rw [h, List.length_cons] at hle
          rw [List.length_cons]
          omega⟩

/-- The attributes of a tag, and whether the tag closes itself. -/
def parseAttrs (attrs : List (String × String)) (rest : List Char) :
    Except ParseError (Parsed (List (String × String) × Bool) rest.length) := do
  match h : skipWhitespace rest with
  | [] => err (posOf total []) "unterminated tag"
  | '/' :: '>' :: after => .ok ⟨(attrs, true), after, by
      have := length_skipWhitespace rest
      rw [h] at this
      simp only [List.length_cons] at this
      omega⟩
  | '/' :: after => err (posOf total after) "expected '>' after '/'"
  | '>' :: after => .ok ⟨(attrs, false), after, by
      have := length_skipWhitespace rest
      rw [h] at this
      simp only [List.length_cons] at this
      omega⟩
  | c :: cs =>
    let key ← parseName total (c :: cs)
    match hkey : skipWhitespace key.rest with
    | '=' :: after =>
      let value ← parseAttrValue total (skipWhitespace after)
      have hlt : value.rest.length < rest.length := by
        have h1 := length_skipWhitespace rest
        have h2 := key.shorter
        have h3 := length_skipWhitespace key.rest
        have h4 := length_skipWhitespace after
        have h5 := value.shorter
        rw [h] at h1
        rw [hkey, List.length_cons] at h3
        omega
      let more ← parseAttrs (attrs ++ [(key.value, value.value)]) value.rest
      return more.weaken (Nat.le_of_lt hlt)
    | after => err (posOf total after) "expected '='"
termination_by rest.length

mutual

def parseElement (rest : List Char) : Except ParseError (Parsed Node rest.length) := do
  match hskip : skipCommentsAndWs total rest with
  | .error e => .error e
  | .ok ('<' :: tag) =>
    let name ← parseName total tag
    let attrs ← parseAttrs total [] name.rest
    have hlt : attrs.rest.length < rest.length := by
      have h1 := length_skipCommentsAndWs total hskip
      have h2 := name.shorter
      have h3 := attrs.shorter
      rw [List.length_cons] at h1
      omega
    if attrs.value.2 then return ⟨.mk name.value attrs.value.1 [], attrs.rest, hlt⟩
    else
      let node ← parseChildren name.value attrs.value.1 [] attrs.rest
      return node.weaken (Nat.le_of_lt hlt)
  | .ok other => err (posOf total other) "expected element"
termination_by 2 * rest.length

def parseChildren (name : String) (attrs : List (String × String)) (children : List Node)
    (rest : List Char) : Except ParseError (Parsed Node rest.length) := do
  match hskip : skipCommentsAndWs total rest with
  | .error e => .error e
  | .ok ('<' :: '/' :: tag) =>
    let close ← parseName total tag
    if close.value ≠ name then
      err (posOf total close.rest) s!"mismatched close </{close.value}> vs <{name}>"
    else
      match hclose : skipWhitespace close.rest with
      | '>' :: after => return ⟨.mk name attrs children, after, by
          have h1 := length_skipCommentsAndWs total hskip
          have h2 := close.shorter
          have h3 := length_skipWhitespace close.rest
          rw [hclose] at h3
          simp only [List.length_cons] at h1 h3
          omega⟩
      | after => err (posOf total after) "expected '>' on close tag"
  | .ok inner =>
    have hle := length_skipCommentsAndWs total hskip
    let child ← parseElement inner
    have hlt : child.rest.length < rest.length := Nat.lt_of_lt_of_le child.shorter hle
    let node ← parseChildren name attrs (children ++ [child.value]) child.rest
    return node.weaken (Nat.le_of_lt hlt)
termination_by 2 * rest.length + 1

end

end

/-! ## The messages -/

/-- `str::parse` for an unsigned number below `bound`. -/
def parseUnsigned (bound : ℕ) (s : String) : Option ℕ :=
  let digits :=
    match s.toList with
    | '+' :: digits => digits
    | digits => digits
  if digits ≠ [] ∧ digits.all Char.isDigit then
    let n := digits.foldl (fun n c => 10 * n + (c.toNat - '0'.toNat)) 0
    if n < bound then some n else none
  else none

/-- `char::is_whitespace`. -/
def isWhitespace (c : Char) : Bool :=
  let n := c.toNat
  (9 ≤ n ∧ n ≤ 13) ∨ n = 0x20 ∨ n = 0x85 ∨ n = 0xA0 ∨ n = 0x1680 ∨ (0x2000 ≤ n ∧ n ≤ 0x200A) ∨
    n = 0x2028 ∨ n = 0x2029 ∨ n = 0x202F ∨ n = 0x205F ∨ n = 0x3000

def trim (cs : List Char) : List Char :=
  ((cs.dropWhile isWhitespace).reverse.dropWhile isWhitespace).reverse

def isIdentChar (c : Char) : Bool := c.isAlphanum ∨ c = '_'

def parseArg (node : Node) : Except ParseError Arg := do
  let some name := node.attr "name" | err 0 "<arg> missing name"
  let some tyStr := node.attr "type" | err 0 "<arg> missing type"
  if tyStr = "array" then
    let some elemStr := node.attr "element" | err 0 "<arg type=\"array\"> missing element"
    match ArgType.parse elemStr with
    | none => err 0 s!"unknown array element type {elemStr}"
    | some (.array _) => err 0 "arrays of arrays / kv_list not supported"
    | some .kvList => err 0 "arrays of arrays / kv_list not supported"
    | some elem => return ⟨name, .array elem⟩
  else
    let some ty := ArgType.parse tyStr | err 0 s!"unknown type {tyStr}"
    return ⟨name, ty⟩

def parseFds (node : Node) : Except ParseError FdSpec :=
  match node.attr "count" with
  | some s =>
    match parseUnsigned (2 ^ 32) s with
    | none => err 0 "fds count not u32"
    | some n => .ok (if n = 0 then .none else .fixed (UInt32.ofNat n))
  | none =>
    match node.attr "count_expr" with
    | some expr =>
      let parts := ((expr.toList.splitOn '*').map trim).filter (· ≠ [])
      if parts = [] then err 0 "empty count_expr"
      else
        match parts.find? fun p => !p.all isIdentChar with
        | some p => err 0 s!"count_expr field not an ident: {String.ofList p}"
        | none => .ok (.product (parts.map String.ofList))
    | none => err 0 "<fds> missing count or count_expr"

/-- One child of a message, after the arguments and descriptors of those before it. -/
def parseMessageChild (sofar : List Arg × FdSpec) (child : Node) :
    Except ParseError (List Arg × FdSpec) :=
  match child.name with
  | "arg" => do
    let arg ← parseArg child
    return (sofar.1 ++ [arg], sofar.2)
  | "fds" => do
    let fds ← parseFds child
    return (sofar.1, fds)
  | other => err 0 s!"unknown message child <{other}>"

def parseMessage (node : Node) : Except ParseError Message := do
  let some name := node.attr "name" | err 0 s!"<{node.name}> missing name"
  let some opcode := node.attr "opcode" | err 0 s!"<{node.name}> missing opcode"
  let some opcode := parseUnsigned (2 ^ 16) opcode | err 0 "opcode not u16"
  let (args, fds) ← node.children.foldlM parseMessageChild ([], FdSpec.none)
  return { name, opcode := UInt16.ofNat opcode, args, fds }

def setInboundKind (slot : Option InboundKind) (k : InboundKind) :
    Except ParseError (Option InboundKind) :=
  match slot with
  | some prev =>
    if prev ≠ k then err 0 "protocol mixes <request> and <event_in>; pick exactly one"
    else .ok (some k)
  | none => .ok (some k)

/-- What the children of the root have come to so far. -/
structure Toplevel where
  requests : List Message
  events : List Message
  inboundKind : Option InboundKind

def parseTop (top : Toplevel) (child : Node) : Except ParseError Toplevel :=
  match child.name with
  | "request" => do
    let kind ← setInboundKind top.inboundKind .request
    let message ← parseMessage child
    return { top with requests := top.requests ++ [message], inboundKind := kind }
  | "event_in" => do
    let kind ← setInboundKind top.inboundKind .eventIn
    let message ← parseMessage child
    return { top with requests := top.requests ++ [message], inboundKind := kind }
  | "event" => do
    let message ← parseMessage child
    return { top with events := top.events ++ [message] }
  | other => err 0 s!"unknown top-level element <{other}>"

def parseProtocol (src : String) : Except ParseError Protocol := do
  let total := (src.toList.map Char.utf8Size).sum
  let rest ← skipProlog total src.toList
  let root := (← parseElement total rest).value
  if root.name ≠ "protocol" then err 0 s!"root must be <protocol>, got <{root.name}>"
  else
    let some name := root.attr "name" | err 0 "protocol missing name"
    let some version := root.attr "version" | err 0 "protocol missing version"
    let some version := parseUnsigned (2 ^ 32) version | err 0 "protocol version not u32"
    let top ← root.children.foldlM parseTop ⟨[], [], none⟩
    return {
      name, version := UInt32.ofNat version
      inboundKind := top.inboundKind.getD .request
      requests := top.requests
      events := top.events }

end Waywallen.Wayproto
