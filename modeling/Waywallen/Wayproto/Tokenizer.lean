import Mathlib.Order.Nat
import Waywallen.Library.Lossy
import Waywallen.Wayproto.Parser

/-!
# The tokenizer on bytes

The tree of elements is read from bytes that need not be text, by a cursor that looks several bytes
ahead. An access outside the source and a loop that goes on for longer than its fuel are outcomes of
their own here. With fuel for twice the source neither of them comes about.
-/

namespace Waywallen.Wayproto.Tokenizer

open Utf8

/-- How the parser ends without a result. -/
inductive Halt
  | error (e : ParseError)
  | outOfBounds
  | outOfFuel
deriving DecidableEq

/-- A computation that moves the cursor. -/
abbrev ParserM := StateT ℕ (Except Halt)

def byte (c : Char) : UInt8 := UInt8.ofNat c.toNat

def bytes (text : String) : List UInt8 := encode text.toList

def isWhitespaceByte (b : UInt8) : Bool :=
  b = byte ' ' || b = byte '\t' || b = byte '\n' || b = byte '\x0C' || b = byte '\r'

def isNameByte (b : UInt8) : Bool :=
  byte '0' ≤ b && b ≤ byte '9' || byte 'A' ≤ b && b ≤ byte 'Z' || byte 'a' ≤ b && b ≤ byte 'z' ||
    b = byte '_' || b = byte '-' || b = byte ':'

def fail {α : Type} (msg : String) : ParserM α := fun pos => .error (.error ⟨pos, msg⟩)

def position : ParserM ℕ := fun pos => .ok (pos, pos)

def advance (n : ℕ) : ParserM Unit := fun pos => .ok ((), pos + n)

section

variable (src : List UInt8)

def eof : ParserM Bool := fun pos => .ok (src.length ≤ pos, pos)

def peek : ParserM UInt8 := fun pos =>
  match src[pos]? with
  | some b => .ok (b, pos)
  | none => .error .outOfBounds

def startsWith (needle : List UInt8) : ParserM Bool := fun pos =>
  if pos ≤ src.length then .ok (needle.isPrefixOf (src.drop pos), pos) else .error .outOfBounds

def slice (start stop : ℕ) : ParserM (List UInt8) := fun pos =>
  if start ≤ stop ∧ stop ≤ src.length then .ok ((src.take stop).drop start, pos)
  else .error .outOfBounds

/-- Whether the byte `b` comes next. -/
def atByte (b : UInt8) : ParserM Bool := do
  if ← eof src then return false
  else return (← peek src) = b

/-- The cursor goes on while the source does and `cond` holds. -/
def advanceWhile (cond : ParserM Bool) : ℕ → ParserM Unit
  | 0 => throw .outOfFuel
  | fuel + 1 => do
    if ← eof src then return ()
    else if ← cond then
      advance 1
      advanceWhile cond fuel
    else return ()

def skipWhitespace (fuel : ℕ) : ParserM Unit :=
  advanceWhile src (isWhitespaceByte <$> peek src) fuel

def skipCommentsAndWs : ℕ → ParserM Unit
  | 0 => throw .outOfFuel
  | fuel + 1 => do
    skipWhitespace src fuel
    if ← eof src then return ()
    else if ← startsWith src (bytes "<!--") then
      advance 4
      advanceWhile src (not <$> startsWith src (bytes "-->")) fuel
      if ← eof src then fail "unterminated comment"
      else
        advance 3
        skipCommentsAndWs fuel
    else return ()

def skipProlog (fuel : ℕ) : ParserM Unit := do
  skipCommentsAndWs src fuel
  if ← startsWith src (bytes "<?xml") then
    advanceWhile src (not <$> startsWith src (bytes "?>")) fuel
    if ← eof src then fail "unterminated xml decl"
    else
      advance 2
      skipCommentsAndWs src fuel
  else skipCommentsAndWs src fuel

def parseName (fuel : ℕ) : ParserM String := do
  let start ← position
  advanceWhile src (isNameByte <$> peek src) fuel
  let stop ← position
  if start = stop then fail "expected name"
  else return String.ofList (fromUtf8Lossy (← slice src start stop))

def parseAttrValue (fuel : ℕ) : ParserM String := do
  if ← eof src then fail "expected attribute value"
  else
    let quote ← peek src
    if quote ≠ byte '"' ∧ quote ≠ byte '\'' then fail "expected quote"
    else
      advance 1
      let start ← position
      advanceWhile src ((fun b => b ≠ quote) <$> peek src) fuel
      if ← eof src then fail "unterminated attribute"
      else
        let value ← slice src start (← position)
        advance 1
        return String.ofList (fromUtf8Lossy value)

/-- The attributes of a tag, and whether the tag closes itself. -/
def parseAttrs : ℕ → List (String × String) → ParserM (List (String × String) × Bool)
  | 0, _ => throw .outOfFuel
  | fuel + 1, attrs => do
    skipWhitespace src fuel
    if ← eof src then fail "unterminated tag"
    else
      let b ← peek src
      if b = byte '/' then
        advance 1
        if ← atByte src (byte '>') then
          advance 1
          return (attrs, true)
        else fail "expected '>' after '/'"
      else if b = byte '>' then
        advance 1
        return (attrs, false)
      else
        let key ← parseName src fuel
        skipWhitespace src fuel
        if ← atByte src (byte '=') then
          advance 1
          skipWhitespace src fuel
          let value ← parseAttrValue src fuel
          parseAttrs fuel (attrs ++ [(key, value)])
        else fail "expected '='"

mutual

def parseElement : ℕ → ParserM Node
  | 0 => throw .outOfFuel
  | fuel + 1 => do
    skipCommentsAndWs src fuel
    if ← atByte src (byte '<') then
      advance 1
      let name ← parseName src fuel
      let (attrs, closed) ← parseAttrs src fuel []
      if closed then return .mk name attrs []
      else parseChildren fuel name attrs []
    else fail "expected element"

def parseChildren : ℕ → String → List (String × String) → List Node → ParserM Node
  | 0, _, _, _ => throw .outOfFuel
  | fuel + 1, name, attrs, children => do
    skipCommentsAndWs src fuel
    if ← startsWith src (bytes "</") then
      advance 2
      let close ← parseName src fuel
      if close ≠ name then fail s!"mismatched close </{close}> vs <{name}>"
      else
        skipWhitespace src fuel
        if ← atByte src (byte '>') then
          advance 1
          return .mk name attrs children
        else fail "expected '>' on close tag"
    else
      let child ← parseElement fuel
      parseChildren fuel name attrs (children ++ [child])

end

/-- The root of the tree, read from the beginning of the source. -/
def parseRoot (fuel : ℕ) : Except Halt Node :=
  (do skipProlog src fuel; parseElement src fuel : ParserM Node).run' 0

end

/-! ## Runs that end -/

section

variable {α β : Type} {m : ParserM α} {f : α → ParserM β} {pos p : ℕ} {a : α}
  {Q : α → ℕ → Prop} {Q' : β → ℕ → Prop}

/-- From the position `pos`, the computation ends with `Q` or with an error of the parser. -/
def Runs (m : ParserM α) (pos : ℕ) (Q : α → ℕ → Prop) : Prop :=
  match m pos with
  | .ok (a, p) => Q a p
  | .error (.error _) => True
  | .error _ => False

theorem bind_of_ok (h : m pos = .ok (a, p)) (f : α → ParserM β) : (m >>= f) pos = f a p := by
  change Except.bind (m pos) (fun x => f x.1 x.2) = _
  rw [h]
  rfl

theorem Runs.of_ok (h : m pos = .ok (a, p)) (hq : Q a p) : Runs m pos Q := by
  rw [Runs, h]
  exact hq

theorem Runs.bind (h : Runs m pos Q) (hf : ∀ a p, Q a p → Runs (f a) p Q') :
    Runs (m >>= f) pos Q' := by
  unfold Runs at h
  cases hm : m pos with
  | ok r =>
    obtain ⟨a, p⟩ := r
    rw [hm] at h
    rw [Runs, bind_of_ok hm]
    exact hf a p h
  | error e =>
    rw [hm] at h
    have herror : (m >>= f) pos = .error e := by
      change Except.bind (m pos) (fun x => f x.1 x.2) = _
      rw [hm]
      rfl
    rw [Runs, herror]
    cases e with
    | error e => trivial
    | outOfBounds => exact h
    | outOfFuel => exact h

/-- After a computation that ends in one way. -/
theorem Runs.bind_ok (h : m pos = .ok (a, p)) (hf : Runs (f a) p Q') : Runs (m >>= f) pos Q' := by
  rw [Runs, bind_of_ok h]
  exact hf

theorem Runs.mono {Q' : α → ℕ → Prop} (h : Runs m pos Q) (hQ : ∀ a p, Q a p → Q' a p) :
    Runs m pos Q' := by
  unfold Runs at h ⊢
  cases hm : m pos with
  | ok r =>
    rw [hm] at h
    exact hQ _ _ h
  | error e =>
    rw [hm] at h
    cases e with
    | error e => trivial
    | outOfBounds => exact h
    | outOfFuel => exact h

theorem Runs.pure (h : Q a pos) : Runs (Pure.pure a) pos Q :=
  h

theorem runs_fail (msg : String) : Runs (fail msg) pos Q :=
  trivial

end

section

variable {src : List UInt8} {pos fuel : ℕ} {b : UInt8}

theorem eof_of_lt (h : pos < src.length) : eof src pos = .ok (false, pos) := by
  rw [eof, decide_eq_false (not_le.2 h)]

theorem eof_of_le (h : src.length ≤ pos) : eof src pos = .ok (true, pos) := by
  rw [eof, decide_eq_true h]

theorem peek_of_some (h : src[pos]? = some b) : peek src pos = .ok (b, pos) := by
  rw [peek, h]

theorem exists_peek (h : pos < src.length) : ∃ b, src[pos]? = some b ∧ peek src pos = .ok (b, pos) :=
  ⟨_, List.getElem?_eq_getElem h, peek_of_some (List.getElem?_eq_getElem h)⟩

theorem startsWith_of_le (h : pos ≤ src.length) (needle : List UInt8) :
    startsWith src needle pos = .ok (needle.isPrefixOf (src.drop pos), pos) := by
  rw [startsWith, if_pos h]

/-- Whether the next byte is `b`; it is there then. -/
theorem exists_atByte (src : List UInt8) (pos : ℕ) (b : UInt8) :
    ∃ c, atByte src b pos = .ok (c, pos) ∧ (c = true ↔ src[pos]? = some b) := by
  by_cases h : pos < src.length
  · obtain ⟨b', hb', hpeek⟩ := exists_peek h
    refine ⟨decide (b' = b), ?_, by rw [hb', decide_eq_true_iff, Option.some_inj]⟩
    rw [atByte, bind_of_ok (eof_of_lt h), if_neg Bool.false_ne_true, bind_of_ok hpeek]
    rfl
  · refine ⟨false, ?_, by rw [List.getElem?_eq_none (not_lt.1 h)]; exact iff_of_false nofun nofun⟩
    rw [atByte, bind_of_ok (eof_of_le (not_lt.1 h)), if_pos rfl]
    rfl

/-- A loop that goes on while `c` holds of the position stops at the first one where it does not. -/
theorem exists_advanceWhile {cond : ParserM Bool} {c : ℕ → Bool}
    (hcond : ∀ p < src.length, cond p = .ok (c p, p)) (hpos : pos ≤ src.length)
    (hfuel : src.length - pos < fuel) :
    ∃ p, advanceWhile src cond fuel pos = .ok ((), p) ∧ pos ≤ p ∧ p ≤ src.length ∧
      (∀ q, pos ≤ q → q < p → c q = true) ∧ (p < src.length → c p = false) := by
  induction fuel generalizing pos with
  | zero => exact absurd hfuel (Nat.not_lt_zero _)
  | succ fuel ih =>
    rw [advanceWhile]
    by_cases hend : pos < src.length
    · rw [bind_of_ok (eof_of_lt hend), if_neg Bool.false_ne_true, bind_of_ok (hcond pos hend)]
      cases hc : c pos with
      | true =>
        have hnext : pos + 1 ≤ src.length := hend
        obtain ⟨p, hrun, hle, hp, hall, hstop⟩ := ih hnext (by omega)
        refine ⟨p, ?_, (Nat.le_succ pos).trans hle, hp, fun q hq hqp => ?_, hstop⟩
        · rw [if_pos rfl]
          exact (bind_of_ok (show advance 1 pos = .ok ((), pos + 1) from rfl) _).trans hrun
        · obtain rfl | hlt := hq.eq_or_lt
          · exact hc
          · exact hall q hlt hqp
      | false =>
        exact ⟨pos, by rw [if_neg Bool.false_ne_true]; rfl, le_rfl, hpos,
          fun q hq hqp => absurd hqp (not_lt.2 hq), fun _ => hc⟩
    · exact ⟨pos, by rw [bind_of_ok (eof_of_le (not_lt.1 hend)), if_pos rfl]; rfl, le_rfl, hpos,
        fun q hq hqp => absurd hqp (not_lt.2 hq), fun h => absurd h hend⟩

/-- Whether the byte at a position is of a kind. -/
def byteAt (src : List UInt8) (kind : UInt8 → Bool) (p : ℕ) : Bool :=
  src[p]?.any kind

theorem map_peek (kind : UInt8 → Bool) (p : ℕ) (hp : p < src.length) :
    (kind <$> peek src) p = .ok (byteAt src kind p, p) := by
  obtain ⟨b, hb, hpeek⟩ := exists_peek hp
  change Except.map (fun x => (kind x.1, x.2)) (peek src p) = _
  rw [hpeek, byteAt, hb]
  rfl

theorem map_startsWith (needle : List UInt8) (p : ℕ) (hp : p < src.length) :
    (not <$> startsWith src needle) p = .ok (!needle.isPrefixOf (src.drop p), p) := by
  change Except.map (fun x => (!x.1, x.2)) (startsWith src needle p) = _
  rw [startsWith_of_le hp.le]
  rfl

theorem add_length_le {needle : List UInt8} (hpos : pos ≤ src.length)
    (h : needle.isPrefixOf (src.drop pos) = true) : pos + needle.length ≤ src.length := by
  have hle := (List.isPrefixOf_iff_prefix.1 h).length_le
  rw [List.length_drop] at hle
  omega

/-! ## What the parser returns -/

def IsName (name : String) : Prop :=
  bytes name ≠ [] ∧ ∀ b ∈ bytes name, isNameByte b = true

/-- One of the two quotes is not in the value. -/
def Quotable (value : String) : Prop :=
  byte '"' ∉ bytes value ∨ byte '\'' ∉ bytes value

def GoodAttrs (attrs : List (String × String)) : Prop :=
  ∀ kv ∈ attrs, IsName kv.1 ∧ Quotable kv.2

inductive Printable : Node → Prop
  | mk {name : String} {attrs : List (String × String)} {children : List Node}
    (name_isName : IsName name) (attrs_good : GoodAttrs attrs)
    (children_printable : ∀ child ∈ children, Printable child) :
    Printable (.mk name attrs children)

theorem isNameByte_ascii (h : isNameByte b = true) : b < 0x80 := by
  simp only [isNameByte, Bool.or_eq_true, Bool.and_eq_true, decide_eq_true_eq] at h
  rcases h with ((((⟨-, h⟩ | ⟨-, h⟩) | ⟨-, h⟩) | rfl) | rfl) | rfl
  · exact UInt8.lt_of_le_of_lt h (by decide)
  · exact UInt8.lt_of_le_of_lt h (by decide)
  · exact UInt8.lt_of_le_of_lt h (by decide)
  all_goals decide

/-- The bytes between two positions, when a kind of byte is at each of them. -/
theorem forall_slice {kind : UInt8 → Bool} {p : ℕ} (hp : p ≤ src.length)
    (h : ∀ q, pos ≤ q → q < p → byteAt src kind q = true) :
    ∀ b ∈ (src.take p).drop pos, kind b = true := by
  intro b hb
  obtain ⟨k, hk, rfl⟩ := List.mem_iff_getElem.1 hb
  rw [List.length_drop, List.length_take, min_eq_left hp] at hk
  have hat := h (pos + k) (Nat.le_add_right _ _) (by omega)
  rw [byteAt, List.getElem?_eq_getElem (by omega)] at hat
  rw [List.getElem_drop, List.getElem_take]
  exact hat

theorem slice_of_le {p : ℕ} (hle : pos ≤ p) (hp : p ≤ src.length) (q : ℕ) :
    slice src pos p q = .ok ((src.take p).drop pos, q) := by
  rw [slice, if_pos ⟨hle, hp⟩]

/-- The cursor stays in the source and does not go back. -/
def Onward (src : List UInt8) (pos p : ℕ) : Prop :=
  pos ≤ p ∧ p ≤ src.length

theorem runs_skipWhitespace (hpos : pos ≤ src.length) (hfuel : src.length - pos < fuel) :
    Runs (skipWhitespace src fuel) pos fun _ p => Onward src pos p := by
  obtain ⟨p, hrun, hle, hp, -⟩ := exists_advanceWhile (map_peek isWhitespaceByte) hpos hfuel
  exact .of_ok hrun ⟨hle, hp⟩

theorem runs_skipCommentsAndWs (hpos : pos ≤ src.length)
    (hfuel : 2 * (src.length - pos) + 1 < fuel) :
    Runs (skipCommentsAndWs src fuel) pos fun _ p => Onward src pos p := by
  induction fuel generalizing pos with
  | zero => exact absurd hfuel (Nat.not_lt_zero _)
  | succ fuel ih =>
    rw [skipCommentsAndWs]
    refine (runs_skipWhitespace hpos (by omega)).bind fun _ p hp => ?_
    by_cases hend : p < src.length
    case neg => exact .bind_ok (eof_of_le (not_lt.1 hend)) (.pure hp)
    refine .bind_ok (eof_of_lt hend) ?_
    rw [if_neg Bool.false_ne_true]
    refine .bind_ok (startsWith_of_le hend.le _) ?_
    split
    case isFalse => exact .pure hp
    rename_i hcomment
    have hpq : pos ≤ p := hp.1
    have hopen : p + 4 ≤ src.length := add_length_le hend.le hcomment
    refine .bind_ok (show advance 4 p = .ok ((), p + 4) from rfl) ?_
    obtain ⟨q, hrun, hle, hq, -, hstop⟩ :=
      exists_advanceWhile (map_startsWith (bytes "-->")) hopen (show _ < fuel by omega)
    refine .bind_ok hrun ?_
    by_cases hclose : q < src.length
    case neg => exact .bind_ok (eof_of_le (not_lt.1 hclose)) (runs_fail _)
    refine .bind_ok (eof_of_lt hclose) ?_
    rw [if_neg Bool.false_ne_true]
    have hdashes : (bytes "-->").isPrefixOf (src.drop q) = true := by simpa using hstop hclose
    have hthree : q + 3 ≤ src.length := add_length_le hclose.le hdashes
    refine .bind_ok (show advance 3 q = .ok ((), q + 3) from rfl) ?_
    exact (ih hthree (by omega)).mono fun _ r hr => ⟨by have := hr.1; omega, hr.2⟩

theorem runs_skipProlog (hfuel : 2 * src.length + 1 < fuel) :
    Runs (skipProlog src fuel) 0 fun _ p => p ≤ src.length := by
  rw [skipProlog]
  refine (runs_skipCommentsAndWs (Nat.zero_le _) (by omega)).bind fun _ p hp => ?_
  refine .bind_ok (startsWith_of_le hp.2 _) ?_
  split
  case isFalse => exact (runs_skipCommentsAndWs hp.2 (by omega)).mono fun _ _ hq => hq.2
  obtain ⟨q, hrun, hle, hq, -, hstop⟩ :=
    exists_advanceWhile (map_startsWith (bytes "?>")) hp.2 (show _ < fuel by omega)
  refine .bind_ok hrun ?_
  by_cases hclose : q < src.length
  case neg => exact .bind_ok (eof_of_le (not_lt.1 hclose)) (runs_fail _)
  refine .bind_ok (eof_of_lt hclose) ?_
  rw [if_neg Bool.false_ne_true]
  have hmark : (bytes "?>").isPrefixOf (src.drop q) = true := by simpa using hstop hclose
  have htwo : q + 2 ≤ src.length := add_length_le hclose.le hmark
  refine .bind_ok (show advance 2 q = .ok ((), q + 2) from rfl) ?_
  exact (runs_skipCommentsAndWs htwo (by omega)).mono fun _ _ hr => hr.2

theorem runs_parseName (hpos : pos ≤ src.length) (hfuel : src.length - pos < fuel) :
    Runs (parseName src fuel) pos fun name p => (pos < p ∧ p ≤ src.length) ∧ IsName name := by
  obtain ⟨p, hrun, hle, hp, hall, -⟩ := exists_advanceWhile (map_peek isNameByte) hpos hfuel
  rw [parseName]
  refine .bind_ok (show position pos = .ok (pos, pos) from rfl) ?_
  refine .bind_ok hrun (.bind_ok (show position p = .ok (p, p) from rfl) ?_)
  split
  · exact runs_fail _
  · rename_i hne
    have hlt : pos < p := hle.lt_of_ne hne
    have hname := forall_slice hp hall
    have hbytes : bytes (String.ofList (fromUtf8Lossy ((src.take p).drop pos))) =
        (src.take p).drop pos := by
      rw [bytes, String.toList_ofList,
        encode_fromUtf8Lossy_ascii fun b hb => isNameByte_ascii (hname b hb)]
    refine .bind_ok (slice_of_le hle hp p) (.pure ⟨⟨hlt, hp⟩, ?_, ?_⟩)
    · rw [hbytes]
      refine List.ne_nil_of_length_pos ?_
      rw [List.length_drop, List.length_take, min_eq_left hp]
      omega
    · rw [hbytes]
      exact hname

theorem runs_parseAttrValue (hfuel : src.length - pos < fuel) :
    Runs (parseAttrValue src fuel) pos fun value p =>
      (pos < p ∧ p ≤ src.length) ∧ Quotable value := by
  rw [parseAttrValue]
  by_cases hend : pos < src.length
  case neg => exact .bind_ok (eof_of_le (not_lt.1 hend)) (runs_fail _)
  refine .bind_ok (eof_of_lt hend) ?_
  rw [if_neg Bool.false_ne_true]
  obtain ⟨quote, -, hpeek⟩ := exists_peek hend
  refine .bind_ok hpeek ?_
  split
  · exact runs_fail _
  rename_i hquote
  refine .bind_ok (show advance 1 pos = .ok ((), pos + 1) from rfl) ?_
  refine .bind_ok (show position (pos + 1) = .ok (pos + 1, pos + 1) from rfl) ?_
  obtain ⟨p, hrun, hle, hp, hall, -⟩ := exists_advanceWhile
    (map_peek fun b => b ≠ quote) hend (show _ < fuel by omega)
  refine .bind_ok hrun ?_
  by_cases hclose : p < src.length
  case neg => exact .bind_ok (eof_of_le (not_lt.1 hclose)) (runs_fail _)
  refine .bind_ok (eof_of_lt hclose) ?_
  rw [if_neg Bool.false_ne_true]
  refine .bind_ok (show position p = .ok (p, p) from rfl) (.bind_ok (slice_of_le hle hp p) ?_)
  refine .bind_ok (show advance 1 p = .ok ((), p + 1) from rfl) (.pure ⟨⟨by omega, hclose⟩, ?_⟩)
  -- the quote itself is not among the bytes of the value
  have hnot (hascii : quote < 0x80) :
      quote ∉ bytes (String.ofList (fromUtf8Lossy ((src.take p).drop (pos + 1)))) := by
    rw [bytes, String.toList_ofList]
    exact notMem_of_ascii hascii fun hmem => by simpa using forall_slice hp hall quote hmem
  rcases not_and_or.1 hquote with hq | hq
  · obtain rfl := not_not.1 hq
    exact .inl (hnot (by decide))
  · obtain rfl := not_not.1 hq
    exact .inr (hnot (by decide))

theorem lt_length_of_getElem? (h : src[pos]? = some b) : pos < src.length :=
  (List.getElem?_eq_some_iff.1 h).1

theorem GoodAttrs.append {attrs : List (String × String)} {key value : String}
    (h : GoodAttrs attrs) (hkey : IsName key) (hvalue : Quotable value) :
    GoodAttrs (attrs ++ [(key, value)]) := by
  intro kv hkv
  rcases List.mem_append.1 hkv with hkv | hkv
  · exact h kv hkv
  · rw [List.mem_singleton.1 hkv]
    exact ⟨hkey, hvalue⟩

/-- After a check for a byte that is there, the cursor may pass it. -/
theorem runs_atByte {α : Type} {Q : α → ℕ → Prop} {yes no : ParserM α} (b : UInt8)
    (hyes : pos < src.length → Runs yes pos Q) (hno : Runs no pos Q) :
    Runs (do if ← atByte src b then yes else no) pos Q := by
  obtain ⟨c, hrun, hiff⟩ := exists_atByte src pos b
  refine .bind_ok hrun ?_
  split
  · rename_i hc
    exact hyes (lt_length_of_getElem? (hiff.1 hc))
  · exact hno

theorem runs_parseAttrs {attrs : List (String × String)} (hattrs : GoodAttrs attrs)
    (hpos : pos ≤ src.length) (hfuel : src.length - pos + 1 < fuel) :
    Runs (parseAttrs src fuel attrs) pos fun r p =>
      (pos < p ∧ p ≤ src.length) ∧ GoodAttrs r.1 := by
  induction fuel generalizing pos attrs with
  | zero => exact absurd hfuel (Nat.not_lt_zero _)
  | succ fuel ih =>
    rw [parseAttrs]
    refine (runs_skipWhitespace hpos (by omega)).bind fun _ p hp => ?_
    obtain ⟨hpp, hplen⟩ := hp
    by_cases hend : p < src.length
    case neg => exact .bind_ok (eof_of_le (not_lt.1 hend)) (runs_fail _)
    refine .bind_ok (eof_of_lt hend) ?_
    rw [if_neg Bool.false_ne_true]
    obtain ⟨b, -, hpeek⟩ := exists_peek hend
    refine .bind_ok hpeek ?_
    split
    · -- the tag closes itself
      refine .bind_ok (show advance 1 p = .ok ((), p + 1) from rfl) ?_
      refine runs_atByte _ (fun hlt => ?_) (runs_fail _)
      exact .bind_ok (show advance 1 (p + 1) = .ok ((), p + 2) from rfl)
        (.pure ⟨⟨by omega, hlt⟩, hattrs⟩)
    · split
      · exact .bind_ok (show advance 1 p = .ok ((), p + 1) from rfl)
          (.pure ⟨⟨by omega, hend⟩, hattrs⟩)
      · refine (runs_parseName hplen (by omega)).bind fun key q hq => ?_
        obtain ⟨⟨hpq, hqlen⟩, hkey⟩ := hq
        refine (runs_skipWhitespace hqlen (by omega)).bind fun _ r hr => ?_
        obtain ⟨hqr, hrlen⟩ := hr
        refine runs_atByte _ (fun hlt => ?_) (runs_fail _)
        refine .bind_ok (show advance 1 r = .ok ((), r + 1) from rfl) ?_
        refine (runs_skipWhitespace hlt (by omega)).bind fun _ t ht => ?_
        obtain ⟨hrt, htlen⟩ := ht
        refine (runs_parseAttrValue (by omega)).bind fun value u hu => ?_
        obtain ⟨⟨htu, hulen⟩, hvalue⟩ := hu
        exact (ih (hattrs.append hkey hvalue) hulen (by omega)).mono fun _ v hv =>
          ⟨⟨by have := hv.1.1; omega, hv.1.2⟩, hv.2⟩

/-- An element and the children of one, by induction on the fuel. -/
theorem runs_tree (fuel : ℕ) :
    (∀ pos ≤ src.length, 2 * (src.length - pos) + 3 ≤ fuel →
      Runs (parseElement src fuel) pos fun node p =>
        (pos < p ∧ p ≤ src.length) ∧ Printable node) ∧
    ∀ name attrs children, IsName name → GoodAttrs attrs → (∀ child ∈ children, Printable child) →
      ∀ pos ≤ src.length, 2 * (src.length - pos) + 4 ≤ fuel →
        Runs (parseChildren src fuel name attrs children) pos fun node p =>
          (pos < p ∧ p ≤ src.length) ∧ Printable node := by
  induction fuel with
  | zero => exact ⟨fun _ _ h => absurd h (by omega), fun _ _ _ _ _ _ _ _ h => absurd h (by omega)⟩
  | succ fuel ih =>
    obtain ⟨ihElement, ihChildren⟩ := ih
    refine ⟨fun pos hpos hfuel => ?_, fun name attrs children hname hattrs hchildren pos hpos
      hfuel => ?_⟩
    · rw [parseElement]
      refine (runs_skipCommentsAndWs hpos (by omega)).bind fun _ p hp => ?_
      obtain ⟨hpp, hplen⟩ := hp
      refine runs_atByte _ (fun hlt => ?_) (runs_fail _)
      refine .bind_ok (show advance 1 p = .ok ((), p + 1) from rfl) ?_
      refine (runs_parseName hlt (by omega)).bind fun name q hq => ?_
      obtain ⟨⟨hpq, hqlen⟩, hname⟩ := hq
      have hnone : GoodAttrs [] := fun _ h => absurd h List.not_mem_nil
      refine (runs_parseAttrs hnone hqlen (by omega)).bind fun r t ht => ?_
      obtain ⟨⟨hqt, htlen⟩, hattrs⟩ := ht
      obtain ⟨attrs, closed⟩ := r
      dsimp only
      split
      · exact .pure ⟨⟨by omega, htlen⟩, .mk hname hattrs fun _ h => absurd h List.not_mem_nil⟩
      · refine (ihChildren name attrs [] hname hattrs (fun _ h => absurd h List.not_mem_nil) t htlen
          (by omega)).mono fun _ u hu => ⟨⟨by have := hu.1.1; omega, hu.1.2⟩, hu.2⟩
    · rw [parseChildren]
      refine (runs_skipCommentsAndWs hpos (by omega)).bind fun _ p hp => ?_
      obtain ⟨hpp, hplen⟩ := hp
      refine .bind_ok (startsWith_of_le hplen _) ?_
      split
      · rename_i hclose
        have htwo : p + 2 ≤ src.length := add_length_le hplen hclose
        refine .bind_ok (show advance 2 p = .ok ((), p + 2) from rfl) ?_
        refine (runs_parseName htwo (by omega)).bind fun close q hq => ?_
        obtain ⟨⟨hpq, hqlen⟩, -⟩ := hq
        split
        · exact runs_fail _
        · refine (runs_skipWhitespace hqlen (by omega)).bind fun _ r hr => ?_
          obtain ⟨hqr, hrlen⟩ := hr
          refine runs_atByte _ (fun hlt => ?_) (runs_fail _)
          exact .bind_ok (show advance 1 r = .ok ((), r + 1) from rfl)
            (.pure ⟨⟨by omega, hlt⟩, .mk hname hattrs hchildren⟩)
      · refine (ihElement p hplen (by omega)).bind fun child q hq => ?_
        obtain ⟨⟨hpq, hqlen⟩, hchild⟩ := hq
        refine (ihChildren name attrs (children ++ [child]) hname hattrs (fun c hc => ?_) q hqlen
          (by omega)).mono fun _ u hu => ⟨⟨by have := hu.1.1; omega, hu.1.2⟩, hu.2⟩
        rcases List.mem_append.1 hc with hc | hc
        · exact hchildren c hc
        · rw [List.mem_singleton.1 hc]
          exact hchild

/-- With fuel for twice the source, the parser ends with a tree or with an error of its own. -/
theorem parseRoot_ends (hfuel : 2 * src.length + 3 ≤ fuel) :
    (∃ e, parseRoot src fuel = .error (.error e)) ∨
      ∃ node, parseRoot src fuel = .ok node ∧ Printable node := by
  have hrun : Runs (do skipProlog src fuel; parseElement src fuel) 0 fun node _ => Printable node :=
    (runs_skipProlog (by omega)).bind fun _ p hp =>
      ((runs_tree fuel).1 p hp (by omega)).mono fun _ _ h => h.2
  unfold Runs at hrun
  change (∃ e, Except.map Prod.fst _ = _) ∨ ∃ node, Except.map Prod.fst _ = _ ∧ _
  split at hrun
  · rename_i node p heq
    rw [heq]
    exact .inr ⟨node, rfl, hrun⟩
  · rename_i e heq
    rw [heq]
    exact .inl ⟨e, rfl⟩
  · exact hrun.elim

end

end Waywallen.Wayproto.Tokenizer
