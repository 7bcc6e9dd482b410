import Waywallen.Library.LittleEndian
import Waywallen.Library.Reader
import Waywallen.Wayproto.Values

/-!
# The wire format

What the bytes of a message body mean, in the words of the schemas: numbers are little-endian, a
string is its length with the final zero, its bytes, the zero and padding to a multiple of four,
arrays and key-value lists are a count and their elements.
-/

namespace Waywallen.Wayproto

/-- The bytes behind `n` bytes up to a multiple of four. -/
def padding (n : ℕ) : ℕ := (4 - n % 4) % 4

namespace Format

def string (s : List UInt8) : List UInt8 :=
  leBytes 4 (s.length + 1) ++ (s ++ 0 :: List.replicate (padding (s.length + 1)) 0)

def scalar : Scalar (List UInt8) → List UInt8
  | .u32 v => leBytes 4 v.toNat
  | .i32 v => leBytes 4 v.toUInt32.toNat
  | .u64 v => leBytes 8 v.toNat
  | .i64 v => leBytes 8 v.toUInt64.toNat
  | .f32 bits => leBytes 4 bits.toNat
  | .f64 bits => leBytes 8 bits.toNat
  | .string s => string s

def pair (kv : List UInt8 × List UInt8) : List UInt8 := string kv.1 ++ string kv.2

def value : Value (List UInt8) → List UInt8
  | .one x => scalar x
  | .rect x y w h =>
    leBytes 4 x.toNat ++ (leBytes 4 y.toNat ++ (leBytes 4 w.toNat ++ leBytes 4 h.toNat))
  | .kvList xs => leBytes 4 xs.length ++ xs.flatMap pair
  | .array xs => leBytes 4 xs.length ++ xs.flatMap scalar

def body (values : List (Value (List UInt8))) : List UInt8 := values.flatMap value

end Format

/-! ## Finding values -/

namespace Scan

def u32 : Scanner UInt32 := do
  let bytes ← Scanner.take 4
  return UInt32.ofNat (ofLe bytes)

def i32 : Scanner Int32 := do
  let bytes ← Scanner.take 4
  return (UInt32.ofNat (ofLe bytes)).toInt32

def u64 : Scanner UInt64 := do
  let bytes ← Scanner.take 8
  return UInt64.ofNat (ofLe bytes)

def i64 : Scanner Int64 := do
  let bytes ← Scanner.take 8
  return (UInt64.ofNat (ofLe bytes)).toInt64

/-- The bytes of a string of the given length and the padding. -/
def chars (len : ℕ) : Scanner (List UInt8) := fun s =>
  if 0 < len ∧ len + padding len ≤ s.length ∧ s[len - 1]? = some 0 then
    some (s.take (len - 1), s.drop (len + padding len))
  else none

def string : Scanner (List UInt8) := do
  let len ← u32
  chars len.toNat

def scalar : Elem → Scanner (Scalar (List UInt8))
  | .u32 => do return .u32 (← u32)
  | .i32 => do return .i32 (← i32)
  | .u64 => do return .u64 (← u64)
  | .i64 => do return .i64 (← i64)
  | .f32 => do return .f32 (← u32)
  | .f64 => do return .f64 (← u64)
  | .string => do return .string (← string)

def pair : Scanner (List UInt8 × List UInt8) := do
  let k ← string
  let v ← string
  return (k, v)

def rect : Scanner (Value (List UInt8)) := do
  let x ← u32
  let y ← u32
  let w ← u32
  let h ← u32
  return .rect x y w h

def value : Helper → Scanner (Value (List UInt8))
  | .one e => do return .one (← scalar e)
  | .rect => rect
  | .kvList => do
    let n ← u32
    let xs ← Scanner.times n.toNat pair
    return .kvList xs
  | .array e => do
    let n ← u32
    let xs ← Scanner.times n.toNat (scalar e)
    return .array xs

def body : List Helper → Scanner (List (Value (List UInt8)))
  | [] => pure []
  | h :: helpers => do
    let v ← value h
    let vs ← body helpers
    return v :: vs

end Scan

/-! ## How much a value takes -/

theorem consumes_u32 : Scan.u32.Consumes 4 :=
  (Scanner.consumes_take 4).bind fun _ => Scanner.consumes_pure _

theorem consumes_i32 : Scan.i32.Consumes 4 :=
  (Scanner.consumes_take 4).bind fun _ => Scanner.consumes_pure _

theorem consumes_u64 : Scan.u64.Consumes 8 :=
  (Scanner.consumes_take 8).bind fun _ => Scanner.consumes_pure _

theorem consumes_i64 : Scan.i64.Consumes 8 :=
  (Scanner.consumes_take 8).bind fun _ => Scanner.consumes_pure _

theorem consumes_chars (len : ℕ) : (Scan.chars len).Consumes 4 := by
  intro s text s' h
  unfold Scan.chars at h
  split_ifs at h with hthere
  obtain ⟨-, rfl⟩ := Prod.mk.inj (Option.some.inj h)
  obtain ⟨hpos, hle, -⟩ := hthere
  rw [List.length_drop]
  unfold padding at *
  omega

theorem consumes_string : Scan.string.Consumes 8 :=
  consumes_u32.bind fun _ => consumes_chars _

theorem consumes_pair : Scan.pair.Consumes 16 :=
  consumes_string.bind fun _ => consumes_string.bind fun _ => Scanner.consumes_pure _

/-! ## What is written is found -/

section

variable {α : Type} {bytes rest : List UInt8}

theorem Scanner.take_append {width n : ℕ} (rest : List UInt8) :
    Scanner.take width (leBytes width n ++ rest) = some (leBytes width n, rest) := by
  have hlength : width ≤ (leBytes width n ++ rest).length := by simp
  rw [Scanner.take, if_pos hlength, List.take_left' (length_leBytes width n),
    List.drop_left' (length_leBytes width n)]

theorem Scan.u32_append (v : UInt32) (rest : List UInt8) :
    Scan.u32 (leBytes 4 v.toNat ++ rest) = some (v, rest) := by
  rw [Scan.u32, Scanner.bind_of (Scanner.take_append rest), ofLe_leBytes v.toNat_lt,
    UInt32.ofNat_toNat]
  rfl

theorem Scan.u64_append (v : UInt64) (rest : List UInt8) :
    Scan.u64 (leBytes 8 v.toNat ++ rest) = some (v, rest) := by
  rw [Scan.u64, Scanner.bind_of (Scanner.take_append rest), ofLe_leBytes v.toNat_lt,
    UInt64.ofNat_toNat]
  rfl

theorem Scan.i32_append (v : Int32) (rest : List UInt8) :
    Scan.i32 (leBytes 4 v.toUInt32.toNat ++ rest) = some (v, rest) := by
  rw [Scan.i32, Scanner.bind_of (Scanner.take_append rest), ofLe_leBytes v.toUInt32.toNat_lt,
    UInt32.ofNat_toNat, Int32.toInt32_toUInt32]
  rfl

theorem Scan.i64_append (v : Int64) (rest : List UInt8) :
    Scan.i64 (leBytes 8 v.toUInt64.toNat ++ rest) = some (v, rest) := by
  rw [Scan.i64, Scanner.bind_of (Scanner.take_append rest), ofLe_leBytes v.toUInt64.toNat_lt,
    UInt64.ofNat_toNat, Int64.toInt64_toUInt64]
  rfl

/-- A length or a count. -/
theorem Scan.count_append {n : ℕ} (h : n < 2 ^ 32) (rest : List UInt8) :
    Scan.u32 (leBytes 4 n ++ rest) = some (UInt32.ofNat n, rest) := by
  have hn := Scan.u32_append (UInt32.ofNat n) rest
  rwa [UInt32.toNat_ofNat_of_lt' h] at hn

theorem length_format_string (s : List UInt8) :
    (Format.string s).length = 4 + (s.length + 1 + padding (s.length + 1)) := by
  simp [Format.string]
  omega

theorem Scan.string_append {s : List UInt8} (h : (Format.string s).length < 2 ^ 32)
    (rest : List UInt8) : Scan.string (Format.string s ++ rest) = some (s, rest) := by
  rw [length_format_string] at h
  have hlt : s.length + 1 < 2 ^ 32 := by omega
  have hbody : (s ++ 0 :: List.replicate (padding (s.length + 1)) 0).length =
      s.length + 1 + padding (s.length + 1) := by
    simp
    omega
  have hzero : (s ++ 0 :: List.replicate (padding (s.length + 1)) 0 ++ rest)[s.length + 1 - 1]? =
      some 0 := by
    simp
  have hthere : s.length + 1 + padding (s.length + 1) ≤
      (s ++ 0 :: List.replicate (padding (s.length + 1)) 0 ++ rest).length := by
    rw [List.length_append, hbody]
    omega
  rw [Scan.string, Format.string, List.append_assoc, Scanner.bind_of (Scan.count_append hlt _),
    UInt32.toNat_ofNat_of_lt' hlt, Scan.chars, if_pos ⟨Nat.succ_pos _, hthere, hzero⟩,
    List.drop_left' hbody, Nat.add_sub_cancel, List.append_assoc, List.take_left]

theorem Scan.times_append (q : Scanner α) (write : α → List UInt8) {xs : List α}
    (h : ∀ x ∈ xs, ∀ rest, q (write x ++ rest) = some (x, rest)) (rest : List UInt8) :
    Scanner.times xs.length q (xs.flatMap write ++ rest) = some (xs, rest) := by
  induction xs with
  | nil => rfl
  | cons x xs ih =>
    have hx := h x List.mem_cons_self (xs.flatMap write ++ rest)
    have hxs := ih fun y hy => h y (List.mem_cons_of_mem _ hy)
    rw [List.flatMap_cons, List.append_assoc, List.length_cons, Scanner.times,
      Scanner.bind_of hx, Scanner.bind_of hxs]
    rfl

theorem Scan.scalar_append {x : Scalar (List UInt8)} (h : (Format.scalar x).length < 2 ^ 32)
    (rest : List UInt8) : Scan.scalar x.elem (Format.scalar x ++ rest) = some (x, rest) := by
  cases x with
  | u32 v => exact Scanner.bind_of (Scan.u32_append v rest) _
  | i32 v => exact Scanner.bind_of (Scan.i32_append v rest) _
  | u64 v => exact Scanner.bind_of (Scan.u64_append v rest) _
  | i64 v => exact Scanner.bind_of (Scan.i64_append v rest) _
  | f32 bits => exact Scanner.bind_of (Scan.u32_append bits rest) _
  | f64 bits => exact Scanner.bind_of (Scan.u64_append bits rest) _
  | string s => exact Scanner.bind_of (Scan.string_append h rest) _

theorem length_le_flatMap (write : α → List UInt8) (hwrite : ∀ x, 0 < (write x).length)
    (xs : List α) : xs.length ≤ (xs.flatMap write).length := by
  induction xs with
  | nil => exact Nat.le_refl _
  | cons x xs ih =>
    have := hwrite x
    rw [List.flatMap_cons, List.length_append, List.length_cons]
    omega

theorem length_mem_flatMap (write : α → List UInt8) {xs : List α} {x : α} (hx : x ∈ xs) :
    (write x).length ≤ (xs.flatMap write).length := by
  obtain ⟨before, after, rfl⟩ := List.append_of_mem hx
  simp
  omega

theorem Format.string_pos (s : List UInt8) : 0 < (Format.string s).length := by
  rw [length_format_string]
  omega

theorem Format.pair_pos (kv : List UInt8 × List UInt8) : 0 < (Format.pair kv).length := by
  rw [Format.pair, List.length_append]
  exact Nat.lt_of_lt_of_le (Format.string_pos kv.1) (Nat.le_add_right _ _)

theorem Format.scalar_pos (x : Scalar (List UInt8)) : 0 < (Format.scalar x).length := by
  cases x with
  | string s => exact Format.string_pos s
  | _ => simp [Format.scalar]

theorem Scan.pair_append {kv : List UInt8 × List UInt8} (h : (Format.pair kv).length < 2 ^ 32)
    (rest : List UInt8) : Scan.pair (Format.pair kv ++ rest) = some (kv, rest) := by
  rw [Format.pair, List.length_append] at h
  rw [Format.pair, List.append_assoc, Scan.pair,
    Scanner.bind_of (Scan.string_append (by omega) _),
    Scanner.bind_of (Scan.string_append (by omega) _)]
  rfl

theorem Scan.value_append {v : Value (List UInt8)} {h : Helper} (hfits : v.fits h)
    (hlength : (Format.value v).length < 2 ^ 32) (rest : List UInt8) :
    Scan.value h (Format.value v ++ rest) = some (v, rest) := by
  cases v with
  | one x =>
    cases h <;> simp only [Value.fits, decide_eq_true_eq, Bool.false_eq_true] at hfits
    subst hfits
    exact Scanner.bind_of (Scan.scalar_append hlength rest) _
  | rect x y w d =>
    cases h <;> simp only [Value.fits, Bool.false_eq_true] at hfits
    simp only [Format.value, List.append_assoc]
    rw [Scan.value, Scan.rect, Scanner.bind_of (Scan.u32_append x _),
      Scanner.bind_of (Scan.u32_append y _), Scanner.bind_of (Scan.u32_append w _),
      Scanner.bind_of (Scan.u32_append d _)]
    rfl
  | kvList xs =>
    cases h <;> simp only [Value.fits, Bool.false_eq_true] at hfits
    rw [Format.value, List.length_append, length_leBytes] at hlength
    have hcount : xs.length < 2 ^ 32 :=
      Nat.lt_of_le_of_lt (length_le_flatMap Format.pair Format.pair_pos xs) (by omega)
    have hpairs : ∀ kv ∈ xs, ∀ more, Scan.pair (Format.pair kv ++ more) = some (kv, more) := by
      intro kv hkv more
      have hle := length_mem_flatMap Format.pair hkv
      exact Scan.pair_append (by omega) more
    rw [Format.value, List.append_assoc, Scan.value, Scanner.bind_of (Scan.count_append hcount _),
      UInt32.toNat_ofNat_of_lt' hcount, Scanner.bind_of (Scan.times_append _ _ hpairs rest)]
    rfl
  | array xs =>
    cases h <;> simp only [Value.fits, List.all_eq_true, decide_eq_true_eq, Bool.false_eq_true]
      at hfits
    next e =>
      rw [Format.value, List.length_append, length_leBytes] at hlength
      have hcount : xs.length < 2 ^ 32 :=
        Nat.lt_of_le_of_lt (length_le_flatMap Format.scalar Format.scalar_pos xs) (by omega)
      have helems : ∀ x ∈ xs, ∀ more, Scan.scalar e (Format.scalar x ++ more) = some (x, more) := by
        intro x hx more
        have hle := length_mem_flatMap Format.scalar hx
        rw [← hfits x hx]
        exact Scan.scalar_append (by omega) more
      rw [Format.value, List.append_assoc, Scan.value,
        Scanner.bind_of (Scan.count_append hcount _), UInt32.toNat_ofNat_of_lt' hcount,
        Scanner.bind_of (Scan.times_append _ _ helems rest)]
      rfl

/-- A body is read back as what was written. -/
theorem Scan.body_append {values : List (Value (List UInt8))} {helpers : List Helper}
    (hfits : Fits values helpers) (hlength : (Format.body values).length < 2 ^ 32)
    (rest : List UInt8) :
    Scan.body helpers (Format.body values ++ rest) = some (values, rest) := by
  induction hfits with
  | nil => rfl
  | @cons v h values helpers hv _ ih =>
    have hbody : Format.body (v :: values) = Format.value v ++ Format.body values := rfl
    rw [hbody, List.length_append] at hlength
    rw [hbody, List.append_assoc, Scan.body,
      Scanner.bind_of (Scan.value_append hv (by omega) (Format.body values ++ rest)),
      Scanner.bind_of (ih (by omega))]
    rfl

end

theorem leBytes_mod_u32 (n : ℕ) : leBytes 4 (n % 2 ^ 32) = leBytes 4 n := leBytes_mod 4 n

/-! ## Alignment -/

/-- Every field of a body starts at a multiple of four. -/
def Aligned (bytes : List UInt8) : Prop := bytes.length % 4 = 0

theorem Aligned.append {a b : List UInt8} (ha : Aligned a) (hb : Aligned b) : Aligned (a ++ b) := by
  unfold Aligned at *
  rw [List.length_append]
  omega

theorem aligned_leBytes {width n : ℕ} (h : width % 4 = 0) : Aligned (leBytes width n) := by
  rw [Aligned, length_leBytes, h]

theorem aligned_string (s : List UInt8) : Aligned (Format.string s) := by
  rw [Aligned, length_format_string]
  unfold padding
  omega

theorem aligned_pair (kv : List UInt8 × List UInt8) : Aligned (Format.pair kv) :=
  (aligned_string kv.1).append (aligned_string kv.2)

theorem aligned_scalar (x : Scalar (List UInt8)) : Aligned (Format.scalar x) := by
  cases x with
  | string s => exact aligned_string s
  | _ => exact aligned_leBytes rfl

theorem aligned_flatMap {α : Type} {write : α → List UInt8} (h : ∀ x, Aligned (write x))
    (xs : List α) : Aligned (xs.flatMap write) := by
  induction xs with
  | nil => rfl
  | cons x xs ih => exact (h x).append ih

theorem aligned_value (v : Value (List UInt8)) : Aligned (Format.value v) := by
  cases v with
  | one x => exact aligned_scalar x
  | rect x y w h =>
    exact (aligned_leBytes rfl).append
      ((aligned_leBytes rfl).append ((aligned_leBytes rfl).append (aligned_leBytes rfl)))
  | kvList xs => exact (aligned_leBytes rfl).append (aligned_flatMap aligned_pair xs)
  | array xs => exact (aligned_leBytes rfl).append (aligned_flatMap aligned_scalar xs)

end Waywallen.Wayproto
