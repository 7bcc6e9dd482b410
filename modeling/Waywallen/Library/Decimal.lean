import Mathlib.Algebra.Order.Field.Rat
import Mathlib.Data.List.TakeWhile
import Mathlib.Data.Nat.Factorization.Basic
import Mathlib.Tactic.FieldSimp
import Mathlib.Tactic.Ring

/-!
# Decimal numbers in text

The rationals with `NaN` and the infinities, and how a programming language reads and writes them
in decimal: digits with at most one point, an exponent when it reads but not when it writes. What
has been read is written in a form that is read as the same number.
-/

/-- Rationals, the infinities and `NaN`. -/
inductive Extended
  | nan
  | inf (negative : Bool)
  | rat (q : ℚ)
  deriving DecidableEq

namespace Extended

/-- Comparison; `NaN` is not less than anything, and nothing is less than it. -/
def lt : Extended → Extended → Bool
  | nan, _ | _, nan => false
  | inf a, inf b => a && !b
  | inf a, rat _ => a
  | rat _, inf b => !b
  | rat p, rat q => decide (p < q)

/-! ## Reading -/

/-- Digits with at most one point, as a number without the point and the digits after it. -/
def readMantissa (cs : List Char) : Option (ℕ × ℕ) :=
  let int := cs.takeWhile (· ≠ '.')
  let frac := (cs.dropWhile (· ≠ '.')).tail
  if int ++ frac ≠ [] ∧ (int ++ frac).all Char.isDigit then
    some (Nat.ofDigitChars 10 (int ++ frac) 0, frac.length)
  else none

/-- A sign at the front. -/
def readSign : List Char → Bool × List Char
  | '-' :: cs => (true, cs)
  | '+' :: cs => (false, cs)
  | cs => (false, cs)

def readExponent (cs : List Char) : Option ℤ :=
  let (negative, digits) := readSign cs
  if digits ≠ [] ∧ digits.all Char.isDigit then
    let n : ℤ := Nat.ofDigitChars 10 digits 0
    some (if negative then -n else n)
  else none

def isE (c : Char) : Bool :=
  c = 'e' || c = 'E'

def readNumber (cs : List Char) : Option ℚ :=
  let mantissa := cs.takeWhile fun c => !isE c
  match cs.dropWhile fun c => !isE c with
  | [] => (readMantissa mantissa).map fun m => (m.1 : ℚ) / 10 ^ m.2
  | _ :: e => (readMantissa mantissa).bind fun m =>
    (readExponent e).map fun e => (m.1 : ℚ) / 10 ^ m.2 * 10 ^ e

def read (text : String) : Option Extended :=
  let (negative, cs) := readSign text.toList
  let name := cs.map Char.toLower
  if name = ['i', 'n', 'f'] ∨ name = ['i', 'n', 'f', 'i', 'n', 'i', 't', 'y'] then
    some (.inf negative)
  else if name = ['n', 'a', 'n'] then some .nan
  else (readNumber cs).map fun q => .rat (if negative then -q else q)

/-! ## Writing -/

/-- The number of digits after the point, when finitely many are enough. -/
def scale (q : ℚ) : ℕ :=
  ((List.range (q.den + 1)).find? fun k => q.den ∣ 10 ^ k).getD 0

/-- The digits without a sign and a point. -/
def digits (q : ℚ) : List Char :=
  List.leftpad (scale q + 1) '0' (Nat.toDigits 10 (q.num.natAbs * (10 ^ scale q / q.den)))

/-- The digits with a point before the last `k` of them. -/
def pointed (k : ℕ) (ds : List Char) : List Char :=
  if k = 0 then ds else ds.take (ds.length - k) ++ '.' :: ds.drop (ds.length - k)

def write : Extended → String
  | nan => "NaN"
  | inf negative => if negative then "-inf" else "inf"
  | rat q => String.ofList ((if q < 0 then ['-'] else []) ++ pointed (scale q) (digits q))

/-! ## Reading what was written -/

/-- Finitely many digits are enough. -/
def IsDecimal (q : ℚ) : Prop :=
  ∃ (m : ℤ) (k : ℕ), q = m / 10 ^ k

section

variable {q : ℚ} {d k : ℕ} {cs ds : List Char} {p : Char → Bool}

theorem IsDecimal.neg (h : IsDecimal q) : IsDecimal (-q) := by
  obtain ⟨m, k, rfl⟩ := h
  exact ⟨-m, k, by push_cast; ring⟩

theorem isDecimal_mul_zpow (n k : ℕ) (e : ℤ) : IsDecimal (n / 10 ^ k * 10 ^ e) := by
  cases e with
  | ofNat e => exact ⟨n * 10 ^ e, k, by push_cast [Int.ofNat_eq_natCast, zpow_natCast]; ring⟩
  | negSucc e =>
    refine ⟨n, k + (e + 1), ?_⟩
    rw [zpow_negSucc, pow_add]
    push_cast
    field_simp
    ring

/-- If a power of ten is a multiple of a number, a power with a small exponent is one. -/
theorem dvd_pow_self_of_dvd_pow (h : d ∣ 10 ^ k) : d ∣ 10 ^ d := by
  have hd : d ≠ 0 := by
    rintro rfl
    exact pow_ne_zero k (by decide) (Nat.eq_zero_of_zero_dvd h)
  rw [← Nat.factorization_le_iff_dvd hd (pow_ne_zero d (by decide)), Nat.factorization_pow]
  intro p
  by_cases hp : d.factorization p = 0
  · rw [hp]
    exact Nat.zero_le _
  · have hprime : p.Prime := Nat.prime_of_mem_primeFactors (Finsupp.mem_support_iff.2 hp)
    have hten : p ∣ 10 :=
      hprime.dvd_of_dvd_pow ((Nat.dvd_of_factorization_pos hp).trans h)
    have hone : 1 ≤ (Nat.factorization 10) p :=
      (hprime.dvd_iff_one_le_factorization (by decide)).1 hten
    calc d.factorization p ≤ d * 1 := by
          rw [mul_one]
          exact (Nat.factorization_lt p hd).le
      _ ≤ d * (Nat.factorization 10) p := Nat.mul_le_mul_left d hone

theorem den_dvd_scale (h : IsDecimal q) : q.den ∣ 10 ^ scale q := by
  obtain ⟨m, k, hq⟩ := h
  have hden : q.den ∣ 10 ^ k := by
    have hdvd := Rat.den_dvd m (10 ^ k)
    rw [Rat.divInt_eq_div] at hdvd
    push_cast at hdvd
    rw [← hq] at hdvd
    exact_mod_cast hdvd
  unfold scale
  cases hfind : (List.range (q.den + 1)).find? fun k => q.den ∣ 10 ^ k with
  | none =>
    have hnone := List.find?_eq_none.1 hfind q.den (List.mem_range.2 (Nat.lt_succ_self _))
    exact absurd (decide_eq_true (dvd_pow_self_of_dvd_pow hden)) hnone
  | some k => simpa using List.find?_some hfind

theorem ne_of_isDigit {c d : Char} (h : c.isDigit = true) (hd : d.isDigit = false) : c ≠ d := by
  rintro rfl
  rw [h] at hd
  cases hd

theorem readMantissa_pointed (hdigits : ds.all Char.isDigit) (hk : k < ds.length) :
    readMantissa (pointed k ds) = some (Nat.ofDigitChars 10 ds 0, k) := by
  have hpoint {l : List Char} (hl : l ⊆ ds) : ∀ c ∈ l, decide (c ≠ '.') = true := fun c hc =>
    decide_eq_true (ne_of_isDigit (List.all_eq_true.1 hdigits c (hl hc)) rfl)
  have hne : ds ≠ [] := by
    rintro rfl
    exact absurd hk (Nat.not_lt_zero k)
  by_cases hzero : k = 0
  · subst hzero
    have hall := hpoint (List.Subset.refl ds)
    have hpointed : pointed 0 ds = ds := rfl
    unfold readMantissa
    rw [hpointed, List.takeWhile_eq_self_iff.2 hall, List.dropWhile_eq_nil_iff.2 hall]
    simp only [List.tail_nil, List.append_nil, List.length_nil]
    exact if_pos ⟨hne, hdigits⟩
  · have hall := hpoint (List.take_subset (ds.length - k) ds)
    have hlength : (ds.drop (ds.length - k)).length = k := by
      rw [List.length_drop]
      omega
    have hpoint : ¬ decide ('.' ≠ '.') = true := by decide
    unfold readMantissa
    rw [pointed, if_neg hzero, List.takeWhile_append_of_pos hall,
      List.dropWhile_append_of_pos hall,
      List.takeWhile_cons_of_neg (p := fun c => decide (c ≠ '.')) hpoint,
      List.dropWhile_cons_of_neg (p := fun c => decide (c ≠ '.')) hpoint]
    simp only [List.append_nil, List.tail_cons, List.take_append_drop, hlength]
    exact if_pos ⟨hne, hdigits⟩

theorem readNumber_pointed (hdigits : ds.all Char.isDigit) (hk : k < ds.length) :
    readNumber (pointed k ds) = some ((Nat.ofDigitChars 10 ds 0 : ℚ) / 10 ^ k) := by
  have hall : ∀ c ∈ pointed k ds, (!isE c) = true := by
    intro c hc
    have hdigit (hmem : c ∈ ds) : (!isE c) = true := by
      have hc := List.all_eq_true.1 hdigits c hmem
      simp [isE, ne_of_isDigit hc (d := 'e') rfl, ne_of_isDigit hc (d := 'E') rfl]
    unfold pointed at hc
    split at hc
    · exact hdigit hc
    · rcases List.mem_append.1 hc with hc | hc
      · exact hdigit (List.mem_of_mem_take hc)
      · rcases List.mem_cons.1 hc with rfl | hc
        · decide
        · exact hdigit (List.mem_of_mem_drop hc)
  unfold readNumber
  simp only [List.takeWhile_eq_self_iff.2 hall, List.dropWhile_eq_nil_iff.2 hall,
    readMantissa_pointed hdigits hk, Option.map_some]

theorem isDecimal_of_readNumber (h : readNumber cs = some q) : IsDecimal q := by
  unfold readNumber at h
  dsimp only at h
  split at h
  · obtain ⟨m, -, rfl⟩ := Option.map_eq_some_iff.1 h
    exact ⟨m.1, m.2, by push_cast; rfl⟩
  · obtain ⟨m, -, h⟩ := Option.bind_eq_some_iff.1 h
    obtain ⟨e, -, rfl⟩ := Option.map_eq_some_iff.1 h
    exact isDecimal_mul_zpow m.1 m.2 e

theorem isDecimal_of_read {text : String} (h : read text = some (.rat q)) : IsDecimal q := by
  unfold read at h
  dsimp only at h
  split at h
  · cases h
  · split at h
    · cases h
    · obtain ⟨q', hq', heq⟩ := Option.map_eq_some_iff.1 h
      have hdecimal := isDecimal_of_readNumber hq'
      cases heq
      split
      · exact hdecimal.neg
      · exact hdecimal

theorem exists_cons_pointed (hdigits : ds.all Char.isDigit) (hk : k < ds.length) :
    ∃ c cs, pointed k ds = c :: cs ∧ c.isDigit = true := by
  cases ds with
  | nil => exact absurd hk (Nat.not_lt_zero k)
  | cons c ds =>
    have hc : c.isDigit = true := List.all_eq_true.1 hdigits c List.mem_cons_self
    unfold pointed
    split
    · exact ⟨c, ds, rfl, hc⟩
    · obtain ⟨n, hn⟩ : ∃ n, (c :: ds).length - k = n + 1 :=
        Nat.exists_eq_succ_of_ne_zero (Nat.sub_ne_zero_of_lt hk)
      rw [hn, List.take_succ_cons, List.cons_append]
      exact ⟨c, _, rfl, hc⟩

/-- A number that begins with a digit is read as a number. -/
theorem read_of_digits {text : String} {negative : Bool} {c : Char}
    (htext : text.toList = (if negative then ['-'] else []) ++ c :: cs) (hc : c.isDigit = true)
    (hq : readNumber (c :: cs) = some q) :
    read text = some (.rat (if negative then -q else q)) := by
  have hsign : readSign text.toList = (negative, c :: cs) := by
    rw [htext]
    cases negative with
    | true => rfl
    | false =>
      rw [if_neg Bool.false_ne_true, List.nil_append]
      unfold readSign
      split
      · rename_i heq
        exact absurd (List.cons.inj heq).1 (ne_of_isDigit hc rfl)
      · rename_i heq
        exact absurd (List.cons.inj heq).1 (ne_of_isDigit hc rfl)
      · rfl
  have hlower : c.toLower = c := by
    refine dif_neg fun hupper => ?_
    simp only [Char.isDigit, Bool.and_eq_true, decide_eq_true_eq] at hc
    exact absurd (UInt32.le_trans hupper.1 hc.2) (by decide)
  have hname {d : Char} (hd : d.isDigit = false) (name : List Char) :
      (c :: cs).map Char.toLower ≠ d :: name := by
    intro heq
    rw [List.map_cons, hlower] at heq
    exact ne_of_isDigit hc hd (List.cons.inj heq).1
  unfold read
  rw [hsign]
  dsimp only
  rw [if_neg (not_or.2 ⟨hname rfl _, hname rfl _⟩), if_neg (hname rfl _), hq]
  rfl

theorem all_digits (q : ℚ) : (digits q).all Char.isDigit := by
  rw [List.all_eq_true]
  intro c hc
  rcases List.mem_append.1 hc with hc | hc
  · rw [List.eq_of_mem_replicate hc]
    rfl
  · exact Nat.isDigit_of_mem_toDigits (by decide) (by decide) hc

theorem scale_lt_length_digits (q : ℚ) : scale q < (digits q).length := by
  unfold digits List.leftpad
  rw [List.length_append, List.length_replicate]
  omega

theorem value_digits (h : IsDecimal q) :
    (Nat.ofDigitChars 10 (digits q) 0 : ℚ) / 10 ^ scale q = |q| := by
  obtain ⟨n, hn⟩ := den_dvd_scale h
  have hvalue : Nat.ofDigitChars 10 (digits q) 0 = q.num.natAbs * n := by
    have hquotient : 10 ^ scale q / q.den = n := by
      rw [hn, Nat.mul_div_cancel_left _ q.den_pos]
    rw [digits, List.leftpad, Nat.ofDigitChars_append, Nat.ofDigitChars_replicate_zero,
      Nat.mul_zero, Nat.ofDigitChars_ten_toDigits, hquotient]
  have hpow : (10 : ℚ) ^ scale q = q.den * n := by
    exact_mod_cast hn
  have hn0 : (n : ℚ) ≠ 0 := by
    rintro hzero
    rw [hzero, mul_zero] at hpow
    exact pow_ne_zero _ (by norm_num) hpow
  rw [hvalue, hpow]
  push_cast
  rw [mul_div_mul_right _ _ hn0]
  rw [Rat.abs_def, Rat.divInt_eq_div, Int.cast_natCast, Int.cast_natCast]

theorem read_write (h : IsDecimal q) : read (write (.rat q)) = some (.rat q) := by
  obtain ⟨c, cs, hcons, hc⟩ := exists_cons_pointed (all_digits q) (scale_lt_length_digits q)
  have hnumber := readNumber_pointed (all_digits q) (scale_lt_length_digits q)
  rw [value_digits h, hcons] at hnumber
  have htext : (write (.rat q)).toList = (if decide (q < 0) then ['-'] else []) ++ c :: cs := by
    rw [write, hcons, String.toList_ofList]
    simp
  rw [read_of_digits htext hc hnumber]
  by_cases hq : q < 0
  · simp [hq, abs_of_neg hq]
  · simp [hq, abs_of_nonneg (not_lt.1 hq)]

end

/-- What was read is written in a form that is read as the same. -/
theorem read_write_of_read {text : String} {x : Extended} (h : read text = some x) :
    read (write x) = some x := by
  cases x with
  | nan => decide
  | inf negative => cases negative <;> decide
  | rat q => exact read_write (isDecimal_of_read h)

end Extended
