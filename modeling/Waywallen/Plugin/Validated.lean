import Waywallen.Library.Decimal
import Waywallen.Plugin.Schema

/-!
# What a validated setting denotes

With `f32` as the rationals, the infinities and `NaN`, every value that `coerceAndValidate` accepts
is a fixed point of it. It is a number of the declared envelope unless it is `NaN`, an infinity that
no bound excludes, or a `u32` outside of a bound that is no `u32` itself.
-/

namespace Waywallen

/-- `f32` and `f64` as rationals with the infinities and `NaN`. -/
def extendedFloats : FloatOps where
  F32 := Extended
  F64 := Extended
  parse := Extended.read
  lt := Extended.lt
  ofInt i := .rat i
  ofF64 := id
  toString := Extended.write
  toString64 := Extended.write
  toToml x := match x with
    | .nan => "nan"
    | .inf negative => (Extended.inf negative).write
    | .rat q => if q.den = 1 then (Extended.rat q).write ++ ".0" else (Extended.rat q).write

/-- The number that a bound declares, if it is one. -/
def TomlValue.number : TomlValue extendedFloats → Option Extended
  | .integer i => some (.rat i)
  | .float x => some x
  | .string s => Extended.read s
  | _ => none

namespace SettingDef

variable (schema : SettingDef extendedFloats)

/-- Neither below the minimum nor above the maximum. -/
def InRange (x : Extended) : Prop :=
  (∀ m ∈ schema.min.bind TomlValue.number, x.lt m = false) ∧
    ∀ m ∈ schema.max.bind TomlValue.number, m.lt x = false

/-- The text is a value of the declared type: a finite number within the bounds, a truth value, or
one of the choices. -/
def Denotes (text : String) : Prop :=
  match schema.ty with
  | .u32 => ∃ n : ℕ, parseU32 text = some n ∧ schema.InRange (.rat n)
  | .f32 => ∃ q, Extended.read text = some (.rat q) ∧ schema.InRange (.rat q)
  | .bool => text = "true" ∨ text = "false"
  | .string => ∀ choices, schema.choices = some choices → text ∈ choices

/-- Within the bounds that are read as `u32`. -/
def InRangeU32 (n : ℕ) : Prop :=
  (∀ m ∈ schema.min.bind tomlToU32, ¬ n < m) ∧ ∀ m ∈ schema.max.bind tomlToU32, ¬ m < n

/-- No number that is not finite, and no `u32` that only bounds of another form exclude. -/
def Guarded (raw : String) : Prop :=
  match schema.ty with
  | .u32 => ∀ n : ℕ, parseU32 raw = some n → ¬ schema.InRange (.rat n) → ¬ schema.InRangeU32 n
  | .f32 => ∀ x, Extended.read raw = some x →
    x ≠ .nan ∧ ∀ negative, x = .inf negative → ¬ schema.InRange x
  | _ => True

/-- What is accepted passes the check, stays as it is and is a value of the setting; what is no such
value is rejected. -/
structure Validates (key raw : String) : Prop where
  accepted : ∀ v, coerceAndValidate key raw schema = .ok v →
    Passes key v schema ∧ coerceAndValidate key v schema = .ok v ∧ schema.Denotes v
  rejected : ¬ schema.Denotes raw → ∃ e, coerceAndValidate key raw schema = .error e

end SettingDef

/-! ## Canonical forms -/

theorem parseU32_toString {n : ℕ} (hn : n < 2 ^ 32) : parseU32 (toString n) = some n := by
  have htext : (toString n).toList = Nat.toDigits 10 n := by
    rw [Nat.toString_eq_ofList_toDigits, String.toList_ofList]
  have hdigit : ∀ c ∈ Nat.toDigits 10 n, c.isDigit = true := fun c hc =>
    Nat.isDigit_of_mem_toDigits (by decide) (by decide) hc
  have hsign : ¬ (Nat.toDigits 10 n).head? = some '+' := fun hhead =>
    absurd (hdigit '+' (List.mem_of_mem_head? hhead)) (by decide)
  unfold parseU32
  rw [htext, if_neg hsign]
  dsimp only
  rw [if_pos ⟨Nat.toDigits_ne_nil, List.all_eq_true.2 hdigit⟩, ← Nat.ofDigitChars_eq_foldl,
    Nat.ofDigitChars_ten_toDigits, if_pos hn]

theorem parseU32_lt {text : String} {n : ℕ} (h : parseU32 text = some n) : n < 2 ^ 32 := by
  unfold parseU32 at h
  generalize (if text.toList.head? = some '+' then text.toList.tail else text.toList) = digits at h
  dsimp only at h
  split at h
  · split at h
    · rename_i hlt
      rwa [← Option.some.inj h]
    · cases h
  · cases h

section

variable {fl : FloatOps} {key raw v : String}

theorem coerceAndValidate_eq_ok_iff {schema : SettingDef fl} :
    coerceAndValidate key raw schema = .ok v ↔
      coerceSetting fl raw schema.ty = some v ∧ Passes key v schema := by
  unfold coerceAndValidate Passes
  cases coerceSetting fl raw schema.ty with
  | none => simp
  | some coerced =>
    dsimp only
    constructor
    · intro h
      split at h
      · cases h
      · rename_i hcheck
        cases h
        exact ⟨rfl, hcheck⟩
    · rintro ⟨hcoerced, hcheck⟩
      cases hcoerced
      rw [hcheck]

/-- The canonical form is its own canonical form. -/
theorem coerceSetting_coerceSetting {ty : SettingType}
    (h : coerceSetting extendedFloats raw ty = some v) :
    coerceSetting extendedFloats v ty = some v := by
  cases ty with
  | u32 =>
    obtain ⟨n, hn, rfl⟩ := Option.map_eq_some_iff.1 h
    exact Option.map_eq_some_iff.2 ⟨n, parseU32_toString (parseU32_lt hn), rfl⟩
  | f32 =>
    obtain ⟨x, hx, rfl⟩ := Option.map_eq_some_iff.1 h
    exact Option.map_eq_some_iff.2 ⟨x, Extended.read_write_of_read hx, rfl⟩
  | bool =>
    unfold coerceSetting at h
    dsimp only at h
    split at h
    · rename_i hraw
      cases h
      exact if_pos hraw
    · cases h
  | string => exact rfl

end

section

variable {schema : SettingDef extendedFloats} {key raw text v : String}

theorem tomlToF32_eq_number : (tomlToF32 : TomlValue extendedFloats → _) = TomlValue.number := by
  funext t
  cases t <;> rfl

theorem bounds_eq_ok_iff {α : Type} {lo hi : Option α} {below above : α → Bool}
    {e : ValidationError} :
    (if lo.any below then .error e else if hi.any above then .error e else .ok ()) =
        (Except.ok () : Except ValidationError Unit) ↔
      (∀ m ∈ lo, below m = false) ∧ ∀ m ∈ hi, above m = false := by
  have hany (o : Option α) (p : α → Bool) : o.any p = false ↔ ∀ m ∈ o, p m = false := by
    cases o <;> simp
  rw [← hany, ← hany]
  cases lo.any below <;> cases hi.any above <;> simp

theorem passes_u32_iff (hty : schema.ty = .u32) : Passes key text schema ↔
    ∃ n : ℕ, parseU32 text = some n ∧ schema.InRangeU32 n := by
  unfold Passes checkSettingBounds SettingDef.InRangeU32
  rw [hty]
  dsimp only
  cases parseU32 text with
  | none => simp
  | some n =>
    simp only [Option.some.injEq, exists_eq_left', bounds_eq_ok_iff, decide_eq_false_iff_not]

theorem passes_f32_iff (hty : schema.ty = .f32) : Passes key text schema ↔
    ∃ x, Extended.read text = some x ∧ schema.InRange x := by
  have hparse : extendedFloats.parse text = Extended.read text := rfl
  unfold Passes checkSettingBounds SettingDef.InRange
  rw [hty, tomlToF32_eq_number]
  dsimp only
  rw [hparse]
  cases Extended.read text with
  | none => simp
  | some x =>
    simp only [Option.some.injEq, exists_eq_left', bounds_eq_ok_iff]
    rfl

theorem passes_string_iff (hty : schema.ty = .string) : Passes key text schema ↔
    ∀ choices, schema.choices = some choices → text ∈ choices := by
  unfold Passes checkSettingBounds
  rw [hty]
  dsimp only
  cases schema.choices with
  | none => simp
  | some choices => simp

/-- The canonical form denotes what the text denotes. -/
theorem denotes_coerceSetting (h : coerceSetting extendedFloats raw schema.ty = some v) :
    schema.Denotes v ↔ schema.Denotes raw := by
  unfold SettingDef.Denotes
  cases hty : schema.ty with
  | u32 =>
    rw [hty] at h
    obtain ⟨n, hn, rfl⟩ := Option.map_eq_some_iff.1 h
    simp only [hn, parseU32_toString (parseU32_lt hn)]
  | f32 =>
    rw [hty] at h
    obtain ⟨x, hx, rfl⟩ := Option.map_eq_some_iff.1 h
    have hwrite : Extended.read (extendedFloats.toString x) = some x :=
      Extended.read_write_of_read hx
    have hraw : Extended.read raw = some x := hx
    simp only [hraw, hwrite]
  | bool =>
    rw [hty] at h
    unfold coerceSetting at h
    dsimp only at h
    split at h
    · cases h
      rfl
    · cases h
  | string =>
    rw [hty] at h
    cases h
    rfl

/-- Everything but the meaning of what is accepted holds in any case. -/
theorem validates_iff_denotes : schema.Validates key raw ↔
    ∀ v, coerceAndValidate key raw schema = .ok v → schema.Denotes v := by
  constructor
  · intro h v hv
    exact (h.accepted v hv).2.2
  · intro h
    refine ⟨fun v hv => ?_, fun hraw => ?_⟩
    · obtain ⟨hcoerce, hpasses⟩ := coerceAndValidate_eq_ok_iff.1 hv
      exact ⟨hpasses, coerceAndValidate_eq_ok_iff.2 ⟨coerceSetting_coerceSetting hcoerce, hpasses⟩,
        h v hv⟩
    · cases hresult : coerceAndValidate key raw schema with
      | error e => exact ⟨e, rfl⟩
      | ok v =>
        have hcoerce := (coerceAndValidate_eq_ok_iff.1 hresult).1
        exact absurd ((denotes_coerceSetting hcoerce).1 (h v hresult)) hraw

theorem denotes_of_accepted : (∀ v, coerceAndValidate key raw schema = .ok v → schema.Denotes v) ↔
    ∀ v, coerceSetting extendedFloats raw schema.ty = some v → Passes key v schema →
      schema.Denotes raw := by
  refine forall_congr' fun v => ?_
  rw [coerceAndValidate_eq_ok_iff, and_imp]
  refine forall_congr' fun hcoerce => ?_
  rw [denotes_coerceSetting hcoerce]

theorem denotes_u32_iff (hty : schema.ty = .u32) : schema.Denotes text ↔
    ∃ n : ℕ, parseU32 text = some n ∧ schema.InRange (.rat n) := by
  rw [SettingDef.Denotes, hty]

theorem denotes_f32_iff (hty : schema.ty = .f32) : schema.Denotes text ↔
    ∃ q, Extended.read text = some (.rat q) ∧ schema.InRange (.rat q) := by
  rw [SettingDef.Denotes, hty]

theorem validates_u32_iff (hty : schema.ty = .u32) : schema.Validates key raw ↔
    ∀ n : ℕ, parseU32 raw = some n → ¬ schema.InRange (.rat n) → ¬ schema.InRangeU32 n := by
  rw [validates_iff_denotes, denotes_of_accepted, hty]
  constructor
  · intro h n hn hrange hrangeU32
    have hpasses : Passes key (toString n) schema :=
      (passes_u32_iff hty).2 ⟨n, parseU32_toString (parseU32_lt hn), hrangeU32⟩
    obtain ⟨n', hn', hin⟩ := (denotes_u32_iff hty).1
      (h _ (Option.map_eq_some_iff.2 ⟨n, hn, rfl⟩) hpasses)
    cases hn.symm.trans hn'
    exact hrange hin
  · intro h v hcoerce hpasses
    obtain ⟨n, hn, rfl⟩ := Option.map_eq_some_iff.1 hcoerce
    obtain ⟨n', hn', hrangeU32⟩ := (passes_u32_iff hty).1 hpasses
    cases (parseU32_toString (parseU32_lt hn)).symm.trans hn'
    exact (denotes_u32_iff hty).2 ⟨n, hn, not_not.1 fun hrange => h n hn hrange hrangeU32⟩

/-- No bound excludes `NaN`. -/
theorem inRange_nan (schema : SettingDef extendedFloats) : schema.InRange .nan := by
  refine ⟨fun m _ => ?_, fun m _ => ?_⟩
  · rfl
  · cases m <;> rfl

theorem validates_f32_iff (hty : schema.ty = .f32) : schema.Validates key raw ↔
    ∀ x, Extended.read raw = some x →
      x ≠ .nan ∧ ∀ negative, x = .inf negative → ¬ schema.InRange x := by
  have hfinite : schema.Validates key raw ↔
      ∀ x, Extended.read raw = some x → schema.InRange x → ∃ q, x = .rat q := by
    rw [validates_iff_denotes, denotes_of_accepted, hty]
    constructor
    · intro h x hx hrange
      have hpasses : Passes key (Extended.write x) schema :=
        (passes_f32_iff hty).2 ⟨x, Extended.read_write_of_read hx, hrange⟩
      obtain ⟨q, hq, -⟩ := (denotes_f32_iff hty).1
        (h _ (Option.map_eq_some_iff.2 ⟨x, hx, rfl⟩) hpasses)
      exact ⟨q, Option.some.inj (hx.symm.trans hq)⟩
    · intro h v hcoerce hpasses
      obtain ⟨x, hx, rfl⟩ := Option.map_eq_some_iff.1 hcoerce
      have hx : Extended.read raw = some x := hx
      obtain ⟨x', hx', hrange⟩ := (passes_f32_iff hty).1 hpasses
      cases (Extended.read_write_of_read hx).symm.trans hx'
      obtain ⟨q, rfl⟩ := h x hx hrange
      exact (denotes_f32_iff hty).2 ⟨q, hx, hrange⟩
  rw [hfinite]
  refine forall₂_congr fun x hx => ?_
  cases x with
  | nan => simp [inRange_nan]
  | inf negative => simp
  | rat q => simp

theorem validates_of_bool (hty : schema.ty = .bool) : schema.Validates key raw := by
  rw [validates_iff_denotes, denotes_of_accepted, hty]
  intro v hcoerce hpasses
  unfold coerceSetting at hcoerce
  dsimp only at hcoerce
  split at hcoerce
  · rename_i hraw
    rw [SettingDef.Denotes, hty]
    exact hraw
  · cases hcoerce

theorem validates_of_string (hty : schema.ty = .string) : schema.Validates key raw := by
  rw [validates_iff_denotes, denotes_of_accepted, hty]
  intro v hcoerce hpasses
  cases hcoerce
  rw [SettingDef.Denotes, hty]
  exact (passes_string_iff hty).1 hpasses

end

theorem SettingDef.validates_iff (schema : SettingDef extendedFloats) (key raw : String) :
    schema.Validates key raw ↔ schema.Guarded raw := by
  unfold SettingDef.Guarded
  cases hty : schema.ty with
  | u32 => exact validates_u32_iff hty
  | f32 => exact validates_f32_iff hty
  | bool => exact iff_of_true (validates_of_bool hty) trivial
  | string => exact iff_of_true (validates_of_string hty) trivial

/-- A speed from 0 to 2. -/
def speedDef : SettingDef extendedFloats where
  ty := .f32
  default := .integer 1
  min := some (.integer 0)
  max := some (.integer 2)
  choices := none

/-- `NaN` is accepted as a speed. -/
theorem SettingDef.not_validates : ¬ speedDef.Validates "speed" "NaN" := by
  intro h
  obtain ⟨-, -, q, hq, -⟩ := h.accepted "NaN" (by decide)
  cases hq

end Waywallen
