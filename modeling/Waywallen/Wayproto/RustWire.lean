import Waywallen.Wayproto.Format

/-!
# The generated Rust codec

The helpers of the module `wire`, and what the calls that are generated for a message do. A buffer
is its bytes, a reader what it has not read.
-/

namespace Waywallen.Wayproto

/-- The bytes of a string. -/
def utf8 (s : String) : List UInt8 := s.toByteArray.data.toList

/-- `str::from_utf8`. -/
def fromUtf8 (bytes : List UInt8) : Option String := String.fromUTF8? ⟨bytes.toArray⟩

@[simp]
theorem fromUtf8_utf8 (s : String) : fromUtf8 (utf8 s) = some s := by
  have hvalid : (⟨(utf8 s).toArray⟩ : ByteArray) = s.toByteArray := by
    simp [utf8]
  rw [fromUtf8, hvalid, String.fromUTF8?, dif_pos s.isValidUTF8]
  rfl

theorem utf8_fromUtf8 {bytes : List UInt8} {s : String} (h : fromUtf8 bytes = some s) :
    utf8 s = bytes := by
  unfold fromUtf8 String.fromUTF8? at h
  split_ifs at h
  obtain rfl := Option.some.inj h
  simp [utf8, String.fromUTF8]

namespace Rust

inductive DecodeError
  | tooShort
  | badString
  | badArrayLen
  | trailing
  | unknownOpcode (opcode : UInt16)
deriving DecidableEq

/-! ## Writers -/

def wU32 (buf : List UInt8) (v : UInt32) : List UInt8 := buf ++ leBytes 4 v.toNat

def wI32 (buf : List UInt8) (v : Int32) : List UInt8 := buf ++ leBytes 4 v.toUInt32.toNat

def wU64 (buf : List UInt8) (v : UInt64) : List UInt8 := buf ++ leBytes 8 v.toNat

def wI64 (buf : List UInt8) (v : Int64) : List UInt8 := buf ++ leBytes 8 v.toUInt64.toNat

def wF32 (buf : List UInt8) (bits : UInt32) : List UInt8 := buf ++ leBytes 4 bits.toNat

def wF64 (buf : List UInt8) (bits : UInt64) : List UInt8 := buf ++ leBytes 8 bits.toNat

def wRect (buf : List UInt8) (x y w h : UInt32) : List UInt8 :=
  wF32 (wF32 (wF32 (wF32 buf x) y) w) h

def pad4 (buf : List UInt8) : List UInt8 :=
  if buf.length % 4 ≠ 0 then pad4 (buf ++ [0]) else buf
termination_by padding buf.length
decreasing_by
  unfold padding
  rw [List.length_append, List.length_singleton]
  omega

def wString (buf : List UInt8) (s : String) : List UInt8 :=
  let len := UInt32.ofNat (utf8 s).length + 1
  pad4 (wU32 buf len ++ utf8 s ++ [0])

def wScalar (buf : List UInt8) : Scalar String → List UInt8
  | .u32 v => wU32 buf v
  | .i32 v => wI32 buf v
  | .u64 v => wU64 buf v
  | .i64 v => wI64 buf v
  | .f32 bits => wF32 buf bits
  | .f64 bits => wF64 buf bits
  | .string s => wString buf s

/-- `w_array_u32` and its like. -/
def wArray (buf : List UInt8) (xs : List (Scalar String)) : List UInt8 :=
  xs.foldl wScalar (wU32 buf (UInt32.ofNat xs.length))

def wKvList (buf : List UInt8) (xs : List (String × String)) : List UInt8 :=
  xs.foldl (fun buf kv => wString (wString buf kv.1) kv.2) (wU32 buf (UInt32.ofNat xs.length))

def wValue (buf : List UInt8) : Value String → List UInt8
  | .one x => wScalar buf x
  | .rect x y w h => wRect buf x y w h
  | .kvList xs => wKvList buf xs
  | .array xs => wArray buf xs

/-- The calls that encode a message, each with its argument; none for arguments that the calls do
not take. -/
def encode : List Helper → List (Value String) → List UInt8 → Option (List UInt8)
  | [], [], buf => some buf
  | h :: helpers, v :: values, buf =>
    if v.fits h then encode helpers values (wValue buf v) else none
  | _, _, _ => none

/-! ## Readers -/

def take (n : ℕ) : Reader DecodeError (List UInt8) := do
  Reader.need n .tooShort
  Reader.slice n

def u32 : Reader DecodeError UInt32 := do
  let bytes ← take 4
  return UInt32.ofNat (ofLe bytes)

def i32 : Reader DecodeError Int32 := do
  let bytes ← take 4
  return (UInt32.ofNat (ofLe bytes)).toInt32

def u64 : Reader DecodeError UInt64 := do
  let bytes ← take 8
  return UInt64.ofNat (ofLe bytes)

def i64 : Reader DecodeError Int64 := do
  let bytes ← take 8
  return (UInt64.ofNat (ofLe bytes)).toInt64

def f32 : Reader DecodeError UInt32 := do
  let bytes ← take 4
  return UInt32.ofNat (ofLe bytes)

def f64 : Reader DecodeError UInt64 := do
  let bytes ← take 8
  return UInt64.ofNat (ofLe bytes)

def rect : Reader DecodeError (Value String) := do
  let x ← f32
  let y ← f32
  let w ← f32
  let h ← f32
  return .rect x y w h

/-- The bytes of a string behind its length; `padded` is `(len + 3) & !3`. -/
def chars (len : ℕ) : Reader DecodeError String := do
  let padded := (len + 3) / 4 * 4
  let bytes ← take padded
  let last ← Reader.index bytes (len - 1)
  if last ≠ 0 then Reader.fail .badString
  else
    match fromUtf8 (bytes.take (len - 1)) with
    | some s => return s
    | none => Reader.fail .badString

def string : Reader DecodeError String := do
  let len ← u32
  if len = 0 then Reader.fail .badString else chars len.toNat

def scalar : Elem → Reader DecodeError (Scalar String)
  | .u32 => do return .u32 (← u32)
  | .i32 => do return .i32 (← i32)
  | .u64 => do return .u64 (← u64)
  | .i64 => do return .i64 (← i64)
  | .f32 => do return .f32 (← f32)
  | .f64 => do return .f64 (← f64)
  | .string => do return .string (← string)

/-- `array_u32` and its like. -/
def array (e : Elem) : Reader DecodeError (Value String) := do
  let n ← u32
  let xs ← Reader.times n.toNat (scalar e)
  return .array xs

/-- One turn of the loop of `kv_list`. -/
def pair : Reader DecodeError (String × String) := do
  let k ← string
  let v ← string
  return (k, v)

def kvList : Reader DecodeError (Value String) := do
  let n ← u32
  let xs ← Reader.times n.toNat pair
  return .kvList xs

def value : Helper → Reader DecodeError (Value String)
  | .one e => do return .one (← scalar e)
  | .rect => rect
  | .kvList => kvList
  | .array e => array e

/-- The calls that decode a message. -/
def args : List Helper → Reader DecodeError (List (Value String))
  | [] => pure []
  | h :: helpers => do
    let v ← value h
    let vs ← args helpers
    return v :: vs

/-- A message is decoded from the whole of a body. -/
def message (helpers : List Helper) (body : List UInt8) :
    Except (Stop DecodeError) (List (Value String)) :=
  match args helpers body with
  | .error e => .error e
  | .ok (values, rest) => if rest ≠ [] then .error (.error .trailing) else .ok values

/-! ## What is written -/

theorem padding_eq (buf : List UInt8) :
    pad4 buf = buf ++ List.replicate (padding buf.length) 0 := by
  induction buf using pad4.induct with
  | case1 buf h ih =>
    have hsucc : padding buf.length = padding (buf ++ [0]).length + 1 := by
      unfold padding
      rw [List.length_append, List.length_singleton]
      omega
    rw [pad4, if_pos h, ih, hsucc, List.replicate_succ, List.append_assoc]
    rfl
  | case2 buf h =>
    have hzero : padding buf.length = 0 := by
      unfold padding
      omega
    rw [pad4, if_neg h, hzero]
    simp

theorem wString_eq {buf : List UInt8} (hbuf : Aligned buf) (s : String) :
    wString buf s = buf ++ Format.string (utf8 s) := by
  have hlen : (UInt32.ofNat (utf8 s).length + 1).toNat = ((utf8 s).length + 1) % 2 ^ 32 := by
    rw [UInt32.toNat_add, UInt32.toNat_ofNat']
    simp
  have hpad : padding (wU32 buf (UInt32.ofNat (utf8 s).length + 1) ++ utf8 s ++ [0]).length =
      padding ((utf8 s).length + 1) := by
    unfold Aligned at hbuf
    simp only [wU32, padding, List.length_append, length_leBytes, List.length_singleton]
    omega
  rw [wString, padding_eq, hpad, wU32, hlen, leBytes_mod_u32, Format.string]
  simp only [List.append_assoc, List.singleton_append]

theorem wScalar_eq {buf : List UInt8} (hbuf : Aligned buf) (x : Scalar String) :
    wScalar buf x = buf ++ Format.scalar (x.map utf8) := by
  cases x with
  | string s => exact wString_eq hbuf s
  | _ => rfl

theorem foldl_eq {α : Type} {write : List UInt8 → α → List UInt8} {format : α → List UInt8}
    (hwrite : ∀ buf, Aligned buf → ∀ x, write buf x = buf ++ format x)
    (hformat : ∀ x, Aligned (format x)) {buf : List UInt8} (hbuf : Aligned buf) (xs : List α) :
    xs.foldl write buf = buf ++ xs.flatMap format := by
  induction xs generalizing buf with
  | nil => simp
  | cons x xs ih =>
    rw [List.foldl_cons, hwrite buf hbuf x, ih (hbuf.append (hformat x)), List.flatMap_cons,
      List.append_assoc]

theorem wCount_eq (buf : List UInt8) (n : ℕ) : wU32 buf (UInt32.ofNat n) = buf ++ leBytes 4 n := by
  rw [wU32, UInt32.toNat_ofNat', leBytes_mod_u32]

theorem wValue_eq {buf : List UInt8} (hbuf : Aligned buf) (v : Value String) :
    wValue buf v = buf ++ Format.value (v.map utf8) := by
  have hcount : ∀ n, Aligned (buf ++ leBytes 4 n) := fun n => hbuf.append (aligned_leBytes rfl)
  cases v with
  | one x => exact wScalar_eq hbuf x
  | rect x y w h => simp [wValue, wRect, wF32, Value.map, Format.value]
  | kvList xs =>
    have hpair : ∀ buf, Aligned buf → ∀ kv : String × String,
        wString (wString buf kv.1) kv.2 = buf ++ Format.pair (kv.map utf8 utf8) := by
      intro buf hbuf kv
      rw [wString_eq hbuf, wString_eq (hbuf.append (aligned_string _)), List.append_assoc]
      rfl
    rw [wValue, wKvList, wCount_eq, foldl_eq hpair (fun kv => aligned_pair _) (hcount _),
      List.append_assoc, Value.map, Format.value, List.length_map, List.flatMap_map]
  | array xs =>
    rw [wValue, wArray, wCount_eq, foldl_eq (fun _ => wScalar_eq) (fun x => aligned_scalar _)
      (hcount _), List.append_assoc, Value.map, Format.value, List.length_map, List.flatMap_map]

/-- The calls for a message write its format. -/
theorem encode_eq {helpers : List Helper} {values : List (Value String)} (h : Fits values helpers)
    {buf : List UInt8} (hbuf : Aligned buf) :
    encode helpers values buf = some (buf ++ Format.body (values.map (Value.map utf8))) := by
  induction h generalizing buf with
  | nil => simp [encode, Format.body]
  | @cons v h values helpers hv _ ih =>
    rw [encode, if_pos hv, wValue_eq hbuf, ih (hbuf.append (aligned_value _)), List.append_assoc]
    rfl

/-! ## What is read -/

section

variable {limit : ℕ}

theorem reads_u32 : Reads limit u32 id Scan.u32 :=
  (Reads.need_slice 4 _).wrap fun _ _ => Iff.rfl

theorem reads_i32 : Reads limit i32 id Scan.i32 :=
  (Reads.need_slice 4 _).wrap fun _ _ => Iff.rfl

theorem reads_u64 : Reads limit u64 id Scan.u64 :=
  (Reads.need_slice 8 _).wrap fun _ _ => Iff.rfl

theorem reads_i64 : Reads limit i64 id Scan.i64 :=
  (Reads.need_slice 8 _).wrap fun _ _ => Iff.rfl

theorem take_eq (n : ℕ) (s : List UInt8) :
    take n s =
      if n ≤ s.length then .ok (s.take n, s.drop n) else .error (.error .tooShort) := by
  unfold take
  split_ifs with h
  · rw [Reader.bind_of (show Reader.need n DecodeError.tooShort s = .ok ((), s) from if_pos h)]
    exact if_pos h
  · exact Reader.bind_of_error (if_neg h) _

/-- The characters of a string, as the format has them. -/
theorem chars_eq {len : ℕ} (hlen : 0 < len) (s : List UInt8) :
    chars len s =
      if len + padding len ≤ s.length then
        if s[len - 1]? = some 0 then
          match fromUtf8 (s.take (len - 1)) with
          | some text => .ok (text, s.drop (len + padding len))
          | none => .error (.error .badString)
        else .error (.error .badString)
      else .error (.error .tooShort) := by
  have hpadded : (len + 3) / 4 * 4 = len + padding len := by
    unfold padding
    omega
  unfold chars
  rw [hpadded]
  split_ifs with hthere hzero
  all_goals have htake := take_eq (len + padding len) s
  · rw [if_pos hthere] at htake
    have hbyte : (s.take (len + padding len))[len - 1]? = some 0 := by
      rw [List.getElem?_take_of_lt (by omega), hzero]
    have htext : (s.take (len + padding len)).take (len - 1) = s.take (len - 1) := by
      rw [List.take_take, Nat.min_eq_left (by omega)]
    rw [Reader.bind_of htake, Reader.bind_of (show Reader.index _ _ _ = .ok (0, _) by
      rw [Reader.index, hbyte]), if_neg (by simp), htext]
    rcases fromUtf8 (s.take (len - 1)) with _ | text <;> rfl
  · rw [if_pos hthere] at htake
    obtain ⟨b, hb⟩ : ∃ b, s[len - 1]? = some b := ⟨_, List.getElem?_eq_getElem (by omega)⟩
    have hbyte : (s.take (len + padding len))[len - 1]? = some b := by
      rw [List.getElem?_take_of_lt (by omega), hb]
    rw [Reader.bind_of htake, Reader.bind_of (show Reader.index _ _ _ = .ok (b, _) by
      rw [Reader.index, hbyte]), if_pos (by rintro rfl; exact hzero hb)]
    rfl
  · rw [if_neg hthere] at htake
    exact Reader.bind_of_error htake _

theorem reads_chars (len : ℕ) (hlen : 0 < len) : Reads limit (chars len) utf8 (Scan.chars len) where
  iff s _ text s' := by
    rw [chars_eq hlen, Scan.chars]
    by_cases hthere : len + padding len ≤ s.length
    · by_cases hzero : s[len - 1]? = some 0
      · rw [if_pos hthere, if_pos hzero, if_pos ⟨hlen, hthere, hzero⟩]
        constructor
        · rcases htext : fromUtf8 (s.take (len - 1)) with _ | text'
          · rintro ⟨⟩
          · rintro ⟨⟩
            rw [utf8_fromUtf8 htext]
        · intro h
          obtain ⟨htext, rfl⟩ := Prod.mk.inj (Option.some.inj h)
          rw [htext, fromUtf8_utf8]
      · rw [if_pos hthere, if_neg hzero, if_neg fun h => hzero h.2.2]
        exact ⟨by rintro ⟨⟩, by rintro ⟨⟩⟩
    · rw [if_neg hthere, if_neg fun h => hthere h.2.1]
      exact ⟨by rintro ⟨⟩, by rintro ⟨⟩⟩
  shrinks s text s' h := by
    unfold Scan.chars at h
    split_ifs at h
    obtain ⟨-, rfl⟩ := Prod.mk.inj (Option.some.inj h)
    rw [List.length_drop]
    omega

theorem reads_string : Reads limit string utf8 Scan.string := by
  refine reads_u32.bind fun len => ?_
  by_cases hlen : len = 0
  · rw [if_pos hlen, hlen]
    exact .fail (fun s _ => by simp [Scan.chars]) ((consumes_chars 0).mono (Nat.zero_le 4))
  · rw [if_neg hlen]
    refine reads_chars len.toNat (Nat.pos_of_ne_zero fun hzero => hlen ?_)
    exact UInt32.toNat_inj.1 hzero

theorem reads_scalar (e : Elem) : Reads limit (scalar e) (Scalar.map utf8) (Scan.scalar e) := by
  cases e with
  | u32 => exact reads_u32.wrap fun v z => by cases z <;> simp [Scalar.map]
  | i32 => exact reads_i32.wrap fun v z => by cases z <;> simp [Scalar.map]
  | u64 => exact reads_u64.wrap fun v z => by cases z <;> simp [Scalar.map]
  | i64 => exact reads_i64.wrap fun v z => by cases z <;> simp [Scalar.map]
  | f32 => exact reads_u32.wrap fun v z => by cases z <;> simp [Scalar.map]
  | f64 => exact reads_u64.wrap fun v z => by cases z <;> simp [Scalar.map]
  | string => exact reads_string.map fun v z => by cases z <;> simp [Scalar.map, eq_comm]

theorem reads_pair : Reads limit pair (Prod.map utf8 utf8) Scan.pair := by
  refine reads_string.seq reads_string fun k v z => ?_
  cases z
  simp [eq_comm]

theorem reads_value (h : Helper) : Reads limit (value h) (Value.map utf8) (Scan.value h) := by
  cases h with
  | one e =>
    refine (reads_scalar e).map fun x z => ?_
    cases z <;> simp [Value.map, eq_comm]
  | rect =>
    refine reads_u32.bind fun x => reads_u32.bind fun y => reads_u32.bind fun w => ?_
    refine reads_u32.wrap fun d z => ?_
    cases z <;> simp [Value.map]
  | kvList =>
    refine reads_u32.bind fun n => (reads_pair.times n.toNat).map fun xs z => ?_
    cases z <;> simp [Value.map, eq_comm]
  | array e =>
    refine reads_u32.bind fun n => ((reads_scalar e).times n.toNat).map fun xs z => ?_
    cases z <;> simp [Value.map, eq_comm]

theorem reads_args (helpers : List Helper) :
    Reads limit (args helpers) (List.map (Value.map utf8)) (Scan.body helpers) := by
  induction helpers with
  | nil => exact .nil
  | cons h helpers ih =>
    refine (reads_value h).seq ih fun v vs zs => ?_
    cases zs <;> simp [eq_comm]

end

/-! ## No reader crashes -/

theorem safe_take (n : ℕ) : (take n).Safe := .need_slice n _

theorem safe_u32 : u32.Safe := (safe_take 4).bind fun _ => .pure _

theorem safe_u64 : u64.Safe := (safe_take 8).bind fun _ => .pure _

theorem safe_chars {len : ℕ} (hlen : 0 < len) : (chars len).Safe := by
  intro s hcrash
  rw [chars_eq hlen] at hcrash
  split_ifs at hcrash
  · split at hcrash <;> cases hcrash
  · cases hcrash
  · cases hcrash

theorem safe_string : string.Safe := by
  refine safe_u32.bind fun len => ?_
  by_cases hlen : len = 0
  · rw [if_pos hlen]
    exact .fail _
  · rw [if_neg hlen]
    exact safe_chars (Nat.pos_of_ne_zero fun hzero => hlen (UInt32.toNat_inj.1 hzero))

theorem safe_scalar (e : Elem) : (scalar e).Safe := by
  cases e with
  | u32 => exact safe_u32.bind fun _ => .pure _
  | i32 => exact ((safe_take 4).bind fun _ => .pure _).bind fun _ => .pure _
  | u64 => exact safe_u64.bind fun _ => .pure _
  | i64 => exact ((safe_take 8).bind fun _ => .pure _).bind fun _ => .pure _
  | f32 => exact safe_u32.bind fun _ => .pure _
  | f64 => exact safe_u64.bind fun _ => .pure _
  | string => exact safe_string.bind fun _ => .pure _

theorem safe_pair : pair.Safe := safe_string.bind fun _ => safe_string.bind fun _ => .pure _

theorem safe_value (h : Helper) : (value h).Safe := by
  cases h with
  | one e => exact (safe_scalar e).bind fun _ => .pure _
  | rect =>
    exact safe_u32.bind fun _ => safe_u32.bind fun _ => safe_u32.bind fun _ =>
      safe_u32.bind fun _ => .pure _
  | kvList => exact safe_u32.bind fun n => (safe_pair.times n.toNat).bind fun _ => .pure _
  | array e => exact safe_u32.bind fun n => ((safe_scalar e).times n.toNat).bind fun _ => .pure _

theorem safe_args (helpers : List Helper) : (args helpers).Safe := by
  induction helpers with
  | nil => exact .pure []
  | cons h helpers ih => exact (safe_value h).bind fun _ => ih.bind fun _ => .pure _

/-! ## Whole bodies -/

theorem message_eq_ok {helpers : List Helper} {body : List UInt8} {values : List (Value String)} :
    message helpers body = .ok values ↔ args helpers body = .ok (values, []) := by
  unfold message
  rcases args helpers body with e | ⟨values', rest⟩
  · simp
  · by_cases hrest : rest = [] <;> simp [hrest]

theorem message_ne_crash (helpers : List Helper) (body : List UInt8) :
    message helpers body ≠ .error .crash := by
  have hsafe : args helpers body ≠ .error .crash := safe_args helpers body
  unfold message
  split
  · next e he =>
    rintro ⟨⟩
    exact hsafe he
  · split_ifs <;> rintro ⟨⟩

end Rust

end Waywallen.Wayproto
