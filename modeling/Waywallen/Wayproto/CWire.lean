import Waywallen.Wayproto.Format
import Mathlib.Data.List.TakeWhile

/-!
# The generated C codec

The static helpers of the generated source, and what the calls that are generated for a message do.
The allocator is a parameter; a size is 64 bits wide. A string is its bytes up to its final zero.
-/

namespace Waywallen.Wayproto.C

inductive CodecError
  | short
  | badString
  | badArray
  | trailing
  | nomem
  | overflow
deriving DecidableEq

def sizeMax : ℕ := 2 ^ 64 - 1

/-- `ww_buf_t`. -/
structure Buf where
  data : List UInt8
  cap : ℕ
deriving DecidableEq

section

/- Whether `n` bytes can be allocated. -/
variable (alloc : ℕ → Bool)

/-! ## Writers -/

def grow (need newCap : ℕ) (hcap : 0 < newCap) : Option ℕ :=
  if newCap < need then
    if newCap > sizeMax / 2 then none else grow need (newCap * 2) (by omega)
  else some newCap
termination_by need - newCap

theorem firstCap_pos (cap : ℕ) : 0 < if cap = 0 then 64 else cap := by
  split <;> omega

/-- `ww_buf_reserve`. -/
def reserve (b : Buf) (additional : ℕ) : Except CodecError Buf :=
  if additional > sizeMax - b.data.length then .error .overflow
  else
    let need := b.data.length + additional
    if need > b.cap then
      match grow need (if b.cap = 0 then 64 else b.cap) (firstCap_pos b.cap) with
      | none => .error .overflow
      | some newCap => if alloc newCap then .ok { b with cap := newCap } else .error .nomem
    else .ok b

def wBytes (b : Buf) (src : List UInt8) : Except CodecError Buf := do
  let b ← reserve alloc b src.length
  if src.length > b.cap - b.data.length then .error .overflow
  else .ok { b with data := b.data ++ src }

def wU32 (b : Buf) (v : UInt32) : Except CodecError Buf := wBytes alloc b (leBytes 4 v.toNat)

def wI32 (b : Buf) (v : Int32) : Except CodecError Buf := wU32 alloc b v.toUInt32

def wU64 (b : Buf) (v : UInt64) : Except CodecError Buf := wBytes alloc b (leBytes 8 v.toNat)

def wI64 (b : Buf) (v : Int64) : Except CodecError Buf := wU64 alloc b v.toUInt64

def wF32 (b : Buf) (bits : UInt32) : Except CodecError Buf := wU32 alloc b bits

def wF64 (b : Buf) (bits : UInt64) : Except CodecError Buf := wU64 alloc b bits

def wPad4 (b : Buf) : Except CodecError Buf :=
  let pad := (4 - b.data.length % 4) % 4
  if pad = 0 then .ok b else wBytes alloc b (List.replicate pad 0)

/-- `strlen`. -/
def strlen (s : List UInt8) : ℕ := (s.takeWhile (· ≠ 0)).length

def wString (b : Buf) (s : List UInt8) : Except CodecError Buf := do
  let n := strlen s
  if n > 0xfffffffe then .error .overflow
  else
    let b ← wU32 alloc b (UInt32.ofNat (n + 1))
    let b ← wBytes alloc b (s.take n)
    let b ← wBytes alloc b [0]
    wPad4 alloc b

def wRect (b : Buf) (x y w h : UInt32) : Except CodecError Buf := do
  let b ← wF32 alloc b x
  let b ← wF32 alloc b y
  let b ← wF32 alloc b w
  wF32 alloc b h

def wScalar (b : Buf) : Scalar (List UInt8) → Except CodecError Buf
  | .u32 v => wU32 alloc b v
  | .i32 v => wI32 alloc b v
  | .u64 v => wU64 alloc b v
  | .i64 v => wI64 alloc b v
  | .f32 bits => wF32 alloc b bits
  | .f64 bits => wF64 alloc b bits
  | .string s => wString alloc b s

/-- `w_array_u32` and its like. -/
def wArray (b : Buf) (xs : List (Scalar (List UInt8))) : Except CodecError Buf := do
  let b ← wU32 alloc b (UInt32.ofNat xs.length)
  xs.foldlM (wScalar alloc) b

/-- One turn of the loop of `w_kv_list`. -/
def wPair (b : Buf) (kv : List UInt8 × List UInt8) : Except CodecError Buf := do
  let b ← wString alloc b kv.1
  wString alloc b kv.2

def wKvList (b : Buf) (xs : List (List UInt8 × List UInt8)) : Except CodecError Buf := do
  let b ← wU32 alloc b (UInt32.ofNat xs.length)
  xs.foldlM (wPair alloc) b

def wValue (b : Buf) : Value (List UInt8) → Except CodecError Buf
  | .one x => wScalar alloc b x
  | .rect x y w h => wRect alloc b x y w h
  | .kvList xs => wKvList alloc b xs
  | .array xs => wArray alloc b xs

/-- The calls that encode a message, each with its argument; none for arguments that the calls do
not take. -/
def encode : List Helper → List (Value (List UInt8)) → Buf → Option (Except CodecError Buf)
  | [], [], b => some (.ok b)
  | h :: helpers, v :: values, b =>
    if v.fits h then
      match wValue alloc b v with
      | .ok b => encode helpers values b
      | .error e => some (.error e)
    else none
  | _, _, _ => none

/-! ## Readers -/

def rdU32 : Reader CodecError UInt32 := do
  Reader.need 4 .short
  let p ← Reader.slice 4
  return UInt32.ofNat (ofLe p)

def rdI32 : Reader CodecError Int32 := do
  let v ← rdU32
  return v.toInt32

def rdU64 : Reader CodecError UInt64 := do
  Reader.need 8 .short
  let p ← Reader.slice 8
  return UInt64.ofNat (ofLe p)

def rdI64 : Reader CodecError Int64 := do
  let v ← rdU64
  return v.toInt64

def rdF32 : Reader CodecError UInt32 := rdU32

def rdF64 : Reader CodecError UInt64 := rdU64

def rdRect : Reader CodecError (Value (List UInt8)) := do
  let x ← rdF32
  let y ← rdF32
  let w ← rdF32
  let h ← rdF32
  return .rect x y w h

/-- The bytes of a string behind its length; `padded` is `(len + 3u) & ~3u`. -/
def rdChars (len : ℕ) : Reader CodecError (List UInt8) := do
  let padded := (len + 3) / 4 * 4
  if padded < len then Reader.fail .overflow
  else
    Reader.need padded .short
    let last ← Reader.peek (len - 1)
    if last ≠ 0 then Reader.fail .badString
    else if alloc len then
      let copy ← Reader.copy len
      Reader.advance padded
      return copy.take (len - 1)
    else Reader.fail .nomem

def rdString : Reader CodecError (List UInt8) := do
  let len ← rdU32
  if len = 0 then Reader.fail .badString else rdChars alloc len.toNat

def rdScalar : Elem → Reader CodecError (Scalar (List UInt8))
  | .u32 => do return .u32 (← rdU32)
  | .i32 => do return .i32 (← rdI32)
  | .u64 => do return .u64 (← rdU64)
  | .i64 => do return .i64 (← rdI64)
  | .f32 => do return .f32 (← rdF32)
  | .f64 => do return .f64 (← rdF64)
  | .string => do return .string (← rdString alloc)

end

/-- `sizeof` of an element in memory. -/
def sizeOf : Elem → ℕ
  | .u32 => 4
  | .i32 => 4
  | .u64 => 8
  | .i64 => 8
  | .f32 => 4
  | .f64 => 8
  | .string => 8

section

variable (alloc : ℕ → Bool)

/-- Room for `n` elements of `size` bytes, and then the elements. -/
def rdElems {α : Type} (n size : ℕ) (readOne : Reader CodecError α) : Reader CodecError (List α) :=
  if n = 0 then pure []
  else if n > sizeMax / size then Reader.fail .badArray
  else if alloc (n * size) then Reader.times n readOne
  else Reader.fail .nomem

/-- `rd_array_u32` and its like. -/
def rdArray (e : Elem) : Reader CodecError (Value (List UInt8)) := do
  let n ← rdU32
  let xs ← rdElems alloc n.toNat (sizeOf e) (rdScalar alloc e)
  return .array xs

/-- One turn of the loop of `rd_kv_list`. -/
def rdPair : Reader CodecError (List UInt8 × List UInt8) := do
  let k ← rdString alloc
  let v ← rdString alloc
  return (k, v)

def rdKvList : Reader CodecError (Value (List UInt8)) := do
  let n ← rdU32
  let xs ← rdElems alloc n.toNat 16 (rdPair alloc)
  return .kvList xs

def rdValue : Helper → Reader CodecError (Value (List UInt8))
  | .one e => do return .one (← rdScalar alloc e)
  | .rect => rdRect
  | .kvList => rdKvList alloc
  | .array e => rdArray alloc e

/-- The calls that decode a message. -/
def args : List Helper → Reader CodecError (List (Value (List UInt8)))
  | [] => pure []
  | h :: helpers => do
    let v ← rdValue alloc h
    let vs ← args helpers
    return v :: vs

/-- A message is decoded from the whole of a body. -/
def message (helpers : List Helper) (body : List UInt8) :
    Except (Stop CodecError) (List (Value (List UInt8))) :=
  match args alloc helpers body with
  | .error e => .error e
  | .ok (values, rest) => if rest ≠ [] then .error (.error .trailing) else .ok values

end

/-! ## What is written -/

theorem grow_eq (need newCap : ℕ) (hcap : 0 < newCap) (hneed : need ≤ 2 ^ 16) :
    ∃ cap, grow need newCap hcap = some cap ∧ need ≤ cap ∧ (cap = newCap ∨ cap ≤ 2 ^ 17) := by
  induction newCap, hcap using grow.induct need with
  | case1 newCap hcap hlt hmax =>
    unfold sizeMax at hmax
    omega
  | case2 newCap hcap hlt hmax ih =>
    obtain ⟨cap, hgrow, hle, hor⟩ := ih
    rw [grow, if_pos hlt, if_neg hmax]
    exact ⟨cap, hgrow, hle, .inr (by omega)⟩
  | case3 newCap hcap hlt =>
    rw [grow, if_neg hlt]
    exact ⟨newCap, rfl, by omega, .inl rfl⟩

section

variable {alloc : ℕ → Bool}

/-- Blocks of the size of a few frames can be allocated. -/
def Roomy (alloc : ℕ → Bool) : Prop := ∀ n ≤ 2 ^ 17, alloc n = true

theorem reserve_eq (halloc : Roomy alloc) {data : List UInt8} (cap : ℕ) {n : ℕ}
    (h : data.length + n ≤ 65531) :
    ∃ cap', reserve alloc ⟨data, cap⟩ n = .ok ⟨data, cap'⟩ ∧ data.length + n ≤ cap' := by
  have hroom : ¬ n > sizeMax - data.length := by
    unfold sizeMax
    omega
  dsimp only [reserve]
  rw [if_neg hroom]
  by_cases hneed : data.length + n > cap
  · obtain ⟨cap', hgrow, hle, hor⟩ := grow_eq (data.length + n) (if cap = 0 then 64 else cap)
      (by split <;> omega) (by omega)
    have hsmall : cap' ≤ 2 ^ 17 := by
      rcases hor with rfl | h
      · split <;> omega
      · exact h
    refine ⟨cap', ?_, hle⟩
    simp only [if_pos hneed, hgrow, halloc cap' hsmall, if_true]
  · exact ⟨cap, if_neg hneed, by omega⟩

theorem wBytes_eq (halloc : Roomy alloc) {data : List UInt8} (cap : ℕ) {src : List UInt8}
    (h : data.length + src.length ≤ 65531) :
    ∃ cap', wBytes alloc ⟨data, cap⟩ src = .ok ⟨data ++ src, cap'⟩ := by
  obtain ⟨cap', hreserve, hle⟩ := reserve_eq halloc cap h
  refine ⟨cap', ?_⟩
  rw [wBytes, hreserve]
  refine if_neg ?_
  change ¬ src.length > cap' - data.length
  omega

theorem wCount_eq (halloc : Roomy alloc) {data : List UInt8} (cap n : ℕ)
    (h : data.length + 4 ≤ 65531) :
    ∃ cap', wU32 alloc ⟨data, cap⟩ (UInt32.ofNat n) = .ok ⟨data ++ leBytes 4 n, cap'⟩ := by
  have hword : ∃ cap', wU32 alloc ⟨data, cap⟩ (UInt32.ofNat n) =
      .ok ⟨data ++ leBytes 4 (UInt32.ofNat n).toNat, cap'⟩ :=
    wBytes_eq halloc cap (by rwa [length_leBytes])
  rwa [UInt32.toNat_ofNat', leBytes_mod_u32] at hword

theorem wPad4_eq (halloc : Roomy alloc) {data : List UInt8} (cap : ℕ)
    (h : data.length + padding data.length ≤ 65531) :
    ∃ cap', wPad4 alloc ⟨data, cap⟩ =
      .ok ⟨data ++ List.replicate (padding data.length) 0, cap'⟩ := by
  change ∃ cap', (if padding data.length = 0 then _ else _) = _
  by_cases hpad : padding data.length = 0
  · rw [if_pos hpad, hpad, List.replicate_zero, List.append_nil]
    exact ⟨cap, rfl⟩
  · rw [if_neg hpad]
    exact wBytes_eq halloc cap (by rwa [List.length_replicate])

/-- A text without a zero, as a C string can hold it. -/
def NulFree (s : List UInt8) : Prop := 0 ∉ s

theorem NulFree.strlen_eq {s : List UInt8} (h : NulFree s) : strlen s = s.length := by
  rw [strlen, List.takeWhile_eq_self_iff.2]
  intro b hb
  simp only [decide_eq_true_eq]
  rintro rfl
  exact h hb

theorem wString_eq (halloc : Roomy alloc) {data : List UInt8} (cap : ℕ) {s : List UInt8}
    (hs : NulFree s) (haligned : Aligned data)
    (h : data.length + (Format.string s).length ≤ 65531) :
    ∃ cap', wString alloc ⟨data, cap⟩ s = .ok ⟨data ++ Format.string s, cap'⟩ := by
  rw [length_format_string] at h
  obtain ⟨c₁, h₁⟩ := wCount_eq halloc cap (s.length + 1) (by omega : data.length + 4 ≤ 65531)
  have hlength₁ : (data ++ leBytes 4 (s.length + 1)).length = data.length + 4 := by simp
  obtain ⟨c₂, h₂⟩ := wBytes_eq halloc c₁ (by rw [hlength₁]; omega :
    (data ++ leBytes 4 (s.length + 1)).length + s.length ≤ 65531)
  have hlength₂ : (data ++ leBytes 4 (s.length + 1) ++ s).length = data.length + 4 + s.length := by
    rw [List.length_append, hlength₁]
  obtain ⟨c₃, h₃⟩ := wBytes_eq halloc c₂ (by rw [hlength₂, List.length_singleton]; omega :
    (data ++ leBytes 4 (s.length + 1) ++ s).length + [(0 : UInt8)].length ≤ 65531)
  have hlength₃ : (data ++ leBytes 4 (s.length + 1) ++ s ++ [0]).length =
      data.length + 4 + (s.length + 1) := by
    simp
    omega
  have hpad : padding (data ++ leBytes 4 (s.length + 1) ++ s ++ [0]).length =
      padding (s.length + 1) := by
    unfold Aligned at haligned
    rw [hlength₃]
    unfold padding
    omega
  obtain ⟨c₄, h₄⟩ := wPad4_eq halloc c₃ (by rw [hpad, hlength₃]; omega :
    (data ++ leBytes 4 (s.length + 1) ++ s ++ [0]).length + padding _ ≤ 65531)
  refine ⟨c₄, ?_⟩
  have hshort : ¬ s.length > 0xfffffffe := by omega
  rw [hpad] at h₄
  simp only [wString, hs.strlen_eq, if_neg hshort, List.take_length, h₁, h₂, h₃, h₄, bind,
    Except.bind]
  simp only [Format.string, List.append_assoc, List.singleton_append]

/-! Writers one after the other. -/

/-- The writer appends the given bytes, as long as the buffer stays within one body. -/
def Writes (w : Buf → Except CodecError Buf) (bytes : List UInt8) : Prop :=
  ∀ b, Aligned b.data → b.data.length + bytes.length ≤ 65531 →
    ∃ cap, w b = .ok ⟨b.data ++ bytes, cap⟩

theorem Writes.seq {w w' : Buf → Except CodecError Buf} {bytes bytes' : List UInt8}
    (h : Writes w bytes) (haligned : Aligned bytes) (h' : Writes w' bytes') :
    Writes (fun b => do let b ← w b; w' b) (bytes ++ bytes') := by
  intro b hb hlength
  rw [List.length_append] at hlength
  obtain ⟨cap, hw⟩ := h b hb (by omega)
  obtain ⟨cap', hw'⟩ := h' ⟨b.data ++ bytes, cap⟩ (hb.append haligned) (by
    rw [List.length_append]
    omega)
  refine ⟨cap', ?_⟩
  change Except.bind (w b) w' = _
  rw [hw, ← List.append_assoc]
  exact hw'

theorem writes_foldlM {α : Type} {w : Buf → α → Except CodecError Buf} {format : α → List UInt8}
    {xs : List α} (h : ∀ x ∈ xs, Writes (w · x) (format x)) (haligned : ∀ x, Aligned (format x)) :
    Writes (xs.foldlM w) (xs.flatMap format) := by
  induction xs with
  | nil =>
    intro b _ _
    exact ⟨b.cap, by simp [pure, Except.pure]⟩
  | cons x xs ih =>
    exact (h x List.mem_cons_self).seq (haligned x)
      (ih fun y hy => h y (List.mem_cons_of_mem _ hy))

theorem writes_bytes (halloc : Roomy alloc) (src : List UInt8) :
    Writes (wBytes alloc · src) src :=
  fun b _ h => wBytes_eq halloc b.cap h

theorem writes_count (halloc : Roomy alloc) (n : ℕ) :
    Writes (wU32 alloc · (UInt32.ofNat n)) (leBytes 4 n) :=
  fun b _ h => wCount_eq halloc b.cap n (by rwa [length_leBytes] at h)

theorem writes_string (halloc : Roomy alloc) {s : List UInt8} (hs : NulFree s) :
    Writes (wString alloc · s) (Format.string s) :=
  fun b hb h => wString_eq halloc b.cap hs hb h

theorem writes_scalar (halloc : Roomy alloc) {x : Scalar (List UInt8)}
    (hx : ∀ s ∈ (Value.one x).strings, NulFree s) :
    Writes (wScalar alloc · x) (Format.scalar x) := by
  cases x with
  | string s => exact writes_string halloc (hx s List.mem_cons_self)
  | _ => exact writes_bytes halloc _

theorem writes_pair (halloc : Roomy alloc) {kv : List UInt8 × List UInt8} (hk : NulFree kv.1)
    (hv : NulFree kv.2) : Writes (wPair alloc · kv) (Format.pair kv) :=
  (writes_string halloc hk).seq (aligned_string _) (writes_string halloc hv)

theorem writes_value (halloc : Roomy alloc) {v : Value (List UInt8)}
    (hv : ∀ s ∈ v.strings, NulFree s) : Writes (wValue alloc · v) (Format.value v) := by
  cases v with
  | one x => exact writes_scalar halloc hv
  | rect x y w h =>
    have hword : ∀ n : ℕ, Aligned (leBytes 4 n) := fun n => aligned_leBytes rfl
    exact (writes_bytes halloc _).seq (hword _) ((writes_bytes halloc _).seq (hword _)
      ((writes_bytes halloc _).seq (hword _) (writes_bytes halloc _)))
  | kvList xs =>
    refine (writes_count halloc xs.length).seq (aligned_leBytes rfl)
      (writes_foldlM (fun kv hkv => writes_pair halloc ?_ ?_) aligned_pair)
    · exact hv kv.1 (List.mem_flatMap.2 ⟨kv, hkv, List.mem_cons_self⟩)
    · exact hv kv.2 (List.mem_flatMap.2 ⟨kv, hkv, by simp⟩)
  | array xs =>
    refine (writes_count halloc xs.length).seq (aligned_leBytes rfl)
      (writes_foldlM (fun x hx => writes_scalar halloc fun s hs => ?_) aligned_scalar)
    refine hv s (List.mem_filterMap.2 ⟨x, hx, ?_⟩)
    cases x with
    | string s' => rw [List.mem_singleton.1 hs]
    | _ => cases hs

/-- The calls for a message write its format. -/
theorem encode_eq (halloc : Roomy alloc) {helpers : List Helper}
    {values : List (Value (List UInt8))} (h : Fits values helpers)
    (hv : ∀ v ∈ values, ∀ s ∈ v.strings, NulFree s) {b : Buf} (hb : Aligned b.data)
    (hlength : b.data.length + (Format.body values).length ≤ 65531) :
    ∃ cap, encode alloc helpers values b = some (.ok ⟨b.data ++ Format.body values, cap⟩) := by
  induction h generalizing b with
  | nil => exact ⟨b.cap, by simp [encode, Format.body]⟩
  | @cons v h values helpers hfits _ ih =>
    have hbody : Format.body (v :: values) = Format.value v ++ Format.body values := rfl
    rw [hbody, List.length_append] at hlength
    obtain ⟨cap, hw⟩ := writes_value halloc (hv v List.mem_cons_self) b hb (by omega)
    obtain ⟨cap', hrest⟩ := @ih (fun v' hv' => hv v' (List.mem_cons_of_mem _ hv'))
      ⟨b.data ++ Format.value v, cap⟩ (hb.append (aligned_value v)) (by
        rw [List.length_append]
        omega)
    refine ⟨cap', ?_⟩
    simp only [encode, if_pos hfits, hw, hrest, hbody, List.append_assoc]

/-! ## What is read -/

variable {limit : ℕ}

theorem reads_u32 : Reads limit rdU32 id Scan.u32 := by
  have h : Reads limit (do let bytes ← (do Reader.need 4 CodecError.short; Reader.slice 4)
                           return UInt32.ofNat (ofLe bytes)) id Scan.u32 :=
    (Reads.need_slice 4 _).wrap fun _ _ => Iff.rfl
  simp only [bind_assoc] at h
  exact h

theorem reads_u64 : Reads limit rdU64 id Scan.u64 := by
  have h : Reads limit (do let bytes ← (do Reader.need 8 CodecError.short; Reader.slice 8)
                           return UInt64.ofNat (ofLe bytes)) id Scan.u64 :=
    (Reads.need_slice 8 _).wrap fun _ _ => Iff.rfl
  simp only [bind_assoc] at h
  exact h

theorem reads_i32 : Reads limit rdI32 id Scan.i32 := by
  have h : Reads limit rdI32 id (do let v ← Scan.u32; return v.toInt32) :=
    reads_u32.wrap fun _ _ => Iff.rfl
  simp only [Scan.u32, bind_assoc, pure_bind] at h
  exact h

theorem reads_i64 : Reads limit rdI64 id Scan.i64 := by
  have h : Reads limit rdI64 id (do let v ← Scan.u64; return v.toInt64) :=
    reads_u64.wrap fun _ _ => Iff.rfl
  simp only [Scan.u64, bind_assoc, pure_bind] at h
  exact h

/-- The characters of a string, as the format has them. -/
theorem rdChars_eq {len : ℕ} (hlen : 0 < len) (s : List UInt8) :
    rdChars alloc len s =
      if len + padding len ≤ s.length then
        if s[len - 1]? = some 0 then
          if alloc len then .ok (s.take (len - 1), s.drop (len + padding len))
          else .error (.error .nomem)
        else .error (.error .badString)
      else .error (.error .short) := by
  have hpadded : (len + 3) / 4 * 4 = len + padding len := by
    unfold padding
    omega
  unfold rdChars
  rw [hpadded, if_neg (by omega)]
  by_cases hthere : len + padding len ≤ s.length
  · have hneed : Reader.need (len + padding len) CodecError.short s = .ok ((), s) := if_pos hthere
    obtain ⟨b, hb⟩ : ∃ b, s[len - 1]? = some b := ⟨_, List.getElem?_eq_getElem (by omega)⟩
    have hpeek : (Reader.peek (len - 1) : Reader CodecError UInt8) s = .ok (b, s) := by
      rw [Reader.peek, hb]
    rw [if_pos hthere, Reader.bind_of hneed, Reader.bind_of hpeek]
    by_cases hzero : b = 0
    · have hbyte : s[len - 1]? = some 0 := by rw [hb, hzero]
      rw [if_neg (not_not_intro hzero), if_pos hbyte]
      by_cases hroom : alloc len = true
      · have hcopy : (Reader.copy len : Reader CodecError _) s = .ok (s.take len, s) :=
          if_pos (by omega)
        have hadvance : (Reader.advance (len + padding len) : Reader CodecError Unit) s =
            .ok ((), s.drop (len + padding len)) := if_pos hthere
        rw [if_pos hroom, if_pos hroom, Reader.bind_of hcopy, Reader.bind_of hadvance,
          List.take_take, Nat.min_eq_left (by omega)]
        rfl
      · rw [if_neg hroom, if_neg hroom]
        rfl
    · rw [if_pos hzero, if_neg (by rw [hb]; simpa using hzero)]
      rfl
  · rw [if_neg hthere]
    exact Reader.bind_of_error (if_neg hthere) _

theorem reads_chars (halloc : ∀ n ≤ limit, alloc n = true) {len : ℕ} (hlen : 0 < len) :
    Reads limit (rdChars alloc len) id (Scan.chars len) where
  iff s hs text s' := by
    rw [rdChars_eq hlen, Scan.chars]
    by_cases hthere : len + padding len ≤ s.length
    · by_cases hzero : s[len - 1]? = some 0
      · rw [if_pos hthere, if_pos hzero, if_pos (halloc len (by omega)),
          if_pos ⟨hlen, hthere, hzero⟩]
        simp
      · rw [if_pos hthere, if_neg hzero, if_neg fun h => hzero h.2.2]
        exact ⟨by rintro ⟨⟩, by rintro ⟨⟩⟩
    · rw [if_neg hthere, if_neg fun h => hthere h.2.1]
      exact ⟨by rintro ⟨⟩, by rintro ⟨⟩⟩
  shrinks := (consumes_chars len).mono (Nat.zero_le 4)

theorem reads_string (halloc : ∀ n ≤ limit, alloc n = true) :
    Reads limit (rdString alloc) id Scan.string := by
  refine reads_u32.bind fun len => ?_
  by_cases hlen : len = 0
  · rw [if_pos hlen, hlen]
    exact .fail (fun s _ => by simp [Scan.chars]) ((consumes_chars 0).mono (Nat.zero_le 4))
  · rw [if_neg hlen]
    exact reads_chars halloc (Nat.pos_of_ne_zero fun hzero => hlen (UInt32.toNat_inj.1 hzero))

theorem reads_scalar (halloc : ∀ n ≤ limit, alloc n = true) (e : Elem) :
    Reads limit (rdScalar alloc e) id (Scan.scalar e) := by
  cases e with
  | u32 => exact reads_u32.wrap fun _ _ => Iff.rfl
  | i32 => exact reads_i32.wrap fun _ _ => Iff.rfl
  | u64 => exact reads_u64.wrap fun _ _ => Iff.rfl
  | i64 => exact reads_i64.wrap fun _ _ => Iff.rfl
  | f32 => exact reads_u32.wrap fun _ _ => Iff.rfl
  | f64 => exact reads_u64.wrap fun _ _ => Iff.rfl
  | string => exact (reads_string halloc).wrap fun _ _ => Iff.rfl

theorem consumes_scalar (e : Elem) : (Scan.scalar e).Consumes (sizeOf e) := by
  cases e with
  | u32 => exact consumes_u32.bind fun _ => Scanner.consumes_pure _
  | i32 => exact consumes_i32.bind fun _ => Scanner.consumes_pure _
  | u64 => exact consumes_u64.bind fun _ => Scanner.consumes_pure _
  | i64 => exact consumes_i64.bind fun _ => Scanner.consumes_pure _
  | f32 => exact consumes_u32.bind fun _ => Scanner.consumes_pure _
  | f64 => exact consumes_u64.bind fun _ => Scanner.consumes_pure _
  | string => exact consumes_string.bind fun _ => Scanner.consumes_pure _

/-- An array whose elements are all there has room: in memory they are no larger than on the
wire. -/
theorem reads_elems {α : Type} (halloc : ∀ n ≤ limit, alloc n = true) {n size : ℕ}
    (hn : n < 2 ^ 32) (hsize : 0 < size ∧ size ≤ 16) {r : Reader CodecError α} {q : Scanner α}
    (hr : Reads limit r id q) (hq : q.Consumes size) :
    Reads limit (rdElems alloc n size r) (List.map id) (Scanner.times n q) := by
  have hmax : ¬ n > sizeMax / size := by
    rw [gt_iff_lt, Nat.div_lt_iff_lt_mul hsize.1]
    unfold sizeMax
    have : n * size ≤ n * 16 := Nat.mul_le_mul_left n hsize.2
    omega
  unfold rdElems
  by_cases hzero : n = 0
  · rw [if_pos hzero, hzero]
    exact .nil
  rw [if_neg hzero, if_neg hmax]
  by_cases hroom : alloc (n * size) = true
  · rw [if_pos hroom]
    exact hr.times n
  · have hnone : ∀ s, s.length ≤ limit → Scanner.times n q s = none := by
      intro s hs
      rcases hfound : Scanner.times n q s with _ | ⟨xs, s'⟩
      · rfl
      · have hle := hq.times n s xs s' hfound
        exact absurd (halloc (n * size) (by omega)) hroom
    rw [if_neg hroom]
    exact .fail hnone (hq.times n |>.mono (Nat.zero_le _))

theorem reads_pair (halloc : ∀ n ≤ limit, alloc n = true) :
    Reads limit (rdPair alloc) id Scan.pair := by
  refine (reads_string halloc).seq (reads_string halloc) fun k v z => ?_
  cases z
  simp [eq_comm]

theorem reads_value (halloc : ∀ n ≤ limit, alloc n = true) (h : Helper) :
    Reads limit (rdValue alloc h) id (Scan.value h) := by
  cases h with
  | one e => exact (reads_scalar halloc e).wrap fun _ _ => Iff.rfl
  | rect =>
    exact reads_u32.bind fun x => reads_u32.bind fun y => reads_u32.bind fun w =>
      reads_u32.wrap fun _ _ => Iff.rfl
  | kvList =>
    refine reads_u32.bind fun n => ?_
    refine (reads_elems halloc n.toNat_lt ⟨by omega, Nat.le_refl _⟩ (reads_pair halloc)
      consumes_pair).map fun xs z => ?_
    simp [eq_comm]
  | array e =>
    refine reads_u32.bind fun n => ?_
    refine (reads_elems halloc n.toNat_lt (by cases e <;> decide) (reads_scalar halloc e)
      (consumes_scalar e)).map fun xs z => ?_
    simp [eq_comm]

theorem reads_args (halloc : ∀ n ≤ limit, alloc n = true) (helpers : List Helper) :
    Reads limit (args alloc helpers) id (Scan.body helpers) := by
  induction helpers with
  | nil =>
    have h : Reads limit (args alloc []) (List.map id) (Scan.body []) := .nil
    rwa [List.map_id_fun] at h
  | cons h helpers ih =>
    refine (reads_value halloc h).seq ih fun v vs zs => ?_
    simp [eq_comm]

/-! ## No reader crashes, whatever can be allocated -/

theorem safe_u32 : rdU32.Safe := by
  have h : (do let bytes ← (do Reader.need 4 CodecError.short; Reader.slice 4)
               return UInt32.ofNat (ofLe bytes)).Safe :=
    (Reader.Safe.need_slice 4 CodecError.short).bind fun _ => .pure _
  simp only [bind_assoc] at h
  exact h

theorem safe_u64 : rdU64.Safe := by
  have h : (do let bytes ← (do Reader.need 8 CodecError.short; Reader.slice 8)
               return UInt64.ofNat (ofLe bytes)).Safe :=
    (Reader.Safe.need_slice 8 CodecError.short).bind fun _ => .pure _
  simp only [bind_assoc] at h
  exact h

theorem safe_chars {len : ℕ} (hlen : 0 < len) : (rdChars alloc len).Safe := by
  intro s hcrash
  rw [rdChars_eq hlen] at hcrash
  split_ifs at hcrash <;> cases hcrash

theorem safe_string : (rdString alloc).Safe := by
  refine safe_u32.bind fun len => ?_
  by_cases hlen : len = 0
  · rw [if_pos hlen]
    exact .fail _
  · rw [if_neg hlen]
    exact safe_chars (Nat.pos_of_ne_zero fun hzero => hlen (UInt32.toNat_inj.1 hzero))

theorem safe_scalar (e : Elem) : (rdScalar alloc e).Safe := by
  cases e with
  | u32 => exact safe_u32.bind fun _ => .pure _
  | i32 => exact (safe_u32.bind fun _ => .pure _).bind fun _ => .pure _
  | u64 => exact safe_u64.bind fun _ => .pure _
  | i64 => exact (safe_u64.bind fun _ => .pure _).bind fun _ => .pure _
  | f32 => exact safe_u32.bind fun _ => .pure _
  | f64 => exact safe_u64.bind fun _ => .pure _
  | string => exact safe_string.bind fun _ => .pure _

theorem safe_elems {α : Type} {r : Reader CodecError α} (h : r.Safe) (n size : ℕ) :
    (rdElems alloc n size r).Safe := by
  unfold rdElems
  split_ifs
  · exact .pure []
  · exact .fail _
  · exact h.times n
  · exact .fail _

theorem safe_pair : (rdPair alloc).Safe :=
  safe_string.bind fun _ => safe_string.bind fun _ => .pure _

theorem safe_value (h : Helper) : (rdValue alloc h).Safe := by
  cases h with
  | one e => exact (safe_scalar e).bind fun _ => .pure _
  | rect =>
    exact safe_u32.bind fun _ => safe_u32.bind fun _ => safe_u32.bind fun _ =>
      safe_u32.bind fun _ => .pure _
  | kvList => exact safe_u32.bind fun n => (safe_elems safe_pair _ _).bind fun _ => .pure _
  | array e => exact safe_u32.bind fun n => (safe_elems (safe_scalar e) _ _).bind fun _ => .pure _

theorem safe_args (helpers : List Helper) : (args alloc helpers).Safe := by
  induction helpers with
  | nil => exact .pure []
  | cons h helpers ih => exact (safe_value h).bind fun _ => ih.bind fun _ => .pure _

/-! ## Whole bodies -/

theorem message_eq_ok {helpers : List Helper} {body : List UInt8}
    {values : List (Value (List UInt8))} :
    message alloc helpers body = .ok values ↔ args alloc helpers body = .ok (values, []) := by
  unfold message
  rcases args alloc helpers body with e | ⟨values', rest⟩
  · simp
  · by_cases hrest : rest = [] <;> simp [hrest]

theorem message_ne_crash (helpers : List Helper) (body : List UInt8) :
    message alloc helpers body ≠ .error .crash := by
  have hsafe : args alloc helpers body ≠ .error .crash := safe_args helpers body
  unfold message
  split
  · next e he =>
    rintro ⟨⟩
    exact hsafe he
  · split_ifs <;> rintro ⟨⟩

end

end Waywallen.Wayproto.C
