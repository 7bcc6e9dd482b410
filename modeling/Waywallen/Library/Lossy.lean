import Mathlib.Data.List.Basic

/-!
# Reading bytes as text

Bytes that begin no character are read as replacement characters, one for the longest front that
could have been the beginning of one. What is read from the bytes of a text is that text, and an
ASCII byte is in what was read only if it was among the bytes.
-/

namespace Utf8

def encode (text : List Char) : List UInt8 :=
  text.flatMap String.utf8EncodeChar

def decodeChar (bytes : List UInt8) : Option Char :=
  bytes.toByteArray.utf8DecodeChar? 0

def isContinuation (b : UInt8) : Bool :=
  0x80 ≤ b && b ≤ 0xBF

/-- Whether two bytes begin some character of three bytes or four. -/
def beginsWide (b c : UInt8) : Bool :=
  b = 0xE0 && 0xA0 ≤ c && c ≤ 0xBF || 0xE1 ≤ b && b ≤ 0xEC && isContinuation c ||
    b = 0xED && 0x80 ≤ c && c ≤ 0x9F || 0xEE ≤ b && b ≤ 0xEF && isContinuation c ||
    b = 0xF0 && 0x90 ≤ c && c ≤ 0xBF || 0xF1 ≤ b && b ≤ 0xF3 && isContinuation c ||
    b = 0xF4 && 0x80 ≤ c && c ≤ 0x8F

/-- How many of the bytes, which begin no character, are replaced by one. -/
def invalidLength : List UInt8 → ℕ
  | b :: c :: bytes =>
    if beginsWide b c then if 0xF0 ≤ b && bytes.head?.any isContinuation then 3 else 2 else 1
  | _ => 1

theorem invalidLength_pos (bytes : List UInt8) : 0 < invalidLength bytes := by
  unfold invalidLength
  split
  · split
    · split <;> decide
    · exact Nat.one_pos
  · exact Nat.one_pos

def replacement : Char := '\uFFFD'

/-- `String::from_utf8_lossy`. -/
def fromUtf8Lossy : List UInt8 → List Char
  | [] => []
  | b :: bytes =>
    match decodeChar (b :: bytes) with
    | some c => c :: fromUtf8Lossy ((b :: bytes).drop c.utf8Size)
    | none => replacement :: fromUtf8Lossy ((b :: bytes).drop (invalidLength (b :: bytes)))
termination_by bytes => bytes.length
decreasing_by
  · have := c.utf8Size_pos
    rw [List.length_drop, List.length_cons]
    omega
  · have := invalidLength_pos (b :: bytes)
    rw [List.length_drop, List.length_cons]
    omega

section

variable {bytes : List UInt8} {c : Char} {b : UInt8}

@[simp]
theorem fromUtf8Lossy_nil : fromUtf8Lossy [] = [] := by
  rw [fromUtf8Lossy]

theorem fromUtf8Lossy_of_some (hne : bytes ≠ []) (h : decodeChar bytes = some c) :
    fromUtf8Lossy bytes = c :: fromUtf8Lossy (bytes.drop c.utf8Size) := by
  cases bytes with
  | nil => exact absurd rfl hne
  | cons b bytes => rw [fromUtf8Lossy, h]

theorem encode_cons (c : Char) (text : List Char) :
    encode (c :: text) = String.utf8EncodeChar c ++ encode text :=
  List.flatMap_cons

theorem decodeChar_encodeChar (c : Char) (bytes : List UInt8) :
    decodeChar (String.utf8EncodeChar c ++ bytes) = some c := by
  rw [decodeChar, List.toByteArray_append]
  exact ByteArray.utf8DecodeChar?_utf8EncodeChar_append

theorem encodeChar_of_decodeChar (h : decodeChar bytes = some c) :
    String.utf8EncodeChar c = bytes.take c.utf8Size := by
  have hbytes := congrArg (fun a : ByteArray => a.data.toList)
    (String.toByteArray_utf8EncodeChar_of_utf8DecodeChar?_eq_some h)
  simpa using hbytes

/-- The bytes of a character in front are read as that character. -/
theorem fromUtf8Lossy_encodeChar (c : Char) (bytes : List UInt8) :
    fromUtf8Lossy (String.utf8EncodeChar c ++ bytes) = c :: fromUtf8Lossy bytes := by
  have hne : String.utf8EncodeChar c ++ bytes ≠ [] := by simp
  rw [fromUtf8Lossy_of_some hne (decodeChar_encodeChar c bytes), ← String.length_utf8EncodeChar,
    List.drop_left]

@[simp]
theorem fromUtf8Lossy_encode (text : List Char) : fromUtf8Lossy (encode text) = text := by
  induction text with
  | nil => exact fromUtf8Lossy_nil
  | cons c text ih => rw [encode_cons, fromUtf8Lossy_encodeChar, ih]

/-- The bytes of what was read are those that were there, or those of the replacement. -/
theorem mem_encode_fromUtf8Lossy (h : b ∈ encode (fromUtf8Lossy bytes)) :
    b ∈ bytes ∨ b ∈ String.utf8EncodeChar replacement := by
  induction bytes using fromUtf8Lossy.induct with
  | case1 =>
    rw [fromUtf8Lossy_nil] at h
    exact absurd h List.not_mem_nil
  | case2 b' bytes c hc ih =>
    rw [fromUtf8Lossy_of_some (List.cons_ne_nil _ _) hc, encode_cons, List.mem_append] at h
    rcases h with h | h
    · rw [encodeChar_of_decodeChar hc] at h
      exact .inl (List.mem_of_mem_take h)
    · exact (ih h).imp_left List.mem_of_mem_drop
  | case3 b' bytes hc ih =>
    rw [fromUtf8Lossy, hc] at h
    dsimp only at h
    rw [encode_cons, List.mem_append] at h
    exact h.elim .inr fun h => (ih h).imp_left List.mem_of_mem_drop

/-- An ASCII byte is the one byte of its character. -/
theorem encodeChar_ascii (h : b < 0x80) : ∃ c, String.utf8EncodeChar c = [b] := by
  have hb : b.toNat < 0x80 := h
  have hvalid : b.toNat.isValidChar := .inl (by omega)
  have hval : (Char.ofNat b.toNat).val.toNat = b.toNat := by
    rw [Char.ofNat, dif_pos hvalid]
    rfl
  refine ⟨Char.ofNat b.toNat, ?_⟩
  rw [String.utf8EncodeChar, hval, if_pos (by omega), UInt8.ofNat_toNat]

theorem encode_fromUtf8Lossy_ascii (h : ∀ b ∈ bytes, b < 0x80) :
    encode (fromUtf8Lossy bytes) = bytes := by
  induction bytes with
  | nil =>
    rw [fromUtf8Lossy_nil]
    rfl
  | cons b bytes ih =>
    obtain ⟨c, hc⟩ := encodeChar_ascii (h b List.mem_cons_self)
    have hcons : fromUtf8Lossy (b :: bytes) = c :: fromUtf8Lossy bytes := by
      have hchar := fromUtf8Lossy_encodeChar c bytes
      rwa [hc] at hchar
    rw [hcons, encode_cons, hc, ih fun b hb => h b (List.mem_cons_of_mem _ hb)]
    rfl

theorem notMem_of_ascii (hb : b < 0x80) (h : b ∉ bytes) : b ∉ encode (fromUtf8Lossy bytes) := by
  intro hmem
  rcases mem_encode_fromUtf8Lossy hmem with hmem | hmem
  · exact h hmem
  · rw [show String.utf8EncodeChar replacement = [0xEF, 0xBF, 0xBD] from rfl] at hmem
    simp only [List.mem_cons, List.not_mem_nil, or_false] at hmem
    rcases hmem with rfl | rfl | rfl
    all_goals exact absurd hb (by decide)

theorem encodeChar_of_lt (h : c.toNat < 0x80) : String.utf8EncodeChar c = [UInt8.ofNat c.toNat] := by
  have hle : c.val.toNat ≤ 0x7F := Nat.le_of_lt_succ h
  rw [String.utf8EncodeChar, if_pos hle]
  rfl

/-- The bytes of a character that is not ASCII are not ASCII either. -/
theorem le_of_mem_encodeChar (h : 0x80 ≤ c.toNat) (hb : b ∈ String.utf8EncodeChar c) : 0x80 ≤ b := by
  have hbyte (n k : ℕ) (hk : 0x80 ≤ k) (hlt : n + k < 0x100) : 0x80 ≤ UInt8.ofNat (n + k) := by
    rw [UInt8.le_iff_toNat_le, UInt8.toNat_ofNat', Nat.mod_eq_of_lt hlt]
    exact Nat.le_trans hk (Nat.le_add_left k n)
  have hv : ¬c.val.toNat ≤ 0x7F := Nat.not_le.2 h
  rw [String.utf8EncodeChar, if_neg hv] at hb
  split at hb
  · simp only [List.mem_cons, List.not_mem_nil, or_false] at hb
    rcases hb with rfl | rfl
    all_goals exact hbyte _ _ (by decide) (by omega)
  · split at hb
    · simp only [List.mem_cons, List.not_mem_nil, or_false] at hb
      rcases hb with rfl | rfl | rfl
      all_goals exact hbyte _ _ (by decide) (by omega)
    · simp only [List.mem_cons, List.not_mem_nil, or_false] at hb
      rcases hb with rfl | rfl | rfl | rfl
      all_goals exact hbyte _ _ (by decide) (by omega)

/-- No character begins with the bytes of another one. -/
theorem prefix_encode_iff {needle text : List Char} :
    encode needle <+: encode text ↔ needle <+: text := by
  constructor
  · intro h
    induction needle generalizing text with
    | nil => exact List.nil_prefix
    | cons c needle ih =>
      obtain ⟨behind, hbehind⟩ := h
      rw [encode_cons, List.append_assoc] at hbehind
      have hchars := congrArg fromUtf8Lossy hbehind
      rw [fromUtf8Lossy_encodeChar, fromUtf8Lossy_encode] at hchars
      cases hchars
      rw [encode_cons, List.append_cancel_left_eq] at hbehind
      exact List.cons_prefix_cons.2 ⟨rfl, ih ⟨behind, hbehind⟩⟩
  · rintro ⟨behind, rfl⟩
    exact ⟨encode behind, by rw [encode, encode, encode, List.flatMap_append]⟩

end

end Utf8
