import Waywallen.Wayproto.Accepted
import Waywallen.Wayproto.Printed

/-!
# The tokenizer on text

A schema is read as text before it is parsed, and the tokenizer works on the bytes of the text.
There it does what the parser on characters does: it returns the same tree, or the same error, whose
position is between two characters.
-/

namespace Waywallen.Wayproto.Tokenizer

open Utf8

section

variable {α β : Type} {src : List UInt8} {m : ParserM α} {f : α → ParserM β} {pos p n k : ℕ}
  {a : α} {rest cs : List Char} {c : Char}

/-- From `pos` the computation returns what the parser on characters does, or the same error, at a
place where a character begins. -/
def Follows (src : List UInt8) (m : ParserM α) (pos : ℕ) {n : ℕ} :
    Except ParseError (Parsed α n) → Prop
  | .ok r => ∃ p, m pos = .ok (r.value, p) ∧ At src p (encode r.rest)
  | .error e => m pos = .error (.error e) ∧ ∃ rest, At src e.pos (encode rest)

theorem bind_of_error {e : Halt} (h : m pos = .error e) (f : α → ParserM β) :
    (m >>= f) pos = .error e := by
  change Except.bind (m pos) (fun x => f x.1 x.2) = _
  rw [h]
  rfl

theorem Follows.bind {x : Except ParseError (Parsed α n)}
    {g : Parsed α n → Except ParseError (Parsed β k)} (h : Follows src m pos x)
    (hf : ∀ r p, m pos = .ok (r.value, p) → At src p (encode r.rest) →
      Follows src (f r.value) p (g r)) :
    Follows src (m >>= f) pos (x >>= g) := by
  cases x with
  | ok r =>
    obtain ⟨p, hm, hat⟩ := h
    have hnext := hf r p hm hat
    change Follows src (m >>= f) pos (g r)
    cases hg : g r with
    | ok s =>
      rw [hg] at hnext
      obtain ⟨q, hq, hrest⟩ := hnext
      exact ⟨q, (bind_of_ok hm f).trans hq, hrest⟩
    | error e =>
      rw [hg] at hnext
      exact ⟨(bind_of_ok hm f).trans hnext.1, hnext.2⟩
  | error e => exact ⟨bind_of_error h.1 f, h.2⟩

/-- After a computation that ends in one way. -/
theorem Follows.bind_ok {x : Except ParseError (Parsed β n)} (h : m pos = .ok (a, p))
    (hf : Follows src (f a) p x) : Follows src (m >>= f) pos x := by
  cases x with
  | ok r =>
    obtain ⟨q, hq, hrest⟩ := hf
    exact ⟨q, (bind_of_ok h f).trans hq, hrest⟩
  | error e => exact ⟨(bind_of_ok h f).trans hf.1, hf.2⟩

theorem Follows.weaken {x : Except ParseError (Parsed α n)} (h : Follows src m pos x) (hle : n ≤ k) :
    Follows src m pos (do return (← x).weaken hle) := by
  cases x with
  | ok r => exact h
  | error e => exact h

/-- What a run that is known to end well ends with. -/
theorem Runs.elim {Q : α → ℕ → Prop} (h : Runs m pos Q) (hm : m pos = .ok (a, p)) : Q a p := by
  rw [Runs, hm] at h
  exact h

theorem length_encode (text : List Char) : (encode text).length = (text.map Char.utf8Size).sum := by
  rw [encode, List.length_flatMap]
  simp only [String.length_utf8EncodeChar]

theorem At.posOf (h : At src pos (encode rest)) : posOf src.length rest = pos := by
  have hlength := h.length
  have hle := h.le
  rw [length_encode] at hlength
  rw [Wayproto.posOf]
  omega

theorem At.fail (h : At src pos (encode rest)) (msg : String) :
    Follows src (fail msg : ParserM α) pos
      (err (Wayproto.posOf src.length rest) msg : Except ParseError (Parsed α n)) := by
  rw [h.posOf]
  exact ⟨rfl, rest, h⟩

/-! ## Characters and bytes -/

theorem encode_ascii (hc : c.toNat < 0x80) (cs : List Char) :
    encode (c :: cs) = byte c :: encode cs := by
  rw [encode_cons, encodeChar_of_lt hc]
  rfl

theorem head?_encode (hc : c.toNat < 0x80) :
    (encode rest).head? = some (byte c) ↔ rest.head? = some c := by
  have hprefix : encode [c] <+: encode rest ↔ [c] <+: rest := prefix_encode_iff
  rw [encode_ascii hc] at hprefix
  have hsingle {γ : Type} (x : γ) (l : List γ) : [x] <+: l ↔ l.head? = some x := by
    cases l with
    | nil => simp
    | cons y l => simp [eq_comm]
  rw [← hsingle, ← hsingle, ← hprefix]
  rfl

theorem At.getElem?_text (h : At src pos (encode rest)) : src[pos]? = (encode rest).head? := by
  rw [← h.drop, List.head?_drop]

/-- Whether an ASCII character comes next. -/
theorem At.atByte_text (h : At src pos (encode rest)) (hc : c.toNat < 0x80) :
    Tokenizer.atByte src (byte c) pos = .ok (decide (rest.head? = some c), pos) := by
  obtain ⟨b, hrun, hiff⟩ := exists_atByte src pos (byte c)
  rw [h.getElem?_text, head?_encode hc] at hiff
  rw [hrun]
  congr 2
  exact Bool.eq_iff_iff.2 (hiff.trans decide_eq_true_iff.symm)

theorem encode_ne_nil : encode (c :: cs) ≠ [] := by
  rw [encode_cons]
  exact List.append_ne_nil_of_left_ne_nil String.utf8EncodeChar_ne_nil _

/-- The first byte of a character. -/
theorem At.exists_peek_text (h : At src pos (encode (c :: cs))) :
    pos < src.length ∧ ∃ b, Tokenizer.peek src pos = .ok (b, pos) ∧
      ∀ d : Char, d.toNat < 0x80 → (b = byte d ↔ c = d) := by
  have hne : encode (c :: cs) ≠ [] := encode_ne_nil
  obtain ⟨b, bs, hcons⟩ := List.exists_cons_of_ne_nil hne
  have hat : At src pos (b :: bs) := hcons ▸ h
  refine ⟨hat.lt, b, hat.peek, fun d hd => ?_⟩
  have hhead : (encode (c :: cs)).head? = some (byte d) ↔ _ := head?_encode hd
  rwa [hcons, List.head?_cons, List.head?_cons, Option.some_inj, Option.some_inj] at hhead

theorem At.eof_text (h : At src pos (encode rest)) :
    Tokenizer.eof src pos = .ok (decide (rest = []), pos) := by
  cases rest with
  | nil =>
    have hlength := h.length
    rw [encode, List.flatMap_nil, List.length_nil] at hlength
    exact eof_of_le (Nat.le_of_sub_eq_zero hlength)
  | cons c cs => exact eof_of_lt h.exists_peek_text.1

theorem At.startsWith_text (h : At src pos (encode rest)) (needle : String) :
    Tokenizer.startsWith src (bytes needle) pos =
      .ok (needle.toList.isPrefixOf rest, pos) := by
  rw [h.startsWith]
  congr 2
  rw [Bool.eq_iff_iff, List.isPrefixOf_iff_prefix, List.isPrefixOf_iff_prefix, bytes,
    prefix_encode_iff]

/-! ## Loops -/

/-- The bytes of a character are of the kind exactly if the character is. -/
def KindOf (kind : UInt8 → Bool) (char : Char → Bool) : Prop :=
  ∀ c, ∀ b ∈ String.utf8EncodeChar c, kind b = char c

theorem kindOf_of_ascii {kind : UInt8 → Bool} {char : Char → Bool}
    (hascii : ∀ n < 0x80, kind (UInt8.ofNat n) = char (Char.ofNat n))
    (hbyte : ∀ b, 0x80 ≤ b → kind b = false) (hchar : ∀ c, 0x80 ≤ c.toNat → char c = false) :
    KindOf kind char := by
  intro c b hb
  rcases Nat.lt_or_ge c.toNat 0x80 with hc | hc
  · rw [encodeChar_of_lt hc, List.mem_singleton] at hb
    rw [hb, hascii _ hc, Char.ofNat_toNat]
  · rw [hbyte b (le_of_mem_encodeChar hc hb), hchar c hc]

theorem kindOf_isWhitespace : KindOf isWhitespaceByte isAsciiWhitespace := by
  refine kindOf_of_ascii (by decide) (fun b hb => ?_) fun c hc => ?_
  · refine Bool.eq_false_iff.2 fun hws => ?_
    simp only [isWhitespaceByte, Bool.or_eq_true, decide_eq_true_eq] at hws
    rcases hws with (((rfl | rfl) | rfl) | rfl) | rfl
    all_goals exact absurd hb (by decide)
  · refine Bool.eq_false_iff.2 fun hws => ?_
    simp only [isAsciiWhitespace, decide_eq_true_eq] at hws
    rcases hws with rfl | rfl | rfl | rfl | rfl
    all_goals exact absurd hc (by decide)

theorem kindOf_isName : KindOf isNameByte isNameChar := by
  refine kindOf_of_ascii (by decide) (fun b hb => ?_) fun c hc => ?_
  · exact Bool.eq_false_iff.2 fun hname => absurd (isNameByte_ascii hname) (UInt8.not_lt.2 hb)
  · have hval : 0x80 ≤ c.val.toNat := hc
    have hne (d : Char) (hd : d.toNat < 0x80) : c ≠ d := by
      rintro rfl
      exact absurd hc (Nat.not_le.2 hd)
    refine Bool.eq_false_iff.2 fun hname => ?_
    simp only [isNameChar, decide_eq_true_eq] at hname
    rcases hname with hname | rfl | rfl | rfl
    · rcases Bool.or_eq_true_iff.1 hname with hname | hdigit
      · rcases Bool.or_eq_true_iff.1 hname with hupper | hlower
        · exact absurd (Nat.le_trans hval (of_decide_eq_true hupper).2) (by decide)
        · have hle := of_decide_eq_true (Bool.and_eq_true_iff.1 hlower).2
          exact absurd (Nat.le_trans hval hle) (by decide)
      · have hle := of_decide_eq_true (Bool.and_eq_true_iff.1 hdigit).2
        exact absurd (Nat.le_trans hval hle) (by decide)
    all_goals exact absurd hc (by decide)

theorem kindOf_ne {quote : Char} (hquote : quote.toNat < 0x80) :
    KindOf (fun b => b ≠ byte quote) (fun c => c ≠ quote) := by
  intro c b hb
  refine decide_eq_decide.2 (not_congr ?_)
  rcases Nat.lt_or_ge c.toNat 0x80 with hc | hc
  · have hhead : (encode [c]).head? = some (byte quote) ↔ _ := head?_encode hquote
    rw [encode_ascii hc, List.head?_cons, List.head?_cons, Option.some_inj, Option.some_inj] at hhead
    rw [encodeChar_of_lt hc, List.mem_singleton] at hb
    rw [hb]
    exact hhead
  · refine iff_of_false ?_ ?_
    · rintro rfl
      have hle := le_of_mem_encodeChar hc hb
      rw [byte, UInt8.le_iff_toNat_le, UInt8.toNat_ofNat', Nat.mod_eq_of_lt (by omega)] at hle
      exact absurd hquote (Nat.not_lt.2 hle)
    · rintro rfl
      exact absurd hquote (Nat.not_lt.2 hc)

/-- Where a loop stops. -/
theorem advanceWhile_eq {cond : ParserM Bool} {going : ℕ → Bool} {fuel : ℕ}
    (hcond : ∀ q < src.length, cond q = .ok (going q, q)) (hpos : pos ≤ p) (hp : p ≤ src.length)
    (hall : ∀ q, pos ≤ q → q < p → going q = true) (hstop : p < src.length → going p = false)
    (hfuel : src.length - pos < fuel) : advanceWhile src cond fuel pos = .ok ((), p) := by
  obtain ⟨q, hrun, hle, hq, hall', hstop'⟩ := exists_advanceWhile hcond (hpos.trans hp) hfuel
  rcases Nat.lt_trichotomy q p with hlt | rfl | hlt
  · exact absurd (hall q hle hlt) (Bool.eq_false_iff.1 (hstop' (hlt.trans_le hp)))
  · exact hrun
  · exact absurd (hall' p hpos hlt) (Bool.eq_false_iff.1 (hstop (hlt.trans_le hq)))

theorem encode_append (cs ds : List Char) : encode (cs ++ ds) = encode cs ++ encode ds :=
  List.flatMap_append

theorem At.getElem?_add {text behind : List UInt8} (h : At src pos (text ++ behind)) {i : ℕ}
    (hi : i < text.length) : src[pos + i]? = text[i]? := by
  rw [← List.getElem?_drop, h.drop, List.getElem?_append_left hi]

/-- The cursor passes the characters of a kind, and stops at one that is not. -/
theorem At.advanceWhile_text {kind : UInt8 → Bool} {char : Char → Bool} {fuel : ℕ}
    (hk : KindOf kind char) (h : At src pos (encode rest)) (hfuel : src.length - pos < fuel) :
    Tokenizer.advanceWhile src (kind <$> Tokenizer.peek src) fuel pos =
      .ok ((), pos + (encode (rest.takeWhile char)).length) := by
  have hsplit : At src pos (encode (rest.takeWhile char) ++ encode (rest.dropWhile char)) := by
    rwa [← encode_append, List.takeWhile_append_dropWhile]
  have hbehind := hsplit.append
  refine advanceWhile_eq (map_peek kind) (Nat.le_add_right _ _) hbehind.le (fun q hq hlt => ?_)
    (fun hlt => ?_) hfuel
  · obtain ⟨i, rfl⟩ := Nat.exists_eq_add_of_le hq
    have hi : i < (encode (rest.takeWhile char)).length := by omega
    rw [byteAt, hsplit.getElem?_add hi, List.getElem?_eq_getElem hi, Option.any_some]
    obtain ⟨c, hc, hb⟩ := List.mem_flatMap.1 (List.getElem_mem hi)
    rw [hk c _ hb]
    exact List.all_eq_true.1 List.all_takeWhile c hc
  · cases hdrop : rest.dropWhile char with
    | nil =>
      rw [hdrop] at hbehind
      have hend : src.length - _ = 0 := hbehind.length
      omega
    | cons c cs =>
      obtain ⟨b, bs, hcons⟩ := List.exists_cons_of_ne_nil (String.utf8EncodeChar_ne_nil (c := c))
      rw [hdrop, encode_cons, hcons] at hbehind
      have hstop : char c = false := by
        have hhead := List.head?_dropWhile_not char rest
        rw [hdrop] at hhead
        simpa using hhead
      rw [byteAt, At.getElem? hbehind, Option.any_some,
        hk c b (hcons ▸ List.mem_cons_self), hstop]

/-- What follows the characters of a kind. -/
theorem At.dropWhile (h : At src pos (encode rest)) (char : Char → Bool) :
    At src (pos + (encode (rest.takeWhile char)).length) (encode (rest.dropWhile char)) := by
  have hsplit : At src pos (encode (rest.takeWhile char) ++ encode (rest.dropWhile char)) := by
    rwa [← encode_append, List.takeWhile_append_dropWhile]
  exact hsplit.append

theorem At.skipWhitespace_text {fuel : ℕ} (h : At src pos (encode rest))
    (hfuel : src.length - pos < fuel) :
    ∃ p, Tokenizer.skipWhitespace src fuel pos = .ok ((), p) ∧ pos ≤ p ∧
      At src p (encode (Wayproto.skipWhitespace rest)) :=
  ⟨_, h.advanceWhile_text kindOf_isWhitespace hfuel, Nat.le_add_right _ _, h.dropWhile _⟩

/-! ## Comments -/

theorem At.skipPast_cons (h : At src pos (encode (c :: cs))) :
    At src (pos + (String.utf8EncodeChar c).length) (encode cs) := by
  rw [encode_cons] at h
  exact h.append

/-- A text that begins with an ASCII character does not begin inside another character. -/
theorem At.not_prefix_inside {needle : String} {d : Char} {ds : List Char}
    (hneedle : needle.toList = d :: ds) (hd : d.toNat < 0x80) (h : At src pos (encode (c :: cs)))
    {i : ℕ} (hpos : 0 < i) (hi : i < (String.utf8EncodeChar c).length) :
    (bytes needle).isPrefixOf (src.drop (pos + i)) = false := by
  have hc : 0x80 ≤ c.toNat := by
    refine Nat.not_lt.1 fun hc => ?_
    rw [encodeChar_of_lt hc, List.length_singleton] at hi
    omega
  rw [encode_cons] at h
  have hbyte : src[pos + i]? = some (String.utf8EncodeChar c)[i] := by
    rw [h.getElem?_add hi, List.getElem?_eq_getElem hi]
  refine Bool.eq_false_iff.2 fun hprefix => ?_
  rw [bytes, hneedle, encode_ascii hd] at hprefix
  obtain ⟨behind, hbehind⟩ := List.isPrefixOf_iff_prefix.1 hprefix
  have hhead := congrArg List.head? hbehind
  rw [List.cons_append, List.head?_cons, List.head?_drop, hbyte, Option.some_inj] at hhead
  have hle := le_of_mem_encodeChar hc (List.getElem_mem hi)
  rw [← hhead, byte, UInt8.le_iff_toNat_le, UInt8.toNat_ofNat', Nat.mod_eq_of_lt (by omega)] at hle
  exact absurd hd (Nat.not_lt.2 hle)

/-- The first place where `needle` comes, in bytes and in characters. -/
theorem At.exists_skipPast {needle : String} {d : Char} {ds : List Char}
    (hneedle : needle.toList = d :: ds) (hd : d.toNat < 0x80) (h : At src pos (encode rest)) :
    ∃ p, pos ≤ p ∧ p ≤ src.length ∧
      (∀ q, pos ≤ q → q < p → (bytes needle).isPrefixOf (src.drop q) = false) ∧
      match skipPast needle.toList rest with
      | none => p = src.length
      | some after => At src p (bytes needle ++ encode after) := by
  induction rest generalizing pos with
  | nil =>
    have hend : src.length - pos = 0 := h.length
    exact ⟨pos, le_rfl, h.le, fun q hq hlt => absurd hlt (Nat.not_lt.2 hq),
      Nat.le_antisymm h.le (Nat.le_of_sub_eq_zero hend)⟩
  | cons c cs ih =>
    rw [skipPast]
    have hhere := h.startsWith_text needle
    rw [startsWith_of_le h.le, Except.ok.injEq, Prod.mk.injEq] at hhere
    by_cases hprefix : needle.toList.isPrefixOf (c :: cs) = true
    · rw [if_pos hprefix]
      refine ⟨pos, le_rfl, h.le, fun q hq hlt => absurd hlt (Nat.not_lt.2 hq), ?_⟩
      obtain ⟨behind, hbehind⟩ := List.isPrefixOf_iff_prefix.1 hprefix
      rw [← hbehind, List.drop_left]
      change At src pos (encode needle.toList ++ encode behind)
      rwa [← encode_append, hbehind]
    · rw [if_neg hprefix]
      obtain ⟨p, hle, hp, hall, hmatch⟩ := ih h.skipPast_cons
      refine ⟨p, by omega, hp, fun q hq hlt => ?_, hmatch⟩
      rcases Nat.lt_or_ge q (pos + (String.utf8EncodeChar c).length) with hin | hout
      · obtain ⟨i, rfl⟩ := Nat.exists_eq_add_of_le hq
        rcases Nat.eq_zero_or_pos i with rfl | hpos
        · exact hhere.1.trans (Bool.eq_false_iff.2 hprefix)
        · exact h.not_prefix_inside hneedle hd hpos (by omega)
      · exact hall q hout hlt

/-- The loop over a comment or a declaration, up to its end mark. -/
theorem At.advanceWhile_mark {needle : String} {d : Char} {ds : List Char} {fuel : ℕ}
    (hneedle : needle.toList = d :: ds) (hd : d.toNat < 0x80) (h : At src pos (encode rest))
    (hfuel : src.length - pos < fuel) :
    ∃ p, Tokenizer.advanceWhile src (not <$> Tokenizer.startsWith src (bytes needle)) fuel pos =
        .ok ((), p) ∧ pos ≤ p ∧
      match skipPast needle.toList rest with
      | none => p = src.length
      | some after => At src p (bytes needle ++ encode after) := by
  obtain ⟨p, hle, hp, hall, hmatch⟩ := h.exists_skipPast hneedle hd
  refine ⟨p, ?_, hle, hmatch⟩
  refine advanceWhile_eq (map_startsWith _) hle hp (fun q hq hlt => ?_) (fun hlt => ?_) hfuel
  · rw [hall q hq hlt, Bool.not_false]
  · split at hmatch
    · exact absurd hlt (Nat.not_lt.2 hmatch.ge)
    · rw [hmatch.drop, List.isPrefixOf_iff_prefix.2 ⟨_, rfl⟩, Bool.not_true]

/-- Like `Follows`, for what only skips text. -/
def Skips (src : List UInt8) (m : ParserM Unit) (pos : ℕ) : Except ParseError (List Char) → Prop
  | .ok rest => ∃ p, m pos = .ok ((), p) ∧ pos ≤ p ∧ At src p (encode rest)
  | .error e => m pos = .error (.error e) ∧ ∃ rest, At src e.pos (encode rest)

theorem at_end (src : List UInt8) : At src src.length (encode []) :=
  ⟨le_rfl, List.drop_length⟩

theorem skips_unterminated (msg : String) :
    Skips src (fail msg) src.length (err (posOf src.length []) msg) := by
  rw [(at_end src).posOf]
  exact ⟨rfl, [], at_end src⟩

theorem Skips.bind_ok {x : Except ParseError (List Char)} {f : α → ParserM Unit}
    (h : m pos = .ok (a, p)) (hle : pos ≤ p) (hf : Skips src (f a) p x) :
    Skips src (m >>= f) pos x := by
  cases x with
  | ok rest =>
    obtain ⟨q, hq, hpq, hrest⟩ := hf
    exact ⟨q, (bind_of_ok h f).trans hq, hle.trans hpq, hrest⟩
  | error e => exact ⟨(bind_of_ok h f).trans hf.1, hf.2⟩

theorem At.skips_comments {fuel : ℕ} (h : At src pos (encode rest))
    (hfuel : 2 * (src.length - pos) + 1 < fuel) :
    Skips src (Tokenizer.skipCommentsAndWs src fuel) pos
      (Wayproto.skipCommentsAndWs src.length rest) := by
  induction fuel generalizing pos rest with
  | zero => exact absurd hfuel (Nat.not_lt_zero _)
  | succ fuel ih =>
    obtain ⟨p, hws, hle, hat⟩ := h.skipWhitespace_text (show _ < fuel by omega)
    rw [Tokenizer.skipCommentsAndWs, Wayproto.skipCommentsAndWs]
    refine .bind_ok hws hle (.bind_ok hat.eof_text le_rfl ?_)
    by_cases hend : Wayproto.skipWhitespace rest = []
    · rw [decide_eq_true hend, if_pos rfl, dif_neg (by rw [hend]; exact Bool.false_ne_true)]
      exact ⟨p, rfl, le_rfl, hat⟩
    rw [decide_eq_false hend, if_neg Bool.false_ne_true]
    refine .bind_ok (hat.startsWith_text "<!--") le_rfl ?_
    split
    case isFalse => exact ⟨p, rfl, le_rfl, hat⟩
    rename_i hcomment
    have hinside : At src (p + 4) (encode ((Wayproto.skipWhitespace rest).drop 4)) := by
      obtain ⟨behind, hbehind⟩ := List.isPrefixOf_iff_prefix.1 hcomment
      rw [← hbehind, encode_append] at hat
      rw [← hbehind]
      exact hat.append
    refine .bind_ok (show advance 4 p = .ok ((), p + 4) from rfl) (Nat.le_add_right _ _) ?_
    obtain ⟨q, hloop, hpq, hmatch⟩ :=
      hinside.advanceWhile_mark (show "-->".toList = '-' :: "->".toList by decide)
        (show '-'.toNat < 0x80 by decide) (show _ < fuel by omega)
    refine .bind_ok hloop hpq ?_
    split at hmatch
    · rename_i hskip
      subst hmatch
      refine .bind_ok (eof_of_le le_rfl) le_rfl ?_
      rw [if_pos rfl]
      split
      · exact skips_unterminated _
      · rename_i hskip'
        rw [hskip] at hskip'
        cases hskip'
    · rename_i after hskip
      have hmark := hmatch.append
      have hlt : q < src.length := by
        have hlength := hmatch.length
        rw [List.length_append] at hlength
        have hthree : (bytes "-->").length = 3 := by decide
        omega
      refine .bind_ok (eof_of_lt hlt) le_rfl ?_
      rw [if_neg Bool.false_ne_true]
      refine .bind_ok (show advance 3 q = .ok ((), q + 3) from rfl) (Nat.le_add_right _ _) ?_
      split
      · rename_i hskip'
        rw [hskip] at hskip'
        cases hskip'
      · rename_i after' hskip'
        obtain rfl := Option.some_inj.1 (hskip.symm.trans hskip')
        exact ih hmark (by omega)

theorem At.skips_prolog {fuel : ℕ} (h : At src pos (encode rest))
    (hfuel : 2 * (src.length - pos) + 1 < fuel) :
    Skips src (Tokenizer.skipProlog src fuel) pos (Wayproto.skipProlog src.length rest) := by
  have hfirst := h.skips_comments hfuel
  rw [Tokenizer.skipProlog, Wayproto.skipProlog]
  cases hskip : Wayproto.skipCommentsAndWs src.length rest with
  | error e =>
    rw [hskip] at hfirst
    exact ⟨bind_of_error hfirst.1 _, hfirst.2⟩
  | ok after =>
    rw [hskip] at hfirst
    obtain ⟨p, hrun, hle, hat⟩ := hfirst
    refine .bind_ok hrun hle (.bind_ok (hat.startsWith_text "<?xml") le_rfl ?_)
    change Skips src _ p (if _ then _ else _)
    split
    case isFalse => exact hat.skips_comments (by omega)
    obtain ⟨q, hloop, hpq, hmatch⟩ :=
      hat.advanceWhile_mark (show "?>".toList = '?' :: ">".toList by decide)
        (show '?'.toNat < 0x80 by decide) (show _ < fuel by omega)
    refine .bind_ok hloop hpq ?_
    cases hmark : skipPast "?>".toList after with
    | none =>
      rw [hmark] at hmatch
      obtain rfl : q = src.length := hmatch
      refine .bind_ok (eof_of_le le_rfl) le_rfl ?_
      rw [if_pos rfl]
      exact skips_unterminated _
    | some behind =>
      rw [hmark] at hmatch
      have hbehind := hmatch.append
      have htwo : (bytes "?>").length = 2 := by decide
      have hlt : q < src.length := by
        have hlength := hmatch.length
        rw [List.length_append] at hlength
        omega
      refine .bind_ok (eof_of_lt hlt) le_rfl ?_
      rw [if_neg Bool.false_ne_true]
      refine .bind_ok (show advance 2 q = .ok ((), q + 2) from rfl) (Nat.le_add_right _ _) ?_
      rw [htwo] at hbehind
      exact hbehind.skips_comments (by omega)

/-! ## Names and values -/

theorem At.follows_parseName {fuel : ℕ} (h : At src pos (encode rest))
    (hfuel : src.length - pos < fuel) :
    Follows src (Tokenizer.parseName src fuel) pos (Wayproto.parseName src.length rest) := by
  have hsplit : At src pos
      (encode (rest.takeWhile isNameChar) ++ encode (rest.dropWhile isNameChar)) := by
    rwa [← encode_append, List.takeWhile_append_dropWhile]
  rw [Tokenizer.parseName, Wayproto.parseName]
  refine .bind_ok (show position pos = .ok (pos, pos) from rfl)
    (.bind_ok (h.advanceWhile_text kindOf_isName hfuel)
      (.bind_ok (show position _ = .ok (_, _) from rfl) ?_))
  by_cases hnil : rest.takeWhile isNameChar = []
  · rw [dif_pos (List.length_eq_zero_iff.2 hnil), hnil,
      if_pos (show pos = pos + (encode []).length from rfl)]
    exact h.fail _
  · obtain ⟨c, cs, hcons⟩ := List.exists_cons_of_ne_nil hnil
    have hpos : 0 < (encode (rest.takeWhile isNameChar)).length := by
      rw [hcons]
      exact List.length_pos_iff.2 encode_ne_nil
    rw [if_neg (by omega), dif_neg (mt List.length_eq_zero_iff.1 hnil)]
    refine .bind_ok (hsplit.slice _) ⟨_, ?_, hsplit.append⟩
    rw [fromUtf8Lossy_encode]
    rfl

theorem At.follows_parseAttrValue {fuel : ℕ} (h : At src pos (encode rest))
    (hfuel : src.length - pos < fuel) :
    Follows src (Tokenizer.parseAttrValue src fuel) pos
      (Wayproto.parseAttrValue src.length rest) := by
  rw [Tokenizer.parseAttrValue]
  refine .bind_ok h.eof_text ?_
  cases rest with
  | nil => exact h.fail _
  | cons quote body =>
    obtain ⟨hlt, b, hpeek, hb⟩ := h.exists_peek_text
    have hquotes : (b ≠ byte '"' ∧ b ≠ byte '\'') ↔ (quote ≠ '"' ∧ quote ≠ '\'') :=
      and_congr (not_congr (hb '"' (by decide))) (not_congr (hb '\'' (by decide)))
    rw [decide_eq_false (List.cons_ne_nil _ _), if_neg Bool.false_ne_true,
      Wayproto.parseAttrValue]
    refine .bind_ok hpeek ?_
    by_cases hquote : quote ≠ '"' ∧ quote ≠ '\''
    · rw [if_pos (hquotes.2 hquote), if_pos hquote]
      exact h.fail _
    rw [if_neg (hquotes.not.2 hquote), if_neg hquote]
    have hascii : quote.toNat < 0x80 := by
      rcases not_and_or.1 hquote with hq | hq
      all_goals
        rw [not_not.1 hq]
        decide
    obtain rfl := (hb quote hascii).2 rfl
    rw [encode_ascii hascii] at h
    have hbody : At src (pos + 1) (encode body) := h.tail
    have hsplit : At src (pos + 1)
        (encode (body.takeWhile (· ≠ quote)) ++ encode (body.dropWhile (· ≠ quote))) := by
      rwa [← encode_append, List.takeWhile_append_dropWhile]
    refine .bind_ok (show advance 1 pos = .ok ((), pos + 1) from rfl)
      (.bind_ok (show position (pos + 1) = .ok (pos + 1, pos + 1) from rfl)
        (.bind_ok (hbody.advanceWhile_text (kindOf_ne hascii) (by omega))
          (.bind_ok hsplit.append.eof_text ?_)))
    split
    · rename_i hdrop
      have hend := hsplit.append
      rw [of_decide_eq_true hdrop] at hend
      split
      · exact hend.fail _
      · rename_i hcons
        rw [of_decide_eq_true hdrop] at hcons
        cases hcons
    rename_i hne
    split
    · rename_i hdrop
      exact absurd (decide_eq_true hdrop) hne
    · rename_i quote' after hdrop
      have hclose := hsplit.append
      rw [hdrop] at hclose
      have hsame : quote' = quote := by
        have hhead := List.head?_dropWhile_not (· ≠ quote) body
        rw [hdrop] at hhead
        simpa using hhead
      rw [hsame, encode_ascii hascii] at hclose
      refine .bind_ok (show position _ = .ok (_, _) from rfl) (.bind_ok (hsplit.slice _)
        (.bind_ok (show advance 1 _ = .ok ((), _ + 1) from rfl) ⟨_, ?_, hclose.tail⟩))
      rw [fromUtf8Lossy_encode]
      rfl

/-! ## Tags and trees -/

/-- What a character in front of the rest decides. -/
theorem At.follows_atByte {yes no : ParserM α} {x : Except ParseError (Parsed α n)}
    (h : At src pos (encode rest)) (hc : c.toNat < 0x80)
    (hyes : ∀ after, rest = c :: after → At src (pos + 1) (encode after) → Follows src yes pos x)
    (hno : rest.head? ≠ some c → Follows src no pos x) :
    Follows src (do if ← Tokenizer.atByte src (byte c) then yes else no) pos x := by
  refine .bind_ok (h.atByte_text hc) ?_
  split
  · rename_i hhead
    obtain ⟨after, rfl⟩ := List.head?_eq_some_iff.1 (of_decide_eq_true hhead)
    rw [encode_ascii hc] at h
    exact hyes after rfl h.tail
  · rename_i hhead
    exact hno fun heq => hhead (decide_eq_true heq)

theorem At.follows_parseAttrs {fuel : ℕ} (attrs : List (String × String))
    (h : At src pos (encode rest)) (hfuel : src.length - pos + 1 < fuel) :
    Follows src (Tokenizer.parseAttrs src fuel attrs) pos
      (Wayproto.parseAttrs src.length attrs rest) := by
  induction fuel generalizing pos attrs rest with
  | zero => exact absurd hfuel (Nat.not_lt_zero _)
  | succ fuel ih =>
    obtain ⟨p, hws, hle, hat⟩ := h.skipWhitespace_text (show _ < fuel by omega)
    generalize htext : Wayproto.parseAttrs src.length attrs rest = x
    rw [Tokenizer.parseAttrs]
    rw [Wayproto.parseAttrs] at htext
    refine .bind_ok hws (.bind_ok hat.eof_text ?_)
    split at htext
    · rename_i hskip
      subst htext
      rw [hskip] at hat ⊢
      exact hat.fail _
    all_goals
      rename_i hskip
      rw [hskip] at hat
      obtain ⟨hlt, b, hpeek, hb⟩ := hat.exists_peek_text
      rw [hskip, decide_eq_false (List.cons_ne_nil _ _), if_neg Bool.false_ne_true]
      refine .bind_ok hpeek ?_
    · -- the tag closes itself
      subst htext
      rw [if_pos ((hb '/' (by decide)).2 rfl)]
      rw [encode_ascii (by decide)] at hat
      refine .bind_ok (show advance 1 p = .ok ((), p + 1) from rfl) ?_
      refine hat.tail.follows_atByte (by decide) (fun after hafter hclose => ?_) fun hne =>
        absurd rfl hne
      cases hafter
      exact ⟨_, rfl, hclose⟩
    · rename_i after hother
      subst htext
      rw [if_pos ((hb '/' (by decide)).2 rfl)]
      rw [encode_ascii (by decide)] at hat
      refine .bind_ok (show advance 1 p = .ok ((), p + 1) from rfl) ?_
      refine hat.tail.follows_atByte (by decide) (fun behind hbehind _ => ?_) fun _ =>
        hat.tail.fail _
      exact absurd hbehind (hother behind)
    · subst htext
      rw [if_neg (mt (hb '/' (by decide)).1 (by decide)), if_pos ((hb '>' (by decide)).2 rfl)]
      rw [encode_ascii (by decide)] at hat
      exact ⟨_, rfl, hat.tail⟩
    · rename_i c cs hself hslash hclose
      subst htext
      rw [if_neg (mt (hb '/' (by decide)).1 hslash), if_neg (mt (hb '>' (by decide)).1 hclose)]
      refine (hat.follows_parseName (by omega)).bind fun key q hq hkey => ?_
      have hpq := ((runs_parseName hat.le (by omega)).elim hq).1
      obtain ⟨r, hws', hqr, hequals⟩ := hkey.skipWhitespace_text (show _ < fuel by omega)
      refine .bind_ok hws' ?_
      split
      · rename_i after hskip'
        rw [hskip'] at hequals
        refine hequals.follows_atByte (by decide) (fun after' hafter hbehind => ?_) fun hne =>
          absurd rfl hne
        cases hafter
        refine .bind_ok (show advance 1 r = .ok ((), r + 1) from rfl) ?_
        obtain ⟨t, hws'', hrt, hquote⟩ := hbehind.skipWhitespace_text (show _ < fuel by omega)
        refine .bind_ok hws'' ?_
        refine (hquote.follows_parseAttrValue (by omega)).bind fun value u hu hvalue => ?_
        have htu := ((runs_parseAttrValue (show _ < fuel by omega)).elim hu).1
        exact (ih _ hvalue (by omega)).weaken _
      · rename_i hother
        refine hequals.follows_atByte (by decide) (fun after hafter _ => ?_) fun _ => hequals.fail _
        exact absurd hafter (hother after)

theorem bytes_open : "</".toList = ['<', '/'] := by
  decide

/-- An element and the children of one, by induction on the fuel. -/
theorem follows_tree (src : List UInt8) (fuel : ℕ) :
    (∀ pos rest, At src pos (encode rest) → 2 * (src.length - pos) + 3 ≤ fuel →
      Follows src (Tokenizer.parseElement src fuel) pos (Wayproto.parseElement src.length rest)) ∧
    ∀ name attrs children pos rest, At src pos (encode rest) →
      2 * (src.length - pos) + 4 ≤ fuel →
        Follows src (Tokenizer.parseChildren src fuel name attrs children) pos
          (Wayproto.parseChildren src.length name attrs children rest) := by
  induction fuel with
  | zero => exact ⟨fun _ _ _ h => absurd h (by omega), fun _ _ _ _ _ _ h => absurd h (by omega)⟩
  | succ fuel ih =>
    obtain ⟨ihElement, ihChildren⟩ := ih
    refine ⟨fun pos rest h hfuel => ?_, fun name attrs children pos rest h hfuel => ?_⟩
    · have hskips := h.skips_comments (show _ < fuel by omega)
      generalize htext : Wayproto.parseElement src.length rest = x
      rw [Wayproto.parseElement] at htext
      rw [Tokenizer.parseElement]
      split at htext
      · rename_i e hskip
        subst htext
        rw [hskip] at hskips
        exact ⟨bind_of_error hskips.1 _, hskips.2⟩
      · rename_i tag hskip
        subst htext
        rw [hskip] at hskips
        obtain ⟨p, hrun, hle, hat⟩ := hskips
        refine .bind_ok hrun (hat.follows_atByte (by decide) (fun tag' htag hname => ?_) fun hne =>
          absurd rfl hne)
        cases htag
        have hplt : p < src.length := hat.exists_peek_text.1
        refine .bind_ok (show advance 1 p = .ok ((), p + 1) from rfl) ?_
        refine (hname.follows_parseName (by omega)).bind fun name q hq hattrs => ?_
        have hpq := ((runs_parseName hname.le (by omega)).elim hq).1
        refine (hattrs.follows_parseAttrs [] (by omega)).bind fun r t ht hrest => ?_
        have hqt := ((runs_parseAttrs (fun _ hkv => absurd hkv List.not_mem_nil) hattrs.le
          (by omega)).elim ht).1
        dsimp only
        split
        · exact ⟨t, rfl, hrest⟩
        · exact (ihChildren _ _ _ t _ hrest (by omega)).weaken _
      · rename_i other hother hskip
        subst htext
        rw [hskip] at hskips
        obtain ⟨p, hrun, hle, hat⟩ := hskips
        refine .bind_ok hrun (hat.follows_atByte (by decide) (fun tag htag _ => ?_) fun _ =>
          hat.fail _)
        exact absurd htag (hother tag)
    · have hskips := h.skips_comments (show _ < fuel by omega)
      generalize htext : Wayproto.parseChildren src.length name attrs children rest = x
      rw [Wayproto.parseChildren] at htext
      rw [Tokenizer.parseChildren]
      split at htext
      · rename_i e hskip
        subst htext
        rw [hskip] at hskips
        exact ⟨bind_of_error hskips.1 _, hskips.2⟩
      · rename_i tag hskip
        subst htext
        rw [hskip] at hskips
        obtain ⟨p, hrun, hle, hat⟩ := hskips
        refine .bind_ok hrun (.bind_ok (hat.startsWith_text "</") ?_)
        rw [if_pos (by rw [bytes_open]; rfl)]
        rw [encode_ascii (by decide), encode_ascii (by decide)] at hat
        have hclose : At src (p + 2) (encode tag) := hat.tail.tail
        have hplt := hat.lt
        refine .bind_ok (show advance 2 p = .ok ((), p + 2) from rfl) ?_
        refine (hclose.follows_parseName (by omega)).bind fun close q hq hafter => ?_
        have hpq := ((runs_parseName hclose.le (by omega)).elim hq).1
        split
        · exact hafter.fail _
        obtain ⟨r, hws, hqr, hend⟩ := hafter.skipWhitespace_text (show _ < fuel by omega)
        refine .bind_ok hws ?_
        split
        · rename_i behind hskip'
          rw [hskip'] at hend
          refine hend.follows_atByte (by decide) (fun after hbehind hrest => ?_) fun hne =>
            absurd rfl hne
          cases hbehind
          exact ⟨_, rfl, hrest⟩
        · rename_i hother
          refine hend.follows_atByte (by decide) (fun after hbehind _ => ?_) fun _ => hend.fail _
          exact absurd hbehind (hother after)
      · rename_i inner hother hskip
        subst htext
        rw [hskip] at hskips
        obtain ⟨p, hrun, hle, hat⟩ := hskips
        refine .bind_ok hrun (.bind_ok (hat.startsWith_text "</") ?_)
        have hopen : "</".toList.isPrefixOf inner = false := by
          refine Bool.eq_false_iff.2 fun hprefix => ?_
          obtain ⟨tag, htag⟩ := List.isPrefixOf_iff_prefix.1 hprefix
          rw [bytes_open] at htag
          exact hother tag htag.symm
        rw [hopen, if_neg Bool.false_ne_true]
        refine (ihElement p inner hat (by omega)).bind fun child q hq hrest => ?_
        have hpq := (((runs_tree fuel).1 p hat.le (by omega)).elim hq).1
        exact (ihChildren _ _ _ q _ hrest (by omega)).weaken _

/-! ## The whole text -/

end

/-- The tree of a text, as `parse_protocol` reads it before it looks at any element. -/
def parseText (text : List Char) : Except ParseError Node := do
  let total := (text.map Char.utf8Size).sum
  let rest ← Wayproto.skipProlog total text
  return (← Wayproto.parseElement total rest).value

theorem parseRoot_encode {text : List Char} {fuel : ℕ}
    (hfuel : 2 * (encode text).length + 3 ≤ fuel) :
    parseRoot (encode text) fuel = (parseText text).mapError Halt.error ∧
      ∀ e, parseText text = .error e → ∃ rest, At (encode text) e.pos (encode rest) := by
  have hstart : At (encode text) 0 (encode text) := ⟨Nat.zero_le _, rfl⟩
  have hprolog := hstart.skips_prolog (show _ < fuel by omega)
  rw [parseText, ← length_encode]
  cases hskip : Wayproto.skipProlog (encode text).length text with
  | error e =>
    rw [hskip] at hprolog
    refine ⟨?_, fun e' he' => ?_⟩
    · change Except.map Prod.fst _ = _
      rw [bind_of_error hprolog.1]
      rfl
    · cases he'
      exact hprolog.2
  | ok rest =>
    rw [hskip] at hprolog
    obtain ⟨p, hrun, -, hat⟩ := hprolog
    have htree := (follows_tree (encode text) fuel).1 p rest hat (by omega)
    have hrest : parseRoot (encode text) fuel = Except.map Prod.fst
        (Tokenizer.parseElement (encode text) fuel p) := by
      change Except.map Prod.fst _ = _
      rw [bind_of_ok hrun]
    cases helement : Wayproto.parseElement (encode text).length rest with
    | error e =>
      rw [helement] at htree
      refine ⟨?_, fun e' he' => ?_⟩
      · rw [hrest, htree.1]
        change _ = Except.mapError _ (do return (← Wayproto.parseElement _ rest).value)
        rw [helement]
        rfl
      · change (do return (← Wayproto.parseElement _ rest).value) = _ at he'
        rw [helement] at he'
        cases he'
        exact htree.2
    | ok r =>
      rw [helement] at htree
      obtain ⟨q, hq, -⟩ := htree
      refine ⟨?_, fun e' he' => ?_⟩
      · rw [hrest, hq]
        change _ = Except.mapError _ (do return (← Wayproto.parseElement _ rest).value)
        rw [helement]
        rfl
      · change (do return (← Wayproto.parseElement _ rest).value) = _ at he'
        rw [helement] at he'
        cases he'

theorem Ends.unique {src : List UInt8} {r r' : Except Halt Node} (h : Ends src r) (h' : Ends src r') :
    r = r' := by
  obtain ⟨enough, hr⟩ := h
  obtain ⟨enough', hr'⟩ := h'
  exact (hr _ (Nat.le_max_left enough enough')).symm.trans (hr' _ (Nat.le_max_right _ _))

theorem ends_parseText (text : List Char) :
    Ends (encode text) ((parseText text).mapError Halt.error) :=
  ⟨_, fun _ hfuel => (parseRoot_encode hfuel).1⟩

section

variable {text : String} {e : ParseError} {protocol : Protocol}

theorem parseProtocol_of_error (h : parseText text.toList = .error e) :
    parseProtocol text = .error e := by
  rw [parseText] at h
  rw [parseProtocol]
  cases hskip : Wayproto.skipProlog (text.toList.map Char.utf8Size).sum text.toList with
  | error e' =>
    rw [hskip] at h
    cases h
    rfl
  | ok rest =>
    rw [hskip] at h
    change (do return (← Wayproto.parseElement _ rest).value) = _ at h
    cases helement : Wayproto.parseElement (text.toList.map Char.utf8Size).sum rest with
    | error e' =>
      rw [helement] at h
      cases h
      change (do let root := (← Wayproto.parseElement _ rest).value; _) = _
      rw [helement]
      rfl
    | ok r =>
      rw [helement] at h
      cases h

theorem exists_root_of_parseProtocol (h : parseProtocol text = .ok protocol) :
    ∃ root, parseText text.toList = .ok root ∧ root.name = "protocol" := by
  simp only [parseProtocol, err] at h
  obtain ⟨rest, hskip, h⟩ := bind_eq_ok.1 h
  obtain ⟨root, helement, h⟩ := bind_eq_ok.1 h
  split_ifs at h with hname
  refine ⟨root.value, ?_, not_not.1 hname⟩
  rw [parseText]
  exact bind_eq_ok.2 ⟨rest, hskip, bind_eq_ok.2 ⟨root, helement, rfl⟩⟩

end

/-- The tokenizer does with the bytes of a text what the parser on characters does with the text. An
error is where a character begins, and is the one that `parse_protocol` returns; of an accepted
text the tokenizer returns the tree, and what is printed of it is read as the same tree. -/
theorem ends_text (text : String) :
    Ends (bytes text) ((parseText text.toList).mapError Halt.error) ∧
      (∀ e, Ends (bytes text) (.error (.error e)) →
        parseProtocol text = .error e ∧ ∃ rest, (bytes text).drop e.pos = encode rest) ∧
      ∀ protocol, parseProtocol text = .ok protocol → ∃ root, root.name = "protocol" ∧
        Ends (bytes text) (.ok root) ∧ Ends (print root) (.ok root) := by
  have hends := ends_parseText text.toList
  refine ⟨hends, fun e he => ?_, fun protocol h => ?_⟩
  · have hsame := hends.unique he
    cases htext : parseText text.toList with
    | ok root =>
      rw [htext] at hsame
      cases hsame
    | error e' =>
      rw [htext] at hsame
      cases hsame
      obtain ⟨rest, hat⟩ := (parseRoot_encode le_rfl).2 e htext
      exact ⟨parseProtocol_of_error htext, rest, hat.drop⟩
  · obtain ⟨root, hroot, hname⟩ := exists_root_of_parseProtocol h
    rw [hroot] at hends
    rcases parseRoot_ends (le_refl (2 * (bytes text).length + 3)) with ⟨e, he⟩ | ⟨root', hok, hgood⟩
    · cases hends.unique (ends_of_parseRoot he fun h => by cases h)
    · cases hends.unique (ends_of_parseRoot hok fun h => by cases h)
      exact ⟨root, hname, hends,
        ends_of_parseRoot (hgood.parseRoot_print le_rfl) fun h => by cases h⟩

end Waywallen.Wayproto.Tokenizer
