import Waywallen.Wayproto.Counted

/-!
# Codecs that agree

The decoder and the encoders that are generated for a message, in both languages, follow the one
format, and so agree with each other.
-/

namespace Waywallen.Wayproto

/-! ## Texts -/

/-- The strings of a value in memory are texts that both languages can hold. -/
def Value.IsText (v : Value (List UInt8)) : Prop :=
  ∀ s ∈ v.strings, C.NulFree s ∧ (fromUtf8 s).isSome

theorem exists_map_eq {α β : Type} {f : α → β} {ys : List β} (h : ∀ y ∈ ys, ∃ x, f x = y) :
    ∃ xs : List α, xs.map f = ys := by
  induction ys with
  | nil => exact ⟨[], rfl⟩
  | cons y ys ih =>
    obtain ⟨x, rfl⟩ := h y List.mem_cons_self
    obtain ⟨xs, rfl⟩ := ih fun z hz => h z (List.mem_cons_of_mem _ hz)
    exact ⟨x :: xs, rfl⟩

theorem exists_utf8_eq {s : List UInt8} (h : (fromUtf8 s).isSome) : ∃ text, utf8 text = s := by
  obtain ⟨text, htext⟩ := Option.isSome_iff_exists.1 h
  exact ⟨text, utf8_fromUtf8 htext⟩

theorem Scalar.exists_map_utf8 {x : Scalar (List UInt8)} (h : (Value.one x).IsText) :
    ∃ y : Scalar String, y.map utf8 = x := by
  cases x with
  | string s =>
    obtain ⟨text, rfl⟩ := exists_utf8_eq (h s List.mem_cons_self).2
    exact ⟨.string text, rfl⟩
  | u32 v => exact ⟨.u32 v, rfl⟩
  | i32 v => exact ⟨.i32 v, rfl⟩
  | u64 v => exact ⟨.u64 v, rfl⟩
  | i64 v => exact ⟨.i64 v, rfl⟩
  | f32 bits => exact ⟨.f32 bits, rfl⟩
  | f64 bits => exact ⟨.f64 bits, rfl⟩

/-- A value of texts is one of Rust. -/
theorem Value.exists_map_utf8 {v : Value (List UInt8)} (h : v.IsText) :
    ∃ w : Value String, w.map utf8 = v := by
  cases v with
  | one x =>
    obtain ⟨y, rfl⟩ := Scalar.exists_map_utf8 h
    exact ⟨.one y, rfl⟩
  | rect x y w d => exact ⟨.rect x y w d, rfl⟩
  | kvList xs =>
    obtain ⟨ys, rfl⟩ := exists_map_eq (f := Prod.map utf8 utf8) fun kv hkv => by
      obtain ⟨k, hk⟩ := exists_utf8_eq (h kv.1 (List.mem_flatMap.2 ⟨kv, hkv, by simp⟩)).2
      obtain ⟨t, ht⟩ := exists_utf8_eq (h kv.2 (List.mem_flatMap.2 ⟨kv, hkv, by simp⟩)).2
      exact ⟨(k, t), Prod.ext hk ht⟩
    exact ⟨.kvList ys, rfl⟩
  | array xs =>
    obtain ⟨ys, rfl⟩ := exists_map_eq (f := Scalar.map utf8) fun x hx => by
      refine Scalar.exists_map_utf8 fun s hs => h s (List.mem_filterMap.2 ⟨x, hx, ?_⟩)
      cases x with
      | string s' => rw [List.mem_singleton.1 hs]
      | _ => cases hs
    exact ⟨.array ys, rfl⟩

/-! ## The generated codecs -/

/-- Both languages accept the same bodies for the same values. -/
theorem message_agree {alloc : ℕ → Bool} {body : List UInt8}
    (halloc : ∀ n ≤ body.length, alloc n = true) (helpers : List Helper)
    (values : List (Value String)) :
    C.message alloc helpers body = .ok (values.map (Value.map utf8)) ↔
      Rust.message helpers body = .ok values := by
  have hc := (C.reads_args halloc helpers).iff body (Nat.le_refl _) (values.map (Value.map utf8)) []
  have hrust := (Rust.reads_args helpers).iff body (Nat.le_refl body.length) values []
  rw [C.message_eq_ok, Rust.message_eq_ok, hc, hrust]
  rfl

/-- What Rust encodes, Rust decodes. -/
theorem message_body {helpers : List Helper} {values : List (Value String)}
    (hvalues : Fits values helpers)
    (hlength : (Format.body (values.map (Value.map utf8))).length < 2 ^ 32) :
    Rust.message helpers (Format.body (values.map (Value.map utf8))) = .ok values := by
  have hscan := Scan.body_append (fits_map.2 hvalues) hlength []
  rw [List.append_nil] at hscan
  rw [Rust.message_eq_ok, (Rust.reads_args helpers).iff _ (Nat.le_refl _) values []]
  exact hscan

theorem Rust.decode_first {p : Protocol} {codec : Codec} (hemit : Rust.emit p = some codec)
    {d : Direction} {m : Message} {code : Code}
    (hfirst : (p.messages d).find? (·.opcode = m.opcode) = some m)
    (hcode : Rust.emitVariant m = some code) (body : List UInt8) (values : List (Value String)) :
    Rust.decode (codec.codes d) m.opcode body = .ok (code, values) ↔
      Rust.message code.decode body = .ok values := by
  rw [Rust.decode, Rust.find_codes hemit, hfirst]
  simp only [Option.bind_some, hcode]
  rcases Rust.message code.decode body with e | values' <;> simp

theorem Rust.decode_ne_crash (codes : List Code) (opcode : UInt16) (body : List UInt8) :
    Rust.decode codes opcode body ≠ .error .crash := by
  unfold Rust.decode
  split
  · rintro ⟨⟩
  · next code _ =>
    have hsafe := Rust.message_ne_crash code.decode body
    split
    · next e he =>
      rintro ⟨⟩
      exact hsafe he
    · rintro ⟨⟩

/-- For the first message of a direction that has its opcode: what Rust encodes within one frame it
decodes again, C encodes the same values to the same bytes, both decoders accept the same bodies as
far as their strings are texts, and neither reads outside its buffer. -/
theorem codecs_agree {p : Protocol} {codec : Codec} {d : Direction} {m : Message} {rust c : Code}
    (hemit : Rust.emit p = some codec)
    (hfirst : (p.messages d).find? (·.opcode = m.opcode) = some m)
    (hrust : Rust.emitVariant m = some rust) (hc : C.emitMessageImpl m = some c) :
    (∀ values, Fits values rust.encode → ∃ body,
      Rust.encode rust.encode values [] = some body ∧
      (body.length ≤ 65531 →
        Rust.decode (codec.codes d) m.opcode body = .ok (rust, values) ∧
        ∀ alloc, C.Roomy alloc → (∀ v ∈ values, (v.map utf8).IsText) → ∃ cap,
          C.encode alloc c.encode (values.map (Value.map utf8)) ⟨[], 0⟩ =
            some (.ok ⟨body, cap⟩))) ∧
    (∀ body alloc, (∀ n ≤ body.length, alloc n = true) → ∀ values, (∀ v ∈ values, v.IsText) →
      (C.message alloc c.decode body = .ok values ↔
        ∃ values', values'.map (Value.map utf8) = values ∧
          Rust.decode (codec.codes d) m.opcode body = .ok (rust, values'))) ∧
    (∀ opcode body, Rust.decode (codec.codes d) opcode body ≠ .error .crash) ∧
    ∀ alloc body, C.message alloc c.decode body ≠ .error .crash := by
  obtain ⟨-, -, hencode, hdecode⟩ := Rust.emitVariant_eq hrust
  obtain ⟨-, -, hencode', hdecode'⟩ := C.emitMessageImpl_eq hc
  obtain hsame : rust.encode = c.encode := Option.some.inj (hencode.symm.trans hencode')
  refine ⟨fun values hvalues => ?_, fun body alloc halloc values htext => ?_,
    fun opcode body => Rust.decode_ne_crash _ opcode body,
    fun alloc body => C.message_ne_crash _ body⟩
  · have haligned : Aligned [] := rfl
    refine ⟨Format.body (values.map (Value.map utf8)), Rust.encode_eq hvalues haligned,
      fun hlength => ⟨?_, fun alloc halloc htext => ?_⟩⟩
    · rw [Rust.decode_first hemit hfirst hrust, hdecode]
      exact message_body hvalues (by omega)
    · rw [← hsame]
      refine C.encode_eq halloc (fits_map.2 hvalues) (fun v hv s hs => ?_) haligned (by simpa)
      obtain ⟨w, hw, rfl⟩ := List.mem_map.1 hv
      exact (htext w hw s hs).1
  · rw [hdecode', ← hsame]
    constructor
    · intro hmessage
      obtain ⟨values', rfl⟩ := exists_map_eq fun v hv => Value.exists_map_utf8 (htext v hv)
      refine ⟨values', rfl, ?_⟩
      rw [Rust.decode_first hemit hfirst hrust, hdecode]
      exact (message_agree halloc _ _).1 hmessage
    · rintro ⟨values', rfl, hmessage⟩
      rw [Rust.decode_first hemit hfirst hrust, hdecode] at hmessage
      exact (message_agree halloc _ _).2 hmessage

def countedCode : Code where
  name := "e"
  opcode := 1
  fields := ["n", "s"]
  encode := [.one .u32, .array .string]
  decode := [.one .u32, .array .string]
  fds := .product ["n"]

theorem codecs_agree_counted :
    (∀ values, Fits values countedCode.encode → ∃ body,
      Rust.encode countedCode.encode values [] = some body ∧
      (body.length ≤ 65531 →
        Rust.decode [countedCode] 1 body = .ok (countedCode, values) ∧
        ∀ alloc, C.Roomy alloc → (∀ v ∈ values, (v.map utf8).IsText) → ∃ cap,
          C.encode alloc countedCode.encode (values.map (Value.map utf8)) ⟨[], 0⟩ =
            some (.ok ⟨body, cap⟩))) ∧
    (∀ body alloc, (∀ n ≤ body.length, alloc n = true) → ∀ values, (∀ v ∈ values, v.IsText) →
      (C.message alloc countedCode.decode body = .ok values ↔
        ∃ values', values'.map (Value.map utf8) = values ∧
          Rust.decode [countedCode] 1 body = .ok (countedCode, values'))) ∧
    (∀ opcode body, Rust.decode [countedCode] opcode body ≠ .error .crash) ∧
    ∀ alloc body, C.message alloc countedCode.decode body ≠ .error .crash :=
  @codecs_agree counted ⟨[], [countedCode]⟩ .outbound
    ⟨"e", 1, [⟨"n", .u32⟩, ⟨"s", .array .string⟩], .product ["n"]⟩ countedCode countedCode
    (by decide) (by decide) (by decide) (by decide)

/-- The second of two events with one opcode is decoded as the first. -/
theorem not_codecs_agree :
    ¬ ∀ (src : String) (p : Protocol) (codec : Codec), parseProtocol src = .ok p →
      Rust.emit p = some codec → ∀ d, ∀ m ∈ p.messages d, ∀ rust, Rust.emitVariant m = some rust →
        ∀ values body, Fits values rust.encode → Rust.encode rust.encode values [] = some body →
          body.length ≤ 65531 → Rust.decode (codec.codes d) m.opcode body = .ok (rust, values) := by
  intro h
  have hdecode := h twiceText twice
    ⟨[], [⟨"a", 7, [], [], [], .count 0⟩, ⟨"b", 7, [], [], [], .count 0⟩]⟩
    parse_twiceText (by decide) .outbound ⟨"b", 7, [], .none⟩ (by decide)
    ⟨"b", 7, [], [], [], .count 0⟩ (by decide) [] [] .nil rfl (Nat.zero_le _)
  have hfirst : Rust.decode [⟨"a", 7, [], [], [], .count 0⟩, ⟨"b", 7, [], [], [], .count 0⟩] 7 [] =
      .ok (⟨"a", 7, [], [], [], .count 0⟩, []) := by rfl
  have heq := (Prod.mk.inj (Except.ok.inj (hfirst.symm.trans hdecode))).1
  exact absurd heq (by decide)

end Waywallen.Wayproto
