import Waywallen.Wayproto.Codegen

/-!
# Accepted schemas

What the parser guarantees of a schema, and what the generators make of it.
-/

namespace Waywallen.Wayproto

/-! ## What the parser guarantees -/

/-- Arrays have elements that have a helper, or rects. -/
def ArgType.Accepted (ty : ArgType) : Prop :=
  ∀ elem, ty = .array elem → (arraySuffix elem).isSome ∨ elem = .rect

structure Message.Accepted (m : Message) : Prop where
  args : ∀ a ∈ m.args, a.ty.Accepted
  fds : m.fds ≠ .product []

theorem bind_eq_ok {α β ε : Type} {x : Except ε α} {f : α → Except ε β} {b : β} :
    (x >>= f) = .ok b ↔ ∃ a, x = .ok a ∧ f a = .ok b := by
  cases x with
  | error e => simp [bind, Except.bind]
  | ok a => simp [bind, Except.bind]

theorem foldlM_ok {α β ε : Type} {P : β → Prop} {f : β → α → Except ε β} {xs : List α} {b b' : β}
    (h : xs.foldlM f b = .ok b') (hb : P b) (hf : ∀ b x b', f b x = .ok b' → P b → P b') :
    P b' := by
  induction xs generalizing b with
  | nil =>
    cases h
    exact hb
  | cons x xs ih =>
    rw [List.foldlM_cons, bind_eq_ok] at h
    obtain ⟨c, hx, hxs⟩ := h
    exact ih hxs (hf b x c hx hb)

theorem parse_ne_array {s : String} {elem : ArgType} (hs : s ≠ "array") :
    ArgType.parse s ≠ some (.array elem) := by
  unfold ArgType.parse
  split <;> simp_all

theorem parseArg_accepted {node : Node} {arg : Arg} (h : parseArg node = .ok arg) :
    arg.ty.Accepted := by
  simp only [parseArg, err] at h
  split at h
  · split at h
    · split at h
      · split at h
        · split at h
          · cases h
          · cases h
          · cases h
          · next elem harray hkv helem =>
            cases h
            rintro _ ⟨⟩
            cases elem <;> simp_all [arraySuffix]
        · cases h
      · next hty =>
        split at h
        · next ty hparse =>
          cases h
          intro elem helem
          dsimp only at helem
          rw [helem] at hparse
          exact absurd hparse (parse_ne_array hty)
        · cases h
    · cases h
  · cases h

theorem parseFds_accepted {node : Node} {fds : FdSpec} (h : parseFds node = .ok fds) :
    fds ≠ .product [] := by
  simp only [parseFds, err] at h
  split at h
  · split at h
    · cases h
    · cases h
      split_ifs <;> simp
  · split at h
    · split_ifs at h with hparts
      split at h
      · cases h
      · cases h
        simpa using hparts
    · cases h

theorem forall_mem_concat {α : Type} {P : α → Prop} {xs : List α} {x : α} (hxs : ∀ y ∈ xs, P y)
    (hx : P x) : ∀ y ∈ xs ++ [x], P y := by
  intro y hy
  rcases List.mem_append.1 hy with hy | hy
  · exact hxs y hy
  · rwa [List.mem_singleton.1 hy]

/-- The arguments and descriptors of a message as far as they have been read. -/
def SofarAccepted (sofar : List Arg × FdSpec) : Prop :=
  (∀ a ∈ sofar.1, a.ty.Accepted) ∧ sofar.2 ≠ .product []

theorem parseMessageChild_accepted {sofar next : List Arg × FdSpec} {child : Node}
    (h : parseMessageChild sofar child = .ok next) (hsofar : SofarAccepted sofar) :
    SofarAccepted next := by
  unfold parseMessageChild at h
  split at h
  · obtain ⟨arg, harg, h⟩ := bind_eq_ok.1 h
    cases h
    exact ⟨forall_mem_concat hsofar.1 (parseArg_accepted harg), hsofar.2⟩
  · obtain ⟨fds, hfds, h⟩ := bind_eq_ok.1 h
    cases h
    exact ⟨hsofar.1, parseFds_accepted hfds⟩
  · cases h

theorem parseMessage_accepted {node : Node} {m : Message} (h : parseMessage node = .ok m) :
    m.Accepted := by
  simp only [parseMessage, err] at h
  split at h
  · split at h
    · split at h
      · obtain ⟨sofar, hchildren, h⟩ := bind_eq_ok.1 h
        cases h
        have hsofar : SofarAccepted sofar :=
          foldlM_ok hchildren ⟨List.forall_mem_nil _, by rintro ⟨⟩⟩
            fun _ _ _ => parseMessageChild_accepted
        exact ⟨hsofar.1, hsofar.2⟩
      · cases h
    · cases h
  · cases h

def Toplevel.Accepted (top : Toplevel) : Prop :=
  (∀ m ∈ top.requests, m.Accepted) ∧ ∀ m ∈ top.events, m.Accepted

theorem parseTop_accepted {top next : Toplevel} {child : Node}
    (h : parseTop top child = .ok next) (htop : top.Accepted) : next.Accepted := by
  unfold parseTop at h
  split at h
  · obtain ⟨kind, -, h⟩ := bind_eq_ok.1 h
    obtain ⟨m, hm, h⟩ := bind_eq_ok.1 h
    cases h
    exact ⟨forall_mem_concat htop.1 (parseMessage_accepted hm), htop.2⟩
  · obtain ⟨kind, -, h⟩ := bind_eq_ok.1 h
    obtain ⟨m, hm, h⟩ := bind_eq_ok.1 h
    cases h
    exact ⟨forall_mem_concat htop.1 (parseMessage_accepted hm), htop.2⟩
  · obtain ⟨m, hm, h⟩ := bind_eq_ok.1 h
    cases h
    exact ⟨htop.1, forall_mem_concat htop.2 (parseMessage_accepted hm)⟩
  · cases h

/-- Every message of an accepted protocol is one that the parser lets through. -/
theorem parseProtocol_accepted {src : String} {p : Protocol} (h : parseProtocol src = .ok p)
    (d : Direction) : ∀ m ∈ p.messages d, m.Accepted := by
  simp only [parseProtocol, err] at h
  obtain ⟨rest, -, h⟩ := bind_eq_ok.1 h
  obtain ⟨root, -, h⟩ := bind_eq_ok.1 h
  split_ifs at h
  split at h
  · split at h
    · split at h
      · obtain ⟨top, hchildren, h⟩ := bind_eq_ok.1 h
        cases h
        have htop : top.Accepted :=
          foldlM_ok hchildren ⟨List.forall_mem_nil _, List.forall_mem_nil _⟩
            fun _ _ _ => parseTop_accepted
        cases d with
        | inbound => exact htop.1
        | outbound => exact htop.2
      · cases h
    · cases h
  · cases h

/-! ## What is generated -/

section

variable {α β : Type} {f : α → Option β}

theorem mapM_cons_eq_some {x : α} {xs : List α} {zs : List β} :
    (x :: xs).mapM f = some zs ↔
      ∃ y ys, f x = some y ∧ xs.mapM f = some ys ∧ zs = y :: ys := by
  rw [List.mapM_cons]
  rcases f x with _ | y
  · simp
  · rcases xs.mapM f with _ | ys <;> simp [eq_comm]

theorem mapM_isSome {xs : List α} (h : ∀ x ∈ xs, (f x).isSome) : (xs.mapM f).isSome := by
  induction xs with
  | nil => rfl
  | cons x xs ih =>
    obtain ⟨y, hy⟩ := Option.isSome_iff_exists.1 (h x List.mem_cons_self)
    obtain ⟨ys, hys⟩ := Option.isSome_iff_exists.1 (ih fun z hz => h z (List.mem_cons_of_mem _ hz))
    rw [mapM_cons_eq_some.2 ⟨y, ys, hy, hys, rfl⟩]
    rfl

/-- What is found among the results is the result of what is found. -/
theorem find_mapM {p : α → Bool} {q : β → Bool} (hpq : ∀ x y, f x = some y → q y = p x)
    {xs : List α} {ys : List β} (h : xs.mapM f = some ys) :
    ys.find? q = (xs.find? p).bind f := by
  induction xs generalizing ys with
  | nil =>
    cases h
    rfl
  | cons x xs ih =>
    obtain ⟨y, ys', hy, hys, rfl⟩ := mapM_cons_eq_some.1 h
    rw [List.find?_cons, List.find?_cons, hpq x y hy]
    cases p x with
    | true => exact hy.symm
    | false => exact ih hys

end

/-- No array of the message has rects for elements. -/
def Message.NoRectArrays (m : Message) : Prop := ∀ a ∈ m.args, a.ty ≠ .array .rect

theorem Message.Accepted.helpers {m : Message} (h : m.Accepted) (hrect : m.NoRectArrays) :
    ∀ a ∈ m.args, (helperFor a.ty).isSome := by
  intro a ha
  have haccepted := h.args a ha
  have hne := hrect a ha
  rcases hty : a.ty with _ | _ | _ | _ | _ | _ | _ | elem | _ | _
  case array =>
    rcases haccepted elem hty with hsome | rfl
    · obtain ⟨suffix, hsuffix⟩ := Option.isSome_iff_exists.1 hsome
      simp [helperFor, hsuffix]
    · exact absurd hty hne
  all_goals rfl

namespace Message.Accepted

variable {m : Message}

theorem emitVariant (h : m.Accepted) (hrect : m.NoRectArrays) : (Rust.emitVariant m).isSome := by
  obtain ⟨helpers, hhelpers⟩ := Option.isSome_iff_exists.1 (mapM_isSome (h.helpers hrect))
  simp [Rust.emitVariant, Rust.emitEncodeArg, Rust.emitDecodeArg, hhelpers]

theorem emitMessageImpl (h : m.Accepted) (hrect : m.NoRectArrays) :
    (C.emitMessageImpl m).isSome := by
  obtain ⟨helpers, hhelpers⟩ := Option.isSome_iff_exists.1 (mapM_isSome (h.helpers hrect))
  simp [C.emitMessageImpl, C.encodeCallFor, C.decodeCallFor, hhelpers]

theorem emitMessageStruct (h : m.Accepted) (hrect : m.NoRectArrays) :
    (C.emitMessageStruct m).isSome := by
  refine mapM_isSome fun a ha => ?_
  obtain ⟨helper, hhelper⟩ := Option.isSome_iff_exists.1 (h.helpers hrect a ha)
  simp [C.cType, hhelper]

end Message.Accepted

theorem Rust.emitVariant_opcode {m : Message} {code : Code} (h : Rust.emitVariant m = some code) :
    code.opcode = m.opcode := by
  simp only [Rust.emitVariant, Option.bind_eq_bind, Option.bind_eq_some_iff] at h
  obtain ⟨encode, -, decode, -, h⟩ := h
  cases h
  rfl

/-- The arm that decodes an opcode is that of the first message which has it. -/
theorem Rust.find_codes {p : Protocol} {codec : Codec} (h : Rust.emit p = some codec)
    (d : Direction) (opcode : UInt16) :
    (codec.codes d).find? (·.opcode = opcode) =
      ((p.messages d).find? (·.opcode = opcode)).bind Rust.emitVariant := by
  simp only [Rust.emit, Option.bind_eq_bind, Option.bind_eq_some_iff] at h
  obtain ⟨requests, hrequests, events, hevents, h⟩ := h
  cases h
  have hopcode : ∀ m code, Rust.emitVariant m = some code →
      decide (code.opcode = opcode) = decide (m.opcode = opcode) :=
    fun m code hm => by rw [Rust.emitVariant_opcode hm]
  cases d with
  | inbound => exact find_mapM hopcode hrequests
  | outbound => exact find_mapM hopcode hevents

end Waywallen.Wayproto
