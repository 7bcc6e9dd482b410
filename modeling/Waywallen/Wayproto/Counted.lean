import Waywallen.Wayproto.Accepted
import Mathlib.Data.List.Nodup

/-!
# Generators that agree

For a schema that the parser accepts the generators emit their code, and the descriptors of a
message are counted alike where its fields are the integers that the count names.
-/

namespace Waywallen.Wayproto

/-! ## Fields and their values -/

theorem mapM_getElem? {α β : Type} {f : α → Option β} {xs : List α} {ys : List β}
    (h : xs.mapM f = some ys) {i : ℕ} {x : α} (hx : xs[i]? = some x) :
    ∃ y, ys[i]? = some y ∧ f x = some y := by
  induction xs generalizing ys i with
  | nil => cases hx
  | cons z zs ih =>
    obtain ⟨y, ys', hy, hys, rfl⟩ := mapM_cons_eq_some.1 h
    cases i with
    | zero =>
      obtain rfl : z = x := by simpa using hx
      exact ⟨y, rfl, hy⟩
    | succ i => exact ih hys hx

theorem Fits.getElem? {S : Type} {values : List (Value S)} {helpers : List Helper}
    (h : Fits values helpers) {i : ℕ} {helper : Helper} (hi : helpers[i]? = some helper) :
    ∃ v, values[i]? = some v ∧ v.fits helper := by
  induction h generalizing i with
  | nil => cases hi
  | @cons v h' values helpers hv _ ih =>
    cases i with
    | zero =>
      obtain rfl : h' = helper := by simpa using hi
      exact ⟨v, rfl, hv⟩
    | succ i => exact ih hi

theorem integerField_eq {S : Type} {fields : List String} {values : List (Value S)} {name : String}
    {i : ℕ} {x : Scalar S} (hnodup : fields.Nodup) (hfield : fields[i]? = some name)
    (hvalue : values[i]? = some (.one x)) : integerField fields values name = x.asU64 := by
  induction fields generalizing values i with
  | nil => cases hfield
  | cons field fields ih =>
    obtain ⟨hnotin, hnodup⟩ := List.nodup_cons.1 hnodup
    cases values with
    | nil => cases hvalue
    | cons v values =>
      cases i with
      | zero =>
        obtain rfl : field = name := by simpa using hfield
        obtain rfl : v = .one x := by simpa using hvalue
        simp [integerField]
      | succ i =>
        have hne : field ≠ name := by
          rintro rfl
          exact hnotin (List.mem_of_getElem? hfield)
        have hrest := ih hnodup hfield hvalue
        simpa [integerField, hne] using hrest

def ArgType.isInteger : ArgType → Bool
  | .u32 => true
  | .i32 => true
  | .u64 => true
  | .i64 => true
  | _ => false

/-- Every field of a count is an integer argument of the message. -/
def Message.IntegerFds (m : Message) : Prop :=
  ∀ fields, m.fds = .product fields → ∀ f ∈ fields, ∃ a ∈ m.args, a.name = f ∧ a.ty.isInteger

/-- The arguments have different names in each language; otherwise its code does not compile. -/
structure Message.DistinctFields (m : Message) : Prop where
  rust : (m.args.map fun a => Rust.fieldName a.name).Nodup
  c : (m.args.map fun a => C.cFieldName a.name).Nodup

/-- An integer argument has the same value for both counts. -/
theorem integerField_agree {m : Message} {helpers : List Helper} {values : List (Value String)}
    (hdistinct : m.DistinctFields) (hhelpers : m.args.mapM (fun a => helperFor a.ty) = some helpers)
    (hvalues : Fits values helpers) {a : Arg} (ha : a ∈ m.args) (hinteger : a.ty.isInteger) :
    ∃ n, integerField (m.args.map fun a => Rust.fieldName a.name) values (Rust.fieldName a.name) =
        some n ∧
      integerField (m.args.map fun a => C.cFieldName a.name) (values.map (Value.map utf8))
        (C.cFieldName a.name) = some n := by
  obtain ⟨i, hi⟩ := List.getElem?_of_mem ha
  obtain ⟨helper, hhelper, hfor⟩ := mapM_getElem? hhelpers hi
  obtain ⟨v, hv, hfits⟩ := hvalues.getElem? hhelper
  have hx : ∃ x : Scalar String, v = .one x ∧
      ∃ n, x.asU64 = some n ∧ (x.map utf8).asU64 = some n := by
    rcases hty : a.ty with _ | _ | _ | _ | _ | _ | _ | _ | _ | _ <;> rw [hty] at hfor hinteger <;>
      cases hinteger <;> cases hfor <;> cases v <;> simp only [Value.fits, decide_eq_true_eq,
        Bool.false_eq_true] at hfits
    all_goals
      next x =>
        cases x <;> cases hfits
        exact ⟨_, rfl, _, rfl, rfl⟩
  obtain ⟨x, rfl, n, hn, hn'⟩ := hx
  have hvalue' : (values.map (Value.map utf8))[i]? = some (.one (x.map utf8)) := by
    rw [List.getElem?_map, hv]
    rfl
  refine ⟨n, ?_, ?_⟩
  · rw [integerField_eq hdistinct.rust (by rw [List.getElem?_map, hi]; rfl) hv, hn]
  · rw [integerField_eq hdistinct.c (by rw [List.getElem?_map, hi]; rfl) hvalue', hn']

theorem mapM_agree {f g : String → String} {rust c : String → Option UInt64} {fields : List String}
    (h : ∀ x ∈ fields, ∃ n, rust (f x) = some n ∧ c (g x) = some n) :
    ∃ ns, (fields.map f).mapM rust = some ns ∧ (fields.map g).mapM c = some ns ∧
      ns.length = fields.length := by
  induction fields with
  | nil => exact ⟨[], rfl, rfl, rfl⟩
  | cons x xs ih =>
    obtain ⟨n, hf, hg⟩ := h x List.mem_cons_self
    obtain ⟨ns, hfs, hgs, hlength⟩ := ih fun y hy => h y (List.mem_cons_of_mem _ hy)
    exact ⟨n :: ns, mapM_cons_eq_some.2 ⟨n, ns, hf, hfs, rfl⟩,
      mapM_cons_eq_some.2 ⟨n, ns, hg, hgs, rfl⟩, congrArg (· + 1) hlength⟩

/-! ## Products -/

theorem foldlM_product {overflowChecks : Bool} {xs : List UInt64} {x n : UInt64}
    (h : xs.foldlM (fun acc y =>
      if overflowChecks ∧ 2 ^ 64 ≤ acc.toNat * y.toNat then none else some (acc * y)) x = some n) :
    n = xs.foldl (· * ·) x := by
  induction xs generalizing x with
  | nil =>
    cases h
    rfl
  | cons y ys ih =>
    rw [List.foldlM_cons] at h
    split_ifs at h
    · cases h
    · exact ih h

/-- Whatever the build, the product is that of C if there is one. -/
theorem product_agree {overflowChecks : Bool} {xs : List UInt64} {n : UInt64}
    (h : Rust.product overflowChecks xs = some n) : C.product xs = some n := by
  cases xs with
  | nil => cases h
  | cons x xs => rw [C.product, foldlM_product h]

theorem product_wraps {xs : List UInt64} (h : xs ≠ []) : (Rust.product false xs).isSome := by
  cases xs with
  | nil => exact absurd rfl h
  | cons x xs =>
    unfold Rust.product
    induction xs generalizing x with
    | nil => rfl
    | cons y ys ih => simpa using ih (x * y) (by simp)

/-! ## The whole schema -/

theorem Rust.emitVariant_eq {m : Message} {code : Code} (h : Rust.emitVariant m = some code) :
    code.fields = (m.args.map fun a => Rust.fieldName a.name) ∧
      code.fds = m.fds.code Rust.fieldName ∧
      m.args.mapM (fun a => helperFor a.ty) = some code.encode ∧ code.decode = code.encode := by
  simp only [Rust.emitVariant, Option.bind_eq_bind, Option.bind_eq_some_iff] at h
  obtain ⟨encode, hencode, decode, hdecode, h⟩ := h
  cases h
  exact ⟨rfl, rfl, hencode, Option.some.inj (hdecode.symm.trans hencode)⟩

theorem C.emitMessageImpl_eq {m : Message} {code : Code} (h : C.emitMessageImpl m = some code) :
    code.fields = (m.args.map fun a => C.cFieldName a.name) ∧
      code.fds = m.fds.code C.cFieldName ∧
      m.args.mapM (fun a => helperFor a.ty) = some code.encode ∧ code.decode = code.encode := by
  simp only [C.emitMessageImpl, Option.bind_eq_bind, Option.bind_eq_some_iff] at h
  obtain ⟨encode, hencode, decode, hdecode, h⟩ := h
  cases h
  exact ⟨rfl, rfl, hencode, Option.some.inj (hdecode.symm.trans hencode)⟩

/-- For all values of a message that fit, both count the same descriptors: C always counts some, and
so does Rust unless it panics, which it does not without overflow checks. -/
def CountsAgree (rust c : Code) : Prop :=
  ∀ values, Fits values rust.encode →
    ∃ n, C.expectedFds c (values.map (Value.map utf8)) = some n ∧
      Rust.expectedFds false rust values = some n ∧
      ∀ n', Rust.expectedFds true rust values = some n' → n' = n

theorem Message.Accepted.counts_agree {m : Message} {rust c : Code} (haccepted : m.Accepted)
    (hrust : Rust.emitVariant m = some rust) (hc : C.emitMessageImpl m = some c)
    (hinteger : m.IntegerFds) (hdistinct : m.DistinctFields) : CountsAgree rust c := by
  intro values hvalues
  obtain ⟨hfields, hfds, hhelpers, -⟩ := Rust.emitVariant_eq hrust
  obtain ⟨hfields', hfds', -, -⟩ := C.emitMessageImpl_eq hc
  rcases hspec : m.fds with _ | n | fields
  · rw [hspec] at hfds hfds'
    exact ⟨0, by rw [C.expectedFds, hfds']; rfl, by rw [Rust.expectedFds, hfds]; rfl, fun n' h => by
      rw [Rust.expectedFds, hfds] at h
      exact (Option.some.inj h).symm⟩
  · rw [hspec] at hfds hfds'
    exact ⟨n, by rw [C.expectedFds, hfds']; rfl, by rw [Rust.expectedFds, hfds]; rfl, fun n' h => by
      rw [Rust.expectedFds, hfds] at h
      exact (Option.some.inj h).symm⟩
  · rw [hspec] at hfds hfds'
    obtain ⟨ns, hns, hns', hlength⟩ := mapM_agree fun f hf => by
      obtain ⟨a, ha, rfl, hty⟩ := hinteger fields hspec f hf
      exact integerField_agree hdistinct hhelpers hvalues ha hty
    rw [← hfields] at hns
    rw [← hfields'] at hns'
    have hne : ns ≠ [] := by
      rintro rfl
      exact haccepted.fds (by rw [hspec, List.length_eq_zero_iff.1 hlength.symm])
    obtain ⟨n, hn⟩ := Option.isSome_iff_exists.1 (product_wraps hne)
    have hproduct := product_agree hn
    refine ⟨n.toUInt32, ?_, ?_, fun n' h => ?_⟩
    · rw [C.expectedFds, hfds', FdSpec.code]
      simp [hns', hproduct]
    · rw [Rust.expectedFds, hfds, FdSpec.code]
      simp [hns, hn]
    · rw [Rust.expectedFds, hfds, FdSpec.code] at h
      simp only [hns, Option.bind_eq_bind, Option.bind_some, Option.bind_eq_some_iff] at h
      obtain ⟨k, hk, h⟩ := h
      obtain rfl := Option.some.inj (hproduct.symm.trans (product_agree hk))
      exact (Option.some.inj h).symm

theorem find_of_nodup {msgs : List Message} (hnodup : (msgs.map Message.opcode).Nodup) {m : Message}
    (hm : m ∈ msgs) : msgs.find? (·.opcode = m.opcode) = some m := by
  induction msgs with
  | nil => cases hm
  | cons m' msgs ih =>
    obtain ⟨hnotin, hnodup⟩ := List.nodup_cons.1 hnodup
    rcases List.mem_cons.1 hm with rfl | hm
    · simp
    · have hne : m'.opcode ≠ m.opcode := by
        intro heq
        exact hnotin (heq ▸ List.mem_map_of_mem hm)
      rw [List.find?_cons, decide_eq_false hne]
      exact ih hnodup hm

/-- Where the parser accepts a schema without arrays of rects, both generators emit their code.
Each arm of the decoder is reached where the opcodes of a direction are unique, and the counts agree
where they name integer arguments. -/
theorem parseProtocol_generates {src : String} {p : Protocol} (hparse : parseProtocol src = .ok p)
    (hrect : ∀ d, ∀ m ∈ p.messages d, m.NoRectArrays) :
    (C.emitHeader p).isSome ∧ (C.emitSource p).isSome ∧
      ∃ codec, Rust.emit p = some codec ∧ ∀ d, ∀ m ∈ p.messages d,
        (((p.messages d).map Message.opcode).Nodup →
          (codec.codes d).find? (·.opcode = m.opcode) = Rust.emitVariant m) ∧
        ∃ rust c, Rust.emitVariant m = some rust ∧ C.emitMessageImpl m = some c ∧
          (m.IntegerFds → m.DistinctFields → CountsAgree rust c) := by
  have haccepted := parseProtocol_accepted hparse
  have hvariant : ∀ d, ∀ m ∈ p.messages d, (Rust.emitVariant m).isSome :=
    fun d m hm => (haccepted d m hm).emitVariant (hrect d m hm)
  have himpl : ∀ d, ∀ m ∈ p.messages d, (C.emitMessageImpl m).isSome :=
    fun d m hm => (haccepted d m hm).emitMessageImpl (hrect d m hm)
  have hstruct : ∀ d, ∀ m ∈ p.messages d, (C.emitMessageStruct m).isSome :=
    fun d m hm => (haccepted d m hm).emitMessageStruct (hrect d m hm)
  refine ⟨?_, ?_, ?_⟩
  · obtain ⟨requests, hrequests⟩ := Option.isSome_iff_exists.1 (mapM_isSome (hstruct .inbound))
    obtain ⟨events, hevents⟩ := Option.isSome_iff_exists.1 (mapM_isSome (hstruct .outbound))
    simp only [Protocol.messages] at hrequests hevents
    simp [C.emitHeader, hrequests, hevents]
  · obtain ⟨requests, hrequests⟩ := Option.isSome_iff_exists.1 (mapM_isSome (himpl .inbound))
    obtain ⟨events, hevents⟩ := Option.isSome_iff_exists.1 (mapM_isSome (himpl .outbound))
    simp only [Protocol.messages] at hrequests hevents
    simp [C.emitSource, hrequests, hevents]
  · obtain ⟨requests, hrequests⟩ := Option.isSome_iff_exists.1 (mapM_isSome (hvariant .inbound))
    obtain ⟨events, hevents⟩ := Option.isSome_iff_exists.1 (mapM_isSome (hvariant .outbound))
    simp only [Protocol.messages] at hrequests hevents
    have hemit : Rust.emit p = some ⟨requests, events⟩ := by
      simp [Rust.emit, Rust.emitEnum, hrequests, hevents]
    refine ⟨⟨requests, events⟩, hemit, fun d m hm => ⟨fun hnodup => ?_, ?_⟩⟩
    · rw [Rust.find_codes hemit, find_of_nodup hnodup hm]
      rfl
    · obtain ⟨rust, hrust⟩ := Option.isSome_iff_exists.1 (hvariant d m hm)
      obtain ⟨c, hc⟩ := Option.isSome_iff_exists.1 (himpl d m hm)
      exact ⟨rust, c, hrust, hc, (haccepted d m hm).counts_agree hrust hc⟩

def parses (src : String) (p : Protocol) : Bool :=
  match parseProtocol src with
  | .ok p' => p' = p
  | .error _ => false

theorem parse_eq {src : String} {p : Protocol} (h : parses src p) : parseProtocol src = .ok p := by
  unfold parses at h
  split at h
  · next p' hp' => rw [hp', of_decide_eq_true h]
  · cases h

def countedText : String :=
  "<protocol name='t' version='1'><event name='e' opcode='1'><arg name='n' type='u32'/>" ++
    "<arg name='s' type='array' element='string'/><fds count_expr='n'/></event></protocol>"

def counted : Protocol where
  name := "t"
  version := 1
  inboundKind := .request
  requests := []
  events := [⟨"e", 1, [⟨"n", .u32⟩, ⟨"s", .array .string⟩], .product ["n"]⟩]

theorem parse_countedText : parseProtocol countedText = .ok counted := parse_eq (by decide +kernel)

theorem parseProtocol_generates_counted :
    (C.emitHeader counted).isSome ∧ (C.emitSource counted).isSome ∧
      ∃ codec, Rust.emit counted = some codec ∧ ∀ d, ∀ m ∈ counted.messages d,
        (((counted.messages d).map Message.opcode).Nodup →
          (codec.codes d).find? (·.opcode = m.opcode) = Rust.emitVariant m) ∧
        ∃ rust c, Rust.emitVariant m = some rust ∧ C.emitMessageImpl m = some c ∧
          (m.IntegerFds → m.DistinctFields → CountsAgree rust c) :=
  parseProtocol_generates parse_countedText (by
    intro d
    cases d <;> unfold Message.NoRectArrays <;> decide)

/-- Nothing keeps two events from having one opcode. -/
def twiceText : String :=
  "<protocol name='t' version='1'><event name='a' opcode='7'/><event name='b' opcode='7'/></protocol>"

def twice : Protocol where
  name := "t"
  version := 1
  inboundKind := .request
  requests := []
  events := [⟨"a", 7, [], .none⟩, ⟨"b", 7, [], .none⟩]

theorem parse_twiceText : parseProtocol twiceText = .ok twice := parse_eq (by decide +kernel)

theorem not_parseProtocol_generates :
    ¬ ∀ (src : String) (p : Protocol), parseProtocol src = .ok p →
      (Rust.emit p).isSome ∧ (C.emitHeader p).isSome ∧ (C.emitSource p).isSome ∧
        ∀ d, ((p.messages d).map Message.opcode).Nodup ∧ ∀ m ∈ p.messages d, m.IntegerFds ∧
          ∀ rust c, Rust.emitVariant m = some rust → C.emitMessageImpl m = some c →
            CountsAgree rust c := by
  intro h
  have hnodup := (h twiceText twice parse_twiceText).2.2.2 .outbound
  exact absurd hnodup.1 (by decide)

end Waywallen.Wayproto
