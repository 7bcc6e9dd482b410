import Waywallen.Wayproto.Tokenizer

/-!
# Trees and their text

The tree that the tokenizer returns is printed as tags, attributes and children, without comments.
The text parses back to the same tree. An attribute is printed in the quote that its value does not
contain; a value from the source cannot contain both.
-/

namespace Waywallen.Wayproto.Tokenizer

open Utf8

/-! ## More fuel -/

section

variable {α β : Type} {src : List UInt8} {fuel fuel' : ℕ}

/-- Where `m` ends, `m'` does the same. -/
def Steady (m m' : ParserM α) : Prop :=
  ∀ pos, m pos ≠ .error .outOfFuel → m' pos = m pos

theorem Steady.refl (m : ParserM α) : Steady m m :=
  fun _ _ => rfl

theorem Steady.outOfFuel (m : ParserM α) : Steady (throw .outOfFuel) m :=
  fun _ h => absurd rfl h

theorem Steady.bind {m m' : ParserM α} {f f' : α → ParserM β} (h : Steady m m')
    (hf : ∀ a, Steady (f a) (f' a)) : Steady (m >>= f) (m' >>= f') := by
  intro pos hne
  change Except.bind (m pos) (fun x => f x.1 x.2) ≠ _ at hne
  change Except.bind (m' pos) (fun x => f' x.1 x.2) = Except.bind (m pos) fun x => f x.1 x.2
  have hfirst : m pos ≠ .error .outOfFuel := fun he => hne (by rw [he]; rfl)
  rw [h pos hfirst]
  cases hm : m pos with
  | ok r =>
    rw [hm] at hne
    exact hf r.1 r.2 hne
  | error e => rfl

theorem Steady.ite {c : Prop} [Decidable c] {m m' n n' : ParserM α} (hm : Steady m m')
    (hn : Steady n n') : Steady (if c then m else n) (if c then m' else n') := by
  split
  · exact hm
  · exact hn

theorem steady_advanceWhile (cond : ParserM Bool) (hle : fuel ≤ fuel') :
    Steady (advanceWhile src cond fuel) (advanceWhile src cond fuel') := by
  induction fuel generalizing fuel' with
  | zero => exact .outOfFuel _
  | succ fuel ih =>
    obtain ⟨k, rfl⟩ := Nat.exists_eq_add_of_lt (Nat.lt_of_succ_le hle)
    have hk : fuel ≤ fuel + k := Nat.le_add_right _ _
    exact .bind (.refl _) fun _ => .ite (.refl _) <| .bind (.refl _) fun _ =>
      .ite (.bind (.refl _) fun _ => ih hk) (.refl _)

theorem steady_skipCommentsAndWs (hle : fuel ≤ fuel') :
    Steady (skipCommentsAndWs src fuel) (skipCommentsAndWs src fuel') := by
  induction fuel generalizing fuel' with
  | zero => exact .outOfFuel _
  | succ fuel ih =>
    obtain ⟨k, rfl⟩ := Nat.exists_eq_add_of_lt (Nat.lt_of_succ_le hle)
    have hk : fuel ≤ fuel + k := Nat.le_add_right _ _
    exact .bind (steady_advanceWhile _ hk) fun _ => .bind (.refl _) fun _ => .ite (.refl _) <|
      .bind (.refl _) fun _ => .ite (.bind (.refl _) fun _ => .bind (steady_advanceWhile _ hk)
        fun _ => .bind (.refl _) fun _ => .ite (.refl _) (.bind (.refl _) fun _ => ih hk)) (.refl _)

theorem steady_skipProlog (hle : fuel ≤ fuel') :
    Steady (skipProlog src fuel) (skipProlog src fuel') :=
  .bind (steady_skipCommentsAndWs hle) fun _ => .bind (.refl _) fun _ =>
    .ite (.bind (steady_advanceWhile _ hle) fun _ => .bind (.refl _) fun _ =>
      .ite (.refl _) (.bind (.refl _) fun _ => steady_skipCommentsAndWs hle))
      (steady_skipCommentsAndWs hle)

theorem steady_parseName (hle : fuel ≤ fuel') :
    Steady (parseName src fuel) (parseName src fuel') :=
  .bind (.refl _) fun _ => .bind (steady_advanceWhile _ hle) fun _ => .refl _

theorem steady_parseAttrValue (hle : fuel ≤ fuel') :
    Steady (parseAttrValue src fuel) (parseAttrValue src fuel') :=
  .bind (.refl _) fun _ => .ite (.refl _) <| .bind (.refl _) fun _ => .ite (.refl _) <|
    .bind (.refl _) fun _ => .bind (.refl _) fun _ => .bind (steady_advanceWhile _ hle) fun _ =>
      .refl _

theorem steady_parseAttrs (attrs : List (String × String)) (hle : fuel ≤ fuel') :
    Steady (parseAttrs src fuel attrs) (parseAttrs src fuel' attrs) := by
  induction fuel generalizing fuel' attrs with
  | zero => exact .outOfFuel _
  | succ fuel ih =>
    obtain ⟨k, rfl⟩ := Nat.exists_eq_add_of_lt (Nat.lt_of_succ_le hle)
    have hk : fuel ≤ fuel + k := Nat.le_add_right _ _
    exact .bind (steady_advanceWhile _ hk) fun _ => .bind (.refl _) fun _ => .ite (.refl _) <|
      .bind (.refl _) fun _ => .ite (.refl _) <| .ite (.refl _) <|
        .bind (steady_parseName hk) fun _ => .bind (steady_advanceWhile _ hk) fun _ =>
          .bind (.refl _) fun _ => .ite (.bind (.refl _) fun _ =>
            .bind (steady_advanceWhile _ hk) fun _ => .bind (steady_parseAttrValue hk) fun _ =>
              ih _ hk) (.refl _)

theorem steady_tree (fuel : ℕ) : ∀ fuel' ≥ fuel,
    Steady (parseElement src fuel) (parseElement src fuel') ∧
    ∀ name attrs children, Steady (parseChildren src fuel name attrs children)
      (parseChildren src fuel' name attrs children) := by
  induction fuel with
  | zero => exact fun _ _ => ⟨.outOfFuel _, fun _ _ _ => .outOfFuel _⟩
  | succ fuel ih =>
    intro fuel' hle
    obtain ⟨k, rfl⟩ := Nat.exists_eq_add_of_lt (Nat.lt_of_succ_le hle)
    have hk : fuel ≤ fuel + k := Nat.le_add_right _ _
    obtain ⟨ihElement, ihChildren⟩ := ih (fuel + k) hk
    refine ⟨.bind (steady_skipCommentsAndWs hk) fun _ => .bind (.refl _) fun _ =>
      .ite (.bind (.refl _) fun _ => .bind (steady_parseName hk) fun name =>
        .bind (steady_parseAttrs [] hk) fun r => .ite (.refl _) (ihChildren name r.1 [])) (.refl _),
      fun name attrs children => ?_⟩
    exact .bind (steady_skipCommentsAndWs hk) fun _ => .bind (.refl _) fun _ =>
      .ite (.bind (.refl _) fun _ => .bind (steady_parseName hk) fun _ => .ite (.refl _) <|
        .bind (steady_advanceWhile _ hk) fun _ => .refl _)
      (.bind ihElement fun child => ihChildren name attrs (children ++ [child]))

/-- A parser that has ended does the same with more fuel. -/
theorem parseRoot_of_le (hle : fuel ≤ fuel') (h : parseRoot src fuel ≠ .error .outOfFuel) :
    parseRoot src fuel' = parseRoot src fuel := by
  have hsteady : Steady (do skipProlog src fuel; parseElement src fuel)
      (do skipProlog src fuel'; parseElement src fuel') :=
    .bind (steady_skipProlog hle) fun _ => (steady_tree fuel fuel' hle).1
  change Except.map Prod.fst _ ≠ _ at h
  change Except.map Prod.fst _ = Except.map Prod.fst _
  rw [hsteady 0 fun he => h (by rw [he]; rfl)]

end

/-! ## Printing -/

/-- A quote that is not in the value, if there is one. -/
def quoteOf (value : String) : UInt8 :=
  if byte '"' ∈ bytes value then byte '\'' else byte '"'

def printAttr (kv : String × String) : List UInt8 :=
  byte ' ' :: bytes kv.1 ++ byte '=' :: quoteOf kv.2 :: bytes kv.2 ++ [quoteOf kv.2]

mutual

def print : Node → List UInt8
  | .mk name attrs children =>
    byte '<' :: bytes name ++ attrs.flatMap printAttr ++ byte '>' :: printAll children ++
      byte '<' :: byte '/' :: bytes name ++ [byte '>']

def printAll : List Node → List UInt8
  | [] => []
  | node :: nodes => print node ++ printAll nodes

end

/-! ## Reading what was printed -/

/-- The cursor stands before the text. -/
structure At (src : List UInt8) (pos : ℕ) (text : List UInt8) : Prop where
  le : pos ≤ src.length
  drop : src.drop pos = text

section

variable {src text rest : List UInt8} {pos fuel : ℕ} {b : UInt8}

theorem At.length (h : At src pos text) : src.length - pos = text.length := by
  rw [← h.drop, List.length_drop]

theorem At.append (h : At src pos (text ++ rest)) : At src (pos + text.length) rest := by
  have hlength := h.length
  rw [List.length_append] at hlength
  refine ⟨by have := h.le; omega, ?_⟩
  rw [← List.drop_drop, h.drop, List.drop_left]

theorem At.tail (h : At src pos (b :: rest)) : At src (pos + 1) rest := by
  have hcons : At src pos ([b] ++ rest) := h
  exact hcons.append

theorem At.lt (h : At src pos (b :: rest)) : pos < src.length := by
  have hlength := h.length
  rw [List.length_cons] at hlength
  omega

theorem At.getElem? (h : At src pos (b :: rest)) : src[pos]? = some b := by
  have hhead := congrArg List.head? h.drop
  rwa [List.head?_drop] at hhead

theorem At.eof (h : At src pos (b :: rest)) : eof src pos = .ok (false, pos) :=
  eof_of_lt h.lt

theorem At.peek (h : At src pos (b :: rest)) : peek src pos = .ok (b, pos) :=
  peek_of_some h.getElem?

theorem At.startsWith (h : At src pos text) (needle : List UInt8) :
    startsWith src needle pos = .ok (needle.isPrefixOf text, pos) := by
  rw [startsWith_of_le h.le, h.drop]

theorem At.atByte (h : At src pos (b :: rest)) : atByte src b pos = .ok (true, pos) := by
  obtain ⟨c, hrun, hiff⟩ := exists_atByte src pos b
  rw [hrun, hiff.2 h.getElem?]

/-- The cursor passes the bytes of a kind, and stops at one that is not. -/
theorem At.advanceWhile {kind : UInt8 → Bool} (h : At src pos (text ++ b :: rest))
    (hall : ∀ a ∈ text, kind a = true) (hstop : kind b = false) (hfuel : text.length < fuel) :
    advanceWhile src (kind <$> Tokenizer.peek src) fuel pos = .ok ((), pos + text.length) := by
  induction text generalizing pos fuel with
  | nil =>
    obtain ⟨fuel, rfl⟩ := Nat.exists_eq_add_one.2 hfuel
    have hkind := map_peek kind pos h.lt
    rw [byteAt, h.getElem?, Option.any_some, hstop] at hkind
    rw [Tokenizer.advanceWhile, bind_of_ok h.eof, if_neg Bool.false_ne_true, bind_of_ok hkind,
      if_neg Bool.false_ne_true]
    rfl
  | cons a text ih =>
    obtain ⟨fuel, rfl⟩ := Nat.exists_eq_add_one.2 (Nat.zero_lt_of_lt hfuel)
    have hkind := map_peek kind pos h.lt
    rw [byteAt, h.getElem?, Option.any_some, hall a List.mem_cons_self] at hkind
    rw [Tokenizer.advanceWhile, bind_of_ok h.eof, if_neg Bool.false_ne_true, bind_of_ok hkind,
      if_pos rfl, bind_of_ok (show advance 1 pos = .ok ((), pos + 1) from rfl),
      ih h.tail (fun a ha => hall a (List.mem_cons_of_mem _ ha)) (Nat.lt_of_succ_lt_succ hfuel),
      List.length_cons]
    congr 2
    omega

theorem At.slice (h : At src pos (text ++ rest)) (q : ℕ) :
    slice src pos (pos + text.length) q = .ok (text, q) := by
  have hle : pos + text.length ≤ src.length := h.append.le
  rw [slice_of_le (Nat.le_add_right _ _) hle, List.drop_take, h.drop, Nat.add_sub_cancel_left,
    List.take_left]

/-- Where no white space comes next, none is skipped. -/
theorem At.skipWhitespace (h : At src pos (b :: rest)) (hb : isWhitespaceByte b = false)
    (hfuel : 0 < fuel) : skipWhitespace src fuel pos = .ok ((), pos) := by
  have hnil : At src pos ([] ++ b :: rest) := h
  exact hnil.advanceWhile (fun _ ha => absurd ha List.not_mem_nil) hb hfuel

/-- A tag is no comment. -/
theorem At.skipCommentsAndWs (h : At src pos (byte '<' :: b :: rest)) (hb : b ≠ byte '!')
    (hfuel : 1 < fuel) : skipCommentsAndWs src fuel pos = .ok ((), pos) := by
  obtain ⟨fuel, rfl⟩ := Nat.exists_eq_add_one.2 (Nat.zero_lt_of_lt hfuel)
  have hcomment : (bytes "<!--").isPrefixOf (byte '<' :: b :: rest) = false := by
    rw [show bytes "<!--" = [byte '<', byte '!', byte '-', byte '-'] by decide]
    simp [List.isPrefixOf, hb.symm]
  rw [Tokenizer.skipCommentsAndWs, bind_of_ok (h.skipWhitespace (by decide) (by omega)),
    bind_of_ok h.eof, if_neg Bool.false_ne_true, bind_of_ok (h.startsWith _), hcomment,
    if_neg Bool.false_ne_true]
  rfl

theorem fromUtf8Lossy_bytes (value : String) :
    String.ofList (fromUtf8Lossy (bytes value)) = value := by
  rw [bytes, fromUtf8Lossy_encode, String.ofList_toList]

theorem At.parseName {name : String} (h : At src pos (bytes name ++ b :: rest))
    (hname : IsName name) (hb : isNameByte b = false) (hfuel : (bytes name).length < fuel) :
    parseName src fuel pos = .ok (name, pos + (bytes name).length) := by
  have hne : pos ≠ pos + (bytes name).length := by
    have := List.length_pos_iff.2 hname.1
    omega
  rw [Tokenizer.parseName, bind_of_ok (show position pos = .ok (pos, pos) from rfl),
    bind_of_ok (h.advanceWhile hname.2 hb hfuel),
    bind_of_ok (show position (pos + (bytes name).length) = .ok (_, _) from rfl), if_neg hne,
    bind_of_ok (h.slice _), fromUtf8Lossy_bytes]
  rfl

theorem notMem_quoteOf {value : String} (h : Quotable value) : quoteOf value ∉ bytes value := by
  rw [quoteOf]
  split
  · rename_i hmem
    exact h.resolve_left (not_not.2 hmem)
  · assumption

theorem quoteOf_eq (value : String) : quoteOf value = byte '"' ∨ quoteOf value = byte '\'' := by
  rw [quoteOf]
  split
  · exact .inr rfl
  · exact .inl rfl

theorem At.parseAttrValue {value : String}
    (h : At src pos (quoteOf value :: bytes value ++ quoteOf value :: rest))
    (hvalue : Quotable value) (hfuel : (bytes value).length < fuel) :
    parseAttrValue src fuel pos = .ok (value, pos + 1 + (bytes value).length + 1) := by
  have hquote : ¬(quoteOf value ≠ byte '"' ∧ quoteOf value ≠ byte '\'') := by
    rw [not_and_or, not_not, not_not]
    exact quoteOf_eq value
  have hbody : At src (pos + 1) (bytes value ++ quoteOf value :: rest) := h.tail
  have hall : ∀ a ∈ bytes value, decide (a ≠ quoteOf value) = true := fun a ha =>
    decide_eq_true fun heq => notMem_quoteOf hvalue (heq ▸ ha)
  have hloop := hbody.advanceWhile hall (by simp) hfuel
  rw [Tokenizer.parseAttrValue, bind_of_ok h.eof, if_neg Bool.false_ne_true, bind_of_ok h.peek,
    if_neg hquote, bind_of_ok (show advance 1 pos = .ok ((), pos + 1) from rfl),
    bind_of_ok (show position (pos + 1) = .ok (pos + 1, pos + 1) from rfl), bind_of_ok hloop,
    bind_of_ok hbody.append.eof, if_neg Bool.false_ne_true,
    bind_of_ok (show position (pos + 1 + (bytes value).length) = .ok (_, _) from rfl),
    bind_of_ok (hbody.slice _),
    bind_of_ok (show advance 1 (pos + 1 + (bytes value).length) = .ok ((), _) from rfl),
    fromUtf8Lossy_bytes]
  rfl

theorem isWhitespaceByte_of_isNameByte (h : isNameByte b = true) : isWhitespaceByte b = false := by
  refine Bool.eq_false_iff.2 fun hws => ?_
  simp only [isWhitespaceByte, Bool.or_eq_true, decide_eq_true_eq] at hws
  rcases hws with (((rfl | rfl) | rfl) | rfl) | rfl
  all_goals exact absurd h (by decide)

theorem ne_of_isNameByte {c : UInt8} (h : isNameByte b = true) (hc : isNameByte c = false) :
    b ≠ c := by
  rintro rfl
  rw [h] at hc
  cases hc

theorem IsName.exists_cons {name : String} (h : IsName name) :
    ∃ b rest, bytes name = b :: rest ∧ isNameByte b = true := by
  obtain ⟨b, rest, hcons⟩ := List.exists_cons_of_ne_nil h.1
  exact ⟨b, rest, hcons, h.2 b (hcons ▸ List.mem_cons_self)⟩

theorem isWhitespaceByte_quoteOf (value : String) : isWhitespaceByte (quoteOf value) = false := by
  rcases quoteOf_eq value with h | h
  all_goals
    rw [h]
    decide

/-- The attributes up to the end of the tag. -/
theorem At.parseAttrs {attrs : List (String × String)} (done : List (String × String))
    (h : At src pos (attrs.flatMap printAttr ++ byte '>' :: rest)) (hattrs : GoodAttrs attrs)
    (hfuel : (attrs.flatMap printAttr).length + 1 < fuel) :
    ∃ p, Tokenizer.parseAttrs src fuel done pos = .ok ((done ++ attrs, false), p) ∧ At src p rest := by
  induction attrs generalizing pos fuel done with
  | nil =>
    obtain ⟨fuel, rfl⟩ := Nat.exists_eq_add_one.2 (Nat.zero_lt_of_lt hfuel)
    rw [List.flatMap_nil, List.nil_append] at h
    refine ⟨pos + 1, ?_, h.tail⟩
    rw [Tokenizer.parseAttrs, bind_of_ok (h.skipWhitespace (by decide) (by simpa using hfuel)),
      bind_of_ok h.eof, if_neg Bool.false_ne_true, bind_of_ok h.peek, if_neg (by decide), if_pos rfl,
      List.append_nil]
    rfl
  | cons kv attrs ih =>
    obtain ⟨key, value⟩ := kv
    obtain ⟨fuel, rfl⟩ := Nat.exists_eq_add_one.2 (Nat.zero_lt_of_lt hfuel)
    obtain ⟨hkey, hvalue⟩ := hattrs (key, value) List.mem_cons_self
    obtain ⟨b, more, hcons, hb⟩ := hkey.exists_cons
    have htext : (((key, value) :: attrs).flatMap printAttr) ++ byte '>' :: rest =
        [byte ' '] ++ (bytes key ++ byte '=' :: (quoteOf value :: bytes value ++
          quoteOf value :: (attrs.flatMap printAttr ++ byte '>' :: rest))) := by
      simp [printAttr]
    have hlength : (((key, value) :: attrs).flatMap printAttr).length =
        (bytes key).length + (bytes value).length + (attrs.flatMap printAttr).length + 4 := by
      simp [printAttr]
      omega
    rw [htext] at h
    rw [hlength] at hfuel
    have hname : At src (pos + 1) (bytes key ++ byte '=' :: (quoteOf value :: bytes value ++
        quoteOf value :: (attrs.flatMap printAttr ++ byte '>' :: rest))) := h.append
    have hspace : Tokenizer.skipWhitespace src fuel pos = .ok ((), pos + 1) := by
      rw [hcons] at h
      exact h.advanceWhile (fun a ha => by rw [List.mem_singleton.1 ha]; decide)
        (isWhitespaceByte_of_isNameByte hb) (by rw [List.length_singleton]; omega)
    have hfirst : At src (pos + 1) (b :: (more ++ byte '=' :: (quoteOf value :: bytes value ++
        quoteOf value :: (attrs.flatMap printAttr ++ byte '>' :: rest)))) := by
      rwa [hcons] at hname
    have hequals := hname.append
    have hquoted := hequals.tail
    have hafter : At src (pos + 1 + (bytes key).length + 1 + 1 + (bytes value).length + 1)
        (attrs.flatMap printAttr ++ byte '>' :: rest) := hquoted.tail.append.tail
    obtain ⟨p, hrun, hp⟩ := ih (done ++ [(key, value)]) hafter
      (fun kv hkv => hattrs kv (List.mem_cons_of_mem _ hkv)) (show _ < fuel by omega)
    refine ⟨p, ?_, hp⟩
    rw [Tokenizer.parseAttrs, bind_of_ok hspace, bind_of_ok hfirst.eof, if_neg Bool.false_ne_true,
      bind_of_ok hfirst.peek, if_neg (ne_of_isNameByte hb (by decide)),
      if_neg (ne_of_isNameByte hb (by decide)),
      bind_of_ok (hname.parseName hkey (by decide) (by omega)),
      bind_of_ok (hequals.skipWhitespace (by decide) (by omega)), bind_of_ok hequals.atByte,
      if_pos rfl]
    refine (bind_of_ok (show advance 1 _ = .ok ((), _ + 1) from rfl) _).trans ?_
    rw [bind_of_ok (hquoted.skipWhitespace (isWhitespaceByte_quoteOf value) (by omega)),
      bind_of_ok (hquoted.parseAttrValue hvalue (by omega)), hrun, List.append_assoc]
    rfl

/-! ## Elements -/

/-- A tag begins with its name. -/
theorem Printable.exists_print {node : Node} (h : Printable node) :
    ∃ b more, print node = byte '<' :: b :: more ∧ isNameByte b = true := by
  cases h with
  | mk hname _ _ =>
    obtain ⟨b, more, hcons, hb⟩ := hname.exists_cons
    exact ⟨b, _, by rw [print, hcons]; rfl, hb⟩

theorem bytes_close : bytes "</" = [byte '<', byte '/'] := by
  decide

/-- The end tag. -/
theorem At.parseClose {name : String} {attrs : List (String × String)} {children : List Node}
    (h : At src pos (byte '<' :: byte '/' :: (bytes name ++ byte '>' :: rest))) (hname : IsName name)
    (hfuel : (bytes name).length + 3 < fuel) :
    ∃ p, parseChildren src fuel name attrs children pos = .ok (.mk name attrs children, p) ∧
      At src p rest := by
  obtain ⟨fuel, rfl⟩ := Nat.exists_eq_add_one.2 (Nat.zero_lt_of_lt hfuel)
  have htag : At src (pos + 2) (bytes name ++ byte '>' :: rest) := h.tail.tail
  have hend := htag.append
  have hclose : (bytes "</").isPrefixOf (byte '<' :: byte '/' :: (bytes name ++ byte '>' :: rest)) =
      true := by
    rw [bytes_close]
    simp [List.isPrefixOf]
  refine ⟨pos + 2 + (bytes name).length + 1, ?_, hend.tail⟩
  rw [parseChildren, bind_of_ok (h.skipCommentsAndWs (by decide) (by omega)),
    bind_of_ok (h.startsWith _), hclose, if_pos rfl,
    bind_of_ok (show advance 2 pos = .ok ((), pos + 2) from rfl),
    bind_of_ok (htag.parseName hname (by decide) (by omega)), if_neg (not_not.2 rfl),
    bind_of_ok (hend.skipWhitespace (by decide) (by omega)), bind_of_ok hend.atByte, if_pos rfl]
  rfl

/-- What is printed of a node is read as the node, with what is behind it left. -/
def Reads (node : Node) : Prop :=
  ∀ (src rest : List UInt8) (pos fuel : ℕ), At src pos (print node ++ rest) →
    2 * (print node).length + 3 ≤ fuel →
      ∃ p, parseElement src fuel pos = .ok (node, p) ∧ At src p rest

/-- The children up to the end tag, one after another. -/
theorem At.parseChildren {name : String} {children : List Node} (attrs : List (String × String))
    (done : List Node)
    (h : At src pos (printAll children ++
      byte '<' :: byte '/' :: (bytes name ++ byte '>' :: rest)))
    (hname : IsName name) (hchildren : ∀ child ∈ children, Printable child ∧ Reads child)
    (hfuel : 2 * (printAll children).length + (bytes name).length + 4 ≤ fuel) :
    ∃ p, parseChildren src fuel name attrs done pos = .ok (.mk name attrs (done ++ children), p) ∧
      At src p rest := by
  induction children generalizing pos fuel done with
  | nil =>
    rw [List.append_nil]
    exact h.parseClose hname (by rw [printAll, List.length_nil] at hfuel; omega)
  | cons child children ih =>
    obtain ⟨hchild, hreads⟩ := hchildren child List.mem_cons_self
    obtain ⟨b, more, hprint, hb⟩ := hchild.exists_print
    rw [printAll, List.append_assoc] at h
    rw [printAll, List.length_append] at hfuel
    have hpos : 2 ≤ (print child).length := by
      rw [hprint, List.length_cons, List.length_cons]
      omega
    obtain ⟨fuel, rfl⟩ := Nat.exists_eq_add_one.2 (show 0 < fuel by omega)
    obtain ⟨p, hrun, hp⟩ := hreads _ _ pos fuel h (by omega)
    obtain ⟨q, hrest, hq⟩ := ih (done ++ [child]) hp
      (fun c hc => hchildren c (List.mem_cons_of_mem _ hc))
      (show 2 * (printAll children).length + (bytes name).length + 4 ≤ fuel by omega)
    have hopen : (bytes "</").isPrefixOf (print child ++ (printAll children ++
        byte '<' :: byte '/' :: (bytes name ++ byte '>' :: rest))) = false := by
      rw [bytes_close, hprint]
      simp [List.isPrefixOf, (ne_of_isNameByte hb (show isNameByte (byte '/') = false by decide)).symm]
    have hskip : Tokenizer.skipCommentsAndWs src fuel pos = .ok ((), pos) := by
      rw [hprint] at h
      exact h.skipCommentsAndWs (ne_of_isNameByte hb (by decide)) (by omega)
    refine ⟨q, ?_, hq⟩
    rw [Tokenizer.parseChildren, bind_of_ok hskip, bind_of_ok (h.startsWith _), hopen,
      if_neg Bool.false_ne_true, bind_of_ok hrun, hrest, List.append_assoc]
    rfl

/-- What follows the name of a tag does not go on with it. -/
theorem exists_cons_attrs (attrs : List (String × String)) (rest : List UInt8) :
    ∃ c more, attrs.flatMap printAttr ++ byte '>' :: rest = c :: more ∧ isNameByte c = false := by
  cases attrs with
  | nil => exact ⟨byte '>', rest, rfl, by decide⟩
  | cons kv attrs => exact ⟨byte ' ', _, rfl, by decide⟩

/-- By induction on the tree. -/
theorem Printable.reads {node : Node} (h : Printable node) : Reads node := by
  induction h with
  | @mk name attrs children hname hattrs hchildren ih =>
    intro src rest pos fuel h hfuel
    obtain ⟨b, more, hcons, hb⟩ := hname.exists_cons
    have htext : print (.mk name attrs children) ++ rest = byte '<' :: (bytes name ++
        (attrs.flatMap printAttr ++ byte '>' :: (printAll children ++
          byte '<' :: byte '/' :: (bytes name ++ byte '>' :: rest)))) := by
      simp [print]
    have hlength : (print (.mk name attrs children)).length = 2 * (bytes name).length +
        (attrs.flatMap printAttr).length + (printAll children).length + 5 := by
      simp [print]
      omega
    rw [htext] at h
    rw [hlength] at hfuel
    obtain ⟨fuel, rfl⟩ := Nat.exists_eq_add_one.2 (show 0 < fuel by omega)
    have htag := h.tail
    obtain ⟨c, behind, hbehind, hc⟩ := exists_cons_attrs attrs (printAll children ++
      byte '<' :: byte '/' :: (bytes name ++ byte '>' :: rest))
    have hread : parseName src fuel (pos + 1) = .ok (name, pos + 1 + (bytes name).length) := by
      rw [hbehind] at htag
      exact htag.parseName hname hc (by omega)
    have hskip : skipCommentsAndWs src fuel pos = .ok ((), pos) := by
      rw [hcons] at h
      exact h.skipCommentsAndWs (ne_of_isNameByte hb (by decide)) (by omega)
    obtain ⟨p, hrun, hp⟩ := htag.append.parseAttrs [] hattrs (show _ < fuel by omega)
    obtain ⟨q, hrest, hq⟩ := hp.parseChildren attrs [] hname
      (fun child hchild => ⟨hchildren child hchild, ih child hchild⟩) (show _ ≤ fuel by omega)
    refine ⟨q, ?_, hq⟩
    rw [parseElement, bind_of_ok hskip, bind_of_ok h.atByte, if_pos rfl,
      bind_of_ok (show advance 1 pos = .ok ((), pos + 1) from rfl), bind_of_ok hread,
      bind_of_ok hrun]
    exact hrest

/-- The prolog of printed text is empty. -/
theorem Printable.parseRoot_print {node : Node} (h : Printable node)
    (hfuel : 2 * (print node).length + 3 ≤ fuel) : parseRoot (print node) fuel = .ok node := by
  have hat : At (print node) 0 (print node ++ []) := ⟨Nat.zero_le _, (List.append_nil _).symm⟩
  obtain ⟨p, hrun, -⟩ := h.reads (print node) [] 0 fuel hat hfuel
  obtain ⟨b, more, hprint, hb⟩ := h.exists_print
  have htag : At (print node) 0 (byte '<' :: b :: more) := ⟨Nat.zero_le _, hprint⟩
  have hskip : skipCommentsAndWs (print node) fuel 0 = .ok ((), 0) :=
    htag.skipCommentsAndWs (ne_of_isNameByte hb (by decide)) (by omega)
  have hdecl : (bytes "<?xml").isPrefixOf (byte '<' :: b :: more) = false := by
    rw [show bytes "<?xml" = [byte '<', byte '?', byte 'x', byte 'm', byte 'l'] by decide]
    simp [List.isPrefixOf, (ne_of_isNameByte hb (show isNameByte (byte '?') = false by decide)).symm]
  have hprolog : skipProlog (print node) fuel 0 = .ok ((), 0) := by
    rw [skipProlog, bind_of_ok hskip, bind_of_ok (htag.startsWith _), hdecl,
      if_neg Bool.false_ne_true, hskip]
  change Except.map Prod.fst _ = _
  rw [bind_of_ok hprolog, hrun]
  rfl

end

/-! ## Every source -/

/-- The parser ends in this way, with any fuel from some amount on. -/
def Ends (src : List UInt8) (r : Except Halt Node) : Prop :=
  ∃ enough, ∀ fuel, enough ≤ fuel → parseRoot src fuel = r

theorem ends_of_parseRoot {src : List UInt8} {fuel : ℕ} {r : Except Halt Node}
    (h : parseRoot src fuel = r) (hr : r ≠ .error .outOfFuel) : Ends src r :=
  ⟨fuel, fun _ hle => (parseRoot_of_le hle (h ▸ hr)).trans h⟩

/-- On every source the parser ends with an error of its own or with a tree, and what is printed of
the tree is read as the same tree. -/
theorem ends_or_roundTrips (src : List UInt8) :
    (∃ e, Ends src (.error (.error e))) ∨
      ∃ node, Ends src (.ok node) ∧ Ends (print node) (.ok node) := by
  rcases parseRoot_ends (le_refl (2 * src.length + 3)) with ⟨e, he⟩ | ⟨node, hnode, hprintable⟩
  · exact .inl ⟨e, ends_of_parseRoot he nofun⟩
  · exact .inr ⟨node, ends_of_parseRoot hnode nofun,
      ends_of_parseRoot (hprintable.parseRoot_print le_rfl) nofun⟩

end Waywallen.Wayproto.Tokenizer
