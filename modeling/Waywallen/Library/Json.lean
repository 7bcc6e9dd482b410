import Mathlib.Data.List.TakeWhile
import Waywallen.Library.HashMap

/-!
# JSON

Texts of strings, natural numbers and objects, without white space. A value is written in a form
that is read as the same value. An object stands for the map of its members, the last of which wins
where several have one key.
-/

mutual

inductive Json
  | number (n : ℕ)
  | string (text : String)
  | object (members : JsonMembers)

inductive JsonMembers
  | nil
  | cons (key : String) (value : Json) (rest : JsonMembers)

end

namespace Json

/-! ## Writing -/

def escape (cs : List Char) : List Char :=
  cs.flatMap fun c => if c = '"' ∨ c = '\\' then ['\\', c] else [c]

def quoted (text : String) : List Char :=
  '"' :: (escape text.toList ++ ['"'])

mutual

def write : Json → List Char
  | number n => Nat.toDigits 10 n
  | string text => quoted text
  | object members => '{' :: (writeMembers members ++ ['}'])

def writeMembers : JsonMembers → List Char
  | .nil => []
  | .cons key value .nil => quoted key ++ ':' :: write value
  | .cons key value rest => quoted key ++ ':' :: (write value ++ ',' :: writeMembers rest)

end

/-! ## Reading -/

/-- The characters up to the quote that ends the text, and what comes after it. -/
def readString : List Char → Option (List Char × List Char)
  | [] => none
  | '"' :: cs => some ([], cs)
  | '\\' :: c :: cs => (readString cs).map fun r => (c :: r.1, r.2)
  | c :: cs => (readString cs).map fun r => (c :: r.1, r.2)

def readNumber (cs : List Char) : Option (Json × List Char) :=
  let digits := cs.takeWhile Char.isDigit
  if digits = [] then none
  else some (number (Nat.ofDigitChars 10 digits 0), cs.dropWhile Char.isDigit)

mutual

/-- A value at the front of a text, of at most the given size. -/
def read : ℕ → List Char → Option (Json × List Char)
  | 0, _ => none
  | size + 1, cs =>
    match cs with
    | '"' :: cs => (readString cs).map fun r => (string (String.ofList r.1), r.2)
    | '{' :: '}' :: cs => some (object .nil, cs)
    | '{' :: cs => (readMembers size cs).map fun r => (object r.1, r.2)
    | cs => readNumber cs

/-- The members of an object with its closing brace. -/
def readMembers : ℕ → List Char → Option (JsonMembers × List Char)
  | 0, _ => none
  | size + 1, cs => do
    let '"' :: cs := cs | none
    let (key, ':' :: cs) ← readString cs | none
    let (value, cs) ← read size cs
    match cs with
    | '}' :: cs => some (.cons (String.ofList key) value .nil, cs)
    | ',' :: cs => (readMembers size cs).map fun r => (.cons (String.ofList key) value r.1, r.2)
    | _ => none

end

/-- The value that a whole text stands for. -/
def ofText (text : List Char) : Option Json :=
  match read text.length text with
  | some (value, []) => some value
  | _ => none

/-! ## Reading what was written -/

section

variable {size : ℕ} {rest : List Char}

theorem readString_escape (cs rest : List Char) :
    readString (escape cs ++ '"' :: rest) = some (cs, rest) := by
  induction cs with
  | nil => rfl
  | cons c cs ih =>
    rw [escape, List.flatMap_cons, List.append_assoc]
    by_cases hc : c = '"' ∨ c = '\\'
    · rw [if_pos hc, List.cons_append, List.cons_append, List.nil_append, readString]
      exact congrArg (Option.map _) ih
    · rw [if_neg hc, List.cons_append, List.nil_append]
      rw [not_or] at hc
      rw [readString]
      · exact congrArg (Option.map _) ih
      · exact hc.1
      · exact fun _ _ h _ => hc.2 h

theorem read_quoted (text : String) (hsize : 0 < size) :
    read size (quoted text ++ rest) = some (string text, rest) := by
  obtain ⟨size, rfl⟩ := Nat.exists_eq_succ_of_ne_zero hsize.ne'
  rw [quoted, List.cons_append, List.append_assoc, List.cons_append, List.nil_append, read,
    readString_escape]
  simp

theorem readNumber_toDigits (n : ℕ) (hrest : ∀ c ∈ rest.head?, c.isDigit = false) :
    readNumber (Nat.toDigits 10 n ++ rest) = some (number n, rest) := by
  have hdigits : ∀ c ∈ Nat.toDigits 10 n, c.isDigit = true := fun c hc =>
    Nat.isDigit_of_mem_toDigits (by decide) (by decide) hc
  have hstop : rest.takeWhile Char.isDigit = [] ∧ rest.dropWhile Char.isDigit = rest := by
    cases rest with
    | nil => exact ⟨rfl, rfl⟩
    | cons c rest =>
      have hc : ¬ c.isDigit = true := by simp [hrest c rfl]
      exact ⟨List.takeWhile_cons_of_neg hc, List.dropWhile_cons_of_neg hc⟩
  unfold readNumber
  rw [List.takeWhile_append_of_pos hdigits, List.dropWhile_append_of_pos hdigits, hstop.1, hstop.2,
    List.append_nil]
  dsimp only
  rw [if_neg Nat.toDigits_ne_nil, Nat.ofDigitChars_ten_toDigits]

/-- A text that begins with a digit is read as a number. -/
theorem read_of_isDigit {c : Char} {cs : List Char} (hsize : 0 < size) (hc : c.isDigit = true) :
    read size (c :: cs) = readNumber (c :: cs) := by
  obtain ⟨size, rfl⟩ := Nat.exists_eq_succ_of_ne_zero hsize.ne'
  have hne {d : Char} (hd : d.isDigit = false) {ds : List Char} : c :: cs ≠ d :: ds := by
    intro h
    rw [(List.cons.inj h).1, hd] at hc
    cases hc
  rw [read]
  · exact fun _ => hne rfl
  · exact fun _ => hne rfl
  · exact fun _ => hne rfl

mutual

theorem read_write (value : Json) {size : ℕ} {rest : List Char}
    (hsize : (write value).length ≤ size) (hrest : ∀ c ∈ rest.head?, c.isDigit = false) :
    read size (write value ++ rest) = some (value, rest) := by
  cases value with
  | number n =>
    obtain ⟨c, cs, hcons⟩ := List.exists_cons_of_ne_nil (Nat.toDigits_ne_nil (b := 10) (n := n))
    have hc : c.isDigit = true :=
      Nat.isDigit_of_mem_toDigits (by decide) (by decide) (hcons ▸ List.mem_cons_self)
    have hread := readNumber_toDigits n hrest
    rw [write] at hsize ⊢
    rw [hcons] at hsize hread ⊢
    rw [List.cons_append, read_of_isDigit (lt_of_lt_of_le (Nat.succ_pos _) hsize) hc]
    exact hread
  | string text => exact read_quoted text (lt_of_lt_of_le (Nat.succ_pos _) hsize)
  | object members =>
    obtain ⟨size, rfl⟩ := Nat.exists_eq_succ_of_ne_zero
      (lt_of_lt_of_le (Nat.succ_pos _) hsize).ne'
    rw [write, List.length_cons, List.length_append, List.length_singleton] at hsize
    rw [write, List.cons_append, List.append_assoc, List.cons_append, List.nil_append]
    cases members with
    | nil => rfl
    | cons key value others =>
      have hread : readMembers size (writeMembers (.cons key value others) ++ '}' :: rest) =
          some (.cons key value others, rest) := readMembers_write key value others (by omega)
      obtain ⟨cs, hcs⟩ :
          ∃ cs, writeMembers (.cons key value others) ++ '}' :: rest = '"' :: cs := by
        cases others <;> exact ⟨_, rfl⟩
      rw [hcs] at hread ⊢
      rw [read]
      · rw [hread]
        rfl
      · exact fun _ h => absurd (List.cons.inj h).1 (by decide)

theorem readMembers_write (key : String) (value : Json) (others : JsonMembers) {size : ℕ}
    {rest : List Char} (hsize : (writeMembers (.cons key value others)).length ≤ size) :
    readMembers size (writeMembers (.cons key value others) ++ '}' :: rest) =
      some (.cons key value others, rest) := by
  obtain ⟨size, rfl⟩ : ∃ size', size = size' + 1 := by
    refine Nat.exists_eq_succ_of_ne_zero (lt_of_lt_of_le ?_ hsize).ne'
    cases others <;> exact Nat.succ_pos _
  cases others with
  | nil =>
    simp only [writeMembers, quoted, List.length_append, List.length_cons] at hsize
    have hvalue : read size (write value ++ '}' :: rest) = some (value, '}' :: rest) :=
      read_write value (by omega) (by simp)
    simp only [writeMembers, quoted, List.append_assoc, List.cons_append, List.nil_append,
      readMembers, readString_escape, Option.bind_eq_bind, Option.bind_some, hvalue,
      String.ofList_toList]
  | cons key' value' others =>
    simp only [writeMembers, quoted, List.length_append, List.length_cons] at hsize
    have hvalue (rest : List Char) :
        read size (write value ++ ',' :: rest) = some (value, ',' :: rest) :=
      read_write value (by omega) (by simp)
    have hothers : readMembers size (writeMembers (.cons key' value' others) ++ '}' :: rest) =
        some (.cons key' value' others, rest) := readMembers_write key' value' others (by omega)
    simp only [writeMembers, quoted, List.append_assoc, List.cons_append, List.nil_append,
      readMembers, readString_escape, Option.bind_eq_bind, Option.bind_some, hvalue, hothers,
      Option.map_some, String.ofList_toList]

end

theorem ofText_write (value : Json) : ofText (write value) = some value := by
  have hread : read (write value).length (write value ++ []) = some (value, []) :=
    read_write value (le_refl _) (by simp)
  rw [List.append_nil] at hread
  rw [ofText, hread]

end

/-! ## Objects and maps -/

def pairs : JsonMembers → List (String × Json)
  | .nil => []
  | .cons key value rest => (key, value) :: pairs rest

/-- The members, when all of them are strings. -/
def texts : JsonMembers → Option (List (String × String))
  | .nil => some []
  | .cons key (string text) rest => (texts rest).map ((key, text) :: ·)
  | .cons .. => none

def toMap {V : Type} (es : List (String × V)) : HashMap String V :=
  es.foldl (fun m e => m.insert e.1 e.2) ∅

def asObject : Json → Option (HashMap String Json)
  | object members => some (toMap (pairs members))
  | _ => none

def asStrings : Json → Option (HashMap String String)
  | object members => (texts members).map toMap
  | _ => none

def membersOf : List (Sigma fun _ : String => Json) → JsonMembers
  | [] => .nil
  | e :: es => .cons e.1 e.2 (membersOf es)

def ofMap (m : HashMap String Json) : Json :=
  object (membersOf m.entries)

/-- Every value of the one map is the text that the other one has. -/
def IsTexts (n : HashMap String Json) (m : HashMap String String) : Prop :=
  ∀ k, n.lookup k = (m.lookup k).map string

section

variable {n : HashMap String Json} {m : HashMap String String} {members : JsonMembers}

theorem pairs_of_texts {es : List (String × String)} (h : texts members = some es) :
    pairs members = es.map fun e => (e.1, string e.2) := by
  fun_induction texts members generalizing es with
  | case1 =>
    cases h
    rfl
  | case2 key text rest ih =>
    obtain ⟨es, hes, rfl⟩ := Option.map_eq_some_iff.1 h
    rw [pairs, ih hes, List.map_cons]
  | case3 => cases h

theorem isTexts_toMap (es : List (String × String)) :
    IsTexts (toMap (es.map fun e => (e.1, string e.2))) (toMap es) := by
  have h (es : List (String × String)) (n : HashMap String Json) (m : HashMap String String)
      (hn : IsTexts n m) : IsTexts
        ((es.map fun e => (e.1, string e.2)).foldl (fun n e => n.insert e.1 e.2) n)
        (es.foldl (fun m e => m.insert e.1 e.2) m) := by
    induction es generalizing n m with
    | nil => exact hn
    | cons e es ih =>
      refine ih _ _ fun k => ?_
      rw [HashMap.lookup_insert_eq, HashMap.lookup_insert_eq]
      split
      · rfl
      · exact hn k
  exact h es ∅ ∅ fun _ => rfl

theorem isTexts_of_asStrings {value : Json} (h : asStrings value = some m) :
    ∃ n, asObject value = some n ∧ IsTexts n m := by
  cases value with
  | object members =>
    obtain ⟨es, hes, rfl⟩ := Option.map_eq_some_iff.1 h
    exact ⟨_, rfl, pairs_of_texts hes ▸ isTexts_toMap es⟩
  | number n => cases h
  | string text => cases h

theorem asStrings_ofMap (h : IsTexts n m) :
    ∃ m', asStrings (ofMap n) = some m' ∧ ∀ k, m'.lookup k = m.lookup k := by
  have htexts (l : List (Sigma fun _ : String => Json))
      (hl : ∀ e ∈ l, ∃ text, e.2 = string text) : ∃ es, texts (membersOf l) = some es ∧
        l.map (fun e => (e.1, e.2)) = es.map fun e => (e.1, string e.2) := by
    induction l with
    | nil => exact ⟨[], rfl, rfl⟩
    | cons e l ih =>
      obtain ⟨es, hes, hmap⟩ := ih fun e he => hl e (List.mem_cons_of_mem _ he)
      obtain ⟨text, htext⟩ := hl e List.mem_cons_self
      refine ⟨(e.1, text) :: es, ?_, ?_⟩
      · rw [membersOf, htext, texts, hes]
        rfl
      · rw [List.map_cons, List.map_cons, hmap, htext]
  have hstrings : ∀ e ∈ n.entries, ∃ text, e.2 = string text := by
    intro e he
    have hlookup := h e.1
    rw [AList.mem_lookup_iff.2 he] at hlookup
    obtain ⟨text, -, htext⟩ := Option.map_eq_some_iff.1 hlookup.symm
    exact ⟨text, htext.symm⟩
  obtain ⟨es, hes, hmap⟩ := htexts n.entries hstrings
  refine ⟨toMap es, by rw [ofMap, asStrings, hes]; rfl, fun k => ?_⟩
  have hfold : (toMap (es.map fun e => (e.1, string e.2))).lookup k = n.lookup k := by
    rw [← hmap, toMap, List.foldl_map, HashMap.lookup_foldl_entries, HashMap.lookup_empty,
      Option.or_none]
  rw [isTexts_toMap es k, h k] at hfold
  exact Option.map_injective (fun _ _ => string.inj) hfold

end

end Json
