import Waywallen.Library.Lexer

/-!
# Full-text queries

The query language of a full-text index: phrases of words and texts in double quotes, joined by
`NOT`, `AND` and `OR`, of which `NOT` binds tightest. Filters on columns, `NEAR` groups and `^` are
left out.
-/

namespace Fts

open Lexicon

/-- Words are ASCII letters, digits, `_`, the substitute character and what is not ASCII. -/
def lexicon : Lexicon where
  isQuote c := c = '"'
  isWord c := c.isAlphanum || c = '_' || c = '\x1a' || 128 ≤ c.toNat
  isSpace c := c = ' ' || c = '\t' || c = '\n' || c = '\r'
  comments := false

inductive Op
  | and
  | or
  | not
  deriving DecidableEq, Repr

/-- A text of a phrase; an asterisk after it lets it match as the beginning of a word. -/
structure Part where
  text : List Char
  isPrefix : Bool
  deriving DecidableEq, Repr

inductive Query
  | phrase (parts : List Part)
  | op (o : Op) (a b : Query)
  deriving DecidableEq, Repr

def keyword : Token → Option Op
  | .word text =>
    if text = ['A', 'N', 'D'] then some .and
    else if text = ['O', 'R'] then some .or
    else if text = ['N', 'O', 'T'] then some .not
    else none
  | _ => none

/-! ## Parser -/

/-- What the operands of an operator are made of. -/
inductive Level
  | op (o : Op)
  | primary
  deriving DecidableEq, Repr

def Op.operand : Op → Level
  | or => .op .and
  | and => .op .not
  | not => .primary

def part : List Token → Option (Part × List Token)
  | t :: ts =>
    let text := match t with
      | .quoted _ text => some text
      | .word text => if keyword t = none then some text else none
      | .symbol _ => none
    text.map fun text => match ts with
      | .symbol '*' :: ts => (⟨text, true⟩, ts)
      | ts => (⟨text, false⟩, ts)
  | [] => none

/-- Parts joined by a plus. -/
def parts : ℕ → List Token → Option (List Part × List Token)
  | 0, _ => none
  | n + 1, ts => match part ts with
    | none => none
    | some (p, .symbol '+' :: ts) => (parts n ts).map fun r => (p :: r.1, r.2)
    | some (p, ts) => some ([p], ts)

/-- Phrases that follow each other must all match. -/
def phrases : ℕ → List Token → Option (Query × List Token)
  | 0, _ => none
  | n + 1, ts => match parts n ts with
    | none => none
    | some (ps, ts) => match phrases n ts with
      | some (q, ts) => some (.op .and (.phrase ps) q, ts)
      | none => some (.phrase ps, ts)

mutual

def expr : ℕ → Level → List Token → Option (Query × List Token)
  | 0, _, _ => none
  | n + 1, .op o, ts => match expr n o.operand ts with
    | some (q, ts) => more n o q ts
    | none => none
  | n + 1, .primary, .symbol '(' :: ts => match expr n (.op .or) ts with
    | some (q, .symbol ')' :: ts) => some (q, ts)
    | _ => none
  | n + 1, .primary, ts => phrases n ts

/-- Further operands of the operator, to the left first. -/
def more : ℕ → Op → Query → List Token → Option (Query × List Token)
  | 0, _, _, _ => none
  | _ + 1, _, q, [] => some (q, [])
  | n + 1, o, q, t :: ts =>
    if keyword t = some o then match expr n o.operand ts with
      | some (q', ts) => more n o (.op o q q') ts
      | none => none
    else some (q, t :: ts)

end

def parseTokens (ts : List Token) : Option Query :=
  match expr (5 * ts.length + 5) (.op .or) ts with
  | some (q, []) => some q
  | _ => none

def parse (text : String) : Option Query :=
  (lexicon.tokens text).bind parseTokens

/-! ## Conjunctions of prefixes -/

/-- The query for words that begin with `w`. -/
def Query.beginning (w : List Char) : Query :=
  .phrase [⟨w, true⟩]

/-- All of the words begin a word of the text. -/
def Query.conj (w : List Char) (ws : List (List Char)) : Query :=
  ws.foldl (fun q w => .op .and q (.beginning w)) (.beginning w)

/-- A word in quotes, its own quotes doubled, before an asterisk. -/
def term (w : List Char) : List Char :=
  '"' :: (String.substitute '"' ['"', '"'] w ++ ['"', '*'])

def termTokens (w : List Char) : List Token :=
  [.quoted '"' w, .symbol '*']

def andTokens (w : List Char) : List Token :=
  .word ['A', 'N', 'D'] :: termTokens w

section

variable {n : ℕ} {w : List Char} {ws : List (List Char)} {q : Query} {rest : List Char}

theorem scan_term (hw : '\x00' ∉ w) : lexicon.scan .between (term w ++ rest) =
    (lexicon.scan .between rest).map (termTokens w ++ ·) := by
  have hliteral : lexicon.scan .between
      ([] ++ '"' :: (String.substitute '"' ['"', '"'] w ++ '"' :: '*' :: rest)) =
        (lexicon.scan .between ('*' :: rest)).map fun ts => [] ++ .quoted '"' w :: ts :=
    scan_literal List.not_mem_nil rfl (by decide) (by decide) hw (fun _ h => by cases h)
  have hterm : term w ++ rest =
      [] ++ '"' :: (String.substitute '"' ['"', '"'] w ++ '"' :: '*' :: rest) := by
    simp [term]
  have hstar : lexicon.step .between '*' = ([.symbol '*'], .between) := rfl
  rw [hterm, hliteral, scan, if_neg (by decide), hstar, Option.map_map]
  rfl

theorem scan_and (hw : '\x00' ∉ w) :
    lexicon.scan .between (" AND ".toList ++ (term w ++ rest)) =
      (lexicon.scan .between rest).map (andTokens w ++ ·) := by
  have hfeed : lexicon.feed .between " AND ".toList = ([.word ['A', 'N', 'D']], .between) := by
    decide
  rw [scan_append (by decide), hfeed, scan_term hw, Option.map_map]
  rfl

theorem scan_ands (hws : ∀ w ∈ ws, '\x00' ∉ w) :
    lexicon.scan .between (ws.flatMap fun w => " AND ".toList ++ term w) =
      some (ws.flatMap andTokens) := by
  induction ws with
  | nil => rfl
  | cons w ws ih =>
    rw [List.forall_mem_cons] at hws
    rw [List.flatMap_cons, List.append_assoc, scan_and hws.1, ih hws.2]
    rfl

theorem intercalate_terms (w : List Char) (ws : List (List Char)) :
    " AND ".toList.intercalate ((w :: ws).map term) =
      term w ++ ws.flatMap fun w => " AND ".toList ++ term w := by
  induction ws generalizing w with
  | nil => simp
  | cons w' ws ih =>
    rw [List.map_cons, List.map_cons, List.intercalate_cons_cons, ← List.map_cons, ih,
      List.flatMap_cons]
    simp only [List.append_assoc]

/-- A conjunction of terms is lexed term by term. -/
theorem scan_conj (hw : '\x00' ∉ w) (hws : ∀ w ∈ ws, '\x00' ∉ w) :
    lexicon.scan .between (" AND ".toList.intercalate ((w :: ws).map term)) =
      some (termTokens w ++ ws.flatMap andTokens) := by
  rw [intercalate_terms, scan_term hw, scan_ands hws]
  rfl

end

section

variable {n : ℕ} {w : List Char} {ws : List (List Char)} {o : Op} {q : Query} {ts : List Token}

theorem phrases_eq_none (h : part ts = none) : ∀ n, phrases n ts = none
  | 0 => rfl
  | 1 => rfl
  | n + 2 => by simp [phrases, parts, h]

theorem part_ands : part (ws.flatMap andTokens) = none := by
  cases ws <;> rfl

/-- A term is read as a whole. -/
theorem phrases_term :
    phrases (n + 2) (termTokens w ++ ws.flatMap andTokens) =
      some (.beginning w, ws.flatMap andTokens) := by
  have hpart : part (termTokens w ++ ws.flatMap andTokens) =
      some (⟨w, true⟩, ws.flatMap andTokens) := rfl
  have hparts : parts (n + 1) (termTokens w ++ ws.flatMap andTokens) =
      some ([⟨w, true⟩], ws.flatMap andTokens) := by
    rw [parts, hpart]
    cases ws <;> rfl
  rw [phrases, hparts]
  simp only [phrases_eq_none part_ands]
  rfl

theorem expr_not : expr (n + 4) (.op .not) (termTokens w ++ ws.flatMap andTokens) =
    some (.beginning w, ws.flatMap andTokens) := by
  have hprimary : expr (n + 3) .primary (termTokens w ++ ws.flatMap andTokens) =
      some (.beginning w, ws.flatMap andTokens) := by
    rw [← phrases_term (n := n)]
    rfl
  rw [expr, Op.operand, hprimary]
  cases ws <;> rfl

/-- Each further word joins the conjunction. -/
theorem more_and : more (n + ws.length + 4) .and q (ws.flatMap andTokens) =
    some (ws.foldl (fun q w => .op .and q (.beginning w)) q, []) := by
  induction ws generalizing q with
  | nil => rfl
  | cons w ws ih =>
    have hand : keyword (.word ['A', 'N', 'D']) = some .and := rfl
    rw [List.flatMap_cons, andTokens, List.cons_append, List.length_cons]
    change more (n + ws.length + 4 + 1) _ _ _ = _
    rw [more, if_pos hand, Op.operand, expr_not]
    exact ih

theorem expr_and : expr (n + ws.length + 5) (.op .and) (termTokens w ++ ws.flatMap andTokens) =
    some (.conj w ws, []) := by
  rw [expr, Op.operand, expr_not]
  exact more_and

theorem length_ands : (ws.flatMap andTokens).length = 3 * ws.length := by
  induction ws with
  | nil => rfl
  | cons w ws ih =>
    rw [List.flatMap_cons, List.length_append, ih, List.length_cons, andTokens, termTokens]
    simp only [List.length_cons, List.length_nil]
    omega

/-- A conjunction of words in quotes is read as the conjunction of them. -/
theorem parseTokens_conj :
    parseTokens (termTokens w ++ ws.flatMap andTokens) = some (.conj w ws) := by
  have hfuel : 5 * (termTokens w ++ ws.flatMap andTokens).length + 5 =
      14 * ws.length + 9 + ws.length + 5 + 1 := by
    rw [List.length_append, length_ands, termTokens]
    simp only [List.length_cons, List.length_nil]
    omega
  rw [parseTokens, hfuel, expr, Op.operand, expr_and]
  rfl

end

/-- No word changes the structure of the query that it is put into. -/
theorem parse_conj {text : String} {w : List Char} {ws : List (List Char)} (hw : '\x00' ∉ w)
    (hws : ∀ w ∈ ws, '\x00' ∉ w)
    (htext : text.toList = " AND ".toList.intercalate ((w :: ws).map term)) :
    parse text = some (.conj w ws) := by
  rw [parse, tokens, htext, scan_conj hw hws, Option.bind_some, parseTokens_conj]

end Fts
