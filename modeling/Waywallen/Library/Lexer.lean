import Waywallen.Library.Replace

/-!
# Lexers of languages with quoted texts

A lexer reads characters one by one. A text in quotes goes on to the first quote that is not
doubled, and doubled quotes stand for one. A NUL ends the input.
-/

/-- The kinds of characters of a language. -/
structure Lexicon where
  isQuote : Char → Bool
  isWord : Char → Bool
  isSpace : Char → Bool
  /-- Two dashes begin a comment, and so does a slash before an asterisk. -/
  comments : Bool

namespace Lexicon

inductive Token
  | word (text : List Char)
  | quoted (q : Char) (text : List Char)
  | symbol (c : Char)
  deriving DecidableEq, Repr

/-- What the characters read last belong to. -/
inductive Mode
  | between
  | word (text : List Char)
  | quoted (q : Char) (text : List Char)
  /-- After a quote that ends the text, unless another one follows. -/
  | closing (q : Char) (text : List Char)
  /-- After a dash or a slash. -/
  | mark (c : Char)
  | line
  | block
  | blockStar
  deriving DecidableEq, Repr

variable (L : Lexicon)

/-- A character that begins something. -/
def fresh (c : Char) : List Token × Mode :=
  if L.isQuote c then ([], .quoted c [])
  else if L.isWord c then ([], .word [c])
  else if L.isSpace c then ([], .between)
  else if L.comments ∧ (c = '-' ∨ c = '/') then ([], .mark c)
  else ([.symbol c], .between)

/-- The tokens that a character completes, and what comes after it. -/
def step : Mode → Char → List Token × Mode
  | .between, c => L.fresh c
  | .word text, c =>
    if L.isWord c then ([], .word (text ++ [c])) else (.word text :: (L.fresh c).1, (L.fresh c).2)
  | .quoted q text, c => if c = q then ([], .closing q text) else ([], .quoted q (text ++ [c]))
  | .closing q text, c =>
    if c = q then ([], .quoted q (text ++ [q]))
    else (.quoted q text :: (L.fresh c).1, (L.fresh c).2)
  | .mark m, c =>
    if m = '-' ∧ c = '-' then ([], .line)
    else if m = '/' ∧ c = '*' then ([], .block)
    else (.symbol m :: (L.fresh c).1, (L.fresh c).2)
  | .line, c => ([], if c = '\n' then .between else .line)
  | .block, c => ([], if c = '*' then .blockStar else .block)
  | .blockStar, c => ([], if c = '/' then .between else if c = '*' then .blockStar else .block)

/-- The token that the end of the input completes; a text in quotes must have ended. -/
def finish : Mode → Option (List Token)
  | .word text => some [.word text]
  | .quoted _ _ => none
  | .closing q text => some [.quoted q text]
  | .mark c => some [.symbol c]
  | _ => some []

def scan : Mode → List Char → Option (List Token)
  | m, [] => finish m
  | m, c :: cs =>
    if c = '\x00' then finish m else (scan (L.step m c).2 cs).map ((L.step m c).1 ++ ·)

/-- The tokens of a text, unless a text in quotes does not end. -/
def tokens (text : String) : Option (List Token) :=
  L.scan .between text.toList

/-- The tokens that a part of the input completes, and what comes after it. -/
def feed : Mode → List Char → List Token × Mode
  | m, [] => ([], m)
  | m, c :: cs =>
    ((L.step m c).1 ++ (feed (L.step m c).2 cs).1, (feed (L.step m c).2 cs).2)

section

variable {L} {m : Mode} {q : Char} {s v text rest : List Char} {ts : List Token}

theorem feed_append {a b : List Char} {m' : Mode} (ha : L.feed m a = (ts, m')) :
    L.feed m (a ++ b) = (ts ++ (L.feed m' b).1, (L.feed m' b).2) := by
  induction a generalizing m ts with
  | nil =>
    cases ha
    rfl
  | cons c a ih =>
    cases ha
    rw [List.cons_append, feed, ih rfl, List.append_assoc]

theorem scan_append (h : '\x00' ∉ text) : L.scan m (text ++ rest) =
    (L.scan (L.feed m text).2 rest).map ((L.feed m text).1 ++ ·) := by
  induction text generalizing m with
  | nil => simp [feed]
  | cons c text ih =>
    rw [List.mem_cons, not_or] at h
    rw [List.cons_append, scan, if_neg (Ne.symm h.1), ih h.2, Option.map_map]
    simp only [feed, List.append_assoc, Function.comp_def]

/-- Doubled quotes do not end the text. -/
theorem scan_quoted (hv : '\x00' ∉ v) (hq : q ≠ '\x00') :
    L.scan (.quoted q s) (String.substitute q [q, q] v ++ q :: rest) =
      L.scan (.closing q (s ++ v)) rest := by
  induction v generalizing s with
  | nil => simp [String.substitute, scan, step, hq]
  | cons c v ih =>
    rw [List.mem_cons, not_or] at hv
    have hrest := ih (s := s ++ [c]) hv.2
    rw [List.append_assoc] at hrest
    by_cases hc : c = q
    · subst hc
      simpa [String.substitute, scan, step, hq] using hrest
    · simpa [String.substitute, scan, step, hc, Ne.symm hv.1] using hrest

theorem scan_closing (h : ∀ rest', rest ≠ q :: rest') :
    L.scan (.closing q s) rest = (L.scan .between rest).map (.quoted q s :: ·) := by
  cases rest with
  | nil => rfl
  | cons c rest =>
    have hc : c ≠ q := fun hc => h rest (by rw [hc])
    rw [scan, scan]
    split
    · rfl
    · simp [step, hc, Function.comp_def]

/-- A text in quotes with its quotes doubled is one token, whatever the text is. -/
theorem scan_literal (htext : '\x00' ∉ text) (hfeed : L.feed .between text = (ts, .between))
    (hquote : L.isQuote q = true) (hq : q ≠ '\x00') (hv : '\x00' ∉ v)
    (hrest : ∀ rest', rest ≠ q :: rest') :
    L.scan .between (text ++ q :: (String.substitute q [q, q] v ++ q :: rest)) =
      (L.scan .between rest).map fun ts' => ts ++ .quoted q v :: ts' := by
  have hopen : L.step .between q = ([], .quoted q []) := by simp [step, fresh, hquote]
  rw [scan_append htext, hfeed, scan, if_neg hq, hopen, scan_quoted hv hq, List.nil_append,
    scan_closing hrest]
  simp [Function.comp_def]

end

/-- SQL. Words are letters, digits, `_`, `$` and what is not ASCII; texts are in single quotes, and
names may be in double quotes or backquotes. -/
def sql : Lexicon where
  isQuote c := c = '\'' || c = '"' || c = '\x60'
  isWord c := c.isAlphanum || c = '_' || c = '$' || 128 ≤ c.toNat
  isSpace c := c = ' ' || c = '\t' || c = '\n' || c = '\x0c' || c = '\r'
  comments := true

end Lexicon
