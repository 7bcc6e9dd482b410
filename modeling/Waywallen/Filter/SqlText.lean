import Mathlib.Data.List.Forall2
import Waywallen.Filter.Rules
import Waywallen.Library.Fts

/-!
# The SQL of tag and name rules

Rules on tags and names put their value into a text of SQL, between single quotes; for the
full-text index the value is first made into a query, word by word between double quotes. Whatever
the value, the text is read as one statement, and the value as one text in it.
-/

namespace Waywallen

open Sql

/-- What a condition is built from. -/
inductive SimpleExpr
  | column (atom : Atom)
  | cust (sql : String)
  deriving DecidableEq

def sqliteQuote (input : String) : String :=
  "'" ++ input.replace "'" "''" ++ "'"

def existsHead : String :=
  "EXISTS (SELECT 1 FROM item_tag JOIN tag ON tag.id = item_tag.tag_id " ++
    "WHERE item_tag.item_id = item.id AND tag.name "

/-- The item has a tag whose name compares so. -/
def existsTag (comparison : String) : String :=
  existsHead ++ comparison ++ " COLLATE NOCASE)"

/-- The full-text index finds the item for the query, or does not. -/
def itemMatches (op query : String) : String :=
  "item.id " ++ op ++ " (SELECT rowid FROM item_fts WHERE item_fts MATCH " ++ query ++ ")"

def tagConditionToSql (tag : String) (cond : StringCondition) : Option (Cond SimpleExpr) :=
  let tagQuoted := sqliteQuote tag
  let clause := existsTag ("= " ++ tagQuoted)
  match cond with
  | .is | .contains => some (.all [.atom (.cust clause)])
  | .isNot | .containsNot => some (.all [.atom (.cust ("NOT " ++ clause))])
  | .unspecified => none

def tagListConditionToSql (values : List String) (cond : StringCondition) :
    Option (Cond SimpleExpr) :=
  let names := values.filter (· ≠ "")
  let clause (tag : String) := existsTag ("= " ++ sqliteQuote tag)
  if names.isEmpty then none
  else match cond with
    | .is | .contains => some (.any (names.map fun tag => .atom (.cust (clause tag))))
    | .isNot | .containsNot =>
      some (.all (names.map fun tag => .atom (.cust ("NOT " ++ clause tag))))
    | .unspecified => none

def nameConditionToSql (value : String) (condition : Int32) : Option (Cond SimpleExpr) :=
  let cond := (StringCondition.tryFrom condition).getD .unspecified
  let esc := value.replace "'" "''"
  let tagExists := existsTag ("LIKE '%" ++ esc ++ "%'")
  match cond with
  | .contains => (buildFtsMatchQuery value).map fun query =>
      .any [.atom (.cust (itemMatches "IN" (sqliteQuote query))), .atom (.cust tagExists)]
  | .containsNot => (buildFtsMatchQuery value).map fun query =>
      .all [.atom (.cust (itemMatches "NOT IN" (sqliteQuote query))),
        .atom (.cust ("NOT " ++ tagExists))]
  | _ => (stringConditionToCondition .displayName cond value false).map (Cond.map .column)

/-- The condition of a rule with its texts of SQL. -/
def wallpaperFilterToSql (filter : WallpaperFilterRule) : Option (Cond SimpleExpr) :=
  match WallpaperFilterType.tryFrom filter.type, filter.payload with
  | some .name, some (.stringFilter value condition) => nameConditionToSql value condition
  | some .tag, some (.tagFilter values condition) =>
    tagListConditionToSql values ((StringCondition.tryFrom condition).getD .unspecified)
  | some .tag, some (.stringFilter value condition) =>
    tagConditionToSql value ((StringCondition.tryFrom condition).getD .unspecified)
  -- other rules compare a column
  | _, _ => (wallpaperFilterToCondition filter).map (Cond.map .column)

/-! ## Statements -/

open Lexicon

def keyWord (text : String) : Token :=
  .word text.toList

/-- The text of an `EXISTS` clause over the tags of an item, with one literal. -/
def existsShape (op : Token) (content : String) : List Token :=
  [keyWord "EXISTS", .symbol '(', keyWord "SELECT", keyWord "1", keyWord "FROM",
    keyWord "item_tag", keyWord "JOIN", keyWord "tag", keyWord "ON", keyWord "tag", .symbol '.',
    keyWord "id", .symbol '=', keyWord "item_tag", .symbol '.', keyWord "tag_id", keyWord "WHERE",
    keyWord "item_tag", .symbol '.', keyWord "item_id", .symbol '=', keyWord "item", .symbol '.',
    keyWord "id", keyWord "AND", keyWord "tag", .symbol '.', keyWord "name", op,
    .quoted '\'' content.toList, keyWord "COLLATE", keyWord "NOCASE", .symbol ')']

/-- The text of a look-up in the full-text index, with one literal. -/
def matchShape (op : List Token) (content : String) : List Token :=
  [keyWord "item", .symbol '.', keyWord "id"] ++ op ++
    [.symbol '(', keyWord "SELECT", keyWord "rowid", keyWord "FROM", keyWord "item_fts",
      keyWord "WHERE", keyWord "item_fts", keyWord "MATCH", .quoted '\'' content.toList,
      .symbol ')']

/-- The statement that an atom stands for. -/
def Atom.shape : Atom → Option (List Token)
  | hasTag name => some (existsShape (.symbol '=') name)
  | hasNoTag name => some (keyWord "NOT" :: existsShape (.symbol '=') name)
  | hasTagLike pattern => some (existsShape (keyWord "LIKE") pattern)
  | hasNoTagLike pattern => some (keyWord "NOT" :: existsShape (keyWord "LIKE") pattern)
  | inIndex query => some (matchShape [keyWord "IN"] query)
  | notInIndex query => some (matchShape [keyWord "NOT", keyWord "IN"] query)
  | _ => none

/-- A text of SQL is read as the statement of the atom. -/
def SimpleExpr.Reads : SimpleExpr → Atom → Prop
  | column atom, atom' => atom = atom'
  | cust text, atom => ∃ shape, atom.shape = some shape ∧ Lexicon.sql.tokens text = some shape

def NulFree (value : String) : Prop :=
  '\x00' ∉ value.toList

instance (value : String) : Decidable (NulFree value) :=
  inferInstanceAs (Decidable (_ ∉ _))

section

variable {value a b op text : String} {ts ts' : List Token}

/-- A value between single quotes is one text, wherever it stands in a statement. -/
theorem tokens_sqliteQuote (hfeed : sql.feed .between a.toList = (ts, .between)) (ha : NulFree a)
    (hvalue : NulFree value) (hb : sql.scan .between b.toList = some ts')
    (hquote : ∀ rest, b.toList ≠ '\'' :: rest) :
    sql.tokens (a ++ sqliteQuote value ++ b) = some (ts ++ .quoted '\'' value.toList :: ts') := by
  have hreplace : (value.replace "'" "''").toList =
      String.substitute '\'' ['\'', '\''] value.toList := String.toList_replace rfl value "''"
  have htext : (a ++ sqliteQuote value ++ b).toList = a.toList ++
      '\'' :: (String.substitute '\'' ['\'', '\''] value.toList ++ '\'' :: b.toList) := by
    simp [sqliteQuote, hreplace]
  have hliteral : sql.scan .between (a.toList ++
      '\'' :: (String.substitute '\'' ['\'', '\''] value.toList ++ '\'' :: b.toList)) =
        (sql.scan .between b.toList).map fun ts' => ts ++ .quoted '\'' value.toList :: ts' :=
    scan_literal ha hfeed (by decide) (by decide) hvalue hquote
  rw [tokens, htext, hliteral, hb]
  rfl

theorem feed_existsHead :
    sql.feed .between existsHead.toList = ((existsShape (.symbol '=') "").take 28, .between) := by
  decide

theorem nulFree_existsHead : NulFree existsHead := by
  decide +kernel

/-- The clause is read around the operator and the value. -/
theorem tokens_existsTag {not : List Token} {cmp : Token}
    (hnot : sql.feed .between a.toList = (not, .between)) (ha : NulFree a)
    (hcmp : sql.feed .between op.toList = ([cmp], .between)) (hop : NulFree op)
    (hvalue : NulFree value) (htext : text = a ++ existsTag (op ++ sqliteQuote value)) :
    sql.tokens text = some (not ++ existsShape cmp value) := by
  have hparts : text = a ++ (existsHead ++ op) ++ sqliteQuote value ++ " COLLATE NOCASE)" := by
    rw [htext]
    simp only [existsTag, String.append_assoc]
  have hfeed : sql.feed .between (a ++ (existsHead ++ op)).toList =
      (not ++ ((existsShape (.symbol '=') "").take 28 ++ [cmp]), .between) := by
    rw [String.toList_append, feed_append hnot, String.toList_append, feed_append feed_existsHead,
      hcmp]
  have hnul : NulFree (a ++ (existsHead ++ op)) := by
    rw [NulFree, String.toList_append, String.toList_append, List.mem_append, List.mem_append]
    rintro (h | h | h)
    exacts [ha h, nulFree_existsHead h, hop h]
  have hend : sql.scan .between " COLLATE NOCASE)".toList =
      some [keyWord "COLLATE", keyWord "NOCASE", .symbol ')'] := by decide
  rw [hparts, tokens_sqliteQuote hfeed hnul hvalue hend (fun _ h => by cases h), List.append_assoc]
  rfl

/-- The pattern of a value is quoted as the value is. -/
theorem like_eq (value : String) :
    "LIKE '%" ++ value.replace "'" "''" ++ "%'" = "LIKE " ++ sqliteQuote ("%" ++ value ++ "%") := by
  have hreplace (text : String) : (text.replace "'" "''").toList =
      String.substitute '\'' ['\'', '\''] text.toList := String.toList_replace rfl text "''"
  apply String.toList_inj.1
  simp [sqliteQuote, hreplace, String.substitute]

theorem reads_hasTag (h : NulFree value) :
    (SimpleExpr.cust (existsTag ("= " ++ sqliteQuote value))).Reads (.hasTag value) := by
  have hcmp : sql.feed .between "= ".toList = ([.symbol '='], .between) := by decide
  exact ⟨_, rfl, tokens_existsTag rfl (by decide) hcmp (by decide) h String.empty_append.symm⟩

theorem reads_hasNoTag (h : NulFree value) :
    (SimpleExpr.cust ("NOT " ++ existsTag ("= " ++ sqliteQuote value))).Reads (.hasNoTag value) := by
  have hnot : sql.feed .between "NOT ".toList = ([keyWord "NOT"], .between) := by decide
  have hcmp : sql.feed .between "= ".toList = ([.symbol '='], .between) := by decide
  exact ⟨_, rfl, tokens_existsTag hnot (by decide) hcmp (by decide) h rfl⟩

theorem NulFree.pattern (h : NulFree value) : NulFree ("%" ++ value ++ "%") := by
  simpa [NulFree] using h

theorem reads_hasTagLike (h : NulFree value) :
    (SimpleExpr.cust (existsTag ("LIKE '%" ++ value.replace "'" "''" ++ "%'"))).Reads
      (.hasTagLike ("%" ++ value ++ "%")) := by
  have hcmp : sql.feed .between "LIKE ".toList = ([keyWord "LIKE"], .between) := by decide
  rw [like_eq]
  exact ⟨_, rfl, tokens_existsTag rfl (by decide) hcmp (by decide) h.pattern
    String.empty_append.symm⟩

theorem reads_hasNoTagLike (h : NulFree value) :
    (SimpleExpr.cust ("NOT " ++ existsTag ("LIKE '%" ++ value.replace "'" "''" ++ "%'"))).Reads
      (.hasNoTagLike ("%" ++ value ++ "%")) := by
  have hnot : sql.feed .between "NOT ".toList = ([keyWord "NOT"], .between) := by decide
  have hcmp : sql.feed .between "LIKE ".toList = ([keyWord "LIKE"], .between) := by decide
  rw [like_eq]
  exact ⟨_, rfl, tokens_existsTag hnot (by decide) hcmp (by decide) h.pattern rfl⟩

theorem tokens_itemMatches (hfeed : sql.feed .between ("item.id " ++ op ++
      " (SELECT rowid FROM item_fts WHERE item_fts MATCH ").toList = (ts, .between))
    (hop : NulFree ("item.id " ++ op ++ " (SELECT rowid FROM item_fts WHERE item_fts MATCH "))
    (hvalue : NulFree value) : sql.tokens (itemMatches op (sqliteQuote value)) =
      some (ts ++ [.quoted '\'' value.toList, .symbol ')']) :=
  tokens_sqliteQuote hfeed hop hvalue (by decide) (fun _ h => by cases h)

theorem reads_inIndex (h : NulFree value) :
    (SimpleExpr.cust (itemMatches "IN" (sqliteQuote value))).Reads (.inIndex value) := by
  have hfeed : sql.feed .between ("item.id " ++ "IN" ++
      " (SELECT rowid FROM item_fts WHERE item_fts MATCH ").toList =
        ((matchShape [keyWord "IN"] "").take 12, .between) := by decide
  exact ⟨_, rfl, tokens_itemMatches hfeed (by decide) h⟩

theorem reads_notInIndex (h : NulFree value) :
    (SimpleExpr.cust (itemMatches "NOT IN" (sqliteQuote value))).Reads (.notInIndex value) := by
  have hfeed : sql.feed .between ("item.id " ++ "NOT IN" ++
      " (SELECT rowid FROM item_fts WHERE item_fts MATCH ").toList =
        ((matchShape [keyWord "NOT", keyWord "IN"] "").take 13, .between) := by decide
  exact ⟨_, rfl, tokens_itemMatches hfeed (by decide) h⟩

end

/-! ## Queries of the index -/

/-- The words of a value, as whitespace separates them. -/
def ftsWords (value : String) : List (List Char) :=
  (value.toList.splitOnP isWhitespace).filter (· ≠ [])

section

variable {value query : String} {w : List Char} {ws : List (List Char)}

theorem mem_of_mem_splitOnP {p : Char → Bool} {text : List Char} {c : Char}
    (hw : w ∈ text.splitOnP p) (hc : c ∈ w) : c ∈ text := by
  induction text generalizing w with
  | nil =>
    rw [List.splitOnP_nil, List.mem_singleton] at hw
    rwa [hw] at hc
  | cons d text ih =>
    rw [List.splitOnP_cons_eq_if_modifyHead] at hw
    split at hw
    · rcases List.mem_cons.1 hw with rfl | hw
      · cases hc
      · exact List.mem_cons_of_mem _ (ih hw hc)
    · cases hsplit : text.splitOnP p with
      | nil => exact absurd hsplit (List.splitOnP_ne_nil p text)
      | cons head rest =>
        rw [hsplit, List.modifyHead_cons] at hw
        rcases List.mem_cons.1 hw with rfl | hw
        · rcases List.mem_cons.1 hc with rfl | hc
          · exact List.mem_cons_self
          · exact List.mem_cons_of_mem _ (ih (hsplit ▸ List.mem_cons_self) hc)
        · exact List.mem_cons_of_mem _ (ih (hsplit ▸ List.mem_cons_of_mem _ hw) hc)

theorem nul_notMem_of_mem_ftsWords (h : NulFree value) (hw : w ∈ ftsWords value) : '\x00' ∉ w :=
  fun hc => h (mem_of_mem_splitOnP (List.mem_filter.1 hw).1 hc)

theorem term_eq (w : List Char) :
    ("\"" ++ (String.ofList w).replace "\"" "\"\"" ++ "\"*").toList = Fts.term w := by
  have hpattern : "\"".toList = ['"'] := rfl
  have hreplace : ((String.ofList w).replace "\"" "\"\"").toList =
      String.substitute '"' ['"', '"'] w := by
    rw [String.toList_replace hpattern, String.toList_ofList (l := w)]
    rfl
  simp [hreplace, Fts.term]

theorem buildFtsMatchQuery_eq (value : String) : buildFtsMatchQuery value =
    if (ftsWords value).isEmpty then none
    else some (String.ofList (" AND ".toList.intercalate ((ftsWords value).map Fts.term))) := by
  have hwords : ((value.toList.splitOnP isWhitespace).map String.ofList).filter (· ≠ "") =
      (ftsWords value).map String.ofList := by
    rw [List.filter_map]
    refine congrArg _ (List.filter_congr fun w _ => ?_)
    simp
  have hterms : " AND ".intercalate ((ftsWords value).map fun w =>
      "\"" ++ (String.ofList w).replace "\"" "\"\"" ++ "\"*") =
        String.ofList (" AND ".toList.intercalate ((ftsWords value).map Fts.term)) := by
    apply String.toList_inj.1
    rw [String.toList_intercalate, List.map_map,
      String.toList_ofList (l := " AND ".toList.intercalate ((ftsWords value).map Fts.term))]
    exact congrArg (List.intercalate " AND ".toList) (List.map_congr_left fun w _ => term_eq w)
  unfold buildFtsMatchQuery
  simp only [hwords, List.isEmpty_map, List.map_map]
  rw [← hterms]
  rfl

theorem nul_notMem_term (hw : '\x00' ∉ w) : '\x00' ∉ Fts.term w := by
  have hsubstitute : '\x00' ∉ String.substitute '"' ['"', '"'] w := by
    intro hmem
    obtain ⟨c, hc, hmem⟩ := List.mem_flatMap.1 hmem
    split at hmem
    · exact absurd hmem (by decide)
    · rw [List.mem_singleton] at hmem
      exact hw (hmem ▸ hc)
  simp [Fts.term, hsubstitute]

theorem nulFree_query (h : NulFree value) (hquery : buildFtsMatchQuery value = some query) :
    NulFree query := by
  rw [buildFtsMatchQuery_eq] at hquery
  cases hwords : ftsWords value with
  | nil => simp [hwords] at hquery
  | cons w ws =>
    rw [hwords, if_neg (by simp), Option.some.injEq] at hquery
    have hterm {w} (hw : w ∈ ftsWords value) : '\x00' ∉ Fts.term w :=
      nul_notMem_term (nul_notMem_of_mem_ftsWords h hw)
    rw [hwords] at hterm
    rw [NulFree, ← hquery, String.toList_ofList (l := " AND ".toList.intercalate
      ((w :: ws).map Fts.term)), Fts.intercalate_terms, List.mem_append, not_or]
    refine ⟨hterm List.mem_cons_self, fun hmem => ?_⟩
    obtain ⟨w', hw', hmem⟩ := List.mem_flatMap.1 hmem
    rcases List.mem_append.1 hmem with hmem | hmem
    · exact absurd hmem (by decide)
    · exact hterm (List.mem_cons_of_mem _ hw') hmem

/-- The query of a value is the conjunction of its words; there is none without words. -/
def FtsConjunction (value : String) : Prop :=
  match ftsWords value with
  | [] => buildFtsMatchQuery value = none
  | w :: ws => ∃ query, buildFtsMatchQuery value = some query ∧
    Fts.parse query = some (.conj w ws)

theorem ftsConjunction (h : NulFree value) : FtsConjunction value := by
  have hnul {w} (hw : w ∈ ftsWords value) := nul_notMem_of_mem_ftsWords h hw
  unfold FtsConjunction
  rw [buildFtsMatchQuery_eq]
  cases hwords : ftsWords value with
  | nil => rfl
  | cons w ws =>
    rw [hwords] at hnul
    refine ⟨_, if_neg (by simp), ?_⟩
    exact Fts.parse_conj (hnul List.mem_cons_self) (fun w hw => hnul (List.mem_cons_of_mem _ hw))
      (String.toList_ofList (l := " AND ".toList.intercalate ((w :: ws).map Fts.term)))

end

/-! ## Rules -/

section

variable {value : String} {values : List String} {cond : StringCondition}

theorem rel_column (c : Option (Cond Atom)) :
    Option.Rel (Cond.Rel SimpleExpr.Reads) (c.map (Cond.map .column)) c := by
  have hcolumn : ∀ atom, SimpleExpr.Reads (.column atom) atom := fun _ => rfl
  cases c with
  | none => exact .none
  | some c => exact .some (Cond.rel_map hcolumn c)

theorem rel_tag (h : NulFree value) : Option.Rel (Cond.Rel SimpleExpr.Reads)
    (tagConditionToSql value cond) (tagConditionToCondition value cond) := by
  have hhas := reads_hasTag h
  have hhasNo := reads_hasNoTag h
  cases cond with
  | unspecified => exact .none
  | is => exact .some (.all (.cons (.atom hhas) .nil))
  | contains => exact .some (.all (.cons (.atom hhas) .nil))
  | isNot => exact .some (.all (.cons (.atom hhasNo) .nil))
  | containsNot => exact .some (.all (.cons (.atom hhasNo) .nil))

theorem rel_tagList (h : ∀ v ∈ values, NulFree v) : Option.Rel (Cond.Rel SimpleExpr.Reads)
    (tagListConditionToSql values cond) (tagListConditionToCondition values cond) := by
  have hnul : ∀ v ∈ values.filter (· ≠ ""), NulFree v := fun v hv => h v (List.mem_filter.1 hv).1
  unfold tagListConditionToSql tagListConditionToCondition
  dsimp only
  split
  · exact .none
  · have hrel {f : String → Cond SimpleExpr} {g : String → Cond Atom}
        (hread : ∀ v, NulFree v → Cond.Rel SimpleExpr.Reads (f v) (g v)) :
        List.Forall₂ (Cond.Rel SimpleExpr.Reads) ((values.filter (· ≠ "")).map f)
          ((values.filter (· ≠ "")).map g) := by
      rw [List.forall₂_map_left_iff, List.forall₂_map_right_iff, List.forall₂_same]
      exact fun v hv => hread v (hnul v hv)
    have hhas := hrel fun v hv => .atom (reads_hasTag hv)
    have hhasNo := hrel fun v hv => .atom (reads_hasNoTag hv)
    cases cond with
    | unspecified => exact .none
    | is => exact .some (.any hhas)
    | contains => exact .some (.any hhas)
    | isNot => exact .some (.all hhasNo)
    | containsNot => exact .some (.all hhasNo)

theorem rel_name (h : NulFree value) (condition : Int32) :
    Option.Rel (Cond.Rel SimpleExpr.Reads) (nameConditionToSql value condition)
      (nameConditionToCondition value condition) := by
  unfold nameConditionToSql nameConditionToCondition
  dsimp only
  cases (StringCondition.tryFrom condition).getD .unspecified with
  | contains =>
    cases hquery : buildFtsMatchQuery value with
    | none => exact .none
    | some query =>
      exact .some (.any (.cons (.atom (reads_inIndex (nulFree_query h hquery)))
        (.cons (.atom (reads_hasTagLike h)) .nil)))
  | containsNot =>
    cases hquery : buildFtsMatchQuery value with
    | none => exact .none
    | some query =>
      exact .some (.all (.cons (.atom (reads_notInIndex (nulFree_query h hquery)))
        (.cons (.atom (reads_hasNoTagLike h)) .nil)))
  | _ => exact rel_column _

end

/-- The texts of a payload. -/
def Payload.texts : Payload → List String
  | stringFilter value _ => [value]
  | intFilter _ _ => []
  | tagFilter values _ => values

/-- Every text of SQL in the condition of a rule is read as the statement that it is meant to be,
with the value, its pattern or its query as one literal; and the query is the conjunction of the
words of the value. -/
theorem rel_wallpaperFilterToSql (filter : WallpaperFilterRule)
    (h : ∀ payload ∈ filter.payload, ∀ text ∈ payload.texts, NulFree text) :
    Option.Rel (Cond.Rel SimpleExpr.Reads) (wallpaperFilterToSql filter)
        (wallpaperFilterToCondition filter) ∧
      ∀ payload ∈ filter.payload, ∀ text ∈ payload.texts, FtsConjunction text := by
  refine ⟨?_, fun payload hpayload text htext => ftsConjunction (h payload hpayload text htext)⟩
  unfold wallpaperFilterToSql
  split
  · rename_i value condition htype hpayload
    have hcond : wallpaperFilterToCondition filter = nameConditionToCondition value condition := by
      simp only [wallpaperFilterToCondition, htype, hpayload]
    rw [hcond]
    exact rel_name (h _ hpayload value List.mem_cons_self) condition
  · rename_i values condition htype hpayload
    have hcond : wallpaperFilterToCondition filter = tagListConditionToCondition values
        ((StringCondition.tryFrom condition).getD .unspecified) := by
      simp only [wallpaperFilterToCondition, htype, hpayload]
    rw [hcond]
    exact rel_tagList (h _ hpayload)
  · rename_i value condition htype hpayload
    have hcond : wallpaperFilterToCondition filter = tagConditionToCondition value
        ((StringCondition.tryFrom condition).getD .unspecified) := by
      simp only [wallpaperFilterToCondition, htype, hpayload]
    rw [hcond]
    exact rel_tag (h _ hpayload value List.mem_cons_self)
  · exact rel_column _

/-- A name with quotes of both kinds stays one literal. -/
theorem rel_wallpaperFilterToSql_quotes :
    Option.Rel (Cond.Rel SimpleExpr.Reads)
        (wallpaperFilterToSql ⟨1, 0, some (.stringFilter "it's \"x\" OR '1'='1" 3)⟩)
        (wallpaperFilterToCondition ⟨1, 0, some (.stringFilter "it's \"x\" OR '1'='1" 3)⟩) ∧
      FtsConjunction "it's \"x\" OR '1'='1" := by
  have hrel := rel_wallpaperFilterToSql
    ⟨1, 0, some (.stringFilter "it's \"x\" OR '1'='1" 3)⟩ fun payload hpayload text htext => by
      cases hpayload
      rw [List.mem_singleton.1 htext]
      decide
  refine ⟨hrel.1, hrel.2 (.stringFilter "it's \"x\" OR '1'='1" 3) rfl _ ?_⟩
  rw [Payload.texts]
  exact List.mem_singleton_self _

end Waywallen
