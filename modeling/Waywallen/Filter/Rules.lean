import Mathlib.Data.List.Dedup
import Waywallen.Library.Sql
import Waywallen.Store.Repo

/-!
# Filter rules

The rules a user writes to select wallpapers, as they come from the wire and are kept in the
settings, and the SQL condition that is built from them. Rules of one group must all hold; logic
edges join two groups each.
-/

namespace Waywallen

open Sql

/-! ## Rules on the wire -/

inductive WallpaperFilterType
  | unspecified
  | name
  | wpType
  | library
  | width
  | height
  | size
  | contentRating
  | tag
  deriving DecidableEq, Repr

inductive StringCondition
  | unspecified
  | is
  | isNot
  | contains
  | containsNot
  deriving DecidableEq, Repr

inductive IntCondition
  | unspecified
  | equal
  | equalNot
  | less
  | lessEqual
  | greater
  | greaterEqual
  deriving DecidableEq, Repr

inductive LogicOp
  | unspecified
  | and
  | or
  deriving DecidableEq, Repr

/-- The wire number of an enumerator; numbers without one are not decoded. -/
def WallpaperFilterType.tryFrom (n : Int32) : Option WallpaperFilterType :=
  match n.toInt with
  | 0 => some unspecified
  | 1 => some name
  | 2 => some wpType
  | 3 => some library
  | 5 => some width
  | 6 => some height
  | 7 => some size
  | 8 => some contentRating
  | 9 => some tag
  | _ => none

def StringCondition.tryFrom (n : Int32) : Option StringCondition :=
  match n.toInt with
  | 0 => some unspecified
  | 1 => some is
  | 2 => some isNot
  | 3 => some contains
  | 4 => some containsNot
  | _ => none

def IntCondition.tryFrom (n : Int32) : Option IntCondition :=
  match n.toInt with
  | 0 => some unspecified
  | 1 => some equal
  | 2 => some equalNot
  | 3 => some less
  | 4 => some lessEqual
  | 5 => some greater
  | 6 => some greaterEqual
  | _ => none

def LogicOp.tryFrom (n : Int32) : Option LogicOp :=
  match n.toInt with
  | 0 => some unspecified
  | 1 => some and
  | 2 => some or
  | _ => none

inductive Payload
  | stringFilter (value : String) (condition : Int32)
  | intFilter (value : Int64) (condition : Int32)
  | tagFilter (values : List String) (condition : Int32)
  deriving DecidableEq

structure WallpaperFilterRule where
  type : Int32
  group : Int32
  payload : Option Payload
  deriving DecidableEq

structure FilterLogic where
  op : Int32
  groupA : Int32
  groupB : Int32
  deriving DecidableEq

/-! ## Atoms -/

inductive SqlTable
  | item
  | library
  deriving DecidableEq, Repr

inductive TextColumn
  | displayName
  | ty
  | contentRating
  | libraryPath
  deriving DecidableEq, Repr

inductive IntColumn
  | width
  | height
  | size
  deriving DecidableEq, Repr

inductive Atom
  | like (column : TextColumn) (pattern : String)
  | notLike (column : TextColumn) (pattern : String)
  | eq (column : TextColumn) (value : String)
  | ne (column : TextColumn) (value : String)
  | isNull (column : TextColumn)
  | compare (column : IntColumn) (op : IntCondition) (value : Int)
  /-- The item has a tag of this name, in any case. -/
  | hasTag (name : String)
  | hasNoTag (name : String)
  | hasTagLike (pattern : String)
  | hasNoTagLike (pattern : String)
  /-- The full-text index of the items finds the item. -/
  | inIndex (query : String)
  | notInIndex (query : String)
  | idNe (id : ℕ)
  deriving DecidableEq

def TextColumn.table : TextColumn → SqlTable
  | libraryPath => .library
  | _ => .item

/-- The tables whose columns an atom names. -/
def Atom.tables : Atom → List SqlTable
  | like c _ | notLike c _ | eq c _ | ne c _ | isNull c => [c.table]
  | _ => [.item]

/-- An item with the library it is joined with and the names of its tags. -/
structure Row where
  item : Item
  library : Option Library
  tags : List String
  deriving DecidableEq

namespace Row

variable (r : Row)

def text : TextColumn → Option String
  | .displayName => some r.item.displayName
  | .ty => some r.item.ty
  | .contentRating => r.item.contentRating
  | .libraryPath => r.library.map Library.path

def int : IntColumn → Option Int
  | .width => r.item.width
  | .height => r.item.height
  | .size => r.item.size

end Row

/-- `LIKE`: `%` stands for any text, `_` for any character, and ASCII letters match in both cases. -/
def sqlLike : List Char → List Char → Bool
  | [], text => text.isEmpty
  | '%' :: pattern, text => text.tails.any (sqlLike pattern)
  | '_' :: pattern, text => match text with
    | [] => false
    | _ :: text => sqlLike pattern text
  | c :: pattern, text => match text with
    | [] => false
    | d :: text => c.toLower == d.toLower && sqlLike pattern text

def IntCondition.compare : IntCondition → Int → Int → Bool
  | unspecified, _, _ => false
  | equal, a, b => a = b
  | equalNot, a, b => a ≠ b
  | less, a, b => a < b
  | lessEqual, a, b => a ≤ b
  | greater, a, b => a > b
  | greaterEqual, a, b => a ≥ b

/-- The truth value of an atom of a row; `index` tells what the full-text index finds. -/
def Row.value (index : String → Item → Bool) (r : Row) : Atom → Truth
  | .like c p => (r.text c).map fun t => sqlLike p.toList t.toList
  | .notLike c p => (r.text c).map fun t => !sqlLike p.toList t.toList
  | .eq c v => (r.text c).map fun t => t == v
  | .ne c v => (r.text c).map fun t => t != v
  | .isNull c => some (r.text c).isNone
  | .compare c op v => (r.int c).map fun n => op.compare n v
  | .hasTag name => some (r.tags.any fun t => t.toLower == name.toLower)
  | .hasNoTag name => some (!r.tags.any fun t => t.toLower == name.toLower)
  | .hasTagLike p => some (r.tags.any fun t => sqlLike p.toList t.toList)
  | .hasNoTagLike p => some (!r.tags.any fun t => sqlLike p.toList t.toList)
  | .inIndex q => some (index q r.item)
  | .notInIndex q => some (!index q r.item)
  | .idNe id => some (r.item.id != id)

/-! ## The condition of a rule -/

/-- A prefix query of every word, all of them required. -/
def buildFtsMatchQuery (input : String) : Option String :=
  let words := ((input.toList.splitOnP isWhitespace).map String.ofList).filter (· ≠ "")
  let terms := words.map fun w => "\"" ++ w.replace "\"" "\"\"" ++ "\"*"
  if terms.isEmpty then none else some (" AND ".intercalate terms)

def stringConditionToCondition (column : TextColumn) (cond : StringCondition) (value : String)
    (nullMatchesNegative : Bool) : Option (Cond Atom) :=
  match cond with
  | .contains => some (.all [.atom (.like column ("%" ++ value ++ "%"))])
  | .containsNot =>
    let notLike : Cond Atom := .atom (.notLike column ("%" ++ value ++ "%"))
    if nullMatchesNegative then some (.any [.atom (.isNull column), notLike])
    else some (.all [notLike])
  | .is => some (.all [.atom (.eq column value)])
  | .isNot =>
    let ne : Cond Atom := .atom (.ne column value)
    if nullMatchesNegative then some (.any [.atom (.isNull column), ne]) else some (.all [ne])
  | .unspecified => none

def intConditionToCondition (column : IntColumn) (cond : IntCondition) (value : Int) :
    Option (Cond Atom) :=
  match cond with
  | .unspecified => none
  | _ => some (.all [.atom (.compare column cond value)])

/-- Tag membership; the containment conditions are read as equality. -/
def tagConditionToCondition (tag : String) (cond : StringCondition) : Option (Cond Atom) :=
  match cond with
  | .is | .contains => some (.all [.atom (.hasTag tag)])
  | .isNot | .containsNot => some (.all [.atom (.hasNoTag tag)])
  | .unspecified => none

/-- Membership in a set of tags: any of them, or none. An empty list imposes no constraint. -/
def tagListConditionToCondition (values : List String) (cond : StringCondition) :
    Option (Cond Atom) :=
  let names := values.filter (· ≠ "")
  if names.isEmpty then none
  else match cond with
    | .is | .contains => some (.any (names.map fun tag => .atom (.hasTag tag)))
    | .isNot | .containsNot => some (.all (names.map fun tag => .atom (.hasNoTag tag)))
    | .unspecified => none

def nameConditionToCondition (value : String) (condition : Int32) : Option (Cond Atom) :=
  let cond := (StringCondition.tryFrom condition).getD .unspecified
  match cond with
  | .contains => (buildFtsMatchQuery value).map fun query =>
      .any [.atom (.inIndex query), .atom (.hasTagLike ("%" ++ value ++ "%"))]
  | .containsNot => (buildFtsMatchQuery value).map fun query =>
      .all [.atom (.notInIndex query), .atom (.hasNoTagLike ("%" ++ value ++ "%"))]
  | _ => stringConditionToCondition .displayName cond value false

def wallpaperFilterToCondition (filter : WallpaperFilterRule) : Option (Cond Atom) :=
  let string (column : TextColumn) (value : String) (condition : Int32) :=
    stringConditionToCondition column ((StringCondition.tryFrom condition).getD .unspecified) value
      false
  let int (column : IntColumn) (value : Int64) (condition : Int32) :=
    intConditionToCondition column ((IntCondition.tryFrom condition).getD .unspecified) value.toInt
  match WallpaperFilterType.tryFrom filter.type, filter.payload with
  | some .name, some (.stringFilter value condition) => nameConditionToCondition value condition
  | some .wpType, some (.stringFilter value condition) => string .ty value.toLower condition
  | some .library, some (.stringFilter value condition) => string .libraryPath value condition
  | some .width, some (.intFilter value condition) => int .width value condition
  | some .height, some (.intFilter value condition) => int .height value condition
  | some .size, some (.intFilter value condition) => int .size value condition
  | some .contentRating, some (.stringFilter value condition) =>
    string .contentRating value condition
  | some .tag, some (.tagFilter values condition) =>
    tagListConditionToCondition values ((StringCondition.tryFrom condition).getD .unspecified)
  -- older rules carry a single tag
  | some .tag, some (.stringFilter value condition) =>
    tagConditionToCondition value ((StringCondition.tryFrom condition).getD .unspecified)
  | _, _ => none

/-! ## Groups -/

section Groups

variable {F : Type} (groupOf : F → Int32) (toCondition : F → Option (Cond Atom))
  (filters : List F) (logics : List FilterLogic)

/-- The conditions of a group, in the order of the filters. -/
def bucket (group : Int32) : List (Cond Atom) :=
  (filters.filter fun f => groupOf f = group).filterMap toCondition

/-- The groups that have a condition, in ascending order. -/
def bucketKeys : List Int32 :=
  ((filters.filter fun f => (toCondition f).isSome).map groupOf).dedup.insertionSort (· ≤ ·)

def groupCond (group : Int32) : Option (Cond Atom) :=
  let conditions := bucket groupOf toCondition filters group
  if conditions.isEmpty then none else some (.all conditions)

/-- The condition of an edge, unless one of its groups has none. -/
def pairCond (logic : FilterLogic) : Option (Cond Atom) :=
  match groupCond groupOf toCondition filters logic.groupA,
      groupCond groupOf toCondition filters logic.groupB with
  | some a, some b => match (LogicOp.tryFrom logic.op).getD .and with
    | .or => some (.any [a, b])
    | _ => some (.all [a, b])
  | _, _ => none

/-- The groups named by the edges that have a condition. -/
def referenced : List Int32 :=
  (logics.filter fun l => (pairCond groupOf toCondition filters l).isSome).flatMap fun l =>
    [l.groupA, l.groupB]

/-- Edges first, then the groups no edge names; `none` when no filter has a condition. -/
def buildGroupedCondition : Option (Cond Atom) :=
  let keys := bucketKeys groupOf toCondition filters
  if keys.isEmpty then none
  else some (.all (logics.filterMap (pairCond groupOf toCondition filters) ++
    (keys.filter fun g => g ∉ referenced groupOf toCondition filters logics).filterMap
      (groupCond groupOf toCondition filters)))

end Groups

def wallpaperFiltersToCondition (filters : List WallpaperFilterRule) (logics : List FilterLogic) :
    Option (Cond Atom) :=
  buildGroupedCondition WallpaperFilterRule.group wallpaperFilterToCondition filters logics

end Waywallen
