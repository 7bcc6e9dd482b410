import Mathlib.Algebra.Ring.Int.Defs
import Mathlib.Data.List.Perm.Basic
import Mathlib.Data.List.Sort
import Mathlib.Data.String.Basic
import Waywallen.Wayproto.RustWire

/-!
# JSON values in Lua

A source plugin reads JSON into Lua tables and writes tables back as JSON. Tables have no place for
a null, do not tell an empty array from an empty object, and say how long they are only if they have
no holes; so not every value comes back as it was.
-/

namespace Waywallen

open Wayproto (utf8 fromUtf8 fromUtf8_utf8)

/-- A JSON value, with floating-point numbers of type `F`. The members of an object are in the order
of their keys. -/
inductive JsonValue (F : Type) where
  | null
  | bool (b : Bool)
  | integer (n : ℤ)
  | float (x : F)
  | string (s : String)
  | array (vs : List (JsonValue F))
  | object (ms : List (String × JsonValue F))

/-- A key of a table. -/
inductive LuaKey (F : Type) where
  | string (bytes : List UInt8)
  | integer (i : ℤ)
  | number (x : F)
  /-- A boolean, a table, a function: `i` tells them apart. -/
  | other (i : ℕ)

/-- A Lua value; a table with its pairs in the order in which they are visited, and with what it
gives as its length. -/
inductive LuaValue (F : Type) where
  | nil
  | boolean (b : Bool)
  | integer (i : ℤ)
  | number (x : F)
  | string (bytes : List UInt8)
  | table (pairs : List (LuaKey F × LuaValue F)) (rawLen : ℕ)
  | other (i : ℕ)

/-- What the machine's floating-point numbers give. -/
structure Floats (F : Type) where
  ofInteger : ℤ → F
  isFinite : F → Bool
  display : F → String
  isFinite_ofInteger : ∀ n : ℤ, 2 ^ 63 ≤ n → n < 2 ^ 64 → isFinite (ofInteger n) = true

namespace LuaKey

variable {F : Type}

def isInteger : LuaKey F → Bool
  | .integer _ => true
  | _ => false

def isIndex (i : ℕ) : LuaKey F → Bool
  | .integer j => j = i
  | _ => false

end LuaKey

/-- How tables are laid out: in what order the pairs that were set are visited, and how long a table
is, which is a place where it has a hole. -/
structure LuaLayout (F : Type) where
  arrange : List (LuaKey F × LuaValue F) → List (LuaKey F × LuaValue F)
  rawLen : List (LuaKey F × LuaValue F) → ℕ
  perm : ∀ es, (arrange es).Perm es
  border : ∀ es, (rawLen es = 0 ∨ ∃ e ∈ es, e.1 = .integer (rawLen es)) ∧
    ∀ e ∈ es, e.1 ≠ .integer (rawLen es + 1)

variable {F : Type} (fl : Floats F) (layout : LuaLayout F)

/-! ## From JSON to Lua -/

/-- Sets a key, before those that follow. A key that is set to nil is not there. -/
def assign (k : LuaKey F) (u : LuaValue F) (es : List (LuaKey F × LuaValue F)) :
    List (LuaKey F × LuaValue F) :=
  match u with
  | .nil => es
  | u => (k, u) :: es

mutual

def jsonToLua : JsonValue F → LuaValue F
  | .null => .nil
  | .bool b => .boolean b
  | .integer n => if n < 2 ^ 63 then .integer n else .number (fl.ofInteger n)
  | .float x => .number x
  | .string s => .string (utf8 s)
  | .array vs =>
      let es := elements 1 vs
      .table (layout.arrange es) (layout.rawLen es)
  | .object ms =>
      let es := fields ms
      .table (layout.arrange es) (layout.rawLen es)

def elements (i : ℕ) : List (JsonValue F) → List (LuaKey F × LuaValue F)
  | [] => []
  | v :: vs => assign (.integer i) (jsonToLua v) (elements (i + 1) vs)

def fields : List (String × JsonValue F) → List (LuaKey F × LuaValue F)
  | [] => []
  | (k, v) :: ms => assign (.string (utf8 k)) (jsonToLua v) (fields ms)

end

/-! ## From Lua to JSON -/

/-- Inserts a member of a map. -/
def insertSorted {α : Type} (k : String) (v : α) : List (String × α) → List (String × α)
  | [] => [(k, v)]
  | (j, w) :: m =>
      if k < j then (k, v) :: (j, w) :: m
      else if k = j then (k, v) :: m
      else (j, w) :: insertSorted k v m

/-- Inserts the value of a key that has a text, and passes over the others. -/
def insertField (m : List (String × JsonValue F)) (e : LuaKey F × Option (JsonValue F)) :
    Option (List (String × JsonValue F)) :=
  match e.1 with
  | .string bytes => (fromUtf8 bytes).bind fun k => e.2.map fun v => insertSorted k v m
  | .integer i => e.2.map fun v => insertSorted (toString i) v m
  | .number x => e.2.map fun v => insertSorted (fl.display x) v m
  | .other _ => some m

/-- What an index of a table holds. -/
def element (es : List (LuaKey F × Option (JsonValue F))) (i : ℕ) : Option (JsonValue F) :=
  (es.find? (·.1.isIndex i)).elim (some .null) Prod.snd

/-- A table whose pairs are converted is an array if it has as many keys as it is long, and all of
them are integers. -/
def tableToJson (es : List (LuaKey F × Option (JsonValue F))) (n : ℕ) : Option (JsonValue F) :=
  if 0 < n ∧ es.all (·.1.isInteger) ∧ es.length = n then
    ((List.range n).mapM fun i => element es (i + 1)).map .array
  else (es.foldlM (insertField fl) []).map .object

mutual

def luaToJson : LuaValue F → Option (JsonValue F)
  | .nil => some .null
  | .boolean b => some (.bool b)
  | .integer i => some (.integer i)
  | .number x => if fl.isFinite x then some (.float x) else none
  | .string bytes => (fromUtf8 bytes).map .string
  | .table es n => tableToJson fl (convert es) n
  | .other _ => none

def convert : List (LuaKey F × LuaValue F) → List (LuaKey F × Option (JsonValue F))
  | [] => []
  | (k, u) :: es => (k, luaToJson u) :: convert es

end

/-! ## What a table holds -/

def JsonValue.isNull : JsonValue F → Bool
  | .null => true
  | _ => false

theorem jsonToLua_eq_nil (v : JsonValue F) : jsonToLua fl layout v = .nil ↔ v.isNull = true := by
  cases v with
  | null => simp [jsonToLua, JsonValue.isNull]
  | integer n =>
    rw [jsonToLua]
    split <;> simp [JsonValue.isNull]
  | _ => simp [jsonToLua, JsonValue.isNull]

theorem assign_jsonToLua (k : LuaKey F) (v : JsonValue F) (es : List (LuaKey F × LuaValue F)) :
    assign k (jsonToLua fl layout v) es =
      if v.isNull then es else (k, jsonToLua fl layout v) :: es := by
  have hnil := jsonToLua_eq_nil fl layout v
  cases hv : v.isNull with
  | true =>
    rw [hnil.2 hv]
    rfl
  | false =>
    have hne : jsonToLua fl layout v ≠ .nil := fun h => by
      rw [hnil.1 h] at hv
      cases hv
    rw [assign.eq_def]
    split
    · exact absurd ‹_› hne
    · rfl

theorem elements_eq (vs : List (JsonValue F)) (i : ℕ) : elements fl layout i vs =
    ((vs.zipIdx i).filter (!·.1.isNull)).map fun p =>
      (.integer p.2, jsonToLua fl layout p.1) := by
  induction vs generalizing i with
  | nil => rfl
  | cons v vs ih =>
    rw [elements, assign_jsonToLua, ih, List.zipIdx_cons, List.filter_cons]
    cases v.isNull <;> rfl

theorem fields_eq (ms : List (String × JsonValue F)) : fields fl layout ms =
    (ms.filter (!·.2.isNull)).map fun p => (.string (utf8 p.1), jsonToLua fl layout p.2) := by
  induction ms with
  | nil => rfl
  | cons m ms ih =>
    rw [fields, assign_jsonToLua, ih, List.filter_cons]
    cases m.2.isNull <;> rfl

theorem convert_eq (es : List (LuaKey F × LuaValue F)) :
    convert fl es = es.map fun e => (e.1, luaToJson fl e.2) := by
  induction es with
  | nil => rfl
  | cons e es ih => rw [convert, ih, List.map_cons]

/-- A value that went to Lua and came back. -/
def back (v : JsonValue F) : Option (JsonValue F) := luaToJson fl (jsonToLua fl layout v)

theorem back_array (vs : List (JsonValue F)) : ∃ es n,
    back fl layout (.array vs) = tableToJson fl es n ∧
    es.Perm (((vs.zipIdx 1).filter (!·.1.isNull)).map fun p =>
      (.integer p.2, back fl layout p.1)) ∧
    (n = 0 ∨ ∃ e ∈ es, e.1 = .integer n) ∧ ∀ e ∈ es, e.1 ≠ .integer (n + 1) := by
  rw [back, jsonToLua, luaToJson]
  generalize hes : elements fl layout 1 vs = es
  obtain ⟨hborder, hend⟩ := layout.border es
  refine ⟨_, _, rfl, ?_, ?_, ?_⟩
  · rw [convert_eq]
    refine ((layout.perm es).map _).trans ?_
    rw [← hes, elements_eq, List.map_map]
    exact .refl _
  · refine hborder.imp_right ?_
    rintro ⟨e, he, hkey⟩
    rw [convert_eq]
    exact ⟨_, List.mem_map_of_mem ((layout.perm es).mem_iff.2 he), hkey⟩
  · intro e he
    rw [convert_eq] at he
    obtain ⟨e', he', rfl⟩ := List.mem_map.1 he
    exact hend e' ((layout.perm es).mem_iff.1 he')

theorem back_object (ms : List (String × JsonValue F)) :
    ∃ es : List (String × JsonValue F), es.Perm (ms.filter (!·.2.isNull)) ∧
    back fl layout (.object ms) =
      ((es.map fun p => (.string (utf8 p.1), back fl layout p.2)).foldlM (insertField fl) []).map
        .object := by
  rw [back, jsonToLua, luaToJson]
  generalize hes : fields fl layout ms = es
  have hrawLen : layout.rawLen es = 0 := by
    refine (layout.border es).1.resolve_right ?_
    rintro ⟨e, he, hkey⟩
    rw [← hes, fields_eq] at he
    obtain ⟨p, -, rfl⟩ := List.mem_map.1 he
    cases hkey
  have hperm : (layout.arrange es).Perm ((ms.filter (!·.2.isNull)).map fun p =>
      (.string (utf8 p.1), jsonToLua fl layout p.2)) := by
    rw [← fields_eq, hes]
    exact layout.perm es
  -- the pairs that are visited are still pairs of members
  obtain ⟨l, harrange, hl⟩ := (congrFun₂ (List.eq_map_comp_perm _) _ _).mpr hperm
  refine ⟨l, hl, ?_⟩
  rw [tableToJson, hrawLen, if_neg fun h => absurd h.1 (lt_irrefl 0), harrange, convert_eq,
    List.map_map]
  rfl

/-! ## Arrays -/

theorem mapM_range_eq_some {α : Type} {f : ℕ → Option α} {n : ℕ} {r : List α} :
    (List.range n).mapM f = some r ↔ r.length = n ∧ ∀ i a, r[i]? = some a → f i = some a := by
  induction n generalizing r with
  | zero =>
    simp only [List.range_zero, List.mapM_nil]
    constructor
    · rintro ⟨⟩
      simp
    · rintro ⟨hlen, -⟩
      rw [List.eq_nil_of_length_eq_zero hlen]
      rfl
  | succ n ih =>
    rw [List.range_succ, List.mapM_append]
    constructor
    · intro h
      simp only [List.mapM_cons, List.mapM_nil, Option.bind_eq_bind, Option.bind_eq_some_iff,
        Option.pure_def, Option.some_inj] at h
      obtain ⟨r, hr, -, ⟨a, ha, -, rfl, rfl⟩, rfl⟩ := h
      obtain ⟨hlen, hall⟩ := ih.1 hr
      refine ⟨by simp [hlen], fun i b hb => ?_⟩
      rw [List.getElem?_append] at hb
      split at hb
      · exact hall i b hb
      · have hi : i = n := by
          have hlt := (List.getElem?_eq_some_iff.1 hb).1
          simp at hlt
          omega
        subst hi
        rw [hlen, Nat.sub_self] at hb
        cases hb
        exact ha
    · rintro ⟨hlen, hall⟩
      obtain ⟨r, a, rfl⟩ : ∃ s a, r = s ++ [a] :=
        ⟨r.dropLast, r.getLast (by rintro rfl; simp at hlen), (List.dropLast_append_getLast _).symm⟩
      have hlen : r.length = n := by simpa using hlen
      have hr : (List.range n).mapM f = some r := by
        refine ih.2 ⟨hlen, fun i b hb => hall i b ?_⟩
        rw [List.getElem?_append_left (List.getElem?_eq_some_iff.1 hb).1]
        exact hb
      have ha : f n = some a := hall n a (by rw [List.getElem?_append, hlen]; simp)
      simp [hr, ha]

/-- An index that one key of the table has. -/
theorem element_eq {es : List (LuaKey F × Option (JsonValue F))} {i : ℕ}
    {x : Option (JsonValue F)} (hmem : (.integer i, x) ∈ es)
    (hall : ∀ e ∈ es, e.1 = .integer i → e.2 = x) : element es i = x := by
  have hindex {k : LuaKey F} (h : k.isIndex i = true) : k = .integer i := by
    cases k with
    | integer j => rw [of_decide_eq_true h]
    | string _ => cases h
    | number _ => cases h
    | other _ => cases h
  rw [element]
  cases hfind : es.find? (·.1.isIndex i) with
  | none => exact absurd (List.find?_eq_none.1 hfind _ hmem) (by simp [LuaKey.isIndex])
  | some e =>
    have hkey : e.1.isIndex i = true := by simpa using List.find?_some hfind
    exact hall e (List.mem_of_find?_eq_some hfind) (hindex hkey)

section Array

variable {fl layout} {vs : List (JsonValue F)} {es : List (LuaKey F × Option (JsonValue F))}
  (hes : es.Perm (((vs.zipIdx 1).filter (!·.1.isNull)).map fun p =>
    (.integer p.2, back fl layout p.1)))

include hes

theorem mem_elements_iff {e : LuaKey F × Option (JsonValue F)} : e ∈ es ↔ ∃ i v,
    vs[i]? = some v ∧ v.isNull = false ∧ e = (.integer (i + 1 : ℕ), back fl layout v) := by
  rw [hes.mem_iff, List.mem_map]
  constructor
  · rintro ⟨⟨v, i⟩, hp, rfl⟩
    obtain ⟨hp, hnull⟩ := List.mem_filter.1 hp
    obtain ⟨hle, hv⟩ := List.mk_mem_zipIdx_iff_le_and_getElem?_sub.1 hp
    refine ⟨i - 1, v, hv, by simpa using hnull, ?_⟩
    rw [Nat.sub_add_cancel hle]
  · rintro ⟨i, v, hv, hnull, rfl⟩
    refine ⟨(v, i + 1), List.mem_filter.2 ⟨?_, by simpa using hnull⟩, rfl⟩
    exact List.mk_mem_zipIdx_iff_le_and_getElem?_sub.2 ⟨Nat.le_add_left .., hv⟩

theorem element_elements {i : ℕ} {v : JsonValue F} (hv : vs[i]? = some v)
    (hnull : v.isNull = false) : element es (i + 1) = back fl layout v := by
  refine element_eq ((mem_elements_iff hes).2 ⟨i, v, hv, hnull, rfl⟩) fun e he hkey => ?_
  obtain ⟨j, w, hw, -, rfl⟩ := (mem_elements_iff hes).1 he
  obtain rfl : j = i := by
    have hindex := LuaKey.integer.inj hkey
    omega
  rw [Option.some_inj.1 (hw.symm.trans hv)]

theorem length_elements : es.length = vs.countP (!·.isNull) := by
  rw [hes.length_eq, List.length_map, ← List.countP_eq_length_filter]
  have hcount : (vs.zipIdx 1).countP (!·.1.isNull) =
      ((vs.zipIdx 1).map Prod.fst).countP (!·.isNull) := by
    rw [List.countP_map]
    rfl
  rw [hcount, List.zipIdx_map_fst]

theorem all_elements : es.all (·.1.isInteger) = true := by
  refine List.all_eq_true.2 fun e he => ?_
  obtain ⟨i, v, -, -, rfl⟩ := (mem_elements_iff hes).1 he
  rfl

end Array

variable {fl layout}

/-- An array comes back if it is not empty and everything in it does and is not null. -/
theorem back_array_eq {vs : List (JsonValue F)} :
    back fl layout (.array vs) = some (.array vs) ↔
      vs ≠ [] ∧ ∀ v ∈ vs, v.isNull = false ∧ back fl layout v = some v := by
  obtain ⟨es, n, hback, hes, hborder, hend⟩ := back_array fl layout vs
  rw [hback, tableToJson]
  constructor
  · intro h
    split at h
    · rename_i hcond
      obtain ⟨r, hr, heq⟩ := Option.map_eq_some_iff.1 h
      obtain rfl := JsonValue.array.inj heq
      obtain ⟨hlen, hall⟩ := mapM_range_eq_some.1 hr
      have hcount : r.countP (!·.isNull) = r.length := by
        rw [← length_elements hes, hcond.2.2, hlen]
      refine ⟨?_, fun v hv => ?_⟩
      · rintro rfl
        exact absurd hcond.1 (hlen ▸ lt_irrefl 0)
      · have hnull : v.isNull = false := by simpa using List.countP_eq_length.1 hcount v hv
        obtain ⟨i, hi⟩ := List.getElem?_of_mem hv
        exact ⟨hnull, (element_elements hes hi hnull).symm.trans (hall i v hi)⟩
    · obtain ⟨r, -, heq⟩ := Option.map_eq_some_iff.1 h
      cases heq
  · rintro ⟨hne, hall⟩
    have hcount : vs.countP (!·.isNull) = vs.length :=
      List.countP_eq_length.2 fun v hv => by simpa using (hall v hv).1
    have hge : vs.length ≤ n := by
      by_contra hlt
      obtain ⟨v, hv⟩ : ∃ v, vs[n]? = some v := ⟨_, List.getElem?_eq_getElem (not_le.1 hlt)⟩
      have hmem := (mem_elements_iff hes).2 ⟨n, v, hv, (hall v (List.mem_of_getElem? hv)).1, rfl⟩
      exact hend _ hmem rfl
    have hpos : 0 < vs.length := List.length_pos_iff.2 hne
    have hle : n ≤ vs.length := by
      obtain rfl | ⟨e, he, hkey⟩ := hborder
      · exact Nat.zero_le _
      · obtain ⟨i, v, hv, -, rfl⟩ := (mem_elements_iff hes).1 he
        have hindex := LuaKey.integer.inj hkey
        have hlt := (List.getElem?_eq_some_iff.1 hv).1
        omega
    have hcond : 0 < n ∧ es.all (·.1.isInteger) = true ∧ es.length = n :=
      ⟨by omega, all_elements hes, by rw [length_elements hes, hcount]; omega⟩
    have hmapM : (List.range n).mapM (fun i => element es (i + 1)) = some vs := by
      refine mapM_range_eq_some.2 ⟨by omega, fun i v hv => ?_⟩
      obtain ⟨hnull, hv'⟩ := hall v (List.mem_of_getElem? hv)
      rw [element_elements hes hv hnull, hv']
    rw [if_pos hcond, hmapM]
    rfl

/-! ## Objects -/

theorem insertSorted_perm {α : Type} {k : String} {v : α} {m : List (String × α)}
    (hk : ∀ e ∈ m, e.1 ≠ k) : (insertSorted k v m).Perm ((k, v) :: m) := by
  induction m with
  | nil => exact .refl _
  | cons e m ih =>
    obtain ⟨j, w⟩ := e
    rw [insertSorted]
    split
    · exact .refl _
    · rw [if_neg fun h => hk (j, w) List.mem_cons_self h.symm]
      exact ((ih fun e he => hk e (List.mem_cons_of_mem _ he)).cons _).trans (.swap ..)

/-- The members of an object are in the order of their keys, and no key comes twice. -/
def Ascending {α : Type} (m : List (String × α)) : Prop := m.Pairwise fun e e' => e.1 < e'.1

theorem Ascending.insertSorted {α : Type} {k : String} {v : α} {m : List (String × α)}
    (h : Ascending m) (hk : ∀ e ∈ m, e.1 ≠ k) : Ascending (insertSorted k v m) := by
  induction m with
  | nil => exact List.pairwise_singleton _ _
  | cons e m ih =>
    obtain ⟨j, w⟩ := e
    obtain ⟨hlt, hm⟩ := List.pairwise_cons.1 h
    rw [Waywallen.insertSorted]
    split
    · rename_i hkj
      refine List.pairwise_cons.2 ⟨fun e he => ?_, h⟩
      obtain rfl | he := List.mem_cons.1 he
      · exact hkj
      · exact hkj.trans (hlt e he)
    · rename_i hkj
      have hne : j ≠ k := hk (j, w) List.mem_cons_self
      rw [if_neg hne.symm]
      have hrest : ∀ e ∈ m, e.1 ≠ k := fun e he => hk e (List.mem_cons_of_mem _ he)
      refine List.pairwise_cons.2 ⟨fun e he => ?_, ih hm hrest⟩
      obtain rfl | he := List.mem_cons.1 ((insertSorted_perm hrest).mem_iff.1 he)
      · exact lt_of_le_of_ne (not_lt.1 hkj) hne
      · exact hlt e he

theorem Ascending.nodup {α : Type} {m : List (String × α)} (h : Ascending m) :
    (m.map Prod.fst).Nodup :=
  List.pairwise_map.2 (h.imp fun h => ne_of_lt h)

theorem Ascending.eq {α : Type} {m m' : List (String × α)} (h : Ascending m) (h' : Ascending m')
    (hperm : m.Perm m') : m = m' :=
  List.Perm.eq_of_pairwise (fun _ _ _ _ hlt hlt' => absurd hlt (lt_asymm hlt')) h h' hperm

/-- Inserts members, the first one first. -/
def insertAll {α : Type} (l m : List (String × α)) : List (String × α) :=
  l.foldl (fun m e => insertSorted e.1 e.2 m) m

/-- Inserting members with different keys, in any order, gives the object with these members. -/
theorem insertAll_perm {α : Type} {l m : List (String × α)}
    (hkeys : ((l ++ m).map Prod.fst).Nodup) (hm : Ascending m) :
    (insertAll l m).Perm (l ++ m) ∧ Ascending (insertAll l m) := by
  induction l generalizing m with
  | nil => exact ⟨.refl _, hm⟩
  | cons e l ih =>
    have hk : ∀ e' ∈ m, e'.1 ≠ e.1 := by
      intro e' he' heq
      refine (List.nodup_cons.1 hkeys).1 ?_
      rw [← heq]
      exact List.mem_map_of_mem (List.mem_append_right _ he')
    have hperm : (l ++ insertSorted e.1 e.2 m).Perm (e :: l ++ m) :=
      ((insertSorted_perm hk).append_left l).trans List.perm_middle
    obtain ⟨hall, hasc⟩ := ih ((hperm.map Prod.fst).nodup_iff.2 hkeys) (hm.insertSorted hk)
    exact ⟨hall.trans hperm, hasc⟩

theorem insertField_string (k : String) (v : Option (JsonValue F))
    (m : List (String × JsonValue F)) :
    insertField fl m (.string (utf8 k), v) = v.map fun v => insertSorted k v m := by
  simp only [insertField, fromUtf8_utf8, Option.bind_some]

theorem foldlM_insertField {f : JsonValue F → Option (JsonValue F)}
    {l m m' : List (String × JsonValue F)} :
    (l.map fun p => (.string (utf8 p.1), f p.2)).foldlM (insertField fl) m = some m' ↔
      ∃ r, List.Forall₂ (fun p q => q.1 = p.1 ∧ f p.2 = some q.2) l r ∧ insertAll r m = m' := by
  induction l generalizing m with
  | nil => simp [insertAll]
  | cons p l ih =>
    rw [List.map_cons, List.foldlM_cons, insertField_string]
    simp only [Option.bind_eq_bind, Option.bind_eq_some_iff, Option.map_eq_some_iff]
    constructor
    · rintro ⟨-, ⟨v, hv, rfl⟩, h⟩
      obtain ⟨r, hr, rfl⟩ := ih.1 h
      exact ⟨(p.1, v) :: r, .cons ⟨rfl, hv⟩ hr, rfl⟩
    · rintro ⟨_, _ | ⟨hv, hr⟩, rfl⟩
      rename_i q r
      refine ⟨_, ⟨q.2, hv.2, rfl⟩, ih.2 ⟨r, hr, ?_⟩⟩
      rw [← hv.1]
      rfl

theorem keys_eq {f : JsonValue F → Option (JsonValue F)} {l r : List (String × JsonValue F)}
    (h : List.Forall₂ (fun p q => q.1 = p.1 ∧ f p.2 = some q.2) l r) :
    r.map Prod.fst = l.map Prod.fst := by
  induction h with
  | nil => rfl
  | cons hpq _ ih => rw [List.map_cons, List.map_cons, hpq.1, ih]

theorem keys_nodup {ms l : List (String × JsonValue F)} (hms : Ascending ms)
    (hl : l.Perm (ms.filter (!·.2.isNull))) : (l.map Prod.fst).Nodup :=
  (hl.map _).nodup_iff.2 (hms.nodup.sublist (List.filter_sublist.map _))

/-- An object comes back if everything in it does and is not null. -/
theorem back_object_eq {ms : List (String × JsonValue F)} (hms : Ascending ms) :
    back fl layout (.object ms) = some (.object ms) ↔
      ∀ p ∈ ms, p.2.isNull = false ∧ back fl layout p.2 = some p.2 := by
  obtain ⟨l, hl, hback⟩ := back_object fl layout ms
  rw [hback]
  constructor
  · intro h
    obtain ⟨_, hfold, heq⟩ := Option.map_eq_some_iff.1 h
    rw [JsonValue.object.inj heq] at hfold
    obtain ⟨r, hr, hall⟩ := foldlM_insertField.1 hfold
    have hkeys : ((r ++ []).map Prod.fst).Nodup := by
      rw [List.append_nil, keys_eq hr]
      exact keys_nodup hms hl
    have hperm : r.Perm ms := by simpa [hall] using (insertAll_perm hkeys .nil).1.symm
    -- nothing is missing, so nothing was null
    have hfull : ms.filter (!·.2.isNull) = ms := by
      refine List.filter_eq_self.2 (List.length_filter_eq_length_iff.1 ?_)
      rw [← hl.length_eq, hr.length_eq, hperm.length_eq]
    rw [hfull] at hl
    intro p hp
    have hnull : p.2.isNull = false := by simpa using List.filter_eq_self.1 hfull p hp
    obtain ⟨i, hi, rfl⟩ := List.getElem_of_mem (hl.mem_iff.2 hp)
    have hri : i < r.length := hr.length_eq ▸ hi
    obtain ⟨hfst, hsnd⟩ := hr.get hi hri
    have hmem : r[i] ∈ ms := hperm.mem_iff.1 (List.getElem_mem hri)
    have hsame : r[i] = l[i] := List.inj_on_of_nodup_map hms.nodup hmem hp hfst
    exact ⟨hnull, hsnd.trans (congrArg (fun q => some q.2) hsame)⟩
  · intro h
    have hfull : ms.filter (!·.2.isNull) = ms :=
      List.filter_eq_self.2 fun p hp => by simpa using (h p hp).1
    rw [hfull] at hl
    have hsame : List.Forall₂ (fun p q : String × JsonValue F =>
        q.1 = p.1 ∧ back fl layout p.2 = some q.2) l l :=
      List.forall₂_same.2 fun p hp => ⟨rfl, (h p (hl.mem_iff.1 hp)).2⟩
    have hkeys : ((l ++ []).map Prod.fst).Nodup := by
      rw [List.append_nil]
      exact (hl.map _).nodup_iff.2 hms.nodup
    obtain ⟨hperm, hasc⟩ := insertAll_perm hkeys .nil
    rw [List.append_nil] at hperm
    rw [foldlM_insertField.2 ⟨l, hsame, hasc.eq hms (hperm.trans hl)⟩]
    rfl

/-! ## What comes back -/

section Some

variable {es : List (LuaKey F × Option (JsonValue F))}

theorem element_isSome (h : ∀ e ∈ es, e.2.isSome) (i : ℕ) : (element es i).isSome := by
  rw [element]
  cases hfind : es.find? (·.1.isIndex i) with
  | none => rfl
  | some e => exact h e (List.mem_of_find?_eq_some hfind)

theorem insertField_isSome {e : LuaKey F × Option (JsonValue F)} (hvalue : e.2.isSome)
    (hkey : ∀ bytes, e.1 = .string bytes → (fromUtf8 bytes).isSome)
    (m : List (String × JsonValue F)) : (insertField fl m e).isSome := by
  obtain ⟨v, hv⟩ := Option.isSome_iff_exists.1 hvalue
  obtain ⟨k, _⟩ := e
  obtain rfl : _ = some v := hv
  cases k with
  | string bytes =>
    obtain ⟨k, hk⟩ := Option.isSome_iff_exists.1 (hkey bytes rfl)
    simp [insertField, hk]
  | integer i => rfl
  | number x => rfl
  | other i => rfl

theorem foldlM_isSome (hvalue : ∀ e ∈ es, e.2.isSome)
    (hkey : ∀ e ∈ es, ∀ bytes, e.1 = .string bytes → (fromUtf8 bytes).isSome)
    (m : List (String × JsonValue F)) : (es.foldlM (insertField fl) m).isSome := by
  induction es generalizing m with
  | nil => rfl
  | cons e es ih =>
    obtain ⟨m', hm⟩ := Option.isSome_iff_exists.1
      (insertField_isSome (hvalue e List.mem_cons_self) (hkey e List.mem_cons_self) m)
    rw [List.foldlM_cons, hm]
    exact ih (fun e he => hvalue e (List.mem_cons_of_mem _ he))
      (fun e he => hkey e (List.mem_cons_of_mem _ he)) m'

theorem tableToJson_isSome (hvalue : ∀ e ∈ es, e.2.isSome)
    (hkey : ∀ e ∈ es, ∀ bytes, e.1 = .string bytes → (fromUtf8 bytes).isSome) (n : ℕ) :
    (tableToJson fl es n).isSome := by
  rw [tableToJson]
  split
  · rw [Option.isSome_map]
    refine Option.isSome_iff_exists.2 ⟨(List.range n).map fun i =>
      (element es (i + 1)).get (element_isSome hvalue _), mapM_range_eq_some.2 ⟨by simp, ?_⟩⟩
    intro i v hv
    rw [List.getElem?_map, Option.map_eq_some_iff] at hv
    obtain ⟨j, hj, rfl⟩ := hv
    rw [(List.getElem?_eq_some_iff.1 hj).2.symm, List.getElem_range, Option.some_get]
  · rw [Option.isSome_map]
    exact foldlM_isSome hvalue hkey []

end Some

namespace JsonValue

variable (fl) in
/-- What a JSON text can hold: an integer has 64 bits, a floating-point number is finite, and the
members of an object are in order. -/
inductive Proper : JsonValue F → Prop where
  | null : Proper .null
  | bool (b : Bool) : Proper (.bool b)
  | integer {n : ℤ} (hle : -2 ^ 63 ≤ n) (hlt : n < 2 ^ 64) : Proper (.integer n)
  | float {x : F} (h : fl.isFinite x = true) : Proper (.float x)
  | string (s : String) : Proper (.string s)
  | array {vs : List (JsonValue F)} (h : ∀ v ∈ vs, Proper v) : Proper (.array vs)
  | object {ms : List (String × JsonValue F)} (hms : Ascending ms) (h : ∀ p ∈ ms, Proper p.2) :
      Proper (.object ms)

/-- A value without nulls, without empty arrays and without integers that only unsigned numbers
hold. -/
inductive Kept : JsonValue F → Prop where
  | bool (b : Bool) : Kept (.bool b)
  | integer {n : ℤ} (h : n < 2 ^ 63) : Kept (.integer n)
  | float (x : F) : Kept (.float x)
  | string (s : String) : Kept (.string s)
  | array {vs : List (JsonValue F)} (hne : vs ≠ []) (h : ∀ v ∈ vs, Kept v) : Kept (.array vs)
  | object {ms : List (String × JsonValue F)} (h : ∀ p ∈ ms, Kept p.2) : Kept (.object ms)

theorem Kept.isNull {v : JsonValue F} (h : v.Kept) : v.isNull = false := by
  cases h <;> rfl

/-- In an array or an object. -/
theorem kept_iff_of_back {v : JsonValue F}
    (h : back fl layout v = some v ↔ v = .null ∨ v.Kept) :
    (v.isNull = false ∧ back fl layout v = some v) ↔ v.Kept := by
  rw [h]
  constructor
  · rintro ⟨hnull, rfl | hkept⟩
    · cases hnull
    · exact hkept
  · exact fun hkept => ⟨hkept.isNull, .inr hkept⟩

theorem Proper.back_isSome {v : JsonValue F} (hv : v.Proper fl) : (back fl layout v).isSome := by
  induction hv with
  | null => rfl
  | bool b => rfl
  | @integer n hle hlt =>
    rw [back, jsonToLua]
    split
    · rfl
    · rw [luaToJson, if_pos (fl.isFinite_ofInteger n (not_lt.1 ‹_›) hlt)]
      rfl
  | float h =>
    rw [back, jsonToLua, luaToJson, if_pos h]
    rfl
  | string s =>
    rw [back, jsonToLua, luaToJson, fromUtf8_utf8]
    rfl
  | @array vs h ih =>
    obtain ⟨es, n, hback, hes, -, -⟩ := back_array fl layout vs
    rw [hback]
    refine tableToJson_isSome (fun e he => ?_) (fun e he bytes hkey => ?_) n
    · obtain ⟨i, v, hv, -, rfl⟩ := (mem_elements_iff hes).1 he
      exact ih v (List.mem_of_getElem? hv)
    · obtain ⟨i, v, -, -, rfl⟩ := (mem_elements_iff hes).1 he
      cases hkey
  | @object ms hms h ih =>
    obtain ⟨l, hl, hback⟩ := back_object fl layout ms
    rw [hback, Option.isSome_map]
    refine foldlM_isSome (fun e he => ?_) (fun e he bytes hkey => ?_) []
    · obtain ⟨p, hp, rfl⟩ := List.mem_map.1 he
      exact ih p (List.mem_of_mem_filter (hl.mem_iff.1 hp))
    · obtain ⟨p, -, rfl⟩ := List.mem_map.1 he
      rw [← LuaKey.string.inj hkey, fromUtf8_utf8]
      rfl

theorem Proper.back_eq {v : JsonValue F} (hv : v.Proper fl) :
    back fl layout v = some v ↔ v = .null ∨ v.Kept := by
  induction hv with
  | null => simp [back, jsonToLua, luaToJson]
  | bool b => simp [back, jsonToLua, luaToJson, Kept.bool b]
  | @integer n hle hlt =>
    rw [back, jsonToLua]
    split
    · rename_i h
      simp [luaToJson, Kept.integer h]
    · rename_i h
      rw [luaToJson, if_pos (fl.isFinite_ofInteger n (not_lt.1 h) hlt)]
      constructor
      · intro heq
        cases heq
      · rintro (heq | hkept)
        · cases heq
        · cases hkept
          contradiction
  | @float x h => simp [back, jsonToLua, luaToJson, h, Kept.float x]
  | string s => simp [back, jsonToLua, luaToJson, fromUtf8_utf8, Kept.string s]
  | @array vs h ih =>
    rw [back_array_eq]
    constructor
    · rintro ⟨hne, hall⟩
      exact .inr (.array hne fun v hv => (kept_iff_of_back (ih v hv)).1 (hall v hv))
    · rintro (heq | hkept)
      · cases heq
      · cases hkept with
        | array hne hall => exact ⟨hne, fun v hv => (kept_iff_of_back (ih v hv)).2 (hall v hv)⟩
  | @object ms hms h ih =>
    rw [back_object_eq hms]
    constructor
    · exact fun hall => .inr (.object fun p hp => (kept_iff_of_back (ih p hp)).1 (hall p hp))
    · rintro (heq | hkept)
      · cases heq
      · cases hkept with
        | object hall => exact fun p hp => (kept_iff_of_back (ih p hp)).2 (hall p hp)

end JsonValue

/-- A value that goes to Lua comes back as some value, whatever the layout of tables, and as itself
only if there is nothing in it that Lua has no place for. -/
theorem comes_back {v : JsonValue F} (hv : v.Proper fl) :
    (back fl layout v).isSome ∧ (back fl layout v = some v ↔ v = .null ∨ v.Kept) :=
  ⟨hv.back_isSome, hv.back_eq⟩

/-! ## An example -/

def LuaKey.index : LuaKey F → ℕ
  | .integer i => i.toNat
  | _ => 0

def lastIndex : List (LuaKey F × LuaValue F) → ℕ
  | [] => 0
  | e :: es => max e.1.index (lastIndex es)

theorem index_le_lastIndex {es : List (LuaKey F × LuaValue F)} {e : LuaKey F × LuaValue F}
    (he : e ∈ es) : e.1.index ≤ lastIndex es := by
  induction es with
  | nil => exact absurd he List.not_mem_nil
  | cons e' es ih =>
    rw [lastIndex]
    obtain rfl | he := List.mem_cons.1 he
    · exact le_max_left ..
    · exact (ih he).trans (le_max_right ..)

theorem lastIndex_mem (es : List (LuaKey F × LuaValue F)) :
    lastIndex es = 0 ∨ ∃ e ∈ es, e.1 = .integer (lastIndex es) := by
  induction es with
  | nil => exact .inl rfl
  | cons e es ih =>
    obtain ⟨k, u⟩ := e
    rw [lastIndex]
    obtain hle | hlt := le_or_gt k.index (lastIndex es)
    · rw [max_eq_right hle]
      exact ih.imp_right fun ⟨e, he, hkey⟩ => ⟨e, List.mem_cons_of_mem _ he, hkey⟩
    · rw [max_eq_left hlt.le]
      right
      refine ⟨(k, u), List.mem_cons_self, ?_⟩
      cases k with
      | integer i =>
        rw [LuaKey.index] at hlt ⊢
        rw [Int.toNat_of_nonneg (by omega)]
      | _ => exact absurd hlt (Nat.not_lt_zero _)

/-- Tables that are as long as their last index. -/
def LuaLayout.last : LuaLayout F where
  arrange := id
  rawLen := lastIndex
  perm := List.Perm.refl
  border es := by
    refine ⟨lastIndex_mem es, fun e he hkey => ?_⟩
    have hle := index_le_lastIndex he
    rw [hkey, LuaKey.index] at hle
    omega

def Floats.whole : Floats ℤ where
  ofInteger := id
  isFinite _ := true
  display := toString
  isFinite_ofInteger _ _ _ := rfl

def sizes : JsonValue ℤ := .object [("sizes", .array [.integer 1920, .integer 1080])]

theorem comes_back_sizes : back .whole .last sizes = some sizes := by
  have hkept : sizes.Kept := by
    refine .object (List.forall_mem_singleton.2 (.array (List.cons_ne_nil _ _) ?_))
    exact List.forall_mem_cons.2 ⟨.integer (by decide),
      List.forall_mem_singleton.2 (.integer (by decide))⟩
  have hproper : sizes.Proper .whole := by
    refine .object (List.pairwise_singleton _ _) (List.forall_mem_singleton.2 (.array ?_))
    exact List.forall_mem_cons.2 ⟨.integer (by decide) (by decide),
      List.forall_mem_singleton.2 (.integer (by decide) (by decide))⟩
  exact (comes_back hproper).2.2 (.inr hkept)

end Waywallen
