import Mathlib.Data.List.Basic

/-!
# Conditions of SQL queries

A condition is a tree of conjunctions and disjunctions over atoms. Atoms have one of three truth
values, and a row is selected when the condition is true of it. A query that names a column of a
table it does not select from is an error.
-/

universe u v w

namespace Sql

/-- A truth value; `none` is the value of a comparison with `NULL`. -/
abbrev Truth := Option Bool

namespace Truth

def not (a : Truth) : Truth :=
  a.map Bool.not

def and : Truth → Truth → Truth
  | some true, b => b
  | some false, _ => some false
  | none, some false => some false
  | none, _ => none

def or : Truth → Truth → Truth
  | some false, b => b
  | some true, _ => some true
  | none, some true => some true
  | none, _ => none

theorem and_eq_true {a b : Truth} : and a b = some true ↔ a = some true ∧ b = some true := by
  rcases a with _ | _ | _ <;> rcases b with _ | _ | _ <;> decide

theorem or_eq_true {a b : Truth} : or a b = some true ↔ a = some true ∨ b = some true := by
  rcases a with _ | _ | _ <;> rcases b with _ | _ | _ <;> decide

/-- Read `NULL` as true. -/
def lenient (a : Truth) : Truth :=
  some (a != some false)

theorem lenient_and (a b : Truth) : (and a b).lenient = and a.lenient b.lenient := by
  rcases a with _ | _ | _ <;> rcases b with _ | _ | _ <;> decide

theorem lenient_or (a b : Truth) : (or a b).lenient = or a.lenient b.lenient := by
  rcases a with _ | _ | _ <;> rcases b with _ | _ | _ <;> decide

theorem eq_of_lenient {a b : Truth} (h : a = some true ↔ b = some true)
    (hlenient : a.lenient = some true ↔ b.lenient = some true) : a = b := by
  rcases a with _ | _ | _ <;> rcases b with _ | _ | _ <;> simp_all [lenient]

end Truth

/-- A condition over atoms of type `α`. -/
inductive Cond (α : Type u)
  | atom (a : α)
  | all (conditions : List (Cond α))
  | any (conditions : List (Cond α))

namespace Cond

variable {α : Type u}

mutual

/-- The truth value of a condition, given the one of each atom. -/
def eval (value : α → Truth) : Cond α → Truth
  | atom a => value a
  | all cs => evalAll value cs
  | any cs => evalAny value cs

def evalAll (value : α → Truth) : List (Cond α) → Truth
  | [] => some true
  | c :: cs => (eval value c).and (evalAll value cs)

def evalAny (value : α → Truth) : List (Cond α) → Truth
  | [] => some false
  | c :: cs => (eval value c).or (evalAny value cs)

end

mutual

/-- The atoms of a condition. -/
def atoms : Cond α → List α
  | atom a => [a]
  | all cs => atomsOf cs
  | any cs => atomsOf cs

def atomsOf : List (Cond α) → List α
  | [] => []
  | c :: cs => atoms c ++ atomsOf cs

end

mutual

/-- The truth value of a condition depends on its own atoms alone. -/
theorem eval_congr {v w : α → Truth} : ∀ c : Cond α, (∀ a ∈ c.atoms, v a = w a) →
    c.eval v = c.eval w
  | atom a, h => by
      rw [eval, eval]
      exact h a (by simp [atoms])
  | all cs, h => by
      rw [eval, eval]
      exact evalAll_congr cs (by simpa only [atoms] using h)
  | any cs, h => by
      rw [eval, eval]
      exact evalAny_congr cs (by simpa only [atoms] using h)

theorem evalAll_congr {v w : α → Truth} : ∀ cs : List (Cond α), (∀ a ∈ atomsOf cs, v a = w a) →
    evalAll v cs = evalAll w cs
  | [], _ => rfl
  | c :: cs, h => by
      rw [atomsOf, List.forall_mem_append] at h
      rw [evalAll, evalAll, eval_congr c h.1, evalAll_congr cs h.2]

theorem evalAny_congr {v w : α → Truth} : ∀ cs : List (Cond α), (∀ a ∈ atomsOf cs, v a = w a) →
    evalAny v cs = evalAny w cs
  | [], _ => rfl
  | c :: cs, h => by
      rw [atomsOf, List.forall_mem_append] at h
      rw [evalAny, evalAny, eval_congr c h.1, evalAny_congr cs h.2]

end

mutual

/-- What atoms that are `NULL` count for passes on to the whole. -/
theorem eval_lenient (value : α → Truth) : ∀ c : Cond α,
    c.eval (fun a => (value a).lenient) = (c.eval value).lenient
  | atom a => by rw [eval, eval]
  | all cs => by
      rw [eval, eval]
      exact evalAll_lenient value cs
  | any cs => by
      rw [eval, eval]
      exact evalAny_lenient value cs

theorem evalAll_lenient (value : α → Truth) : ∀ cs : List (Cond α),
    evalAll (fun a => (value a).lenient) cs = (evalAll value cs).lenient
  | [] => rfl
  | c :: cs => by
      rw [evalAll, evalAll, eval_lenient value c, evalAll_lenient value cs, Truth.lenient_and]

theorem evalAny_lenient (value : α → Truth) : ∀ cs : List (Cond α),
    evalAny (fun a => (value a).lenient) cs = (evalAny value cs).lenient
  | [] => rfl
  | c :: cs => by
      rw [evalAny, evalAny, eval_lenient value c, evalAny_lenient value cs, Truth.lenient_or]

end

mutual

def map {β : Type v} (f : α → β) : Cond α → Cond β
  | atom a => atom (f a)
  | all cs => all (mapList f cs)
  | any cs => any (mapList f cs)

def mapList {β : Type v} (f : α → β) : List (Cond α) → List (Cond β)
  | [] => []
  | c :: cs => map f c :: mapList f cs

end

/-- Two conditions of the same structure, with related atoms. -/
inductive Rel {β : Type v} (R : α → β → Prop) : Cond α → Cond β → Prop
  | atom {a : α} {b : β} (h : R a b) : Rel R (atom a) (atom b)
  | all {cs : List (Cond α)} {ds : List (Cond β)} (h : List.Forall₂ (Rel R) cs ds) :
    Rel R (all cs) (all ds)
  | any {cs : List (Cond α)} {ds : List (Cond β)} (h : List.Forall₂ (Rel R) cs ds) :
    Rel R (any cs) (any ds)

mutual

theorem rel_map {β : Type v} {R : β → α → Prop} {f : α → β} (h : ∀ a, R (f a) a) :
    ∀ c : Cond α, Rel R (c.map f) c
  | atom a => by
      rw [map]
      exact .atom (h a)
  | all cs => by
      rw [map]
      exact .all (rel_mapList h cs)
  | any cs => by
      rw [map]
      exact .any (rel_mapList h cs)

theorem rel_mapList {β : Type v} {R : β → α → Prop} {f : α → β} (h : ∀ a, R (f a) a) :
    ∀ cs : List (Cond α), List.Forall₂ (Rel R) (mapList f cs) cs
  | [] => .nil
  | c :: cs => .cons (rel_map h c) (rel_mapList h cs)

end

/-- `c` occurs in `d`. -/
inductive Part (c : Cond α) : Cond α → Prop
  | refl : Part c c
  | all {d : Cond α} {cs : List (Cond α)} (hd : d ∈ cs) (h : Part c d) : Part c (all cs)
  | any {d : Cond α} {cs : List (Cond α)} (hd : d ∈ cs) (h : Part c d) : Part c (any cs)

/-- Add a condition to the ones that are joined. -/
def add (c d : Cond α) : Cond α :=
  match c with
  | atom a => all [atom a, d]
  | all cs => all (cs ++ [d])
  | any cs => any (cs ++ [d])

/-- The condition is true, and neither false nor `NULL`. -/
def Holds (value : α → Truth) (c : Cond α) : Prop :=
  c.eval value = some true

instance (value : α → Truth) (c : Cond α) : Decidable (c.Holds value) :=
  inferInstanceAs (Decidable (_ = _))

section

variable {value : α → Truth} {a : α} {c d : Cond α} {cs : List (Cond α)}

@[simp] theorem holds_atom : (atom a).Holds value ↔ value a = some true := by
  rw [Holds, eval]

@[simp] theorem holds_all : (all cs).Holds value ↔ ∀ c ∈ cs, c.Holds value := by
  rw [Holds, eval]
  induction cs with
  | nil => simp [evalAll]
  | cons c cs ih => rw [evalAll, Truth.and_eq_true, ih, List.forall_mem_cons, Holds]

@[simp] theorem holds_any : (any cs).Holds value ↔ ∃ c ∈ cs, c.Holds value := by
  rw [Holds, eval]
  induction cs with
  | nil => simp [evalAny]
  | cons c cs ih => rw [evalAny, Truth.or_eq_true, ih, List.exists_mem_cons_iff, Holds]

theorem mem_atomsOf : a ∈ atomsOf cs ↔ ∃ c ∈ cs, a ∈ c.atoms := by
  induction cs with
  | nil => simp [atomsOf]
  | cons c cs ih => rw [atomsOf, List.mem_append, ih, List.exists_mem_cons_iff]

@[simp] theorem mem_atoms_atom {b : α} : a ∈ (atom b).atoms ↔ a = b := by
  rw [atoms, List.mem_singleton]

@[simp] theorem mem_atoms_all : a ∈ (all cs).atoms ↔ ∃ c ∈ cs, a ∈ c.atoms := by
  rw [atoms, mem_atomsOf]

@[simp] theorem mem_atoms_any : a ∈ (any cs).atoms ↔ ∃ c ∈ cs, a ∈ c.atoms := by
  rw [atoms, mem_atomsOf]

/-- A conjunction stays one. -/
theorem holds_add_all : ((all cs).add d).Holds value ↔ (all cs).Holds value ∧ d.Holds value := by
  simp only [add, holds_all, List.forall_mem_append, List.forall_mem_singleton]

/-- Conditions that are true under the same assignments have the same value under all. -/
theorem eval_eq_of_holds_iff (h : ∀ value, c.Holds value ↔ d.Holds value) (value : α → Truth) :
    c.eval value = d.eval value := by
  refine Truth.eq_of_lenient (h value) ?_
  rw [← eval_lenient, ← eval_lenient]
  exact h _

end

end Cond

/-- Both conditions are absent, or they have the same truth value under every assignment. -/
def SameTruth {α : Type u} (x y : Option (Cond α)) : Prop :=
  ∀ value, x.map (Cond.eval value) = y.map (Cond.eval value)

theorem sameTruth_of_holds_iff {α : Type u} {x y : Option (Cond α)} (hnone : x = none ↔ y = none)
    (h : ∀ value, (∀ c ∈ x, c.Holds value) ↔ ∀ c ∈ y, c.Holds value) : SameTruth x y := by
  intro value
  cases x with
  | none => rw [hnone.1 rfl]
  | some c =>
    cases y with
    | none => cases hnone.2 rfl
    | some d =>
      refine congrArg some (Cond.eval_eq_of_holds_iff (fun value => ?_) value)
      simpa using h value

/-! ## Queries -/

/-- The tables of a query and its condition, if it has one. -/
structure Query (τ : Type v) (α : Type u) where
  tables : List τ
  condition : Option (Cond α)

namespace Query

variable {τ : Type v} {α : Type u} {ρ : Type w}

/-- No atom of the condition names a column of another table. -/
def WellFormed (tablesOf : α → List τ) (q : Query τ α) : Prop :=
  ∀ c ∈ q.condition, ∀ a ∈ c.atoms, ∀ t ∈ tablesOf a, t ∈ q.tables

instance [DecidableEq τ] (tablesOf : α → List τ) (q : Query τ α) :
    Decidable (q.WellFormed tablesOf) :=
  inferInstanceAs (Decidable (∀ c ∈ q.condition, ∀ a ∈ c.atoms, ∀ t ∈ tablesOf a, t ∈ q.tables))

/-- The row satisfies the condition, if there is one. -/
def Accepts (value : ρ → α → Truth) (condition : Option (Cond α)) (row : ρ) : Prop :=
  ∀ c ∈ condition, c.Holds (value row)

instance (value : ρ → α → Truth) (condition : Option (Cond α)) (row : ρ) :
    Decidable (Accepts value condition row) :=
  inferInstanceAs (Decidable (∀ c ∈ condition, c.Holds (value row)))

/-- The rows of the joined tables that a query selects, or an error. -/
def run [DecidableEq τ] (tablesOf : α → List τ) (value : ρ → α → Truth) (rows : List ρ)
    (q : Query τ α) : Option (List ρ) :=
  if q.WellFormed tablesOf then some (rows.filter fun r => Accepts value q.condition r) else none

section

variable [DecidableEq τ] {tablesOf : α → List τ} {value : ρ → α → Truth} {rows : List ρ}
  {q : Query τ α}

theorem run_of_wellFormed (h : q.WellFormed tablesOf) :
    q.run tablesOf value rows = some (rows.filter fun r => Accepts value q.condition r) :=
  if_pos h

theorem run_eq_none_iff : q.run tablesOf value rows = none ↔ ¬ q.WellFormed tablesOf := by
  unfold run
  split <;> simp [*]

theorem accepts_congr {σ : Type*} {value' : σ → α → Truth} {condition : Option (Cond α)} {r : ρ}
    {r' : σ} (h : ∀ c ∈ condition, ∀ a ∈ c.atoms, value r a = value' r' a) :
    Accepts value condition r ↔ Accepts value' condition r' := by
  refine forall₂_congr fun c hc => ?_
  rw [Cond.Holds, Cond.Holds, c.eval_congr (h c hc)]

omit [DecidableEq τ] in
/-- A query that selects from all tables is no error. -/
theorem wellFormed_of_forall (h : ∀ t, t ∈ q.tables) : q.WellFormed tablesOf :=
  fun _ _ _ _ t _ => h t

end

end Query

end Sql
