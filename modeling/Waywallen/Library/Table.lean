import Mathlib.Data.List.Nodup

/-!
# Tables with a numbered and a unique column

A table keeps its rows in the order of an auto-incremented column and lets no two rows agree in a
unique column. A change of a row may touch neither column, so it comes with a proof that it keeps
both; an insert fails when the unique column is taken.
-/

universe u v

/-- The auto-incremented column of a row and its unique column. -/
structure Schema (α : Type u) (K : Type v) where
  id : α → ℕ
  key : α → K

variable {α : Type u} {K : Type v}

namespace Schema

/-- A change of a row that keeps its id and its unique column. -/
structure Update (S : Schema α K) where
  apply : α → α
  id_apply : ∀ a, S.id (apply a) = S.id a
  key_apply : ∀ a, S.key (apply a) = S.key a

/-- A new row with the unique column `k`, up to its id. -/
structure New (S : Schema α K) (k : K) where
  row : ℕ → α
  id_row : ∀ n, S.id (row n) = n
  key_row : ∀ n, S.key (row n) = k

/-- The update on the row with the unique column `k` alone. -/
def Update.at [DecidableEq K] {S : Schema α K} (f : S.Update) (k : K) : S.Update where
  apply a := if S.key a = k then f.apply a else a
  id_apply a := by split <;> simp [f.id_apply]
  key_apply a := by split <;> simp [f.key_apply]

end Schema

/-- Rows in the order of their ids; `sequence` is the last id that was given. -/
structure Table (S : Schema α K) where
  rows : List α
  sequence : ℕ
  sorted : (rows.map S.id).Pairwise (· < ·)
  distinct : (rows.map S.key).Nodup
  le_sequence : ∀ a ∈ rows, S.id a ≤ sequence

namespace Table

variable {S : Schema α K}

/-- A table without rows. -/
def empty (S : Schema α K) : Table S where
  rows := []
  sequence := 0
  sorted := .nil
  distinct := .nil
  le_sequence := by simp

instance : Membership α (Table S) where
  mem t a := a ∈ t.rows

instance [DecidableEq α] (t : Table S) (a : α) : Decidable (a ∈ t) :=
  inferInstanceAs (Decidable (a ∈ t.rows))

theorem mem_def {t : Table S} {a : α} : a ∈ t ↔ a ∈ t.rows :=
  Iff.rfl

theorem id_injective {t : Table S} {a b : α} (ha : a ∈ t) (hb : b ∈ t) (h : S.id a = S.id b) :
    a = b :=
  List.inj_on_of_nodup_map (t.sorted.imp Nat.ne_of_lt) ha hb h

/-- The row with an id is found by it. -/
theorem find?_id {t : Table S} {a : α} (ha : a ∈ t) :
    (t.rows.find? fun b => S.id b = S.id a) = some a := by
  have hfound : (t.rows.find? fun b => S.id b = S.id a).isSome :=
    List.find?_isSome.2 ⟨a, ha, decide_eq_true rfl⟩
  obtain ⟨b, hb⟩ := Option.isSome_iff_exists.1 hfound
  have hid : S.id b = S.id a := by simpa using List.find?_some hb
  rwa [id_injective (List.mem_of_find?_eq_some hb) ha hid] at hb

theorem key_injective {t : Table S} {a b : α} (ha : a ∈ t) (hb : b ∈ t)
    (h : S.key a = S.key b) : a = b :=
  List.inj_on_of_nodup_map t.distinct ha hb h

/-- Change every row. -/
def map (t : Table S) (f : S.Update) : Table S where
  rows := t.rows.map f.apply
  sequence := t.sequence
  sorted := by
    rw [List.map_map, (funext f.id_apply : S.id ∘ f.apply = S.id)]
    exact t.sorted
  distinct := by
    rw [List.map_map, (funext f.key_apply : S.key ∘ f.apply = S.key)]
    exact t.distinct
  le_sequence := by
    intro a ha
    obtain ⟨b, hb, rfl⟩ := List.mem_map.1 ha
    rw [f.id_apply]
    exact t.le_sequence b hb

theorem mem_map {t : Table S} {f : S.Update} {a : α} : a ∈ t.map f ↔ ∃ b ∈ t, f.apply b = a :=
  List.mem_map

/-- Delete the rows that satisfy `p`. -/
def delete (t : Table S) (p : α → Bool) : Table S where
  rows := t.rows.filter fun a => !p a
  sequence := t.sequence
  sorted := t.sorted.sublist (List.filter_sublist.map _)
  distinct := t.distinct.sublist (List.filter_sublist.map _)
  le_sequence a ha := t.le_sequence a (List.mem_filter.1 ha).1

theorem mem_delete {t : Table S} {p : α → Bool} {a : α} :
    a ∈ t.delete p ↔ a ∈ t ∧ p a = false := by
  rw [mem_def, delete, List.mem_filter, Bool.not_eq_true', mem_def]

variable [DecidableEq K]

/-- The row with the unique column `k`. -/
def find (t : Table S) (k : K) : Option α :=
  t.rows.find? fun a => S.key a = k

theorem find_eq_none {t : Table S} {k : K} : t.find k = none ↔ ∀ a ∈ t, S.key a ≠ k := by
  simp [find, mem_def]

theorem find_eq_some {t : Table S} {k : K} {a : α} : t.find k = some a ↔ a ∈ t ∧ S.key a = k := by
  constructor
  · intro h
    exact ⟨List.mem_of_find?_eq_some h, by simpa using List.find?_some h⟩
  · rintro ⟨ha, hk⟩
    rcases hf : t.find k with _ | b
    · exact absurd hk (find_eq_none.1 hf a ha)
    · have hb : S.key b = k := by simpa using List.find?_some hf
      rw [key_injective (List.mem_of_find?_eq_some hf) ha (hb.trans hk.symm)]

/-- Add a row under the next id, or fail when the unique column is taken. -/
def insert (t : Table S) {k : K} (f : S.New k) : Option (α × Table S) :=
  if h : t.find k = none then
    some (f.row (t.sequence + 1),
      { rows := t.rows ++ [f.row (t.sequence + 1)]
        sequence := t.sequence + 1
        sorted := by
          rw [List.map_append, List.pairwise_append]
          refine ⟨t.sorted, List.pairwise_singleton _ _, fun n hn m hm => ?_⟩
          obtain ⟨a, ha, rfl⟩ := List.mem_map.1 hn
          have hle := t.le_sequence a ha
          rw [List.map_singleton, List.mem_singleton, f.id_row] at hm
          omega
        distinct := by
          rw [List.map_append, List.nodup_append]
          refine ⟨t.distinct, List.nodup_singleton _, fun j hj m hm => ?_⟩
          obtain ⟨a, ha, rfl⟩ := List.mem_map.1 hj
          rw [List.map_singleton, List.mem_singleton, f.key_row] at hm
          exact hm ▸ find_eq_none.1 h a ha
        le_sequence := by
          intro a ha
          rcases List.mem_append.1 ha with ha | ha
          · exact Nat.le_succ_of_le (t.le_sequence a ha)
          · rw [List.mem_singleton.1 ha]
            exact Nat.le_of_eq (f.id_row _) })
  else none

/-- What an insert does when the unique column is free. -/
theorem insert_eq_some {t t' : Table S} {k : K} {f : S.New k} {a : α}
    (h : t.insert f = some (a, t')) :
    t.find k = none ∧ a = f.row (t.sequence + 1) ∧ ∀ b, b ∈ t' ↔ b ∈ t ∨ b = a := by
  unfold insert at h
  split at h
  · rename_i hk
    cases h
    refine ⟨hk, rfl, fun b => ?_⟩
    rw [mem_def, List.mem_append, List.mem_singleton, mem_def]
  · cases h

/-- Change the row with the unique column `k`, or add one. -/
def upsert (t : Table S) {k : K} (f : S.New k) (g : S.Update) : Table S :=
  match t.insert f with
  | some (_, t') => t'
  | none => t.map (g.at k)

theorem insert_eq_none {t : Table S} {k : K} {f : S.New k} :
    t.insert f = none ↔ t.find k ≠ none := by
  unfold insert
  split <;> simp_all

/-- The rows after an upsert, by the row that was there under its unique column. -/
theorem mem_upsert {t : Table S} {k : K} {f : S.New k} {g : S.Update} {a : α} :
    a ∈ t.upsert f g ↔ a ∈ t ∧ S.key a ≠ k ∨ (∃ b ∈ t, S.key b = k ∧ a = g.apply b) ∨
      t.find k = none ∧ a = f.row (t.sequence + 1) := by
  unfold upsert
  rcases h : t.insert f with _ | ⟨b, t'⟩
  · have hk := insert_eq_none.1 h
    simp only [mem_map, Schema.Update.at, hk, false_and, or_false]
    constructor
    · rintro ⟨b, hb, rfl⟩
      by_cases hbk : S.key b = k
      · rw [if_pos hbk]
        exact .inr ⟨b, hb, hbk, rfl⟩
      · rw [if_neg hbk]
        exact .inl ⟨hb, hbk⟩
    · rintro (⟨ha, hak⟩ | ⟨b, hb, hbk, rfl⟩)
      · exact ⟨a, ha, if_neg hak⟩
      · exact ⟨b, hb, if_pos hbk⟩
  · obtain ⟨hk, rfl, hmem⟩ := insert_eq_some h
    have hne := find_eq_none.1 hk
    simp only [hmem, hk, true_and]
    constructor
    · rintro (ha | rfl)
      · exact .inl ⟨ha, hne a ha⟩
      · exact .inr (.inr rfl)
    · rintro (⟨ha, -⟩ | ⟨b, hb, hbk, -⟩ | rfl)
      · exact .inl ha
      · exact absurd hbk (hne b hb)
      · exact .inr rfl

theorem find_upsert {t : Table S} {k : K} {f : S.New k} {g : S.Update} (j : K) :
    (t.upsert f g).find j =
      if j = k then some ((t.find k).elim (f.row (t.sequence + 1)) g.apply) else t.find j := by
  by_cases hj : j = k
  · subst hj
    rw [if_pos rfl, find_eq_some, mem_upsert]
    cases h : t.find j with
    | none => exact ⟨.inr (.inr ⟨rfl, rfl⟩), f.key_row _⟩
    | some a =>
      obtain ⟨ha, hk⟩ := find_eq_some.1 h
      exact ⟨.inr (.inl ⟨a, ha, hk, rfl⟩), (g.key_apply a).trans hk⟩
  · rw [if_neg hj]
    refine Option.ext fun a => ?_
    rw [find_eq_some, find_eq_some, mem_upsert]
    constructor
    · rintro ⟨⟨ha, -⟩ | ⟨b, -, hb, rfl⟩ | ⟨-, rfl⟩, hk⟩
      · exact ⟨ha, hk⟩
      · exact absurd (hk.symm.trans ((g.key_apply b).trans hb)) hj
      · exact absurd (hk.symm.trans (f.key_row _)) hj
    · rintro ⟨ha, hk⟩
      exact ⟨.inl ⟨ha, fun h => hj (hk.symm.trans h)⟩, hk⟩

end Table
