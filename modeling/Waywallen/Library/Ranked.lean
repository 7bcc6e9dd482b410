import Mathlib.Data.List.Induction
import Mathlib.Data.List.Sort

/-!
# The best of a list

Elements have ranks, and of those of the highest rank the first one is the best. A list may be
sorted by rank, and parts of it again, without another one becoming the best, so long as elements of
one rank keep their order.
-/

universe u v

namespace Ranked

variable {α : Type u} {κ : Type v} [LinearOrder κ] (rank : α → κ)

/-- The same elements, those of one rank in the same order. -/
structure SameRanks (l l' : List α) : Prop where
  perm : l.Perm l'
  ranks : ∀ k, l.filter (fun a => rank a = k) = l'.filter fun a => rank a = k

/-- The first one of the highest rank that qualifies. -/
def Best (p : α → Prop) (l : List α) (a : α) : Prop :=
  ∃ before after, l = before ++ a :: after ∧ p a ∧ (∀ b ∈ before, p b → rank b < rank a) ∧
    ∀ b ∈ after, p b → rank b ≤ rank a

namespace SameRanks

variable {rank} {l l' m m' : List α}

theorem refl (l : List α) : SameRanks rank l l := ⟨.refl l, fun _ => rfl⟩

theorem symm (h : SameRanks rank l l') : SameRanks rank l' l :=
  ⟨h.perm.symm, fun k => (h.ranks k).symm⟩

theorem trans (h : SameRanks rank l l') (h' : SameRanks rank l' m) : SameRanks rank l m :=
  ⟨h.perm.trans h'.perm, fun k => (h.ranks k).trans (h'.ranks k)⟩

theorem append (h : SameRanks rank l l') (h' : SameRanks rank m m') :
    SameRanks rank (l ++ m) (l' ++ m') := by
  refine ⟨h.perm.append h'.perm, fun k => ?_⟩
  rw [List.filter_append, List.filter_append, h.ranks, h'.ranks]

theorem filter (h : SameRanks rank l l') (p : α → Bool) :
    SameRanks rank (l.filter p) (l'.filter p) := by
  refine ⟨h.perm.filter p, fun k => ?_⟩
  rw [List.filter_comm, h.ranks, List.filter_comm]

theorem filter_orderedInsert (a : α) (l : List α) (k : κ) :
    (l.orderedInsert (fun a b => rank b ≤ rank a) a).filter (fun b => rank b = k) =
      (a :: l).filter fun b => rank b = k := by
  induction l with
  | nil => rfl
  | cons b l ih =>
    rw [List.orderedInsert_cons]
    split
    · rfl
    · rename_i hlt
      -- the two have different ranks, so that one of them is not of rank `k`
      have hne : rank b ≠ rank a := fun heq => hlt heq.le
      rw [List.filter_cons, ih]
      by_cases hb : rank b = k
      · have ha : rank a ≠ k := fun ha => hne (hb.trans ha.symm)
        simp [ha, hb]
      · simp [List.filter_cons, hb]

/-- Sorting by insertion, the highest rank first. -/
theorem insertionSort (l : List α) :
    SameRanks rank (l.insertionSort fun a b => rank b ≤ rank a) l := by
  refine ⟨List.perm_insertionSort _ l, fun k => ?_⟩
  induction l with
  | nil => rfl
  | cons a l ih =>
    rw [List.insertionSort_cons, filter_orderedInsert, List.filter_cons, List.filter_cons, ih]

end SameRanks

theorem pairwise_insertionSort_rank (l : List α) :
    (l.insertionSort fun a b => rank b ≤ rank a).Pairwise fun a b => rank b ≤ rank a := by
  have htotal : Std.Total fun a b : α => rank b ≤ rank a := ⟨fun a b => le_total (rank b) (rank a)⟩
  have htrans : IsTrans α fun a b => rank b ≤ rank a := ⟨fun _ _ _ h h' => h'.trans h⟩
  exact List.pairwise_insertionSort _ l

namespace Best

variable {rank} {p : α → Prop} {l l' : List α} {a b : α}

theorem mem (h : Best rank p l a) : a ∈ l := by
  obtain ⟨before, after, rfl, -⟩ := h
  exact List.mem_append_right _ List.mem_cons_self

theorem holds (h : Best rank p l a) : p a := by
  obtain ⟨before, after, -, ha, -⟩ := h
  exact ha

theorem le (h : Best rank p l a) (hb : b ∈ l) (hp : p b) : rank b ≤ rank a := by
  obtain ⟨before, after, rfl, -, hbefore, hafter⟩ := h
  obtain hb | hb := List.mem_append.1 hb
  · exact (hbefore b hb hp).le
  · obtain rfl | hb := List.mem_cons.1 hb
    · exact le_rfl
    · exact hafter b hb hp

theorem unique (h : Best rank p l a) (h' : Best rank p l b) : a = b := by
  obtain ⟨before, after, rfl, ha, hbefore, hafter⟩ := h
  obtain ⟨before', after', heq, hb, hbefore', hafter'⟩ := h'
  obtain ⟨c, rfl, hc⟩ | ⟨c, rfl, hc⟩ := List.append_eq_append_iff.1 heq
  · cases c with
    | nil => exact (List.cons.inj hc).1
    | cons x c =>
      obtain ⟨rfl, rfl⟩ := List.cons.inj hc
      have hlt := hbefore' a (List.mem_append_right _ List.mem_cons_self) ha
      exact absurd (hafter b (List.mem_append_right _ List.mem_cons_self) hb) (not_le.2 hlt)
  · cases c with
    | nil => exact (List.cons.inj hc).1.symm
    | cons x c =>
      obtain ⟨rfl, rfl⟩ := List.cons.inj hc
      have hlt := hbefore b (List.mem_append_right _ List.mem_cons_self) hb
      exact absurd (hafter' a (List.mem_append_right _ List.mem_cons_self) ha) (not_le.2 hlt)

/-- What is best does not depend on how elements of different ranks are mixed. -/
theorem congr (h : Best rank p l a) (hsame : SameRanks rank l l') : Best rank p l' a := by
  have hmax : ∀ b ∈ l', p b → rank b ≤ rank a := fun b hb => h.le (hsame.perm.mem_iff.2 hb)
  obtain ⟨before, after, rfl, ha, hbefore, -⟩ := h
  have hranks := hsame.ranks (rank a)
  rw [List.filter_append, List.filter_cons_of_pos (by simp)] at hranks
  obtain ⟨before', rest, rfl, hbefore', hrest⟩ := List.filter_eq_append_iff.1 hranks.symm
  obtain ⟨skipped, after', rfl, hskipped, -⟩ := List.filter_eq_cons_iff.1 hrest
  refine ⟨before' ++ skipped, after', by simp, ha, fun b hb hp => ?_, fun b hb hp => ?_⟩
  · have hb' : b ∈ before' ++ (skipped ++ a :: after') := by
      rw [← List.append_assoc]
      exact List.mem_append_left _ hb
    refine lt_of_le_of_ne (hmax b hb' hp) fun heq => ?_
    obtain hb | hb := List.mem_append.1 hb
    · have hb : b ∈ before := by
        have hmem : b ∈ before'.filter fun c => decide (rank c = rank a) :=
          List.mem_filter.2 ⟨hb, by simpa using heq⟩
        rw [hbefore'] at hmem
        exact List.mem_of_mem_filter hmem
      exact absurd heq (hbefore b hb hp).ne
    · exact hskipped b hb (by simpa using heq)
  · exact hmax b (by simp [hb]) hp

/-- In a list that is sorted, the first one that qualifies is the best. -/
theorem of_find? {p : α → Bool} (hl : l.Pairwise fun a b => rank b ≤ rank a)
    (h : l.find? p = some a) : Best rank (p · = true) l a := by
  obtain ⟨ha, before, after, rfl, hbefore⟩ := List.find?_eq_some_iff_append.1 h
  refine ⟨before, after, rfl, ha, fun b hb hp => ?_, fun b hb _ => ?_⟩
  · have hnot := hbefore b hb
    rw [hp] at hnot
    cases hnot
  · exact (List.pairwise_cons.1 (List.pairwise_append.1 hl).2.1).1 b hb

end Best

/-- Keeps the best one so far. -/
def keepBest (p : α → Bool) (best : Option α) (a : α) : Option α :=
  if p a then
    match best with
    | none => some a
    | some b => if rank b < rank a then some a else some b
  else best

theorem Best.concat {p : α → Prop} {l : List α} {a b : α} (h : Best rank p l a)
    (hb : p b → rank b ≤ rank a) : Best rank p (l ++ [b]) a := by
  obtain ⟨before, after, rfl, ha, hbefore, hafter⟩ := h
  refine ⟨before, after ++ [b], by simp, ha, hbefore, fun c hc hp => ?_⟩
  obtain hc | hc := List.mem_append.1 hc
  · exact hafter c hc hp
  · obtain rfl := List.mem_singleton.1 hc
    exact hb hp

/-- One pass finds the best, if there is any that qualifies. -/
theorem foldl_keepBest (p : α → Bool) (l : List α) :
    (l.foldl (keepBest rank p) none).elim (∀ a ∈ l, p a = false) (Best rank (p · = true) l) := by
  induction l using List.reverseRecOn with
  | nil => exact fun a ha => absurd ha List.not_mem_nil
  | append_singleton l a ih =>
    rw [List.foldl_concat]
    generalize l.foldl (keepBest rank p) none = best at ih
    unfold keepBest
    by_cases ha : p a = true
    · rw [if_pos ha]
      cases best with
      | none =>
        refine ⟨l, [], rfl, ha, fun b hb hp => ?_, fun b hb => absurd hb List.not_mem_nil⟩
        exact absurd hp (Bool.eq_false_iff.1 (ih b hb))
      | some b =>
        have hb : Best rank (p · = true) l b := ih
        dsimp only
        split
        · rename_i hlt
          exact ⟨l, [], rfl, ha, fun c hc hp => (hb.le hc hp).trans_lt hlt,
            fun c hc => absurd hc List.not_mem_nil⟩
        · exact hb.concat rank fun _ => not_lt.1 ‹_›
    · rw [if_neg ha]
      cases best with
      | none =>
        exact List.forall_mem_append.2 ⟨ih, List.forall_mem_singleton.2 (Bool.eq_false_iff.2 ha)⟩
      | some b =>
        have hb : Best rank (p · = true) l b := ih
        exact hb.concat rank fun hp => absurd hp ha

end Ranked
