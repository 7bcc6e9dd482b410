import Mathlib.Data.List.MinMax
import Waywallen.Library.HashMap

/-!
# The best of each group

Two ways to find the best element of every group of a list with one key: a hash map that keeps the
first of the greatest elements, and a hash map of the groups, each sorted afterwards.
-/

universe u v w

namespace Best

variable {K : Type u} {V : Type v} {W : Type w} [DecidableEq K]

section

variable {l : List V}

/-- In a list that is in the order `R`, the first of the greatest elements is before the others. -/
theorem mem_argmax_of_pairwise {f : V → ℕ} {R : V → V → Prop} (hR : l.Pairwise R)
    (hasymm : ∀ a b, R a b → ¬ R b a) {m : V} :
    m ∈ l.argmax f ↔ m ∈ l ∧ ∀ a ∈ l, a ≠ m → f a < f m ∨ f a = f m ∧ R m a := by
  classical
  have hbest {m : V} (hm : m ∈ l.argmax f) :
      m ∈ l ∧ ∀ a ∈ l, a ≠ m → f a < f m ∨ f a = f m ∧ R m a := by
    obtain ⟨hmem, hle, hfirst⟩ := List.mem_argmax_iff.1 hm
    refine ⟨hmem, fun a ha hne => ?_⟩
    rcases Nat.lt_or_eq_of_le (hle a ha) with hlt | heq
    · exact .inl hlt
    · have hidx : l.idxOf m < l.idxOf a :=
        Nat.lt_of_le_of_ne (hfirst a ha heq.ge) fun h => hne ((List.idxOf_inj ha).1 h.symm)
      refine .inr ⟨heq, ?_⟩
      have hrel := List.pairwise_iff_getElem.1 hR _ _ (List.idxOf_lt_length_of_mem hmem)
        (List.idxOf_lt_length_of_mem ha) hidx
      rwa [List.getElem_idxOf, List.getElem_idxOf] at hrel
  refine ⟨hbest, fun ⟨hmem, hm⟩ => ?_⟩
  have hsome : l.argmax f ≠ none := mt List.argmax_eq_none.1 (List.ne_nil_of_mem hmem)
  obtain ⟨m', hm'⟩ := Option.ne_none_iff_exists'.1 hsome
  obtain ⟨hmem', hbest'⟩ := hbest hm'
  by_cases hne : m' = m
  · exact hne ▸ hm'
  · have h := hm m' hmem' hne
    have h' := hbest' m hmem (Ne.symm hne)
    rcases h with h | ⟨heq, h⟩ <;> rcases h' with h' | ⟨heq', h'⟩
    · omega
    · omega
    · omega
    · exact absurd h' (hasymm _ _ h)

theorem argmax_map {l : List W} (g : W → V) (f : V → ℕ) :
    (l.map g).argmax f = (l.argmax fun w => f (g w)).map g := by
  induction l using List.reverseRecOn with
  | nil => rfl
  | append_singleton l w ih =>
    rw [List.map_append, List.map_singleton, List.argmax_concat, List.argmax_concat, ih]
    cases l.argmax fun w => f (g w) with
    | none => rfl
    | some m =>
      dsimp only [Option.map_some]
      split <;> rfl

/-- All but the best element of a list, as a sort finds it. -/
theorem mem_tail_mergeSort {le : V → V → Bool} (htrans : ∀ a b c, le a b → le b c → le a c)
    (htotal : ∀ a b, le a b || le b a) (hanti : ∀ a ∈ l, ∀ b ∈ l, le a b → le b a → a = b)
    (hl : l.Nodup) {a : V} :
    a ∈ (l.mergeSort le).tail ↔ a ∈ l ∧ ∃ b ∈ l, b ≠ a ∧ le b a := by
  have hperm := List.mergeSort_perm l le
  have hsorted := List.pairwise_mergeSort htrans htotal l
  have hnodup := hperm.nodup_iff.2 hl
  cases hs : l.mergeSort le with
  | nil =>
    rw [hs] at hperm
    simp [hperm.symm.eq_nil]
  | cons b bs =>
    rw [hs] at hperm hsorted hnodup
    have hb : b ∈ l := hperm.mem_iff.1 List.mem_cons_self
    obtain ⟨hfirst, -⟩ := List.pairwise_cons.1 hsorted
    constructor
    · intro ha
      refine ⟨hperm.mem_iff.1 (List.mem_cons_of_mem _ ha), b, hb, ?_, hfirst a ha⟩
      rintro rfl
      exact (List.nodup_cons.1 hnodup).1 ha
    · rintro ⟨ha, c, hc, hne, hle⟩
      obtain rfl | ha' := List.mem_cons.1 (hperm.mem_iff.2 ha)
      · obtain rfl | hc' := List.mem_cons.1 (hperm.mem_iff.2 hc)
        · exact absurd rfl hne
        · exact absurd (hanti c hc a ha hle (hfirst c hc')) hne
      · exact ha'

end

/-! ## Groups in a hash map -/

/-- Keep an element if there is none with its key that is as great. -/
def keepBest (key : V → K) (weight : V → ℕ) (m : HashMap K V) (v : V) : HashMap K V :=
  match m.lookup (key v) with
  | none => m.insert (key v) v
  | some w => if weight w < weight v then m.insert (key v) v else m

theorem lookup_foldl_keepBest (key : V → K) (weight : V → ℕ) (l : List V) (k : K) :
    (l.foldl (keepBest key weight) ∅).lookup k =
      (l.filter fun v => key v = k).argmax weight := by
  induction l using List.reverseRecOn with
  | nil => simp
  | append_singleton l v ih =>
    rw [List.foldl_append, List.foldl_cons, List.foldl_nil, List.filter_append]
    by_cases h : key v = k
    · subst h
      rw [List.filter_cons_of_pos (by simp), List.filter_nil, List.argmax_concat, ← ih, keepBest]
      cases hl : (l.foldl (keepBest key weight) ∅).lookup (key v) with
      | none => simp
      | some w =>
        dsimp only
        split
        · simp
        · exact hl
    · rw [List.filter_cons_of_neg (by simpa using h), List.filter_nil, List.append_nil, ← ih,
        keepBest]
      have hne : k ≠ key v := Ne.symm h
      split
      · rw [HashMap.lookup_insert_eq, if_neg hne]
      · split
        · rw [HashMap.lookup_insert_eq, if_neg hne]
        · rfl

/-- Two keys hold two elements. -/
theorem nodup_values_keepBest (key : V → K) (weight : V → ℕ) (l : List V) :
    (l.foldl (keepBest key weight) ∅).values.Nodup := by
  set m := l.foldl (keepBest key weight) ∅ with hm
  have hkey (e : Sigma fun _ : K => V) (he : e ∈ m.entries) : key e.2 = e.1 := by
    have hlookup : m.lookup e.1 = some e.2 := AList.mem_lookup_iff.2 he
    rw [hm, lookup_foldl_keepBest] at hlookup
    exact of_decide_eq_true (List.mem_filter.1 (List.argmax_mem hlookup)).2
  refine List.Nodup.map_on (fun e he e' he' h => ?_) (List.NodupKeys.nodup m.nodupKeys)
  have hfst : e.1 = e'.1 := (hkey e he).symm.trans ((congrArg key h).trans (hkey e' he'))
  exact Sigma.ext hfst (heq_of_eq h)

/-- Add an element to the group of its key. -/
def push (key : V → K) (f : V → W) (m : HashMap K (List W)) (v : V) : HashMap K (List W) :=
  m.insert (key v) ((m.lookup (key v)).getD [] ++ [f v])

theorem lookup_foldl_push (key : V → K) (f : V → W) (l : List V) (m : HashMap K (List W)) (k : K) :
    ((l.foldl (push key f) m).lookup k).getD [] =
      (m.lookup k).getD [] ++ (l.filter fun v => key v = k).map f := by
  induction l generalizing m with
  | nil => simp
  | cons v l ih =>
    rw [List.foldl_cons, ih, push, HashMap.lookup_insert_eq, List.filter_cons]
    by_cases h : k = key v
    · subst h
      simp
    · rw [if_neg h, if_neg (by simpa using Ne.symm h)]

/-- The elements of a group, in whatever order the groups are listed. -/
theorem filter_flatMap_entries {m : HashMap K (List W)}
    {order : List (Sigma fun _ : K => List W)} (h : order.Perm m.entries) (k : K) :
    (order.flatMap fun g => g.2.map (g.1, ·)).filter (fun w => w.1 = k) =
      ((m.lookup k).getD []).map (k, ·) := by
  have haux (l : List (Sigma fun _ : K => List W)) (hl : l.NodupKeys) :
      (l.flatMap fun g => g.2.map (g.1, ·)).filter (fun w => w.1 = k) =
        ((l.dlookup k).getD []).map (k, ·) := by
    induction l with
    | nil => rfl
    | cons g l ih =>
      obtain ⟨i, ws⟩ := g
      obtain ⟨hi, hl⟩ := List.nodupKeys_cons.1 hl
      rw [List.flatMap_cons, List.filter_append, ih hl]
      by_cases hk : k = i
      · subst hk
        rw [List.dlookup_cons_eq, List.dlookup_eq_none.2 hi, Option.getD_none, List.map_nil,
          List.append_nil, List.filter_eq_self.2 (by simp), Option.getD_some]
      · rw [List.dlookup_cons_ne l ⟨i, ws⟩ hk, List.filter_eq_nil_iff.2, List.nil_append]
        intro w hw
        obtain ⟨v, -, rfl⟩ := List.mem_map.1 hw
        simpa using Ne.symm hk
  have hnodup : order.NodupKeys := (List.perm_nodupKeys h).2 m.nodupKeys
  rw [haux order hnodup, List.perm_dlookup k hnodup h]
  rfl

end Best
