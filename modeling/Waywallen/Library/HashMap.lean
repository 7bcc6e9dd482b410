import Mathlib.Data.List.AList

/-!
# Hash maps

A hash map is an association list with distinct keys. The iteration order of a hash map is
unspecified: `promote` moves one entry to the front of the order, and repeated promotions reach
every order, while no lookup changes.
-/

universe u v w

/-- A finite map from `K` to `V`; the order of the entries is the iteration order. -/
abbrev HashMap (K : Type u) (V : Type v) : Type (max u v) := AList fun _ : K => V

namespace HashMap

variable {K : Type u} {V : Type v} [DecidableEq K]

/-- Whether the key is present. -/
def containsKey (m : HashMap K V) (k : K) : Bool :=
  (m.lookup k).isSome

/-- Apply `f` to the value stored under `k`, if there is one, in place. -/
def modify (m : HashMap K V) (k : K) (f : V → V) : HashMap K V where
  entries := m.entries.map fun e => ⟨e.1, if e.1 = k then f e.2 else e.2⟩
  nodupKeys := by
    rw [List.NodupKeys, List.keys, List.map_map]
    exact m.nodupKeys

/-- Move the entry of `k` to the front of the iteration order. -/
def promote (m : HashMap K V) (k : K) : HashMap K V :=
  match m.lookup k with
  | none => m
  | some v => m.insert k v

/-- The values in iteration order. -/
def values (m : HashMap K V) : List V :=
  m.entries.map Sigma.snd

/-- Apply `f` to every value. -/
def mapValues {W : Type w} (m : HashMap K V) (f : V → W) : HashMap K W where
  entries := m.entries.map fun e => ⟨e.1, f e.2⟩
  nodupKeys := by
    rw [List.NodupKeys, List.keys, List.map_map]
    exact m.nodupKeys

/-- Both maps hold the same entries, in whatever order. -/
def sameEntries [DecidableEq V] (m n : HashMap K V) : Bool :=
  m.keys.length == n.keys.length && m.keys.all fun k => m.lookup k == n.lookup k

/-- Keep the entries whose keys satisfy `p`. -/
def retain (m : HashMap K V) (p : K → Bool) : HashMap K V where
  entries := m.entries.filter fun e => p e.1
  nodupKeys := m.nodupKeys.sublist List.filter_sublist

theorem lookup_insert_eq (m : HashMap K V) (k j : K) (v : V) :
    (m.insert k v).lookup j = if j = k then some v else m.lookup j := by
  by_cases h : j = k
  · subst h
    simp
  · simp [AList.lookup_insert_ne h, h]

theorem lookup_erase_eq (m : HashMap K V) (k j : K) :
    (m.erase k).lookup j = if j = k then none else m.lookup j := by
  by_cases h : j = k
  · subst h
    simp
  · simp [AList.lookup_erase_ne h, h]

theorem lookup_modify (m : HashMap K V) (k j : K) (f : V → V) :
    (m.modify k f).lookup j = if j = k then (m.lookup k).map f else m.lookup j := by
  have h (l : List (Sigma fun _ : K => V)) :
      (l.map fun e => (⟨e.1, if e.1 = k then f e.2 else e.2⟩ : Sigma fun _ : K => V)).dlookup j =
        if j = k then (l.dlookup k).map f else l.dlookup j := by
    induction l with
    | nil => simp
    | cons e l ih =>
      obtain ⟨i, v⟩ := e
      rw [List.map_cons]
      by_cases hji : i = j
      · subst hji
        by_cases hk : i = k
        · subst hk
          simp
        · simp [hk]
      · have hne : j ≠ i := fun h => hji h.symm
        rw [List.dlookup_cons_ne _ ⟨i, _⟩ hne, ih]
        by_cases hjk : j = k
        · subst hjk
          rw [List.dlookup_cons_ne _ ⟨i, _⟩ hne]
        · rw [if_neg hjk, if_neg hjk, List.dlookup_cons_ne _ ⟨i, _⟩ hne]
  exact h m.entries

/-- Storing what is there already changes nothing. -/
theorem modify_eq_self {m : HashMap K V} {k : K} {f : V → V}
    (h : ∀ v, m.lookup k = some v → f v = v) : m.modify k f = m := by
  refine AList.ext ((List.map_congr_left fun e he => ?_).trans (List.map_id _))
  obtain ⟨i, v⟩ := e
  by_cases hi : i = k
  · subst hi
    simp [h v (AList.mem_lookup_iff.2 he)]
  · simp [hi]

@[simp] theorem keys_modify (m : HashMap K V) (k : K) (f : V → V) :
    (m.modify k f).keys = m.keys :=
  List.map_map ..

@[simp] theorem lookup_promote (m : HashMap K V) (k j : K) :
    (m.promote k).lookup j = m.lookup j := by
  unfold promote
  cases hm : m.lookup k with
  | none => rfl
  | some v =>
    rw [lookup_insert_eq]
    split
    · rename_i h
      rw [h, hm]
    · rfl

@[simp] theorem lookup_empty (k : K) : (∅ : HashMap K V).lookup k = none :=
  AList.lookup_empty k

theorem mem_keys_iff (m : HashMap K V) (k : K) : k ∈ m.keys ↔ ∃ v, m.lookup k = some v := by
  rw [← Option.isSome_iff_exists, AList.lookup_isSome]
  rfl

theorem containsKey_iff (m : HashMap K V) (k : K) :
    m.containsKey k = true ↔ ∃ v, m.lookup k = some v :=
  Option.isSome_iff_exists

@[simp] theorem containsKey_empty (k : K) : containsKey (∅ : HashMap K V) k = false := by
  rw [containsKey, lookup_empty]
  rfl

theorem containsKey_insert (m : HashMap K V) (k j : K) (v : V) :
    containsKey (m.insert k v) j = (decide (j = k) || m.containsKey j) := by
  rw [containsKey, lookup_insert_eq]
  by_cases h : j = k <;> simp [h, containsKey]

theorem containsKey_erase (m : HashMap K V) (k j : K) :
    containsKey (m.erase k) j = (decide (j ≠ k) && m.containsKey j) := by
  rw [containsKey, lookup_erase_eq]
  by_cases h : j = k <;> simp [h, containsKey]

theorem mem_values_iff (m : HashMap K V) (v : V) : v ∈ m.values ↔ ∃ k, m.lookup k = some v := by
  constructor
  · intro h
    obtain ⟨⟨k, w⟩, hmem, rfl⟩ := List.mem_map.1 h
    exact ⟨k, AList.mem_lookup_iff.2 hmem⟩
  · rintro ⟨k, h⟩
    exact List.mem_map.2 ⟨⟨k, v⟩, AList.mem_lookup_iff.1 h, rfl⟩

theorem mem_values_insert {m : HashMap K V} {k : K} {v w : V} (h : w ∈ values (m.insert k v)) :
    w = v ∨ w ∈ m.values := by
  obtain ⟨j, hj⟩ := (mem_values_iff _ _).1 h
  rw [lookup_insert_eq] at hj
  split at hj
  · exact .inl (Option.some_inj.1 hj).symm
  · exact .inr ((mem_values_iff _ _).2 ⟨j, hj⟩)

theorem mem_values_erase {m : HashMap K V} {k : K} {w : V} (h : w ∈ values (m.erase k)) :
    w ∈ m.values := by
  obtain ⟨j, hj⟩ := (mem_values_iff _ _).1 h
  rw [lookup_erase_eq] at hj
  split at hj
  · cases hj
  · exact (mem_values_iff _ _).2 ⟨j, hj⟩

theorem mem_values_of_lookup {m : HashMap K V} {k : K} {w : V}
    (h : w ∈ (m.lookup k).toList) : w ∈ m.values :=
  (mem_values_iff _ _).2 ⟨k, by simpa using h⟩

/-- After a fold of insertions, a key holds the last value inserted under it. -/
theorem lookup_foldl_insert (es : List (K × V)) (m : HashMap K V) (k : K) :
    (es.foldl (fun m e => m.insert e.1 e.2) m).lookup k =
      ((es.filter (·.1 = k)).getLast?.map Prod.snd).or (m.lookup k) := by
  induction es generalizing m with
  | nil => rfl
  | cons e es ih =>
    rw [List.foldl_cons, ih, lookup_insert_eq, List.filter_cons]
    by_cases hk : k = e.1
    · subst hk
      rw [if_pos rfl, if_pos (decide_eq_true rfl)]
      cases hes : es.filter (·.1 = e.1) with
      | nil => rfl
      | cons b bs => rw [List.getLast?_cons_cons, List.getLast?_eq_some_getLast (by simp)]; rfl
    · have hne : e.1 ≠ k := fun h => hk h.symm
      rw [if_neg hk, if_neg (by simpa using hne)]

/-- A fold of erasures removes exactly the listed keys. -/
theorem lookup_foldl_erase (ks : List K) (m : HashMap K V) (j : K) :
    (ks.foldl (fun m k => m.erase k) m).lookup j = if j ∈ ks then none else m.lookup j := by
  induction ks generalizing m with
  | nil => simp
  | cons k ks ih =>
    rw [List.foldl_cons, ih, lookup_erase_eq]
    by_cases hks : j ∈ ks
    · simp [hks]
    · by_cases hk : j = k <;> simp [hks, hk]

theorem lookup_retain (m : HashMap K V) (p : K → Bool) (k : K) :
    (m.retain p).lookup k = if p k then m.lookup k else none := by
  have h (l : List (Sigma fun _ : K => V)) :
      (l.filter fun e => p e.1).dlookup k = if p k then l.dlookup k else none := by
    induction l with
    | nil => simp
    | cons e l ih =>
      obtain ⟨i, v⟩ := e
      rw [List.filter_cons]
      by_cases hk : k = i
      · subst hk
        by_cases hp : p k = true
        · rw [if_pos hp, List.dlookup_cons_eq, List.dlookup_cons_eq, if_pos hp]
        · rw [if_neg hp, ih, if_neg hp, if_neg hp]
      · rw [List.dlookup_cons_ne l ⟨i, v⟩ hk, ← ih]
        by_cases hp : p i = true
        · rw [if_pos hp, List.dlookup_cons_ne _ (⟨i, v⟩ : Sigma fun _ : K => V) hk]
        · rw [if_neg hp]
  exact h m.entries

/-- Inserting all entries of a map anew. -/
theorem lookup_foldl_entries (m n : HashMap K V) (k : K) :
    (m.entries.foldl (fun n e => n.insert e.1 e.2) n).lookup k = (m.lookup k).or (n.lookup k) := by
  have h (l : List (Sigma fun _ : K => V)) (hl : l.NodupKeys) (n : HashMap K V) :
      (l.foldl (fun n e => n.insert e.1 e.2) n).lookup k = (l.dlookup k).or (n.lookup k) := by
    induction l generalizing n with
    | nil => rfl
    | cons e l ih =>
      obtain ⟨i, v⟩ := e
      obtain ⟨hi, hl⟩ := List.nodupKeys_cons.1 hl
      rw [List.foldl_cons, ih hl, lookup_insert_eq]
      by_cases hk : k = i
      · subst hk
        rw [List.dlookup_eq_none.2 hi, List.dlookup_cons_eq, if_pos rfl]
        rfl
      · rw [List.dlookup_cons_ne l ⟨i, v⟩ hk, if_neg hk]
  exact h m.entries m.nodupKeys n

theorem lookup_mapValues {W : Type w} (m : HashMap K V) (f : V → W) (k : K) :
    (m.mapValues f).lookup k = (m.lookup k).map f := by
  have h (l : List (Sigma fun _ : K => V)) :
      (l.map fun e => (⟨e.1, f e.2⟩ : Sigma fun _ : K => W)).dlookup k =
        (l.dlookup k).map f := by
    induction l with
    | nil => simp
    | cons e l ih =>
      obtain ⟨i, v⟩ := e
      rw [List.map_cons]
      by_cases hk : k = i
      · subst hk
        simp
      · rw [List.dlookup_cons_ne _ ⟨i, _⟩ hk, List.dlookup_cons_ne _ ⟨i, _⟩ hk, ih]
  exact h m.entries

/-! ## Fallible maps -/

section

variable {W : Type w} {ε : Type*}

/-- Apply `f` to the entries in turn, until it fails. -/
def mapEntriesM (f : K → V → Except ε W) :
    List (Sigma fun _ : K => V) → Except ε (List (Sigma fun _ : K => W))
  | [] => .ok []
  | ⟨k, v⟩ :: es =>
    match f k v with
    | .error e => .error e
    | .ok w => (mapEntriesM f es).map (⟨k, w⟩ :: ·)

omit [DecidableEq K] in
theorem mapEntriesM_cons_ok {f : K → V → Except ε W} {k : K} {v : V}
    {es : List (Sigma fun _ : K => V)} {ws : List (Sigma fun _ : K => W)}
    (h : mapEntriesM f (⟨k, v⟩ :: es) = .ok ws) :
    ∃ w ws', f k v = .ok w ∧ mapEntriesM f es = .ok ws' ∧ ws = ⟨k, w⟩ :: ws' := by
  rw [mapEntriesM] at h
  rcases hf : f k v with _ | w
  · simp [hf] at h
  · rcases hes : mapEntriesM f es with _ | ws'
    · simp [hf, hes, Except.map] at h
    · simp only [hf, hes, Except.map, Except.ok.injEq] at h
      exact ⟨w, ws', rfl, rfl, h.symm⟩

omit [DecidableEq K] in
theorem keys_mapEntriesM {f : K → V → Except ε W} {es : List (Sigma fun _ : K => V)}
    {ws : List (Sigma fun _ : K => W)} (h : mapEntriesM f es = .ok ws) : ws.keys = es.keys := by
  induction es generalizing ws with
  | nil =>
    cases h
    rfl
  | cons e es ih =>
    obtain ⟨w, ws', -, hes, rfl⟩ := mapEntriesM_cons_ok h
    rw [List.keys_cons, List.keys_cons, ih hes]

/-- Apply `f` to every entry; the first failure is the result. -/
def mapM (m : HashMap K V) (f : K → V → Except ε W) : Except ε (HashMap K W) :=
  match h : mapEntriesM f m.entries with
  | .error e => .error e
  | .ok ws => .ok ⟨ws, by rw [List.NodupKeys, keys_mapEntriesM h]; exact m.nodupKeys⟩

theorem dlookup_mapEntriesM {f : K → V → Except ε W} {es : List (Sigma fun _ : K => V)}
    {ws : List (Sigma fun _ : K => W)} (h : mapEntriesM f es = .ok ws) (k : K) :
    (es.dlookup k = none ∧ ws.dlookup k = none) ∨
      ∃ v w, es.dlookup k = some v ∧ f k v = .ok w ∧ ws.dlookup k = some w := by
  induction es generalizing ws with
  | nil =>
    cases h
    exact .inl ⟨rfl, rfl⟩
  | cons e es ih =>
    obtain ⟨w, ws', hf, hes, rfl⟩ := mapEntriesM_cons_ok h
    by_cases hk : k = e.1
    · subst hk
      exact .inr ⟨e.2, w, List.dlookup_cons_eq es e.1 e.2, hf, List.dlookup_cons_eq ws' e.1 w⟩
    · have hleft : (e :: es).dlookup k = es.dlookup k := List.dlookup_cons_ne es e hk
      have hright : (⟨e.1, w⟩ :: ws').dlookup k = ws'.dlookup k :=
        List.dlookup_cons_ne ws' ⟨e.1, w⟩ hk
      rw [hleft, hright]
      exact ih hes

/-- What is stored under a key after every entry has been mapped. -/
theorem lookup_mapM {m : HashMap K V} {f : K → V → Except ε W} {n : HashMap K W}
    (h : m.mapM f = .ok n) (k : K) :
    (m.lookup k = none ∧ n.lookup k = none) ∨
      ∃ v w, m.lookup k = some v ∧ f k v = .ok w ∧ n.lookup k = some w := by
  unfold mapM at h
  split at h
  · cases h
  · rename_i ws hws
    cases h
    exact dlookup_mapEntriesM hws k

end

end HashMap
