import Waywallen.Dma.Choice

/-!
# Format capabilities on the wire

The bridge packs the formats it advertises into four parallel arrays, one fourcc and one count for
each run of entries with the same fourcc. The daemon walks the arrays with a cursor and merges the
runs of one fourcc.
-/

namespace Waywallen

/-- One advertised tuple. -/
structure FormatEntry where
  fourcc : UInt32
  modifier : UInt64
  planeCount : UInt32
deriving DecidableEq

def FormatEntry.modCap (e : FormatEntry) : ModCap := ⟨e.modifier, e.planeCount⟩

/-- The four arrays of a `format_caps` event. -/
structure FormatArrays where
  fourccs : List UInt32
  modCounts : List UInt32
  modifiers : List UInt64
  planeCounts : List UInt32
deriving DecidableEq

/-- Count an entry for the run that is last, or begin another run; the last run comes first. -/
def addToRuns : List (UInt32 × UInt32) → FormatEntry → List (UInt32 × UInt32)
  | [], e => [(e.fourcc, 1)]
  | run :: runs, e =>
      if run.1 ≠ e.fourcc then (e.fourcc, 1) :: run :: runs
      else (run.1, run.2 + 1) :: runs

/-- Pack the advertised entries, as many of them as a `uint32_t` counts. -/
def negotiationFillFormatCaps (advertised : List FormatEntry) : FormatArrays :=
  let entries := advertised.take (advertised.length % 2 ^ 32)
  let runs := (entries.foldl addToRuns []).reverse
  { fourccs := runs.map Prod.fst
    modCounts := runs.map Prod.snd
    modifiers := entries.map FormatEntry.modifier
    planeCounts := entries.map FormatEntry.planeCount }

/-! ## The cursor -/

/-- The next `n` capabilities from the cursor on; `none` if an index is out of range. -/
def capsAt (modifiers : List UInt64) (planeCounts : List UInt32) :
    ℕ → ℕ → Option (List ModCap)
  | _, 0 => some []
  | cursor, n + 1 => do
      let modifier ← modifiers[cursor]?
      let planeCount ← planeCounts[cursor]?
      let caps ← capsAt modifiers planeCounts (cursor + 1) n
      return ⟨modifier, planeCount⟩ :: caps

/-- The walk over the fourccs, with every index checked. -/
def walkEntries (modifiers : List UInt64) (planeCounts : List UInt32) :
    List UInt32 → List UInt32 → ℕ → List (UInt32 × List ModCap) →
      Option (List (UInt32 × List ModCap))
  | fourcc :: fourccs, n :: modCounts, cursor, acc => do
      let caps ← capsAt modifiers planeCounts cursor n.toNat
      walkEntries modifiers planeCounts fourccs modCounts (cursor + n.toNat)
        (FormatCaps.extendEntry fourcc caps acc)
  | _, _, _, acc => some acc

theorem capsAt_eq {modifiers : List UInt64} {planeCounts : List UInt32} {cursor n : ℕ}
    (hmods : cursor + n ≤ modifiers.length) (hplanes : cursor + n ≤ planeCounts.length) :
    capsAt modifiers planeCounts cursor n = some (((modifiers.drop cursor).take n).zipWith
      ModCap.mk ((planeCounts.drop cursor).take n)) := by
  induction n generalizing cursor with
  | zero => simp [capsAt]
  | succ n ih =>
    have hm : cursor < modifiers.length := by omega
    have hp : cursor < planeCounts.length := by omega
    rw [capsAt, List.getElem?_eq_getElem hm, List.getElem?_eq_getElem hp,
      ih (by omega) (by omega), List.drop_eq_getElem_cons hm, List.drop_eq_getElem_cons hp]
    rfl

/-- When the counts add up to the lengths, the walk stays in range and takes what the decoder
takes. -/
theorem walkEntries_eq {modifiers : List UInt64} {planeCounts : List UInt32}
    (fourccs modCounts : List UInt32) (cursor : ℕ) (acc : List (UInt32 × List ModCap))
    (hmods : cursor + (modCounts.map UInt32.toNat).sum ≤ modifiers.length)
    (hplanes : cursor + (modCounts.map UInt32.toNat).sum ≤ planeCounts.length) :
    walkEntries modifiers planeCounts fourccs modCounts cursor acc =
      some (unflattenEntries fourccs modCounts (modifiers.drop cursor) (planeCounts.drop cursor)
        acc) := by
  induction fourccs generalizing modCounts cursor acc with
  | nil => rfl
  | cons fourcc fourccs ih =>
    cases modCounts with
    | nil => rfl
    | cons n modCounts =>
      rw [List.map_cons, List.sum_cons] at hmods hplanes
      rw [walkEntries, capsAt_eq (by omega) (by omega), unflattenEntries, List.drop_drop,
        List.drop_drop]
      exact ih _ _ _ (by omega) (by omega)

/-! ## What the decoder makes of the arrays -/

/-- The fourcc of each entry: each one as often as its count says. -/
def expandRuns (fourccs modCounts : List UInt32) : List UInt32 :=
  (fourccs.zip modCounts).flatMap fun run => List.replicate run.2.toNat run.1

/-- The entries that four arrays stand for. -/
def FormatArrays.entries (a : FormatArrays) : List FormatEntry :=
  (expandRuns a.fourccs a.modCounts).zipWith (fun fourcc m => ⟨fourcc, m.1, m.2⟩)
    (a.modifiers.zip a.planeCounts)

/-- The capabilities of one fourcc, in order. -/
def capsOf (entries : List FormatEntry) (fourcc : UInt32) : List ModCap :=
  (entries.filter fun e => e.fourcc == fourcc).map FormatEntry.modCap

namespace FormatCaps

theorem mem_keys_extendEntry {fourcc k : UInt32} {caps : List ModCap}
    {es : List (UInt32 × List ModCap)} (h : k ∈ (extendEntry fourcc caps es).map Prod.fst) :
    k = fourcc ∨ k ∈ es.map Prod.fst := by
  induction es with
  | nil => simpa [extendEntry] using h
  | cons e es ih =>
    rw [extendEntry] at h
    split at h
    · exact .inr h
    · split at h
      · simpa using h
      · rcases List.mem_cons.1 h with rfl | h
        · simp
        · rcases ih h with rfl | h
          · exact .inl rfl
          · exact .inr (List.mem_cons_of_mem _ h)

theorem sorted_extendEntry {es : List (UInt32 × List ModCap)} (h : Sorted ⟨es⟩) (fourcc : UInt32)
    (caps : List ModCap) : Sorted ⟨extendEntry fourcc caps es⟩ := by
  induction es with
  | nil => exact List.pairwise_singleton _ _
  | cons e es ih =>
    obtain ⟨hhead, htail⟩ := List.pairwise_cons.1 h
    rw [extendEntry]
    split
    · exact List.pairwise_cons.2 ⟨hhead, htail⟩
    · rename_i hne
      split
      · rename_i hlt
        refine List.pairwise_cons.2 ⟨fun k hk => ?_, h⟩
        rcases List.mem_cons.1 hk with rfl | hk
        · exact hlt
        · exact UInt32.lt_trans hlt (hhead k hk)
      · rename_i hge
        refine List.pairwise_cons.2 ⟨fun k hk => ?_, ih htail⟩
        rcases mem_keys_extendEntry (List.mem_map_of_mem hk) with heq | hk
        · rw [heq]
          have hle : e.1 ≤ fourcc := UInt32.not_lt.1 hge
          exact UInt32.lt_of_le_of_ne hle (by simpa using hne)
        · obtain ⟨k', hk', heq⟩ := List.mem_map.1 hk
          exact heq ▸ hhead k' hk'

theorem get_cons (e : UInt32 × List ModCap) (es : List (UInt32 × List ModCap)) (k : UInt32) :
    get ⟨e :: es⟩ k = if e.1 = k then some e.2 else get ⟨es⟩ k := by
  rw [get, List.find?_cons]
  by_cases h : e.1 = k
  · simp [h]
  · simp [h, beq_eq_false_iff_ne.2 h, get]

theorem get_eq_none {es : List (UInt32 × List ModCap)} {k : UInt32}
    (h : ∀ e ∈ es, k < e.1) : get ⟨es⟩ k = none := by
  rw [get, Option.map_eq_none_iff, List.find?_eq_none]
  intro e he heq
  exact UInt32.ne_of_lt (h e he) (by simpa using (beq_iff_eq.1 heq).symm)

theorem get_extendEntry {es : List (UInt32 × List ModCap)} (h : Sorted ⟨es⟩) (fourcc k : UInt32)
    (caps : List ModCap) : get ⟨extendEntry fourcc caps es⟩ k =
      if k = fourcc then some ((get ⟨es⟩ k).getD [] ++ caps) else get ⟨es⟩ k := by
  induction es with
  | nil =>
    rw [extendEntry, get_cons]
    by_cases hk : fourcc = k
    · simp [hk, get]
    · simp [hk, Ne.symm hk, get]
  | cons e es ih =>
    obtain ⟨hhead, htail⟩ := List.pairwise_cons.1 h
    rw [extendEntry]
    split
    · rename_i heq
      obtain rfl := beq_iff_eq.1 heq
      rw [get_cons, get_cons]
      by_cases hk : e.1 = k
      · simp [hk]
      · simp [hk, Ne.symm hk]
    · rename_i hne
      have hne : e.1 ≠ fourcc := by simpa using hne
      split
      · rename_i hlt
        have hnone : get ⟨e :: es⟩ fourcc = none := by
          refine get_eq_none fun k hk => ?_
          rcases List.mem_cons.1 hk with rfl | hk
          · exact hlt
          · exact UInt32.lt_trans hlt (hhead k hk)
        rw [get_cons]
        by_cases hk : fourcc = k
        · subst hk
          simp [hnone]
        · simp [hk, Ne.symm hk]
      · rw [get_cons, get_cons, ih htail]
        by_cases hk : e.1 = k
        · subst hk
          simp [hne]
        · simp [hk]

end FormatCaps

theorem capsOf_append (entries entries' : List FormatEntry) (k : UInt32) :
    capsOf (entries ++ entries') k = capsOf entries k ++ capsOf entries' k := by
  simp [capsOf]

/-- The capabilities of one run. -/
theorem capsOf_run (fourcc k : UInt32) (l : List (UInt64 × UInt32)) :
    capsOf ((List.replicate l.length fourcc).zipWith (fun fourcc m => ⟨fourcc, m.1, m.2⟩) l) k =
      if fourcc = k then l.map fun m => ⟨m.1, m.2⟩ else [] := by
  induction l with
  | nil => simp [capsOf]
  | cons m l ih =>
    rw [List.length_cons, List.replicate_succ, List.zipWith_cons_cons, capsOf, List.filter_cons]
    by_cases hk : fourcc = k
    · rw [if_pos hk] at ih
      simp only [hk, beq_self_eq_true, if_true, List.map_cons]
      rw [← ih, hk]
      rfl
    · rw [if_neg hk] at ih
      simp only [hk, beq_eq_false_iff_ne.2 hk, if_false, Bool.false_eq_true]
      exact ih

theorem fourcc_mem_of_mem_zipWith {xs : List UInt32} {ms : List (UInt64 × UInt32)}
    {e : FormatEntry} (h : e ∈ xs.zipWith (fun fourcc m => ⟨fourcc, m.1, m.2⟩) ms) :
    e.fourcc ∈ xs := by
  induction xs generalizing ms with
  | nil => simp at h
  | cons x xs ih =>
    cases ms with
    | nil => simp at h
    | cons m ms =>
      rcases List.mem_cons.1 h with rfl | h
      · exact List.mem_cons_self
      · exact List.mem_cons_of_mem _ (ih h)

theorem mem_of_mem_expandRuns {fourccs modCounts : List UInt32} {k : UInt32}
    (h : k ∈ expandRuns fourccs modCounts) : k ∈ fourccs := by
  obtain ⟨run, hrun, hk⟩ := List.mem_flatMap.1 h
  obtain rfl := List.eq_of_mem_replicate hk
  exact (List.of_mem_zip hrun).1

/-- A fourcc that is not listed has no entry. -/
theorem capsOf_entries_eq_nil {a : FormatArrays} {k : UInt32} (h : k ∉ a.fourccs) :
    capsOf a.entries k = [] := by
  rw [capsOf, List.map_eq_nil_iff, List.filter_eq_nil_iff]
  intro e he heq
  obtain rfl := beq_iff_eq.1 heq
  exact h (mem_of_mem_expandRuns (fourcc_mem_of_mem_zipWith he))

/-- The arrays of one more run: its entries come first. -/
theorem FormatArrays.entries_cons {fourcc n : UInt32} {fourccs modCounts : List UInt32}
    {modifiers : List UInt64} {planeCounts : List UInt32}
    (hmods : n.toNat ≤ modifiers.length) (hplanes : n.toNat ≤ planeCounts.length) :
    FormatArrays.entries ⟨fourcc :: fourccs, n :: modCounts, modifiers, planeCounts⟩ =
      (List.replicate ((modifiers.zip planeCounts).take n.toNat).length fourcc).zipWith
        (fun fourcc m => ⟨fourcc, m.1, m.2⟩) ((modifiers.zip planeCounts).take n.toNat) ++
      FormatArrays.entries ⟨fourccs, modCounts, modifiers.drop n.toNat,
        planeCounts.drop n.toNat⟩ := by
  have hlength : ((modifiers.zip planeCounts).take n.toNat).length = n.toNat := by simp; omega
  simp only [FormatArrays.entries, expandRuns, List.zip_cons_cons, List.flatMap_cons]
  conv_lhs => rw [← List.take_append_drop n.toNat (modifiers.zip planeCounts)]
  rw [List.zipWith_append (by rw [List.length_replicate, hlength]), hlength]
  congr 2
  simp [List.zip, List.drop_zipWith]

/-- The decoder's loop keeps the fourccs in order. -/
theorem sorted_unflattenEntries {fourccs modCounts : List UInt32} {modifiers : List UInt64}
    {planeCounts : List UInt32} {acc : List (UInt32 × List ModCap)}
    (h : FormatCaps.Sorted ⟨acc⟩) :
    FormatCaps.Sorted ⟨unflattenEntries fourccs modCounts modifiers planeCounts acc⟩ := by
  induction fourccs generalizing modCounts modifiers planeCounts acc with
  | nil => exact h
  | cons fourcc fourccs ih =>
    cases modCounts with
    | nil => exact h
    | cons n modCounts => exact ih (FormatCaps.sorted_extendEntry h fourcc _)

/-- The decoder's loop appends to each fourcc the capabilities of its runs. -/
theorem get_unflattenEntries {fourccs modCounts : List UInt32} {modifiers : List UInt64}
    {planeCounts : List UInt32} {acc : List (UInt32 × List ModCap)}
    (hacc : FormatCaps.Sorted ⟨acc⟩) (hlength : fourccs.length = modCounts.length)
    (hmods : modifiers.length = (modCounts.map UInt32.toNat).sum)
    (hplanes : planeCounts.length = (modCounts.map UInt32.toNat).sum) (k : UInt32) :
    FormatCaps.get ⟨unflattenEntries fourccs modCounts modifiers planeCounts acc⟩ k =
      if k ∈ fourccs then
        some ((FormatCaps.get ⟨acc⟩ k).getD [] ++
          capsOf (FormatArrays.entries ⟨fourccs, modCounts, modifiers, planeCounts⟩) k)
      else FormatCaps.get ⟨acc⟩ k := by
  induction fourccs generalizing modCounts modifiers planeCounts acc with
  | nil => simp [unflattenEntries]
  | cons fourcc fourccs ih =>
    cases modCounts with
    | nil => cases hlength
    | cons n modCounts =>
      rw [List.map_cons, List.sum_cons] at hmods hplanes
      have hrun := capsOf_run fourcc k ((modifiers.zip planeCounts).take n.toNat)
      have hcaps : ((modifiers.zip planeCounts).take n.toNat).map (fun m => ModCap.mk m.1 m.2) =
          (modifiers.take n.toNat).zipWith ModCap.mk (planeCounts.take n.toNat) := by
        simp [List.zip, List.take_zipWith, List.map_zipWith]
      rw [unflattenEntries, ih (FormatCaps.sorted_extendEntry hacc fourcc _)
        (Nat.succ.inj hlength) (by rw [List.length_drop]; omega)
        (by rw [List.length_drop]; omega), FormatCaps.get_extendEntry hacc,
        FormatArrays.entries_cons (by omega) (by omega), capsOf_append, hrun, hcaps]
      by_cases hk : k = fourcc
      · subst hk
        by_cases hmem : k ∈ fourccs
        · simp [hmem]
        · have hnil := capsOf_entries_eq_nil (a := ⟨fourccs, modCounts,
            modifiers.drop n.toNat, planeCounts.drop n.toNat⟩) hmem
          simp [hmem, hnil]
      · simp [hk, Ne.symm hk]

/-! ## What the bridge packs -/

theorem length_expandRuns {fourccs modCounts : List UInt32}
    (h : fourccs.length = modCounts.length) :
    (expandRuns fourccs modCounts).length = (modCounts.map UInt32.toNat).sum := by
  induction fourccs generalizing modCounts with
  | nil =>
    cases modCounts with
    | nil => rfl
    | cons n modCounts => cases h
  | cons fourcc fourccs ih =>
    cases modCounts with
    | nil => cases h
    | cons n modCounts =>
      have ih := ih (Nat.succ.inj h)
      simp only [expandRuns] at ih
      simp [expandRuns, ih]

/-- The fourccs of the runs, in the order of the entries. -/
def runsFourccs (runs : List (UInt32 × UInt32)) : List UInt32 :=
  runs.reverse.flatMap fun run => List.replicate run.2.toNat run.1

/-- The runs stand for the fourccs of the entries counted so far. -/
theorem runsFourccs_foldl {entries : List FormatEntry} (h : entries.length < 2 ^ 32) :
    runsFourccs (entries.foldl addToRuns []) = entries.map FormatEntry.fourcc := by
  induction entries using List.reverseRecOn with
  | nil => rfl
  | append_singleton entries e ih =>
    rw [List.length_append, List.length_singleton] at h
    have ih := ih (by omega)
    rw [List.foldl_append, List.foldl_cons, List.foldl_nil, List.map_append, ← ih]
    cases hruns : entries.foldl addToRuns [] with
    | nil => rfl
    | cons run runs =>
      rw [hruns] at ih
      rw [addToRuns]
      split
      · simp [runsFourccs]
      · rename_i heq
        rw [not_not] at heq
        have hle : run.2.toNat ≤ entries.length := by
          have hlength := congrArg List.length ih
          simp [runsFourccs] at hlength
          omega
        have hsucc : (run.2 + 1).toNat = run.2.toNat + 1 := by
          rw [UInt32.toNat_add]
          exact Nat.mod_eq_of_lt (by simp; omega)
        simp [runsFourccs, hsucc, List.replicate_succ', heq]

/-- The four words of a UUID on the wire; zeros if it is not known. -/
def uuidWords : Option (Vector UInt8 16) → List UInt32
  | none => [0, 0, 0, 0]
  | some b =>
      let word (i : Fin 4) : UInt32 :=
        b[4 * i.val].toUInt32 ||| b[4 * i.val + 1].toUInt32 <<< 8 |||
          b[4 * i.val + 2].toUInt32 <<< 16 ||| b[4 * i.val + 3].toUInt32 <<< 24
      [word 0, word 1, word 2, word 3]

theorem length_uuidWords (uuid : Option (Vector UInt8 16)) : (uuidWords uuid).length = 4 := by
  cases uuid <;> rfl

/-- The lengths that the decoder wants to agree. -/
structure FormatArrays.Agree (a : FormatArrays) : Prop where
  fourccs : a.fourccs.length = a.modCounts.length
  modifiers : a.modifiers.length = (a.modCounts.map UInt32.toNat).sum
  planeCounts : a.planeCounts.length = (a.modCounts.map UInt32.toNat).sum

section Fill

variable {advertised : List FormatEntry}

theorem expandRuns_fill :
    expandRuns (negotiationFillFormatCaps advertised).fourccs
        (negotiationFillFormatCaps advertised).modCounts =
      (advertised.take (advertised.length % 2 ^ 32)).map FormatEntry.fourcc := by
  have hlt : (advertised.take (advertised.length % 2 ^ 32)).length < 2 ^ 32 := by
    rw [List.length_take]
    omega
  rw [← runsFourccs_foldl hlt, expandRuns, runsFourccs]
  congr 1
  exact (List.zip_of_prod rfl rfl).symm

/-- A run is counted for a fourcc that is there. -/
theorem mem_of_mem_runs {entries : List FormatEntry} {run : UInt32 × UInt32}
    (h : run ∈ entries.foldl addToRuns []) : run.1 ∈ entries.map FormatEntry.fourcc := by
  induction entries using List.reverseRecOn generalizing run with
  | nil => cases h
  | append_singleton entries e ih =>
    rw [List.foldl_append, List.foldl_cons, List.foldl_nil] at h
    rw [List.map_append, List.mem_append]
    cases hruns : entries.foldl addToRuns [] with
    | nil =>
      rw [hruns, addToRuns, List.mem_singleton] at h
      exact .inr (by simp [h])
    | cons last runs =>
      rw [hruns, addToRuns] at h
      rw [hruns] at ih
      split at h
      · rcases List.mem_cons.1 h with rfl | h
        · exact .inr (by simp)
        · exact .inl (ih h)
      · rcases List.mem_cons.1 h with rfl | h
        · have hlast := ih (List.mem_cons_self : last ∈ last :: runs)
          exact .inl hlast
        · exact .inl (ih (List.mem_cons_of_mem _ h))

theorem mem_fourccs_fill {k : UInt32} : k ∈ (negotiationFillFormatCaps advertised).fourccs ↔
    k ∈ (advertised.take (advertised.length % 2 ^ 32)).map FormatEntry.fourcc := by
  constructor
  · intro h
    obtain ⟨run, hrun, rfl⟩ := List.mem_map.1 h
    exact mem_of_mem_runs (List.mem_reverse.1 hrun)
  · intro h
    rw [← expandRuns_fill] at h
    exact mem_of_mem_expandRuns h

theorem agree_fill : (negotiationFillFormatCaps advertised).Agree := by
  have hlength : (negotiationFillFormatCaps advertised).fourccs.length =
      (negotiationFillFormatCaps advertised).modCounts.length := by
    simp [negotiationFillFormatCaps]
  have hsum := (length_expandRuns hlength).symm.trans
    (congrArg List.length (@expandRuns_fill advertised))
  rw [List.length_map] at hsum
  exact ⟨hlength, (List.length_map _).trans hsum.symm, (List.length_map _).trans hsum.symm⟩

theorem zipWith_projections (es : List FormatEntry) :
    (es.map FormatEntry.fourcc).zipWith (fun fourcc m => FormatEntry.mk fourcc m.1 m.2)
      ((es.map FormatEntry.modifier).zip (es.map FormatEntry.planeCount)) = es := by
  induction es with
  | nil => rfl
  | cons e es ih => simpa using ih

/-- The arrays stand for the entries they were packed from. -/
theorem entries_fill : (negotiationFillFormatCaps advertised).entries =
    advertised.take (advertised.length % 2 ^ 32) := by
  rw [FormatArrays.entries, expandRuns_fill]
  exact zipWith_projections _

end Fill

/-- No entry is lost or invented. -/
theorem projections_entries {a : FormatArrays} (h : a.Agree) :
    a.entries.map FormatEntry.fourcc = expandRuns a.fourccs a.modCounts ∧
      a.entries.map FormatEntry.modifier = a.modifiers ∧
      a.entries.map FormatEntry.planeCount = a.planeCounts := by
  have hexpand := length_expandRuns h.fourccs
  have hlength : (a.modifiers.zip a.planeCounts).length =
      (expandRuns a.fourccs a.modCounts).length := by
    rw [List.length_zip, h.modifiers, h.planeCounts, hexpand, Nat.min_self]
  have hboth : a.modifiers.length = a.planeCounts.length := h.modifiers.trans h.planeCounts.symm
  have hentries : a.entries = ((expandRuns a.fourccs a.modCounts).zip
      (a.modifiers.zip a.planeCounts)).map fun p => ⟨p.1, p.2.1, p.2.2⟩ := by
    rw [List.map_zip_eq_zipWith]
    rfl
  have hsnd := List.map_snd_zip hlength.le
  simp only [hentries, List.map_map, Function.comp_def]
  refine ⟨List.map_fst_zip hlength.ge, ?_, ?_⟩
  · have hfst := List.map_fst_zip hboth.le
    rw [← hsnd, List.map_map] at hfst
    exact hfst
  · have hsnd' := List.map_snd_zip hboth.ge
    rw [← hsnd, List.map_map] at hsnd'
    exact hsnd'

/-! ## The decoder accepts what agrees -/

section Unflatten

variable {a : FormatArrays} {deviceUuid driverUuid : List UInt32} {drm : DrmNode}
  {sync color memHint : UInt32} {extentMax : UInt32 × UInt32} {caps : PeerCaps}

theorem foldl_toNat (modCounts : List UInt32) (n : ℕ) :
    modCounts.foldl (fun n c => n + c.toNat) n = n + (modCounts.map UInt32.toNat).sum := by
  induction modCounts generalizing n with
  | nil => rfl
  | cons c modCounts ih => rw [List.foldl_cons, ih, List.map_cons, List.sum_cons, Nat.add_assoc]

theorem unflattenCaps_eq_ok_iff :
    (∃ caps, unflattenCaps a.fourccs a.modCounts a.modifiers a.planeCounts deviceUuid driverUuid
      drm sync color memHint extentMax = .ok caps) ↔
        a.Agree ∧ deviceUuid.length = 4 ∧ driverUuid.length = 4 := by
  unfold unflattenCaps
  rw [foldl_toNat, Nat.zero_add]
  dsimp only
  constructor
  · rintro ⟨caps, h⟩
    split at h
    · cases h
    · split at h
      · cases h
      · split at h
        · cases h
        · split at h
          · cases h
          · rename_i hf hm hp hu
            rw [not_or, not_not, not_not] at hu
            exact ⟨⟨not_not.1 hf, not_not.1 hm, not_not.1 hp⟩, hu⟩
  · rintro ⟨⟨hf, hm, hp⟩, hd, hv⟩
    rw [if_neg (not_not.2 hf), if_neg (not_not.2 hm), if_neg (not_not.2 hp),
      if_neg (by simp [hd, hv])]
    exact ⟨_, rfl⟩

theorem byFourcc_of_unflattenCaps (h : unflattenCaps a.fourccs a.modCounts a.modifiers
    a.planeCounts deviceUuid driverUuid drm sync color memHint extentMax = .ok caps) :
    caps.formats.byFourcc =
      unflattenEntries a.fourccs a.modCounts a.modifiers a.planeCounts [] := by
  unfold unflattenCaps at h
  dsimp only at h
  repeat' split at h
  all_goals cases h
  rfl

/-- What the decoder makes of the arrays: it stays in range, and under each fourcc stand the
capabilities of its entries, in order. -/
theorem formats_of_unflattenCaps (h : unflattenCaps a.fourccs a.modCounts a.modifiers
    a.planeCounts deviceUuid driverUuid drm sync color memHint extentMax = .ok caps) :
    walkEntries a.modifiers a.planeCounts a.fourccs a.modCounts 0 [] =
        some caps.formats.byFourcc ∧
      caps.formats.Sorted ∧
      ∀ k, caps.formats.get k = if k ∈ a.fourccs then some (capsOf a.entries k) else none := by
  obtain ⟨⟨hf, hm, hp⟩, -, -⟩ := unflattenCaps_eq_ok_iff.1 ⟨caps, h⟩
  have hby := byFourcc_of_unflattenCaps h
  have hnil : FormatCaps.Sorted ⟨[]⟩ := List.Pairwise.nil
  refine ⟨?_, ?_, fun k => ?_⟩
  · rw [walkEntries_eq _ _ _ _ (by omega) (by omega), List.drop_zero, List.drop_zero, hby]
  · have hsorted := @sorted_unflattenEntries a.fourccs a.modCounts a.modifiers a.planeCounts
      _ hnil
    rw [← hby] at hsorted
    exact hsorted
  · have hget := get_unflattenEntries hnil hf hm hp k
    rw [← hby] at hget
    simpa [FormatCaps.get] using hget

end Unflatten

/-- What the daemon makes of the entries a bridge advertises, and of any four arrays. -/
theorem unflattenCaps_fill :
    (∀ (advertised : List FormatEntry) (deviceUuid driverUuid : Option (Vector UInt8 16))
      (drm : DrmNode) (sync color memHint : UInt32) (extentMax : UInt32 × UInt32),
      advertised.length < 2 ^ 32 →
        let a := negotiationFillFormatCaps advertised
        ∃ caps, unflattenCaps a.fourccs a.modCounts a.modifiers a.planeCounts
            (uuidWords deviceUuid) (uuidWords driverUuid) drm sync color memHint extentMax =
              .ok caps ∧
          ∀ k, caps.formats.get k = if k ∈ advertised.map FormatEntry.fourcc then
            some (capsOf advertised k) else none) ∧
    (∀ (a : FormatArrays) (deviceUuid driverUuid : List UInt32) (drm : DrmNode)
      (sync color memHint : UInt32) (extentMax : UInt32 × UInt32),
      let result := unflattenCaps a.fourccs a.modCounts a.modifiers a.planeCounts deviceUuid
        driverUuid drm sync color memHint extentMax
      ((∃ caps, result = .ok caps) ↔
        a.Agree ∧ deviceUuid.length = 4 ∧ driverUuid.length = 4) ∧
      ∀ caps, result = .ok caps →
        walkEntries a.modifiers a.planeCounts a.fourccs a.modCounts 0 [] =
          some caps.formats.byFourcc ∧
        a.entries.map FormatEntry.fourcc = expandRuns a.fourccs a.modCounts ∧
        a.entries.map FormatEntry.modifier = a.modifiers ∧
        a.entries.map FormatEntry.planeCount = a.planeCounts ∧
        ∀ k, caps.formats.get k = if k ∈ a.fourccs then some (capsOf a.entries k) else none) := by
  refine ⟨fun advertised deviceUuid driverUuid drm sync color memHint extentMax hfits => ?_,
    fun a deviceUuid driverUuid drm sync color memHint extentMax =>
      ⟨unflattenCaps_eq_ok_iff, fun caps h => ?_⟩⟩
  · have htake : advertised.take (advertised.length % 2 ^ 32) = advertised := by
      rw [Nat.mod_eq_of_lt hfits, List.take_length]
    obtain ⟨caps, hcaps⟩ := unflattenCaps_eq_ok_iff.2
      ⟨@agree_fill advertised, length_uuidWords deviceUuid,
        length_uuidWords driverUuid⟩
    refine ⟨caps, hcaps, fun k => ?_⟩
    have hget := (formats_of_unflattenCaps hcaps).2.2 k
    rw [entries_fill, htake] at hget
    have hmem := @mem_fourccs_fill advertised k
    rw [htake] at hmem
    simpa only [hmem] using hget
  · obtain ⟨hwalk, -, hget⟩ := formats_of_unflattenCaps h
    obtain ⟨hagree, -, -⟩ := unflattenCaps_eq_ok_iff.1 ⟨caps, h⟩
    obtain ⟨hf, hm, hp⟩ := projections_entries hagree
    exact ⟨hwalk, hf, hm, hp, hget⟩

/-- Two runs of one fourcc, with another between them. -/
def repeatedRuns : List FormatEntry := [⟨1, 0, 1⟩, ⟨1, 9, 2⟩, ⟨2, 0, 1⟩, ⟨1, 7, 2⟩]

theorem unflattenCaps_fill_repeatedRuns : ∃ caps,
    unflattenCaps [1, 2, 1] [2, 1, 1] [0, 9, 0, 7] [1, 2, 1, 2] [0, 0, 0, 0] [0, 0, 0, 0]
        .unknown 4 0 0 (16384, 16384) = .ok caps ∧
      caps.formats.get 1 = some [⟨0, 1⟩, ⟨9, 2⟩, ⟨7, 2⟩] := by
  obtain ⟨caps, hcaps, hget⟩ := unflattenCaps_fill.1 repeatedRuns none none .unknown 4 0 0
    (16384, 16384) (by decide)
  exact ⟨caps, hcaps, (hget 1).trans (by decide)⟩

/-- As many entries as a `uint32_t` cannot count leave the arrays empty. -/
theorem not_unflattenCaps_fill : ¬∀ (advertised : List FormatEntry)
    (deviceUuid driverUuid : Option (Vector UInt8 16)) (drm : DrmNode)
    (sync color memHint : UInt32) (extentMax : UInt32 × UInt32),
      let a := negotiationFillFormatCaps advertised
      ∃ caps, unflattenCaps a.fourccs a.modCounts a.modifiers a.planeCounts
          (uuidWords deviceUuid) (uuidWords driverUuid) drm sync color memHint extentMax =
            .ok caps ∧
        ∀ k, caps.formats.get k = if k ∈ advertised.map FormatEntry.fourcc then
          some (capsOf advertised k) else none := by
  intro h
  obtain ⟨advertised, hlength, hmem⟩ : ∃ advertised : List FormatEntry,
      advertised.length = 2 ^ 32 ∧ ⟨1, 0, 1⟩ ∈ advertised :=
    ⟨List.replicate (2 ^ 32) ⟨1, 0, 1⟩, List.length_replicate ..,
      List.mem_replicate.2 ⟨by decide, rfl⟩⟩
  obtain ⟨caps, hcaps, hget⟩ := h advertised none none .unknown 4 0 0 (16384, 16384)
  have hfill : negotiationFillFormatCaps advertised = ⟨[], [], [], []⟩ := by
    rw [negotiationFillFormatCaps, hlength, Nat.mod_self, List.take_zero]
    rfl
  have hby := byFourcc_of_unflattenCaps hcaps
  rw [hfill] at hby
  have hone := hget 1
  rw [if_pos (List.mem_map_of_mem hmem), FormatCaps.get, hby] at hone
  cases hone

end Waywallen
