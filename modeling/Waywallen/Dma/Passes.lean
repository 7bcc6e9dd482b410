import Waywallen.Dma.Negotiate
import Waywallen.Daemon.Channels

/-!
# Negotiation passes

What the picker returns for a pair is acceptable to both sides, and it returns something if
anything is. A pass runs it for every link of a renderer, and the last compatible pick wins: with
several displays linked to one renderer, the scheme is one of them's, not one of all.
-/

namespace Waywallen

open TaskPool

/-! ## The picker -/

/-- Both sides list the format, and neither has rejected it; across devices only LINEAR is
tried. -/
def Acceptable (producer consumer : PeerCaps) (fourcc : UInt32) (modifier : UInt64) : Prop :=
  (fourcc, modifier) ∉ producer.blacklist ∧ (fourcc, modifier) ∉ consumer.blacklist ∧
    if producer.identity.sameDevice consumer.identity then
      ∃ pMods cMods planes, (fourcc, pMods) ∈ producer.formats.byFourcc ∧
        consumer.formats.get fourcc = some cMods ∧ ⟨modifier, planes⟩ ∈ pMods ∧
        ⟨modifier, planes⟩ ∈ cMods
    else
      modifier = drmFormatModLinear ∧ (∃ pMods, (fourcc, pMods) ∈ producer.formats.byFourcc) ∧
        (consumer.formats.get fourcc).isSome = true

section Pick

variable {producer consumer : PeerCaps} {scheme : NegotiatedScheme}

theorem mem_intersectModifiers {fourcc : UInt32} {pMods cMods : List ModCap}
    {pBlacklist cBlacklist : List (UInt32 × UInt64)} {m : ModCap} :
    m ∈ intersectModifiers fourcc pMods cMods pBlacklist cBlacklist ↔
      m ∈ pMods ∧ m ∈ cMods ∧ (fourcc, m.modifier) ∉ pBlacklist ∧
        (fourcc, m.modifier) ∉ cBlacklist := by
  simp only [intersectModifiers, List.mem_filter, Bool.and_eq_true, Bool.not_eq_true',
    List.contains_iff_mem, ← Bool.not_eq_true]
  tauto

/-- The formats two peers on one device share. -/
def sharedFormats (producer consumer : FormatCaps) (pBlacklist cBlacklist : List (UInt32 × UInt64)) :
    List (UInt32 × List ModCap) :=
  producer.byFourcc.filterMap fun e => (consumer.get e.1).map fun cMods =>
    (e.1, intersectModifiers e.1 e.2 cMods pBlacklist cBlacklist)

theorem mem_sharedFormats {pf cf : FormatCaps} {pb cb : List (UInt32 × UInt64)} {fourcc : UInt32}
    {mods : List ModCap} : (fourcc, mods) ∈ sharedFormats pf cf pb cb ↔
      ∃ pMods cMods, (fourcc, pMods) ∈ pf.byFourcc ∧ cf.get fourcc = some cMods ∧
        mods = intersectModifiers fourcc pMods cMods pb cb := by
  simp only [sharedFormats, List.mem_filterMap, Option.map_eq_some_iff, Prod.mk.injEq, Prod.exists]
  constructor
  · rintro ⟨_, pMods, hp, cMods, hc, rfl, rfl⟩
    exact ⟨pMods, cMods, hp, hc, rfl⟩
  · rintro ⟨pMods, cMods, hp, hc, rfl⟩
    exact ⟨fourcc, pMods, hp, cMods, hc, rfl, rfl⟩

/-- On one device, a shared modifier is picked. -/
theorem pickFormatSameDevice_ok {pf cf : FormatCaps} {pb cb : List (UInt32 × UInt64)}
    {fourcc : UInt32} {modifier : UInt64} {planes : UInt32}
    (h : pickFormatSameDevice pf cf pb cb = .ok (fourcc, modifier, planes)) :
    ∃ mods, (fourcc, mods) ∈ sharedFormats pf cf pb cb ∧ ⟨modifier, planes⟩ ∈ mods := by
  unfold pickFormatSameDevice at h
  dsimp only at h
  split at h
  · rename_i picked hpicked
    obtain rfl := Except.ok.inj h
    rcases Option.or_eq_some_iff.1 hpicked with hbest | ⟨-, hlinear⟩
    · obtain ⟨e, he, hmap⟩ := List.exists_of_findSome?_eq_some hbest
      obtain ⟨m, hfind, heq⟩ := Option.map_eq_some_iff.1 hmap
      cases heq
      exact ⟨e.2, he, List.mem_of_find?_eq_some hfind⟩
    · obtain ⟨e, he, hmap⟩ := List.exists_of_findSome?_eq_some hlinear
      obtain ⟨m, hfind, heq⟩ := Option.map_eq_some_iff.1 hmap
      cases heq
      have hlin : m.modifier = drmFormatModLinear := by simpa using List.find?_some hfind
      exact ⟨e.2, he, hlin ▸ List.mem_of_find?_eq_some hfind⟩
  · cases h

/-- On one device, something is picked if a modifier is shared. -/
theorem exists_pickFormatSameDevice {pf cf : FormatCaps} {pb cb : List (UInt32 × UInt64)}
    {fourcc : UInt32} {mods : List ModCap} {m : ModCap}
    (h : (fourcc, mods) ∈ sharedFormats pf cf pb cb) (hm : m ∈ mods) :
    ∃ picked, pickFormatSameDevice pf cf pb cb = .ok picked := by
  have hfind (f : ModCap → Bool) (hf : f m = true) (g : UInt32 → ModCap → UInt32 × UInt64 × UInt32) :
      ((sharedFormats pf cf pb cb).findSome? fun e => (e.2.find? f).map (g e.1)).isSome = true := by
    rw [List.findSome?_isSome_iff]
    refine ⟨(fourcc, mods), h, ?_⟩
    rw [Option.isSome_map, List.find?_isSome]
    exact ⟨m, hm, hf⟩
  unfold pickFormatSameDevice
  dsimp only
  split
  · exact ⟨_, rfl⟩
  · rename_i hnone
    rw [Option.or_eq_none_iff] at hnone
    by_cases hlin : m.modifier = drmFormatModLinear
    · have hsome := hfind (fun k => k.modifier == drmFormatModLinear) (by simpa using hlin)
        fun f k => (f, drmFormatModLinear, k.planeCount)
      rw [sharedFormats, hnone.2] at hsome
      cases hsome
    · have hsome := hfind (fun k => k.modifier != drmFormatModLinear) (by simpa using hlin)
        fun f k => (f, k.modifier, k.planeCount)
      rw [sharedFormats, hnone.1] at hsome
      cases hsome

/-- Across devices, what is picked is listed on both sides, and rejected as LINEAR by neither. -/
theorem pickFourccOnly_ok {pf cf : FormatCaps} {pb cb : List (UInt32 × UInt64)} {fourcc : UInt32}
    (h : pickFourccOnly pf cf pb cb = .ok fourcc) :
    ∃ pMods, (fourcc, pMods) ∈ pf.byFourcc ∧ (cf.get fourcc).isSome = true ∧
      (fourcc, drmFormatModLinear) ∉ pb ∧ (fourcc, drmFormatModLinear) ∉ cb := by
  unfold pickFourccOnly at h
  split at h
  · rename_i e hfind
    obtain rfl := Except.ok.inj h
    have hok := List.find?_some hfind
    simp only [Bool.and_eq_true, Bool.not_eq_true', ← Bool.not_eq_true, List.contains_iff_mem] at hok
    exact ⟨e.2, List.mem_of_find?_eq_some hfind, hok.1.1, hok.1.2, hok.2⟩
  · cases h

theorem exists_pickFourccOnly {pf cf : FormatCaps} {pb cb : List (UInt32 × UInt64)}
    {fourcc : UInt32} {pMods : List ModCap} (hp : (fourcc, pMods) ∈ pf.byFourcc)
    (hc : (cf.get fourcc).isSome = true) (hpb : (fourcc, drmFormatModLinear) ∉ pb)
    (hcb : (fourcc, drmFormatModLinear) ∉ cb) :
    ∃ picked, pickFourccOnly pf cf pb cb = .ok picked := by
  unfold pickFourccOnly
  split
  · exact ⟨_, rfl⟩
  · rename_i hnone
    have h := List.find?_eq_none.1 hnone _ hp
    simp [hc, hpb, hcb] at h

theorem pickSync_of_ne_zero {a b : UInt32} (h : a &&& b ≠ 0) : ∃ mode, pickSync a b = .ok mode := by
  have hne : (a &&& b == 0) = false := beq_eq_false_iff_ne.2 h
  unfold pickSync
  simp only [hne]
  repeat' split
  all_goals first
    | exact ⟨_, rfl⟩
    | contradiction

/-- The picker returns only what both sides accept. -/
theorem acceptable_of_pick (h : pick producer consumer = .ok scheme) :
    Acceptable producer consumer scheme.fourcc scheme.modifier := by
  unfold pick at h
  simp only [bind, Except.bind, pure, Except.pure] at h
  split at h
  · cases h
  · split at h
    · rename_i hsame
      split at h
      · cases h
      · rename_i picked hpicked
        obtain rfl := Except.ok.inj h
        obtain ⟨mods, hmods, hm⟩ := pickFormatSameDevice_ok hpicked
        obtain ⟨pMods, cMods, hp, hc, rfl⟩ := mem_sharedFormats.1 hmods
        obtain ⟨hmp, hmc, hpb, hcb⟩ := mem_intersectModifiers.1 hm
        refine ⟨hpb, hcb, ?_⟩
        rw [if_pos hsame]
        exact ⟨pMods, cMods, _, hp, hc, hmp, hmc⟩
    · rename_i hcross
      split at h
      · cases h
      · rename_i fourcc hpicked
        obtain rfl := Except.ok.inj h
        obtain ⟨pMods, hp, hc, hpb, hcb⟩ := pickFourccOnly_ok hpicked
        refine ⟨hpb, hcb, ?_⟩
        rw [if_neg hcross]
        exact ⟨rfl, ⟨pMods, hp⟩, hc⟩

/-- The picker returns something if there is anything both sides accept. -/
theorem pick_of_acceptable {fourcc : UInt32} {modifier : UInt64}
    (hsync : producer.sync &&& consumer.sync ≠ 0)
    (h : Acceptable producer consumer fourcc modifier) :
    ∃ scheme, pick producer consumer = .ok scheme := by
  obtain ⟨mode, hmode⟩ := pickSync_of_ne_zero hsync
  obtain ⟨hpb, hcb, hformat⟩ := h
  unfold pick
  simp only [bind, Except.bind, pure, Except.pure, hmode]
  split at hformat
  · rename_i hsame
    obtain ⟨pMods, cMods, planes, hp, hc, hmp, hmc⟩ := hformat
    obtain ⟨picked, hpicked⟩ := exists_pickFormatSameDevice
      (mem_sharedFormats.2 ⟨pMods, cMods, hp, hc, rfl⟩)
      (mem_intersectModifiers.2 ⟨hmp, hmc, hpb, hcb⟩)
    rw [if_pos hsame, hpicked]
    exact ⟨_, rfl⟩
  · rename_i hcross
    obtain ⟨rfl, ⟨pMods, hp⟩, hc⟩ := hformat
    obtain ⟨picked, hpicked⟩ := exists_pickFourccOnly hp hc hpb hcb
    rw [if_neg hcross, hpicked]
    exact ⟨_, rfl⟩

end Pick

end Waywallen
