import Waywallen.Dma.Passes

/-!
# The picker's choice

Which of the acceptable pairs the picker returns. On one device a tiled modifier wins over LINEAR,
then the lowest fourcc, then the place in the producer's list.
-/

namespace Waywallen

/-- What an ordered map keeps: one entry a fourcc, in ascending order. -/
def FormatCaps.Sorted (f : FormatCaps) : Prop := f.byFourcc.Pairwise fun a b => a.1 < b.1

/-- The modifier is listed under the fourcc, with its plane count. -/
def FormatCaps.Lists (f : FormatCaps) (fourcc : UInt32) (m : ModCap) : Prop :=
  ∃ mods, f.get fourcc = some mods ∧ m ∈ mods

/-- Both sides list the pair with the same plane count, and neither has rejected it. -/
def PeerCaps.Share (producer consumer : PeerCaps) (fourcc : UInt32) (m : ModCap) : Prop :=
  producer.formats.Lists fourcc m ∧ consumer.formats.Lists fourcc m ∧
    (fourcc, m.modifier) ∉ producer.blacklist ∧ (fourcc, m.modifier) ∉ consumer.blacklist

def ModCap.isLinear (m : ModCap) : Bool := m.modifier == drmFormatModLinear

/-- Among the shared pairs that are LINEAR as `linear` says, no fourcc is lower, and none stands
before this one in the producer's list. -/
structure FirstChoice (producer consumer : PeerCaps) (linear : Bool) (fourcc : UInt32)
    (m : ModCap) : Prop where
  shared : producer.Share consumer fourcc m
  isLinear : m.isLinear = linear
  lowest : ∀ fourcc' m', producer.Share consumer fourcc' m' → m'.isLinear = linear →
    fourcc ≤ fourcc'
  first : ∃ before after, producer.formats.get fourcc = some (before ++ m :: after) ∧
    ∀ k ∈ before, producer.Share consumer fourcc k → k.isLinear ≠ linear

theorem FormatCaps.get_eq_some_iff {f : FormatCaps} (hsorted : f.Sorted) {fourcc : UInt32}
    {mods : List ModCap} : f.get fourcc = some mods ↔ (fourcc, mods) ∈ f.byFourcc := by
  simp only [FormatCaps.get, Option.map_eq_some_iff, List.find?_eq_some_iff_append, beq_iff_eq,
    Bool.not_eq_eq_eq_not, Bool.not_true, beq_eq_false_iff_ne]
  constructor
  · rintro ⟨e, ⟨rfl, before, after, heq, -⟩, rfl⟩
    simp [heq]
  · intro hmem
    obtain ⟨before, after, heq⟩ := List.append_of_mem hmem
    refine ⟨_, ⟨rfl, before, after, heq, ?_⟩, rfl⟩
    intro e he
    rw [FormatCaps.Sorted, heq] at hsorted
    have hlt := (List.pairwise_append.1 hsorted).2.2 e he _ List.mem_cons_self
    exact UInt32.ne_of_lt hlt

section Search

variable {producer consumer : PeerCaps}

theorem Share_iff (hsorted : producer.formats.Sorted) {fourcc : UInt32} {m : ModCap} :
    producer.Share consumer fourcc m ↔ ∃ mods, (fourcc, mods) ∈ sharedFormats producer.formats
      consumer.formats producer.blacklist consumer.blacklist ∧ m ∈ mods := by
  simp only [PeerCaps.Share, FormatCaps.Lists, mem_sharedFormats,
    FormatCaps.get_eq_some_iff hsorted]
  constructor
  · rintro ⟨⟨pMods, hp, hmp⟩, ⟨cMods, hc, hmc⟩, hpb, hcb⟩
    exact ⟨_, ⟨pMods, cMods, hp, hc, rfl⟩, mem_intersectModifiers.2 ⟨hmp, hmc, hpb, hcb⟩⟩
  · rintro ⟨_, ⟨pMods, cMods, hp, hc, rfl⟩, hm⟩
    obtain ⟨hmp, hmc, hpb, hcb⟩ := mem_intersectModifiers.1 hm
    exact ⟨⟨pMods, hp, hmp⟩, ⟨cMods, hc, hmc⟩, hpb, hcb⟩

theorem sorted_sharedFormats (hsorted : producer.formats.Sorted) :
    (sharedFormats producer.formats consumer.formats producer.blacklist
      consumer.blacklist).Pairwise fun a b => a.1 < b.1 := by
  refine List.Pairwise.filterMap _ ?_ hsorted
  intro a b hlt a' ha b' hb
  simp only [Option.map_eq_some_iff] at ha hb
  obtain ⟨-, -, rfl⟩ := ha
  obtain ⟨-, -, rfl⟩ := hb
  exact hlt

/-- The search for a pair that is LINEAR or not finds the first choice of its class. -/
theorem firstChoice_of_findSome (hsorted : producer.formats.Sorted) {linear : Bool}
    {e : UInt32 × List ModCap} {m : ModCap} {before after : List (UInt32 × List ModCap)}
    (hshared : sharedFormats producer.formats consumer.formats producer.blacklist
      consumer.blacklist = before ++ e :: after)
    (hfind : e.2.find? (fun k => k.isLinear == linear) = some m)
    (hbefore : ∀ e ∈ before, e.2.find? (fun k => k.isLinear == linear) = none) :
    FirstChoice producer consumer linear e.1 m := by
  have hmem : e ∈ sharedFormats producer.formats consumer.formats producer.blacklist
      consumer.blacklist := hshared ▸ by simp
  refine ⟨(Share_iff hsorted).2 ⟨e.2, hmem, List.mem_of_find?_eq_some hfind⟩,
    by simpa using List.find?_some hfind, ?_, ?_⟩
  · intro fourcc' m' hshare hlinear
    obtain ⟨mods, hmods, hm'⟩ := (Share_iff hsorted).1 hshare
    rw [hshared, List.mem_append, List.mem_cons] at hmods
    rcases hmods with hold | rfl | hlater
    · -- An entry before the found one has no pair of the class.
      have hnone := List.find?_eq_none.1 (hbefore _ hold) m' hm'
      exact absurd (by simpa using hlinear) hnone
    · exact UInt32.le_refl _
    · have hsort : (before ++ e :: after).Pairwise fun a b => a.1 < b.1 :=
        hshared ▸ sorted_sharedFormats hsorted
      have hcons := (List.pairwise_append.1 hsort).2.1
      exact UInt32.le_of_lt (List.rel_of_pairwise_cons hcons hlater)
  · obtain ⟨pMods, cMods, hp, hc, hmods⟩ := mem_sharedFormats.1 hmem
    rw [hmods, intersectModifiers, List.find?_filter, List.find?_eq_some_iff_append] at hfind
    obtain ⟨-, earlier, later, hsplit, hearlier⟩ := hfind
    refine ⟨earlier, later, hsplit ▸ (FormatCaps.get_eq_some_iff hsorted).2 hp, ?_⟩
    intro k hk hshare hlinear
    have hnot := hearlier k hk
    obtain ⟨-, ⟨cMods', hc', hkc⟩, hpb, hcb⟩ := hshare
    obtain rfl := Option.some.inj (hc.symm.trans hc')
    simp [hpb, hcb, hkc, hlinear] at hnot

/-- What the picker returns on one device is the first choice of its class, and LINEAR is returned
only if no other modifier is shared. -/
theorem firstChoice_of_pickFormatSameDevice (hsorted : producer.formats.Sorted) {fourcc : UInt32}
    {modifier : UInt64} {planes : UInt32}
    (h : pickFormatSameDevice producer.formats consumer.formats producer.blacklist
      consumer.blacklist = .ok (fourcc, modifier, planes)) :
    FirstChoice producer consumer (modifier == drmFormatModLinear) fourcc ⟨modifier, planes⟩ ∧
      (modifier = drmFormatModLinear → ∀ fourcc' m', producer.Share consumer fourcc' m' →
        m'.isLinear = true) := by
  unfold pickFormatSameDevice at h
  dsimp only at h
  split at h
  · rename_i picked hpicked
    obtain rfl := Except.ok.inj h
    rcases Option.or_eq_some_iff.1 hpicked with hbest | ⟨hnone, hlinear⟩
    · obtain ⟨before, e, after, hshared, hmap, hbefore⟩ := List.findSome?_eq_some_iff.1 hbest
      obtain ⟨m, hfind, heq⟩ := Option.map_eq_some_iff.1 hmap
      cases heq
      have hm : m.modifier ≠ drmFormatModLinear := by simpa using List.find?_some hfind
      refine ⟨?_, fun hlin => absurd hlin hm⟩
      rw [beq_eq_false_iff_ne.2 hm]
      refine firstChoice_of_findSome hsorted hshared ?_ fun e he => ?_
      · simpa [ModCap.isLinear, bne] using hfind
      · simpa [ModCap.isLinear, bne] using hbefore e he
    · obtain ⟨before, e, after, hshared, hmap, hbefore⟩ := List.findSome?_eq_some_iff.1 hlinear
      obtain ⟨m, hfind, heq⟩ := Option.map_eq_some_iff.1 hmap
      have hm : m.modifier = drmFormatModLinear := by simpa using List.find?_some hfind
      obtain ⟨rfl, rfl, rfl⟩ : e.1 = fourcc ∧ drmFormatModLinear = modifier ∧
          m.planeCount = planes := by simpa using heq
      have hsame : (⟨drmFormatModLinear, m.planeCount⟩ : ModCap) = m := by rw [← hm]
      rw [hsame]
      refine ⟨?_, fun _ fourcc' m' hshare => ?_⟩
      · rw [beq_self_eq_true]
        refine firstChoice_of_findSome hsorted hshared ?_ fun e he => ?_
        · simpa [ModCap.isLinear] using hfind
        · simpa [ModCap.isLinear] using hbefore e he
      · obtain ⟨mods, hmods, hm'⟩ := (Share_iff hsorted).1 hshare
        have hno := List.findSome?_eq_none_iff.1 hnone _ hmods
        rw [Option.map_eq_none_iff] at hno
        simpa [ModCap.isLinear] using List.find?_eq_none.1 hno m' hm'
  · cases h

end Search

theorem pickFormatSameDevice_error {pf cf : FormatCaps} {pb cb : List (UInt32 × UInt64)}
    {e : NegotiateError} (h : pickFormatSameDevice pf cf pb cb = .error e) :
    e = .noFormatIntersection := by
  unfold pickFormatSameDevice at h
  dsimp only at h
  split at h
  · cases h
  · exact (Except.error.inj h).symm

theorem pickFourccOnly_error {pf cf : FormatCaps} {pb cb : List (UInt32 × UInt64)}
    {e : NegotiateError} (h : pickFourccOnly pf cf pb cb = .error e) :
    e = .noFormatIntersection := by
  unfold pickFourccOnly at h
  split at h
  · cases h
  · exact (Except.error.inj h).symm

theorem pickFormatSameDevice_of_pick {producer consumer : PeerCaps} {scheme : NegotiatedScheme}
    (hsame : producer.identity.sameDevice consumer.identity = true)
    (h : pick producer consumer = .ok scheme) :
    pickFormatSameDevice producer.formats consumer.formats producer.blacklist
      consumer.blacklist = .ok (scheme.fourcc, scheme.modifier, scheme.planeCount) := by
  unfold pick at h
  simp only [bind, Except.bind, pure, Except.pure, hsame, if_true] at h
  split at h
  · cases h
  · split at h
    · cases h
    · rename_i picked hpicked
      obtain rfl := Except.ok.inj h
      exact hpicked

/-- The picker fails with an empty intersection when a sync bit is common but no acceptable pair
is left. -/
theorem pick_eq_noFormatIntersection_iff (producer consumer : PeerCaps) :
    pick producer consumer = .error .noFormatIntersection ↔
      producer.sync &&& consumer.sync ≠ 0 ∧
        ∀ fourcc modifier, ¬Acceptable producer consumer fourcc modifier := by
  constructor
  · intro h
    have hsync : producer.sync &&& consumer.sync ≠ 0 := by
      intro hzero
      simp [pick, pickSync, hzero, bind, Except.bind] at h
    refine ⟨hsync, fun fourcc modifier hacceptable => ?_⟩
    obtain ⟨scheme, hok⟩ := pick_of_acceptable hsync hacceptable
    cases h.symm.trans hok
  · rintro ⟨hsync, hnone⟩
    obtain ⟨mode, hmode⟩ := pickSync_of_ne_zero hsync
    cases hpick : pick producer consumer with
    | ok scheme => exact absurd (acceptable_of_pick hpick) (hnone _ _)
    | error e =>
      congr 1
      unfold pick at hpick
      simp only [bind, Except.bind, pure, Except.pure, hmode] at hpick
      split at hpick
      · split at hpick
        · rename_i herror
          obtain rfl := Except.error.inj hpick
          exact pickFormatSameDevice_error herror
        · cases hpick
      · split at hpick
        · rename_i herror
          obtain rfl := Except.error.inj hpick
          exact pickFourccOnly_error herror
        · cases hpick

/-- What the picker returns, and when it fails for the formats. -/
theorem pick_chooses (producer consumer : PeerCaps) (hsorted : producer.formats.Sorted) :
    (∀ scheme, pick producer consumer = .ok scheme →
      (scheme.fourcc, scheme.modifier) ∉ producer.blacklist ∧
      (scheme.fourcc, scheme.modifier) ∉ consumer.blacklist ∧
      (producer.formats.get scheme.fourcc).isSome = true ∧
      (consumer.formats.get scheme.fourcc).isSome = true ∧
      (producer.identity.sameDevice consumer.identity = true →
        FirstChoice producer consumer (scheme.modifier == drmFormatModLinear) scheme.fourcc
          ⟨scheme.modifier, scheme.planeCount⟩ ∧
        (scheme.modifier = drmFormatModLinear → ∀ fourcc m,
          producer.Share consumer fourcc m → m.modifier = drmFormatModLinear))) ∧
    (pick producer consumer = .error .noFormatIntersection ↔
      producer.sync &&& consumer.sync ≠ 0 ∧
        ∀ fourcc modifier, ¬Acceptable producer consumer fourcc modifier) := by
  refine ⟨fun scheme h => ?_, pick_eq_noFormatIntersection_iff _ _⟩
  obtain ⟨hpb, hcb, hlisted⟩ := acceptable_of_pick h
  refine ⟨hpb, hcb, ?_, ?_, fun hsame => ?_⟩
  · split at hlisted
    · obtain ⟨pMods, -, -, hp, -⟩ := hlisted
      exact Option.isSome_of_mem ((FormatCaps.get_eq_some_iff hsorted).2 hp)
    · obtain ⟨-, ⟨pMods, hp⟩, -⟩ := hlisted
      exact Option.isSome_of_mem ((FormatCaps.get_eq_some_iff hsorted).2 hp)
  · split at hlisted
    · obtain ⟨-, cMods, -, -, hc, -⟩ := hlisted
      exact Option.isSome_of_mem hc
    · exact hlisted.2.2
  · obtain ⟨hchoice, hlinear⟩ := firstChoice_of_pickFormatSameDevice hsorted
      (pickFormatSameDevice_of_pick hsame h)
    refine ⟨hchoice, fun heq fourcc m hshare => ?_⟩
    simpa [ModCap.isLinear] using hlinear heq fourcc m hshare

/-- Two peers on one GPU; the consumer counts another number of planes for one modifier. -/
def tiledProducer : PeerCaps where
  formats := ⟨[(875708993, [⟨0, 1⟩, ⟨7, 2⟩, ⟨9, 1⟩])]⟩
  identity := ⟨[1, 2, 3, 4], [0, 0, 0, 0], .unknown⟩
  sync := syncSyncobjTimeline
  color := 0
  memHint := 0
  extentMax := (16384, 16384)
  blacklist := []

def tiledConsumer : PeerCaps :=
  { tiledProducer with formats := ⟨[(875708993, [⟨7, 1⟩, ⟨9, 1⟩, ⟨0, 1⟩])]⟩ }

theorem pick_chooses_tiled : (pick tiledProducer tiledConsumer).toOption.map
      (fun s => (s.modifier, s.planeCount)) = some (9, 1) ∧
    FirstChoice tiledProducer tiledConsumer false 875708993 ⟨9, 1⟩ := by
  refine ⟨by decide, ?_⟩
  have hsorted : tiledProducer.formats.Sorted := List.pairwise_singleton _ _
  have hpick : pick tiledProducer tiledConsumer = .ok ⟨875708993, 9, 1, syncSyncobjTimeline,
      defaultColor, memHintHostVisible, 3, .optimizedSameDevice, .gpuNative⟩ := by decide
  have hchoice := (pick_chooses _ tiledConsumer hsorted).1 _ hpick
  exact (hchoice.2.2.2.2 (by decide)).1

end Waywallen
