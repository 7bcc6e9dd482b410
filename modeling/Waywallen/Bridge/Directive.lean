import Waywallen.Bridge.Announced
import Waywallen.Dma.Passes
import Mathlib.Data.Nat.Bitwise

/-!
# Directives from picked schemes

The daemon decodes what a pool advertised, picks a scheme for a pair, and sends it; the renderer
makes the directive that its pool validates.
-/

namespace Waywallen

def PathCategory.asU32 : PathCategory → UInt32
  | .optimizedSameDevice => 0
  | .optimizedSameVendor => 1
  | .compatLinear => 2
  | .compatCpuReadback => 3

def MemSource.asU32 : MemSource → UInt32
  | .gpuNative => 0
  | .gpuLinear => 1
  | .dmabufHeap => 2

/-- The control message that carries a scheme. -/
structure NegotiateBuffers where
  fourcc : UInt32
  modifier : UInt64
  planeCount : UInt32
  syncMode : UInt32
  color : UInt32
  memHint : UInt32
  count : UInt32
  path : UInt32
  memSource : UInt32
deriving DecidableEq

def NegotiatedScheme.negotiateBuffers (s : NegotiatedScheme) : NegotiateBuffers where
  fourcc := s.fourcc
  modifier := s.modifier
  planeCount := s.planeCount
  syncMode := s.syncMode
  color := s.color
  memHint := s.memHint
  count := s.count
  path := s.path.asU32
  memSource := s.memSource.asU32

namespace NegotiateBuffers

def directive (nb : NegotiateBuffers) (count : UInt32) : PoolDirective where
  category := nb.path
  memSource := nb.memSource
  fourcc := nb.fourcc
  modifier := nb.modifier
  planeCount := nb.planeCount
  syncMode := nb.syncMode
  color := nb.color
  memHint := nb.memHint
  width := 0
  height := 0
  count := count

/-- Static image: one slot is enough. -/
def imageDirective (nb : NegotiateBuffers) : PoolDirective := nb.directive 1

def slotCount : UInt32 := 3

def videoDirective (nb : NegotiateBuffers) : PoolDirective :=
  let count := if 0 < nb.count then nb.count else slotCount
  nb.directive (if slotCount < count then slotCount else count)

end NegotiateBuffers

/-- What the daemon makes of the event. -/
def FormatCapsEvent.peerCaps (e : FormatCapsEvent) : Except NegotiateError PeerCaps :=
  unflattenCaps e.arrays.fourccs e.arrays.modCounts e.arrays.modifiers e.arrays.planeCounts
    e.deviceUuid e.driverUuid e.drm e.syncCaps e.colorCaps e.memHints e.extentMax

/-! ## What the pool advertised -/

section Decoded

variable {p : BridgePool} {caps : PeerCaps}

theorem sync_of_peerCaps {e : FormatCapsEvent} (h : e.peerCaps = .ok caps) :
    caps.sync = e.syncCaps := by
  unfold FormatCapsEvent.peerCaps unflattenCaps at h
  dsimp only at h
  repeat' split at h
  all_goals cases h
  rfl

/-- A pair that the daemon reads was advertised. -/
theorem entry_of_peerCaps (h : p.formatCapsEvent.peerCaps = .ok caps) {fourcc : UInt32}
    {mods : List ModCap} (hmods : (fourcc, mods) ∈ caps.formats.byFourcc) {m : ModCap}
    (hm : m ∈ mods) : ∃ e ∈ p.caps.entries, e.fourcc = fourcc ∧ e.modCap = m := by
  obtain ⟨-, hsorted, hget⟩ := formats_of_unflattenCaps
    (a := negotiationFillFormatCaps p.caps.entries) h
  have hlisted := (FormatCaps.get_eq_some_iff hsorted).2 hmods
  rw [hget fourcc, entries_fill] at hlisted
  split at hlisted
  · obtain rfl := Option.some.inj hlisted
    obtain ⟨e, he, rfl⟩ := List.mem_map.1 hm
    obtain ⟨he, hfourcc⟩ := List.mem_filter.1 he
    exact ⟨e, List.mem_of_mem_take he, beq_iff_eq.1 hfourcc, rfl⟩
  · cases hlisted

theorem fourcc_of_peerCaps (h : p.formatCapsEvent.peerCaps = .ok caps) {fourcc : UInt32}
    {mods : List ModCap} (hmods : (fourcc, mods) ∈ caps.formats.byFourcc) :
    ∃ e ∈ p.caps.entries, e.fourcc = fourcc := by
  obtain ⟨-, hsorted, hget⟩ := formats_of_unflattenCaps
    (a := negotiationFillFormatCaps p.caps.entries) h
  have hlisted := (FormatCaps.get_eq_some_iff hsorted).2 hmods
  rw [hget fourcc] at hlisted
  split at hlisted
  · rename_i hmem
    obtain ⟨e, he, hfourcc⟩ := List.mem_map.1 (mem_fourccs_fill.1 hmem)
    exact ⟨e, List.mem_of_mem_take he, hfourcc⟩
  · cases hlisted

end Decoded

theorem fourcc_mem_probedEntries {wantFeatures : UInt32} {reply : ProbeReply} {e : FormatEntry}
    (h : e ∈ probedEntries wantFeatures reply) : e.fourcc ∈ candidateFourccs := by
  cases reply with
  | outOfMemory => cases h
  | vulkan modifiers uuids =>
    obtain ⟨fourcc, hfourcc, h⟩ := List.mem_flatMap.1 h
    obtain ⟨m, -, rfl⟩ := List.mem_map.1 h
    exact hfourcc
  | eglGbm imports produces planes =>
    obtain ⟨fourcc, hfourcc, h⟩ := List.mem_flatMap.1 (List.mem_of_mem_take h)
    dsimp only at h
    split at h
    · cases h
    · obtain ⟨m, -, hm⟩ := List.mem_filterMap.1 h
      obtain ⟨n, -, rfl⟩ := Option.map_eq_some_iff.1 hm
      exact hfourcc

theorem fourcc_mem_probeCaps {caps : PoolCaps} {wantFeatures : UInt32} {reply : ProbeReply}
    {e : FormatEntry} (h : e ∈ (caps.probeCaps wantFeatures reply).entries) :
    e.fourcc ∈ candidateFourccs := by
  simp only [PoolCaps.probeCaps] at h
  split at h
  · obtain rfl := List.mem_singleton.1 h
    decide
  · exact fourcc_mem_probedEntries h

/-- The capabilities that an event carries are those of the pool that sends it. -/
theorem BridgePool.formatCaps_of_advertiseCaps {p : BridgePool} {width height memHints : UInt32}
    {reply : ProbeReply} {e : FormatCapsEvent}
    (h : .sent (.formatCaps e) ∈ (p.advertiseCaps width height memHints reply).records) :
    ∃ q : BridgePool, (p.advertiseCaps width height memHints reply).pool = q ∧
      e = q.formatCapsEvent ∧ q.caps.syncCaps = syncSyncobjTimeline ∧
      (∀ e ∈ q.caps.entries, e.fourcc ∈ candidateFourccs) ∧
      q.probeWidth = width ∧ q.probeHeight = height := by
  have hnot (ready syncobj : Bool) : .sent (.formatCaps e) ∉ (if ready then [] else
      [PoolRecord.sent (.ready p.caps.drm)]) ++
        if syncobj then [] else [PoolRecord.sent .releaseSyncobj] := by
    cases ready <;> cases syncobj <;> simp
  refine ⟨_, rfl, ?_⟩
  cases reply with
  | outOfMemory => cases h
  | vulkan _ _ | eglGbm _ _ _ =>
    unfold advertiseCaps at h ⊢
    dsimp only at h ⊢
    split at h
    · exact absurd h (hnot _ _)
    · rename_i hsome
      rw [if_neg hsome]
      have heq := (List.mem_append.1 h).resolve_left (hnot _ _)
      rw [List.mem_singleton] at heq
      injection heq with heq
      injection heq with heq
      exact ⟨heq, rfl, fun e he => fourcc_mem_probeCaps he, rfl, rfl⟩

/-! ## What a picked scheme asks for -/

/-- The tiled path is only taken for a pair on one device; everything else is LINEAR. -/
theorem path_of_pick {producer consumer : PeerCaps} {scheme : NegotiatedScheme}
    (h : pick producer consumer = .ok scheme) :
    pickSync producer.sync consumer.sync = .ok scheme.syncMode ∧
      (scheme.path = .compatLinear ∧ scheme.memSource = .gpuLinear ∨
        scheme.path = .optimizedSameDevice ∧ scheme.memSource = .gpuNative ∧
          producer.identity.sameDevice consumer.identity = true) := by
  unfold pick at h
  simp only [bind, Except.bind, pure, Except.pure] at h
  split at h
  · cases h
  · rename_i mode hmode
    split at h
    · rename_i hsame
      split at h
      · cases h
      · obtain rfl := Except.ok.inj h
        refine ⟨hmode, ?_⟩
        dsimp only
        split
        · exact .inl ⟨rfl, rfl⟩
        · exact .inr ⟨rfl, rfl, hsame⟩
    · split at h
      · cases h
      · obtain rfl := Except.ok.inj h
        exact ⟨hmode, .inl ⟨rfl, rfl⟩⟩

theorem and_timeline (c : UInt32) :
    c &&& syncSyncobjTimeline = 0 ∨ c &&& syncSyncobjTimeline = syncSyncobjTimeline := by
  have hland : (c &&& syncSyncobjTimeline).toNat = (c.toNat.testBit 2).toNat * 2 ^ 2 := by
    rw [UInt32.toNat_and]
    exact Nat.and_two_pow c.toNat 2
  cases hbit : c.toNat.testBit 2 with
  | false =>
    rw [hbit] at hland
    exact .inl (UInt32.toNat_inj.1 hland)
  | true =>
    rw [hbit] at hland
    exact .inr (UInt32.toNat_inj.1 hland)

/-- With a producer that only has timelines, a timeline is picked and both sides have it. -/
theorem pickSync_timeline {consumer mode : UInt32}
    (h : pickSync syncSyncobjTimeline consumer = .ok mode) :
    mode = syncSyncobjTimeline ∧ consumer &&& syncSyncobjTimeline = syncSyncobjTimeline := by
  have hcomm : syncSyncobjTimeline &&& consumer = consumer &&& syncSyncobjTimeline :=
    UInt32.and_comm ..
  unfold pickSync at h
  rw [hcomm] at h
  rcases and_timeline consumer with hzero | hone
  · rw [hzero] at h
    cases h
  · rw [hone] at h
    exact ⟨(Except.ok.inj h).symm, hone⟩

/-! ## What the pool makes of it -/

/-- Not another advertisement. -/
def PoolOp.KeepsCaps : PoolOp → Prop
  | .advertiseCaps .. => False
  | _ => True

namespace BridgePool

/-- What validation and allocation read of a pool. -/
structure SameCaps (p q : BridgePool) : Prop where
  backend : q.backend = p.backend
  caps : q.caps = p.caps
  probeWidth : q.probeWidth = p.probeWidth
  probeHeight : q.probeHeight = p.probeHeight

theorem SameCaps.trans {p q r : BridgePool} (h : p.SameCaps q) (h' : q.SameCaps r) :
    p.SameCaps r :=
  ⟨h'.backend.trans h.backend, h'.caps.trans h.caps, h'.probeWidth.trans h.probeWidth,
    h'.probeHeight.trans h.probeHeight⟩

theorem sameCaps_emitBindBuffers (p : BridgePool) : p.SameCaps p.emitBindBuffers.pool := by
  unfold emitBindBuffers
  split
  · exact ⟨rfl, rfl, rfl, rfl⟩
  · dsimp only
    split
    · exact ⟨rfl, rfl, rfl, rfl⟩
    · split
      · exact ⟨rfl, rfl, rfl, rfl⟩
      · split <;> exact ⟨rfl, rfl, rfl, rfl⟩

theorem sameCaps_exec (p : BridgePool) {op : PoolOp} (hop : op.KeepsCaps) :
    p.SameCaps (p.exec op).1 := by
  cases op with
  | advertiseCaps width height memHints reply => exact hop.elim
  | applyDirective d replies =>
    have h := p.applyDirective_directed d replies
    generalize hout : p.applyDirective d replies = out at h
    dsimp only [BridgePool.exec]
    rw [hout]
    cases h with
    | ignored _ | rejected _ | dryRun _ _ _ | midPool _ _ _ _ => exact ⟨rfl, rfl, rfl, rfl⟩
    | allocated added _ _ _ =>
      have hdirected : p.SameCaps { p.directed d with slots := added } := ⟨rfl, rfl, rfl, rfl⟩
      exact hdirected.trans (sameCaps_emitBindBuffers _)
  | acquireSlot index populated => exact ⟨rfl, rfl, rfl, rfl⟩
  | submitSlot index now =>
    dsimp only [BridgePool.exec]
    unfold submitSlot
    split <;> exact ⟨rfl, rfl, rfl, rfl⟩
  | waitSlotRelease index signaled =>
    dsimp only [BridgePool.exec]
    unfold waitSlotRelease
    split <;> exact ⟨rfl, rfl, rfl, rfl⟩

theorem sameCaps_execAll (p : BridgePool) {ops : List PoolOp} (hops : ∀ op ∈ ops, op.KeepsCaps) :
    p.SameCaps (p.execAll ops).1 := by
  induction ops generalizing p with
  | nil => exact ⟨rfl, rfl, rfl, rfl⟩
  | cons op ops ih =>
    exact (p.sameCaps_exec (hops op List.mem_cons_self)).trans
      (ih _ fun k hk => hops k (List.mem_cons_of_mem _ hk))

end BridgePool

/-- The driver does not allocate the slot, or with more planes than a slot holds. -/
def NotAllocated (backend : PoolBackend) (d : PoolDirective) :
    Except Errno DriverBuffer → Prop
  | .error _ => True
  | .ok buffer => poolMaxPlanes < match backend with
    | .eglGbm => atLeastOne buffer.planeCount
    | .vulkan => atLeastOne (if d.linearPath then 1 else d.planeCount.toNat)

theorem notAllocated_of_allocSlot {backend : PoolBackend} {d : PoolDirective} {index : ℕ}
    {reply : Except Errno DriverBuffer} {e : Errno} (hindex : index < poolMaxSlots)
    (hfourcc : d.fourcc ∈ candidateFourccs) (h : d.allocSlot backend index reply = .error e) :
    NotAllocated backend d reply := by
  cases reply with
  | error _ => trivial
  | ok buffer =>
    unfold PoolDirective.allocSlot at h
    rw [if_neg (not_le.2 hindex)] at h
    cases backend with
    | eglGbm =>
      simp only [Except.bind, bind] at h
      split at h
      · rename_i hplanes
        exact hplanes
      · cases h
    | vulkan =>
      have hmapped : ¬(!candidateFourccs.contains d.fourcc) = true := by simpa using hfourcc
      rw [if_neg hmapped] at h
      simp only [Except.bind, bind] at h
      unfold NotAllocated
      generalize (if d.linearPath then 1 else d.planeCount.toNat : ℤ) = n at h ⊢
      split at h
      · rename_i hplanes
        exact hplanes
      · cases h

theorem BridgePool.validateDirective_iff {q : BridgePool} {d : PoolDirective}
    (hcount : 0 < d.count.toNat ∧ d.count.toNat ≤ poolMaxSlots)
    (hpath : d.category = 2 ∧ d.memSource = 1 ∨ d.category = 0 ∧ d.memSource = 0 ∧
      ∃ e ∈ q.caps.entries, e.fourcc = d.fourcc ∧ e.modifier = d.modifier)
    (hsync : d.syncMode = syncSyncobjTimeline) :
    q.validateDirective d = .ok () ↔ q.probeWidth ≠ 0 ∧ q.probeHeight ≠ 0 := by
  have hrange : ¬(d.count = 0 ∨ poolMaxSlots < d.count.toNat) := by
    rintro (h | h)
    · rw [h] at hcount
      exact absurd hcount.1 (by decide)
    · omega
  unfold validateDirective
  rw [if_neg hrange]
  by_cases hzero : q.probeWidth = 0 ∨ q.probeHeight = 0
  · rw [if_pos hzero]
    exact iff_of_false (by rintro ⟨⟩) fun h => hzero.elim h.1 h.2
  · rw [if_neg hzero]
    refine iff_of_true ?_ (not_or.1 hzero)
    rcases hpath with ⟨hcategory, hsource⟩ | ⟨hcategory, hsource, e, he, hfourcc, hmodifier⟩
    · simp [hcategory, hsource, hsync]
    · have hentry : (q.caps.entries.any fun e => e.fourcc == d.fourcc && e.modifier == d.modifier)
          = true := List.any_eq_true.2 ⟨e, he, by simp [hfourcc, hmodifier]⟩
      simp [hcategory, hsource, hsync, hentry]

theorem exists_mods_of_pick {producer consumer : PeerCaps} {scheme : NegotiatedScheme}
    (h : pick producer consumer = .ok scheme) :
    ∃ mods, (scheme.fourcc, mods) ∈ producer.formats.byFourcc := by
  obtain ⟨-, -, hlisted⟩ := acceptable_of_pick h
  split at hlisted
  · obtain ⟨mods, -, -, hmods, -⟩ := hlisted
    exact ⟨mods, hmods⟩
  · exact hlisted.2.1

theorem BridgePool.not_bindFailed_emitBindBuffers {q : BridgePool} {fourcc : UInt32}
    {modifier : UInt64} {reason : UInt32} {message : String} :
    .sent (.bindFailed fourcc modifier reason message) ∉ q.emitBindBuffers.records := by
  unfold emitBindBuffers
  split
  · simp
  · dsimp only
    split
    · simp
    · split
      · simp
      · split <;> simp

/-- A directive for a picked scheme is rejected only by a pool without an extent; otherwise it can
only fail because the driver does not allocate. -/
theorem BridgePool.directive_of_pick {p : BridgePool} {width height memHints : UInt32}
    {reply : ProbeReply} {ops : List PoolOp} {e : FormatCapsEvent} {caps : PeerCaps}
    {blacklist : List (UInt32 × UInt64)} {consumer : PeerCaps} {scheme : NegotiatedScheme}
    {count : UInt32}
    (hsent : .sent (.formatCaps e) ∈ (p.advertiseCaps width height memHints reply).records)
    (hops : ∀ op ∈ ops, op.KeepsCaps) (hcaps : e.peerCaps = .ok caps)
    (hpick : pick { caps with blacklist := blacklist } consumer = .ok scheme)
    (hcount : 0 < count.toNat ∧ count.toNat ≤ poolMaxSlots) :
    let q := ((p.advertiseCaps width height memHints reply).pool.execAll ops).1
    let d := scheme.negotiateBuffers.directive count
    (q.validateDirective d = .ok () ↔ width ≠ 0 ∧ height ≠ 0) ∧
      (scheme.syncMode = syncSyncobjTimeline ∧ caps.sync &&& scheme.syncMode = scheme.syncMode ∧
        consumer.sync &&& scheme.syncMode = scheme.syncMode) ∧
      (width ≠ 0 → height ≠ 0 → ∀ replies fourcc modifier reason message,
        .sent (.bindFailed fourcc modifier reason message) ∈ (q.applyDirective d replies).records →
          ∃ i, NotAllocated q.backend (q.directed d).cur (replies i)) := by
  obtain ⟨q₀, hq₀, rfl, hsync, hfourccs, rfl, rfl⟩ := formatCaps_of_advertiseCaps hsent
  rw [hq₀]
  intro q d
  obtain ⟨-, hentries, hwidth, hheight⟩ := q₀.sameCaps_execAll hops
  obtain ⟨hmode, hpath⟩ := path_of_pick hpick
  obtain ⟨htimeline, hconsumer⟩ := pickSync_timeline (by
    rwa [show caps.sync = syncSyncobjTimeline from (sync_of_peerCaps hcaps).trans hsync] at hmode)
  have hfourcc : scheme.fourcc ∈ candidateFourccs := by
    obtain ⟨mods, hmods⟩ := exists_mods_of_pick hpick
    obtain ⟨e, he, hfourcc⟩ := fourcc_of_peerCaps hcaps hmods
    exact hfourcc ▸ hfourccs e he
  have hvalid : q.validateDirective d = .ok () ↔ q₀.probeWidth ≠ 0 ∧ q₀.probeHeight ≠ 0 := by
    rw [← hwidth, ← hheight]
    refine validateDirective_iff hcount ?_ htimeline
    rcases hpath with ⟨hpath, hsource⟩ | ⟨hpath, hsource, hsame⟩
    · exact .inl ⟨congrArg PathCategory.asU32 hpath, congrArg MemSource.asU32 hsource⟩
    · refine .inr ⟨congrArg PathCategory.asU32 hpath, congrArg MemSource.asU32 hsource, ?_⟩
      obtain ⟨-, -, hlisted⟩ := acceptable_of_pick hpick
      rw [if_pos hsame] at hlisted
      obtain ⟨mods, -, planes, hmods, -, hm, -⟩ := hlisted
      obtain ⟨e, he, hfourcc, hm⟩ := entry_of_peerCaps hcaps hmods hm
      exact ⟨e, hentries ▸ he, hfourcc, congrArg ModCap.modifier hm⟩
  refine ⟨hvalid, ⟨htimeline, ?_, ?_⟩,
    fun hw hh replies fourcc modifier reason message hfailed => ?_⟩
  · rw [sync_of_peerCaps hcaps, htimeline]
    exact congrArg (· &&& syncSyncobjTimeline) hsync
  · rw [htimeline, hconsumer]
  · have hok := hvalid.2 ⟨hw, hh⟩
    have hdirected := q.applyDirective_directed d replies
    generalize q.applyDirective d replies = out at hdirected hfailed
    cases hdirected with
    | ignored _ => cases hfailed
    | rejected herror => cases hok.symm.trans herror
    | dryRun _ hi halloc =>
      exact ⟨_, notAllocated_of_allocSlot (hi.trans_le hcount.2) hfourcc halloc⟩
    | midPool _ _ hi halloc =>
      exact ⟨_, notAllocated_of_allocSlot (hi.trans_le hcount.2) hfourcc halloc⟩
    | allocated _ _ _ _ =>
      rcases List.mem_cons.1 hfailed with hfailed | hfailed
      · cases hfailed
      · exact absurd hfailed not_bindFailed_emitBindBuffers

theorem NegotiateBuffers.count_videoDirective (nb : NegotiateBuffers) :
    0 < nb.videoDirective.count.toNat ∧ nb.videoDirective.count.toNat ≤ poolMaxSlots := by
  have hwanted : 0 < (if 0 < nb.count then nb.count else slotCount).toNat := by
    split
    · rename_i hcount
      exact UInt32.lt_iff_toNat_lt.1 hcount
    · decide
  dsimp only [videoDirective, directive]
  generalize (if 0 < nb.count then nb.count else slotCount) = count at hwanted ⊢
  split
  · decide
  · rename_i hle
    rw [UInt32.not_lt, UInt32.le_iff_toNat_le] at hle
    exact ⟨hwanted, hle.trans (by decide)⟩

/-- What a renderer makes of a picked scheme, for the caps that its pool advertised last. -/
theorem BridgePool.accepts_picked (p : BridgePool) (width height memHints : UInt32)
    (reply : ProbeReply) (ops : List PoolOp) (e : FormatCapsEvent) (caps : PeerCaps)
    (blacklist : List (UInt32 × UInt64)) (consumer : PeerCaps) (scheme : NegotiatedScheme)
    (d : PoolDirective)
    (hsent : .sent (.formatCaps e) ∈ (p.advertiseCaps width height memHints reply).records)
    (hops : ∀ op ∈ ops, op.KeepsCaps) (hcaps : e.peerCaps = .ok caps)
    (hpick : pick { caps with blacklist := blacklist } consumer = .ok scheme)
    (hd : d = scheme.negotiateBuffers.imageDirective ∨
      d = scheme.negotiateBuffers.videoDirective) :
    let q := ((p.advertiseCaps width height memHints reply).pool.execAll ops).1
    (q.validateDirective d = .ok () ↔ width ≠ 0 ∧ height ≠ 0) ∧
      (scheme.syncMode = syncSyncobjTimeline ∧ caps.sync &&& scheme.syncMode = scheme.syncMode ∧
        consumer.sync &&& scheme.syncMode = scheme.syncMode) ∧
      (width ≠ 0 → height ≠ 0 → ∀ replies fourcc modifier reason message,
        .sent (.bindFailed fourcc modifier reason message) ∈ (q.applyDirective d replies).records →
          ∃ i, NotAllocated q.backend (q.directed d).cur (replies i)) := by
  rcases hd with rfl | rfl
  · exact directive_of_pick hsent hops hcaps hpick (by decide)
  · exact directive_of_pick hsent hops hcaps hpick
      scheme.negotiateBuffers.count_videoDirective

/-- A consumer on another device. -/
def otherDeviceConsumer : PeerCaps where
  formats := ⟨[(drmFormatAbgr8888, [⟨drmFormatModLinear, 1⟩])]⟩
  identity := ⟨[0, 0, 0, 0], [0, 0, 0, 0], ⟨226, 129⟩⟩
  sync := syncSyncobjTimeline ||| syncImplicit
  color := 0
  memHint := 0
  extentMax := (16384, 16384)
  blacklist := []

def unprobedPool : BridgePool := .create .vulkan 0 unprobedCaps

/-- The probes find nothing, and LINEAR is advertised. -/
def nothingProbed : ProbeReply := .vulkan (fun _ => []) none

def linearCaps : PeerCaps where
  formats := ⟨[(drmFormatAbgr8888, [⟨drmFormatModLinear, 1⟩])]⟩
  identity := ⟨[0, 0, 0, 0], [0, 0, 0, 0], ⟨226, 128⟩⟩
  sync := syncSyncobjTimeline
  color := poolColorCaps
  memHint := 0
  extentMax := (16384, 16384)
  blacklist := []

def linearScheme : NegotiatedScheme :=
  ⟨drmFormatAbgr8888, drmFormatModLinear, 1, syncSyncobjTimeline, poolColorCaps, 0, 3,
    .compatLinear, .gpuLinear⟩

theorem accepts_linearScheme :
    (unprobedPool.advertiseCaps 1920 1080 0 nothingProbed).pool.validateDirective
      linearScheme.negotiateBuffers.videoDirective = .ok () :=
  (BridgePool.accepts_picked unprobedPool 1920 1080 0 nothingProbed []
    (unprobedPool.advertiseCaps 1920 1080 0 nothingProbed).pool.formatCapsEvent linearCaps []
    otherDeviceConsumer linearScheme _ (by decide) (List.forall_mem_nil _) rfl rfl
    (.inr rfl)).1.2 ⟨by decide, by decide⟩

/-- A pool that advertised without an extent rejects every directive. -/
theorem not_accepts_picked : ¬∀ (p : BridgePool) (width height memHints : UInt32)
    (reply : ProbeReply) (e : FormatCapsEvent) (caps : PeerCaps)
    (blacklist : List (UInt32 × UInt64)) (consumer : PeerCaps) (scheme : NegotiatedScheme),
      .sent (.formatCaps e) ∈ (p.advertiseCaps width height memHints reply).records →
      e.peerCaps = .ok caps → pick { caps with blacklist := blacklist } consumer = .ok scheme →
      (p.advertiseCaps width height memHints reply).pool.validateDirective
        scheme.negotiateBuffers.videoDirective = .ok () := by
  intro h
  have haccepted := h unprobedPool 0 0 0 nothingProbed
    (unprobedPool.advertiseCaps 0 0 0 nothingProbed).pool.formatCapsEvent linearCaps []
    otherDeviceConsumer linearScheme (by decide) rfl rfl
  cases haccepted

end Waywallen
