import Waywallen.Bridge.Caps
import Mathlib.Algebra.Group.Nat.Defs
import Mathlib.Logic.Function.Basic

/-!
# The buffer pool of a renderer

A renderer advertises the formats it can allocate, allocates a pool of slots when it is given a
directive, announces the pool, and submits its slots. What the drivers answer is an argument of the
operations. Counters of 64 bits are natural numbers, and sends succeed.
-/

namespace Waywallen

inductive Errno
  | einval
  | enotsup
  | enospc
  | enomem
  | eio
deriving DecidableEq

inductive PoolBackend
  | eglGbm
  | vulkan
deriving DecidableEq

def poolMaxSlots : ℕ := 8
def poolMaxPlanes : ℕ := 4

/-- What the daemon wants allocated. -/
structure PoolDirective where
  category : UInt32
  memSource : UInt32
  fourcc : UInt32
  modifier : UInt64
  planeCount : UInt32
  syncMode : UInt32
  color : UInt32
  memHint : UInt32
  width : UInt32
  height : UInt32
  count : UInt32
deriving DecidableEq

structure PoolCaps where
  entries : List FormatEntry
  memHints : UInt32
  syncCaps : UInt32
  colorCaps : UInt32
  extentMax : UInt32 × UInt32
  /-- The UUIDs of the device and of the driver, if they are known. -/
  uuids : Option (Vector UInt8 16 × Vector UInt8 16)
  drm : DrmNode
deriving DecidableEq

/-! ## The formats -/

def drmFormatAbgr8888 : UInt32 := 0x34324241

/-- The fourccs that both backends probe; the Vulkan backend has a format for each. -/
def candidateFourccs : List UInt32 :=
  [drmFormatAbgr8888, 0x34324258, 0x34325241, 0x34325258, 0x41424752, 0x41524742, 0x58424752,
    0x58524742]

/-- A modifier that the Vulkan driver lists for a format. -/
structure VulkanModifier where
  modifier : UInt64
  planeCount : UInt32
  tilingFeatures : UInt32
deriving DecidableEq

/-- What the drivers answer when they are probed; `none` for a modifier that GBM cannot allocate. -/
inductive ProbeReply
  | vulkan (modifiers : UInt32 → List VulkanModifier)
      (uuids : Option (Vector UInt8 16 × Vector UInt8 16))
  | eglGbm (imports : UInt32 → List UInt64) (produces : UInt32 → List UInt64 → Bool)
      (planes : UInt32 → UInt64 → Option ℤ)
  | outOfMemory

/-- LINEAR is exchanged with the first modifier. -/
def floatLinear (mods : List UInt64) : List UInt64 :=
  match mods, mods.findIdx? (· == drmFormatModLinear) with
  | m :: _, some i => (mods.set 0 drmFormatModLinear).set i (if i = 0 then drmFormatModLinear else m)
  | _, _ => mods

def atLeastOne (planes : ℤ) : ℕ := if planes ≤ 0 then 1 else planes.toNat

/-- The entries that the probes find, at most 256 of them with GBM. -/
def probedEntries (wantFeatures : UInt32) : ProbeReply → List FormatEntry
  | .vulkan modifiers _ => candidateFourccs.flatMap fun fourcc =>
      ((modifiers fourcc).filter fun m => m.tilingFeatures &&& wantFeatures == wantFeatures).map
        fun m => ⟨fourcc, m.modifier, m.planeCount⟩
  | .eglGbm imports produces planes => (candidateFourccs.flatMap fun fourcc =>
      let mods := floatLinear ((imports fourcc).take 64)
      if mods.isEmpty || !produces fourcc mods then []
      else mods.filterMap fun m => (planes fourcc m).map fun n =>
        ⟨fourcc, m, (atLeastOne n).toUInt32⟩).take 256
  | .outOfMemory => []

/-- What is advertised when the probes find nothing. -/
def fallbackEntry : FormatEntry := ⟨drmFormatAbgr8888, drmFormatModLinear, 1⟩

def poolColorCaps : UInt32 := colorEncSrgb ||| colorRangeLimited ||| colorAlphaPremul

def PoolCaps.probeCaps (caps : PoolCaps) (wantFeatures : UInt32) (reply : ProbeReply) : PoolCaps :=
  { caps with
    entries := if (probedEntries wantFeatures reply).isEmpty then [fallbackEntry]
      else probedEntries wantFeatures reply
    uuids := match reply with
      | .vulkan _ (some uuids) => some uuids
      | _ => caps.uuids
    syncCaps := syncSyncobjTimeline
    colorCaps := poolColorCaps
    extentMax := (16384, 16384) }

/-! ## The slots -/

structure SlotPlane where
  stride : UInt32
  offset : UInt32
  size : UInt64
deriving DecidableEq

/-- An allocated slot. -/
structure SlotLayout where
  planes : List SlotPlane
  modifier : UInt64
deriving DecidableEq

def SlotLayout.planeCount (s : SlotLayout) : ℕ := s.planes.length

/-- A buffer as the driver describes it. -/
structure DriverBuffer where
  planeCount : ℤ
  plane : ℕ → SlotPlane
  modifier : UInt64

namespace PoolDirective

/-- The modifier of the directive is not used, LINEAR is. -/
def linearPath (d : PoolDirective) : Bool := d.category == 2 || d.memSource == 1

/-- The sizes that GBM does not tell: up to the next plane, or the rows of the last one. -/
def gbmPlanes (d : PoolDirective) (buffer : DriverBuffer) (n : ℕ) : List SlotPlane :=
  (List.range n).map fun i =>
    { buffer.plane i with
      size := if i + 1 < n then
          (buffer.plane (i + 1)).offset.toUInt64 - (buffer.plane i).offset.toUInt64
        else (buffer.plane i).stride.toUInt64 * d.height.toUInt64 }

/-- Allocate one slot. The Vulkan backend describes the planes that the directive counts. -/
def allocSlot (backend : PoolBackend) (d : PoolDirective) (index : ℕ)
    (reply : Except Errno DriverBuffer) : Except Errno SlotLayout :=
  if poolMaxSlots ≤ index then .error .einval
  else match backend with
    | .eglGbm => do
        let buffer ← reply
        if poolMaxPlanes < atLeastOne buffer.planeCount then .error .enospc
        else .ok ⟨d.gbmPlanes buffer (atLeastOne buffer.planeCount), buffer.modifier⟩
    | .vulkan =>
        if !candidateFourccs.contains d.fourcc then .error .einval
        else do
          let buffer ← reply
          let planeCount := atLeastOne (if d.linearPath then 1 else d.planeCount.toNat)
          if poolMaxPlanes < planeCount then .error .enospc
          else .ok ⟨(List.range planeCount).map buffer.plane, buffer.modifier⟩

end PoolDirective

/-! ## The pool -/

structure BridgePool where
  backend : PoolBackend
  wantFeatures : UInt32
  caps : PoolCaps
  capsAdvertised : Bool
  cur : PoolDirective
  hasDirective : Bool
  bindGeneration : ℕ
  /-- The slots that are allocated. -/
  slots : List SlotLayout
  releasePoint : ℕ
  /-- The point at which a slot is released, `0` if it was not submitted. -/
  lastReleasePoint : ℕ → ℕ
  readySent : Bool
  releaseSyncobjSent : Bool
  probeWidth : UInt32
  probeHeight : UInt32

structure FormatCapsEvent where
  arrays : FormatArrays
  deviceUuid : List UInt32
  driverUuid : List UInt32
  drm : DrmNode
  memHints : UInt32
  syncCaps : UInt32
  colorCaps : UInt32
  extentMax : UInt32 × UInt32
deriving DecidableEq

structure BindBuffers where
  generation : ℕ
  flags : UInt32
  count : ℕ
  fourcc : UInt32
  width : UInt32
  height : UInt32
  modifier : UInt64
  planesPerBuffer : ℕ
  stride : List UInt32
  planeOffset : List UInt32
  size : List UInt64
deriving DecidableEq

structure FrameReady where
  imageIndex : ℕ
  seq : ℕ
  tsNs : UInt64
  releasePoint : ℕ
deriving DecidableEq

inductive PoolEvent
  | ready (drm : DrmNode)
  | releaseSyncobj
  | formatCaps (caps : FormatCapsEvent)
  | bindBuffers (bind : BindBuffers)
  | frameReady (frame : FrameReady)
  | bindFailed (fourcc : UInt32) (modifier : UInt64) (reason : UInt32) (message : String)
deriving DecidableEq

/-- What happens in the course of the operations: an event is sent, the slots are torn down, or a
slot is waited for; `none` if there is no point to wait for. -/
inductive PoolRecord
  | sent (event : PoolEvent)
  | tornDown
  | waited (slot : ℕ) (point : Option ℕ)
deriving DecidableEq

structure PoolOutcome where
  pool : BridgePool
  records : List PoolRecord
  result : Except Errno Unit

namespace BridgePool

variable (p : BridgePool)

def create (backend : PoolBackend) (wantFeatures : UInt32) (caps : PoolCaps) : BridgePool where
  backend := backend
  wantFeatures := wantFeatures
  caps := caps
  capsAdvertised := false
  cur := ⟨0, 0, 0, 0, 0, 0, 0, 0, 0, 0, 0⟩
  hasDirective := false
  bindGeneration := 0
  slots := []
  releasePoint := 0
  lastReleasePoint := fun _ => 0
  readySent := false
  releaseSyncobjSent := false
  probeWidth := 0
  probeHeight := 0

/-- Slot identities change, so the points of the old slots are forgotten. -/
def teardownSlots : BridgePool :=
  { p with slots := [], lastReleasePoint := fun _ => 0 }

def formatCapsEvent : FormatCapsEvent where
  arrays := negotiationFillFormatCaps p.caps.entries
  deviceUuid := uuidWords (p.caps.uuids.map Prod.fst)
  driverUuid := uuidWords (p.caps.uuids.map Prod.snd)
  drm := p.caps.drm
  memHints := p.caps.memHints
  syncCaps := p.caps.syncCaps
  colorCaps := p.caps.colorCaps
  extentMax := p.caps.extentMax

def advertiseCaps (width height memHints : UInt32) (reply : ProbeReply) : PoolOutcome :=
  let p := { p with probeWidth := width, probeHeight := height
                    caps := { p.caps with memHints := memHints } }
  match reply with
  | .outOfMemory => ⟨p, [], .error .enomem⟩
  | reply =>
      let ready := if p.readySent then [] else [.sent (.ready p.caps.drm)]
      let syncobj := if p.releaseSyncobjSent then [] else [.sent .releaseSyncobj]
      let p := { p with caps := p.caps.probeCaps p.wantFeatures reply
                        capsAdvertised := true, readySent := true, releaseSyncobjSent := true }
      if p.caps.entries.isEmpty then ⟨p, ready ++ syncobj, .error .enotsup⟩
      else ⟨p, ready ++ syncobj ++ [.sent (.formatCaps p.formatCapsEvent)], .ok ()⟩

def validateDirective (d : PoolDirective) : Except Errno Unit :=
  if d.count = 0 ∨ poolMaxSlots < d.count.toNat then .error .einval
  else if p.probeWidth = 0 ∨ p.probeHeight = 0 then .error .einval
  else if d.category = 3 then .error .enotsup
  else if 3 < d.category then .error .einval
  else if d.memSource = 2 then .error .enotsup
  else if 2 < d.memSource then .error .einval
  -- Only the optimized paths must name an advertised pair.
  else if (d.category = 0 ∨ d.category = 1) ∧
      ¬(p.caps.entries.any fun e => e.fourcc == d.fourcc && e.modifier == d.modifier) then
    .error .enotsup
  else if d.syncMode ≠ syncSyncobjTimeline then .error .enotsup
  else .ok ()

/-- Allocate the `n` slots from the index on. -/
def allocSlots (replies : ℕ → Except Errno DriverBuffer) :
    BridgePool → ℕ → ℕ → BridgePool × Except Errno Unit
  | p, _, 0 => (p, .ok ())
  | p, index, n + 1 =>
      match p.cur.allocSlot p.backend index (replies index) with
      | .error e => (p, .error e)
      | .ok slot => allocSlots replies { p with slots := p.slots ++ [slot] } (index + 1) n

def bufHostVisible : UInt32 := 1

/-- The event that announces the slots. -/
def bindEvent (slot : SlotLayout) : BindBuffers where
  generation := p.bindGeneration
  flags := if p.cur.memSource = 1 ∨ p.cur.memSource = 2 then bufHostVisible else 0
  count := p.slots.length
  fourcc := p.cur.fourcc
  width := p.cur.width
  height := p.cur.height
  modifier := slot.modifier
  planesPerBuffer := slot.planeCount
  stride := p.slots.flatMap fun s => s.planes.map SlotPlane.stride
  planeOffset := p.slots.flatMap fun s => s.planes.map SlotPlane.offset
  size := p.slots.flatMap fun s => s.planes.map SlotPlane.size

def emitBindBuffers : PoolOutcome :=
  match p.slots with
  | [] => ⟨p, [], .error .einval⟩
  | slot :: rest =>
      if poolMaxSlots < rest.length + 1 then ⟨p, [], .error .einval⟩
      else
        let p := { p with bindGeneration := p.bindGeneration + 1 }
        if slot.planeCount = 0 ∨ poolMaxPlanes < slot.planeCount then ⟨p, [], .error .einval⟩
        else if ¬∀ s ∈ rest, s.planeCount = slot.planeCount then ⟨p, [], .error .einval⟩
        else ⟨p, [.sent (.bindBuffers (p.bindEvent slot))], .ok ()⟩

/-- The directive with the extent that the renderer draws at. -/
def directed (d : PoolDirective) : BridgePool :=
  { p.teardownSlots with
    cur := { d with
      width := if 0 < p.probeWidth then p.probeWidth else d.width
      height := if 0 < p.probeHeight then p.probeHeight else d.height }
    hasDirective := true }

def applyDirective (d : PoolDirective) (replies : ℕ → Except Errno DriverBuffer) : PoolOutcome :=
  if !p.capsAdvertised then ⟨p, [], .error .einval⟩
  else match p.validateDirective d with
    | .error e =>
        ⟨p, [.sent (.bindFailed d.fourcc d.modifier 2 "directive rejected by pool")], .error e⟩
    | .ok () =>
        match allocSlots replies (p.directed d) 0 1 with
        | (p, .error e) =>
            ⟨p, [.tornDown, .sent (.bindFailed d.fourcc d.modifier 0 "alloc_slot dry-run failed")],
              .error e⟩
        | (p, .ok ()) =>
            match allocSlots replies p 1 (d.count.toNat - 1) with
            | (p, .error e) =>
                ⟨p.teardownSlots,
                  [.tornDown, .sent (.bindFailed d.fourcc d.modifier 1 "alloc_slot failed mid-pool"),
                    .tornDown], .error e⟩
            | (p, .ok ()) =>
                let out := p.emitBindBuffers
                ⟨out.pool, .tornDown :: out.records, out.result⟩

/-- A slot as the renderer sees it. -/
structure SlotView where
  index : ℕ
  width : UInt32
  height : UInt32
  stride : UInt32
  planeOffset : UInt32
  size : UInt32
deriving DecidableEq

def acquireSlot (index : ℕ) (populated : Except Errno Unit) : Except Errno SlotView :=
  if !p.hasDirective then .error .einval
  else match p.slots[index]? with
    | none => .error .einval
    | some slot => do
        populated
        let plane := slot.planes.headD ⟨0, 0, 0⟩
        return ⟨index, p.cur.width, p.cur.height, plane.stride, plane.offset, plane.size.toUInt32⟩

def submitSlot (index : ℕ) (now : UInt64) : PoolOutcome :=
  if !p.hasDirective ∨ p.slots.length ≤ index then ⟨p, [], .error .einval⟩
  else
    let pt := p.releasePoint + 1
    ⟨{ p with releasePoint := pt, lastReleasePoint := Function.update p.lastReleasePoint index pt },
      [.sent (.frameReady ⟨index, pt, now, pt⟩)], .ok ()⟩

/-- Point 0 was never submitted and is not waited for. -/
def timelineWait (point : ℕ) : Option ℕ := if point = 0 then none else some point

def waitSlotRelease (index : ℕ) (signaled : Except Errno Unit) : PoolOutcome :=
  if !p.hasDirective ∨ p.slots.length ≤ index then ⟨p, [], .error .einval⟩
  else
    let point := timelineWait (p.lastReleasePoint index)
    ⟨p, [.waited index point], if point.isSome then signaled else .ok ()⟩

end BridgePool

/-- An operation on the pool, with what the drivers answer. -/
inductive PoolOp
  | advertiseCaps (width height memHints : UInt32) (reply : ProbeReply)
  | applyDirective (d : PoolDirective) (replies : ℕ → Except Errno DriverBuffer)
  | acquireSlot (index : ℕ) (populated : Except Errno Unit)
  | submitSlot (index : ℕ) (now : UInt64)
  | waitSlotRelease (index : ℕ) (signaled : Except Errno Unit)

/-- An operation with the pool it leaves and what happens meanwhile. -/
def BridgePool.exec (p : BridgePool) : PoolOp → BridgePool × List PoolRecord
  | .advertiseCaps width height memHints reply =>
      let out := p.advertiseCaps width height memHints reply
      (out.pool, out.records)
  | .applyDirective d replies =>
      let out := p.applyDirective d replies
      (out.pool, out.records)
  | .acquireSlot _ _ => (p, [])
  | .submitSlot index now =>
      let out := p.submitSlot index now
      (out.pool, out.records)
  | .waitSlotRelease index signaled =>
      let out := p.waitSlotRelease index signaled
      (out.pool, out.records)

/-- The operations one after the other, with everything that happens. -/
def BridgePool.execAll (p : BridgePool) : List PoolOp → BridgePool × List PoolRecord
  | [] => (p, [])
  | op :: ops =>
      let (q, records) := p.exec op
      let (r, rest) := q.execAll ops
      (r, records ++ rest)

end Waywallen
