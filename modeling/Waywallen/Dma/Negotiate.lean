import Mathlib.Data.List.Sort

/-!
# Modifier negotiation

The capabilities a renderer (producer) and a display (consumer) declare, the decoder of their
wire form, and the picker that chooses one buffer scheme for a pair.
-/

namespace Waywallen

/-- DRM render-node identity; `(0, 0)` is the sentinel for an unknown render node. -/
structure DrmNode where
  major : UInt32
  minor : UInt32
deriving DecidableEq

namespace DrmNode

def unknown : DrmNode := ⟨0, 0⟩

def isKnown (n : DrmNode) : Bool := n.major != 0 || n.minor != 0

end DrmNode

/-- Per-(fourcc, modifier) capability descriptor. -/
structure ModCap where
  modifier : UInt64
  planeCount : UInt32
deriving DecidableEq

/-- fourcc → modifier capability list, in ascending order of the fourccs. -/
structure FormatCaps where
  byFourcc : List (UInt32 × List ModCap)
deriving DecidableEq

/-- Device identity; a UUID is the four words of its wire form, in little-endian packing. -/
structure DeviceIdentity where
  deviceUuid : List UInt32
  driverUuid : List UInt32
  drm : DrmNode
deriving DecidableEq

/-- Combined capability set from a single peer. `blacklist` holds the (fourcc, modifier) pairs the
peer rejected. -/
structure PeerCaps where
  formats : FormatCaps
  identity : DeviceIdentity
  sync : UInt32
  color : UInt32
  memHint : UInt32
  extentMax : UInt32 × UInt32
  blacklist : List (UInt32 × UInt64)
deriving DecidableEq

inductive PathCategory
  | optimizedSameDevice
  | optimizedSameVendor
  | compatLinear
  | compatCpuReadback
deriving DecidableEq

inductive MemSource
  | gpuNative
  | gpuLinear
  | dmabufHeap
deriving DecidableEq

/-- Resolved scheme that both peers use until the next renegotiation. -/
structure NegotiatedScheme where
  fourcc : UInt32
  modifier : UInt64
  planeCount : UInt32
  syncMode : UInt32
  color : UInt32
  memHint : UInt32
  count : UInt32
  path : PathCategory
  memSource : MemSource
deriving DecidableEq

inductive NegotiateError
  | noFormatIntersection
  | noSyncIntersection
  | malformedCaps (message : String)
deriving DecidableEq

def memHintDeviceLocal : UInt32 := (1 : UInt32) <<< 0
def memHintHostVisible : UInt32 := (1 : UInt32) <<< 1

def syncImplicit : UInt32 := (1 : UInt32) <<< 0
def syncSyncobjBinary : UInt32 := (1 : UInt32) <<< 1
def syncSyncobjTimeline : UInt32 := (1 : UInt32) <<< 2

def colorEncSrgb : UInt32 := (1 : UInt32) <<< 0
def colorEncLinear : UInt32 := (1 : UInt32) <<< 1
def colorEncBt601 : UInt32 := (1 : UInt32) <<< 2
def colorEncBt709 : UInt32 := (1 : UInt32) <<< 3
def colorEncBt2020 : UInt32 := (1 : UInt32) <<< 4
def colorRangeFull : UInt32 := (1 : UInt32) <<< 5
def colorRangeLimited : UInt32 := (1 : UInt32) <<< 6
def colorAlphaPremul : UInt32 := (1 : UInt32) <<< 7
def colorAlphaStraight : UInt32 := (1 : UInt32) <<< 8

/-- Used when the intersection on a color axis is empty. -/
def defaultColor : UInt32 := colorEncSrgb ||| colorRangeLimited ||| colorAlphaPremul

def drmFormatModLinear : UInt64 := 0

def colorMaskEncoding : UInt32 :=
  colorEncSrgb ||| colorEncLinear ||| colorEncBt601 ||| colorEncBt709 ||| colorEncBt2020
def colorMaskRange : UInt32 := colorRangeFull ||| colorRangeLimited
def colorMaskAlpha : UInt32 := colorAlphaPremul ||| colorAlphaStraight

/-- Default pool size when both sides leave it unspecified. -/
def defaultPoolCount : UInt32 := 3

/-- Whether two identities refer to the same physical GPU: the UUIDs decide when both are known,
the render nodes otherwise. -/
def DeviceIdentity.sameDevice (a b : DeviceIdentity) : Bool :=
  if a.deviceUuid != [0, 0, 0, 0] && b.deviceUuid != [0, 0, 0, 0] then
    a.deviceUuid == b.deviceUuid
  else if a.drm.isKnown && b.drm.isKnown then
    a.drm == b.drm
  else
    false

namespace FormatCaps

def get (f : FormatCaps) (fourcc : UInt32) : Option (List ModCap) :=
  (f.byFourcc.find? fun e => e.1 == fourcc).map Prod.snd

/-- Append `caps` to the entry of `fourcc`, made in its sorted place if it is missing. -/
def extendEntry (fourcc : UInt32) (caps : List ModCap) :
    List (UInt32 × List ModCap) → List (UInt32 × List ModCap)
  | [] => [(fourcc, caps)]
  | e :: es =>
      if e.1 == fourcc then (e.1, e.2 ++ caps) :: es
      else if fourcc < e.1 then (fourcc, caps) :: e :: es
      else e :: extendEntry fourcc caps es

end FormatCaps

/-- The loop of `unflattenCaps`: one fourcc after the other takes its share of the two parallel
arrays. -/
def unflattenEntries : List UInt32 → List UInt32 → List UInt64 → List UInt32 →
    List (UInt32 × List ModCap) → List (UInt32 × List ModCap)
  | fourcc :: fourccs, n :: modCounts, modifiers, planeCounts, acc =>
      let caps := (modifiers.take n.toNat).zipWith ModCap.mk (planeCounts.take n.toNat)
      unflattenEntries fourccs modCounts (modifiers.drop n.toNat) (planeCounts.drop n.toNat)
        (FormatCaps.extendEntry fourcc caps acc)
  | _, _, _, _, acc => acc

/-- Wire parallel arrays → structured `PeerCaps`; checks every length the picker depends on. -/
def unflattenCaps (fourccs modCounts : List UInt32) (modifiers : List UInt64)
    (planeCounts deviceUuid driverUuid : List UInt32) (drm : DrmNode)
    (sync color memHint : UInt32) (extentMax : UInt32 × UInt32) :
    Except NegotiateError PeerCaps :=
  let total := modCounts.foldl (fun n c => n + c.toNat) 0
  if fourccs.length ≠ modCounts.length then
    .error (.malformedCaps "fourccs.len() != mod_counts.len()")
  else if modifiers.length ≠ total then
    .error (.malformedCaps "modifiers.len() != sum(mod_counts)")
  else if planeCounts.length ≠ total then
    .error (.malformedCaps "plane_counts.len() != sum(mod_counts)")
  else if deviceUuid.length ≠ 4 ∨ driverUuid.length ≠ 4 then
    .error (.malformedCaps "device_uuid/driver_uuid must be 4×u32 (16 bytes packed LE)")
  else
    .ok {
      formats := ⟨unflattenEntries fourccs modCounts modifiers planeCounts []⟩
      identity := ⟨deviceUuid, driverUuid, drm⟩
      sync, color, memHint, extentMax
      blacklist := [] }

/-! ## The picker -/

/-- The best sync mode both sides support, as exactly one bit. -/
def pickSync (producer consumer : UInt32) : Except NegotiateError UInt32 :=
  let common := producer &&& consumer
  if common == 0 then .error .noSyncIntersection
  else if common &&& syncSyncobjTimeline != 0 then .ok syncSyncobjTimeline
  else if common &&& syncSyncobjBinary != 0 then .ok syncSyncobjBinary
  else .ok syncImplicit

/-- One color axis: the lowest common bit, or the default of that axis. -/
def pickColorAxis (intersect mask : UInt32) : UInt32 :=
  let common := intersect &&& mask
  if common != 0 then common &&& (0 - common) else defaultColor &&& mask

def pickColor (producer consumer : UInt32) : UInt32 :=
  let intersect := producer &&& consumer
  pickColorAxis intersect colorMaskEncoding ||| pickColorAxis intersect colorMaskRange |||
    pickColorAxis intersect colorMaskAlpha

def pickMemHintSameDev (producer consumer : UInt32) : UInt32 :=
  let common := producer &&& consumer
  if common &&& memHintDeviceLocal != 0 then memHintDeviceLocal
  else if common &&& memHintHostVisible != 0 then memHintHostVisible
  else if common != 0 then common
  else memHintHostVisible

/-- Cross-device: the first producer fourcc the consumer knows and neither side rejected as
LINEAR. -/
def pickFourccOnly (producer consumer : FormatCaps)
    (pBlacklist cBlacklist : List (UInt32 × UInt64)) : Except NegotiateError UInt32 :=
  match producer.byFourcc.find? fun e =>
      (consumer.get e.1).isSome && !pBlacklist.contains (e.1, drmFormatModLinear) &&
        !cBlacklist.contains (e.1, drmFormatModLinear) with
  | some e => .ok e.1
  | none => .error .noFormatIntersection

/-- The modifiers of one fourcc both sides list with equal plane counts and neither rejected, in
producer order. -/
def intersectModifiers (fourcc : UInt32) (pMods cMods : List ModCap)
    (pBlacklist cBlacklist : List (UInt32 × UInt64)) : List ModCap :=
  pMods.filter fun pc =>
    !pBlacklist.contains (fourcc, pc.modifier) && !cBlacklist.contains (fourcc, pc.modifier) &&
      cMods.contains pc

/-- Walk the fourccs in sorted order; a non-LINEAR modifier wins over every LINEAR one. -/
def pickFormatSameDevice (producer consumer : FormatCaps)
    (pBlacklist cBlacklist : List (UInt32 × UInt64)) :
    Except NegotiateError (UInt32 × UInt64 × UInt32) :=
  let shared := producer.byFourcc.filterMap fun e =>
    (consumer.get e.1).map fun cMods =>
      (e.1, intersectModifiers e.1 e.2 cMods pBlacklist cBlacklist)
  let bestNonLinear := shared.findSome? fun e =>
    (e.2.find? fun m => m.modifier != drmFormatModLinear).map fun m =>
      (e.1, m.modifier, m.planeCount)
  let linearFallback := shared.findSome? fun e =>
    (e.2.find? fun m => m.modifier == drmFormatModLinear).map fun m =>
      (e.1, drmFormatModLinear, m.planeCount)
  match bestNonLinear.or linearFallback with
  | some pick => .ok pick
  | none => .error .noFormatIntersection

/-- Pick a buffer scheme for a producer/consumer pair: topology first, then the formats. -/
def pick (producer consumer : PeerCaps) : Except NegotiateError NegotiatedScheme := do
  let syncMode ← pickSync producer.sync consumer.sync
  let color := pickColor producer.color consumer.color
  if producer.identity.sameDevice consumer.identity then
    let (fourcc, modifier, planeCount) ← pickFormatSameDevice producer.formats consumer.formats
      producer.blacklist consumer.blacklist
    let linear := modifier == drmFormatModLinear
    return {
      fourcc, modifier, planeCount, syncMode, color
      memHint := pickMemHintSameDev producer.memHint consumer.memHint
      count := defaultPoolCount
      path := if linear then .compatLinear else .optimizedSameDevice
      memSource := if linear then .gpuLinear else .gpuNative }
  else
    let fourcc ← pickFourccOnly producer.formats consumer.formats producer.blacklist
      consumer.blacklist
    return {
      fourcc, modifier := drmFormatModLinear, planeCount := 1, syncMode, color
      memHint := 0
      count := defaultPoolCount
      path := .compatLinear
      memSource := .gpuLinear }

end Waywallen
