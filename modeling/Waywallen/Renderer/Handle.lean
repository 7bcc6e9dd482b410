import Waywallen.Dma.Negotiate
import Waywallen.Display.Layout
import Waywallen.Library.HashMap

/-!
# Renderer handles

A `RendererHandle` is what a renderer was started with, together with slots that its reader
thread writes and everybody else reads. The slots of all renderers live in the daemon's shared
state, indexed by renderer id; here is the record and its operations.
-/

namespace Waywallen

/-- A renderer id is a v4 UUID in its fixed-width printed form, read as the number it prints. -/
abbrev RendererId := ℕ

abbrev DisplayId := ℕ

/-- ASCII case folding, character by character. -/
def eqIgnoreAsciiCase (a b : String) : Bool :=
  a.toList.map Char.toLower == b.toList.map Char.toLower

/-- The immutable part of a handle, fixed when the renderer is spawned. -/
structure RendererHandle where
  id : RendererId
  wpType : String
  extras : HashMap String String
  name : String
  pid : Option ℕ
  gpu : DrmNode

/-- Snapshot of the most recent `BindBuffers` event; `fds` counts the DMA-BUF fds it owns. -/
structure BindSnapshot where
  generation : ℕ
  flags : UInt32
  count : ℕ
  fourcc : UInt32
  width : ℕ
  height : ℕ
  modifier : UInt64
  planesPerBuffer : ℕ
  stride : List UInt32
  planeOffset : List UInt32
  size : List UInt64
  fds : ℕ
deriving DecidableEq

structure FrameSnapshot where
  bufferGeneration : ℕ
  bufferIndex : ℕ
  seq : ℕ
  releasePoint : ℕ
deriving DecidableEq

/-- Pushed to the release reaper, one per consumer and frame; `consumerHandle` is the consumer whose
release syncobj comes with it, if any. -/
structure FrameRecord where
  releasePoint : ℕ
  consumerHandle : Option DisplayId
  expectedCount : ℕ
deriving DecidableEq

/-- The wire form of a capability declaration. -/
structure WireCaps where
  fourccs : List UInt32
  modCounts : List UInt32
  modifiers : List UInt64
  planeCounts : List UInt32
  deviceUuid : List UInt32
  driverUuid : List UInt32
  drm : DrmNode
  memHints : UInt32
  syncCaps : UInt32
  colorCaps : UInt32
  extentMax : UInt32 × UInt32
deriving DecidableEq

def WireCaps.unflatten (w : WireCaps) : Except NegotiateError PeerCaps :=
  unflattenCaps w.fourccs w.modCounts w.modifiers w.planeCounts w.deviceUuid w.driverUuid w.drm
    w.syncCaps w.colorCaps w.memHints w.extentMax

/-- What a renderer sends. `reportState` carries the last `clear_color` of the report that
parses. -/
inductive EventMsg
  | bindBuffers (snap : BindSnapshot)
  | frameReady (imageIndex seq releasePoint : ℕ)
  | releaseSyncobj
  | formatCaps (caps : WireCaps)
  | bindFailed (fourcc : UInt32) (modifier : UInt64)
  | reportState (clearColor : Option Rgba)
deriving DecidableEq

/-- What the daemon sends to a renderer. -/
inductive ControlMsg
  | play
  | pause
  | negotiateBuffers (scheme : NegotiatedScheme)
  | shutdown
deriving DecidableEq

/-- Upper bound on the fences the reader keeps before it evicts the oldest. -/
def syncFdRetention : ℕ := 16

/-- The shared slots of one renderer. `syncFds` holds the seqs of the acquire fences, oldest
first; `reaper` says whether a release reaper takes its frame records. -/
structure Slots where
  bindSnapshot : Option BindSnapshot
  syncFds : List ℕ
  latestFrame : Option FrameSnapshot
  releaseSyncobj : Bool
  formatCaps : Option PeerCaps
  lastDispatchedScheme : Option NegotiatedScheme
  clearRgba : Rgba
  reaper : Bool
  frameRecords : List FrameRecord

namespace Slots

/-- The slots of a renderer that has not sent anything yet. -/
def initial : Slots :=
  ⟨none, [], none, false, none, none, Rgba.black, false, []⟩

instance : Inhabited Slots := ⟨initial⟩

variable (s : Slots)

/-- The generation of the cached pool. -/
def generation : Option ℕ := s.bindSnapshot.map BindSnapshot.generation

def frameReadySeen : Bool := !s.syncFds.isEmpty

/-- The latest frame, as long as its acquire fence is still kept. -/
def latestReplayable : Option FrameSnapshot :=
  s.latestFrame.filter fun f => s.syncFds.contains f.seq

/-- Texture dimensions of the cached pool, `(0, 0)` before the first. -/
def textureSize : ℕ × ℕ :=
  match s.bindSnapshot with
  | some snap => (snap.width, snap.height)
  | none => (0, 0)

/-- Whether the acquire fence of frame `seq` can be duplicated. -/
def cloneSyncFd (seq : ℕ) : Bool := s.syncFds.contains seq

/-- Add a rejected pair to the producer's blacklist; whether it was new. -/
def blacklistFormat (fourcc : UInt32) (modifier : UInt64) : Slots × Bool :=
  match s.formatCaps with
  | none => (s, false)
  | some caps =>
      if caps.blacklist.contains (fourcc, modifier) then (s, false)
      else ({ s with formatCaps := some { caps with
        blacklist := (fourcc, modifier) :: caps.blacklist } }, true)

/-- The cached pool matches the scheme dispatched last. -/
def schemeSatisfied : Bool :=
  match s.lastDispatchedScheme, s.bindSnapshot with
  | some scheme, some snap => snap.fourcc == scheme.fourcc && snap.modifier == scheme.modifier
  | _, _ => false

/-- Push a per-frame record to the reaper, if one is wired. -/
def submitFrameRecord (r : FrameRecord) : Slots :=
  { s with frameRecords := if s.reaper then s.frameRecords ++ [r] else s.frameRecords }

/-- Keep the fence of a new frame, evicting the oldest beyond the retention. -/
def pushSyncFd (seq : ℕ) : Slots :=
  { s with syncFds := s.syncFds.drop (s.syncFds.length + 1 - syncFdRetention) ++ [seq] }

end Slots

namespace BindSnapshot

/-- The parallel arrays agree in length. -/
def consistent (b : BindSnapshot) : Bool :=
  let expected := b.count * b.planesPerBuffer
  b.stride.length == expected && b.planeOffset.length == expected &&
    b.size.length == expected && b.fds == expected

/-- What the reader accepts: consistent, and it came with fds. -/
def accepted (b : BindSnapshot) : Bool := b.consistent && b.fds != 0

end BindSnapshot

end Waywallen
