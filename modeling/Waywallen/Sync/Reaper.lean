import Mathlib.Data.List.Lattice
import Waywallen.Library.Transition
import Waywallen.Renderer.Handle

/-!
# The release reaper

Each renderer has a reaper. It gathers the frame records of one release point in a bucket until
all consumers have sent theirs or the bucket has timed out, waits for the consumers' fences and
transfers them to the point on the producer's release timeline. A frame without recipients is
transferred at once.
-/

namespace Waywallen

structure Bucket where
  handles : List DisplayId
  expected : ℕ
  deadline : ℕ
deriving DecidableEq

/-- A point of the producer's timeline and what was transferred to it: the handles of the bucket,
those of them whose fences were merged, and whether the bucket was flushed by its time-out. -/
structure Transfer where
  point : ℕ
  handles : List DisplayId
  merged : List DisplayId
  timedOut : Bool
deriving DecidableEq

/-- The results of the system calls that complete one point. -/
structure Ioctls where
  importsProducer : Bool
  createsSyncobj : Bool
  signals : Bool
  joins : Bool
  /-- All handles were signalled before the wait timed out; if not, they are signalled by force. -/
  waits : Bool
  exports : ℕ → Bool
  merges : ℕ → Bool
  importsFile : Bool
  transfers : Bool

/-- `imported` says whether the producer's syncobj has been imported. -/
structure Reaper where
  imported : Bool
  buckets : HashMap ℕ Bucket
  timeline : List Transfer

/-- Maximum age of a bucket and of a wait, in milliseconds. -/
def bucketTimeout : ℕ := 500

namespace Reaper

def new : Reaper :=
  ⟨false, ∅, []⟩

def transfer (s : Reaper) (io : Ioctls) (t : Transfer) : Reaper :=
  if io.transfers then { s with timeline := s.timeline ++ [t] } else s

/-- Complete the point of a frame that has no recipients. -/
def advanceReleasePoint (s : Reaper) (io : Ioctls) (point : ℕ) : Reaper :=
  if !(s.imported || io.importsProducer) then s
  else
    let s := { s with imported := true }
    if !io.createsSyncobj || !io.signals then s
    else s.transfer io ⟨point, [], [], false⟩

/-- The handles whose fences are in the merged file: the first one, and each later one unless its
merge fails. -/
def mergedHandles (io : Ioctls) (handles : List DisplayId) : List DisplayId :=
  (handles.zipIdx.filter fun h => h.2 == 0 || io.merges h.2).map Prod.fst

/-- Complete the point of a bucket. -/
def flushBucket (s : Reaper) (io : Ioctls) (point : ℕ) (bucket : Bucket) (timedOut : Bool) :
    Reaper :=
  if bucket.handles = [] then s
  else if !(s.imported || io.importsProducer) then s
  else
    let s := { s with imported := true }
    if !io.joins then s
    else if bucket.handles.length = 1 then
      s.transfer io ⟨point, bucket.handles, bucket.handles, timedOut⟩
    else if bucket.handles.zipIdx.any fun h => !io.exports h.2 then
      s.transfer io ⟨point, bucket.handles, bucket.handles.take 1, timedOut⟩
    else if !io.createsSyncobj || !io.importsFile then s
    else s.transfer io ⟨point, bucket.handles, mergedHandles io bucket.handles, timedOut⟩

/-- Take a record from the channel. -/
def receive (s : Reaper) (now : ℕ) (io : Ioctls) (record : FrameRecord) : Reaper :=
  match record.consumerHandle with
  | none => s.advanceReleasePoint io record.releasePoint
  | some handle =>
    let entry := (s.buckets.lookup record.releasePoint).getD
      ⟨[], record.expectedCount, now + bucketTimeout⟩
    let entry := { entry with
      expected := max entry.expected record.expectedCount
      handles := entry.handles ++ [handle] }
    if entry.expected ≤ entry.handles.length then
      { s with buckets := s.buckets.erase record.releasePoint }.flushBucket io record.releasePoint
        entry false
    else { s with buckets := s.buckets.insert record.releasePoint entry }

/-- The points whose buckets have timed out, in the order of the map. -/
def expired (s : Reaper) (now : ℕ) : List ℕ :=
  (s.buckets.entries.filter fun e => e.2.deadline ≤ now).map Sigma.fst

/-- Flush the buckets of the given points. -/
def flushExpired (s : Reaper) (io : ℕ → Ioctls) : List ℕ → Reaper
  | [] => s
  | point :: points =>
    match s.buckets.lookup point with
    | none => s.flushExpired io points
    | some bucket =>
      ({ s with buckets := s.buckets.erase point }.flushBucket (io point) point bucket
        true).flushExpired io points

/-- What the reaper wakes up for. `promote` stands for the order of the map, which is unspecified. -/
inductive Wake
  | record (now : ℕ) (io : Ioctls) (record : FrameRecord)
  | deadline (now : ℕ) (io : ℕ → Ioctls)
  | promote (point : ℕ)

def step (s : Reaper) : Wake → Option Reaper
  | .record now io r => some (s.receive now io r)
  | .deadline now io => some (s.flushExpired io (s.expired now))
  | .promote point => some { s with buckets := s.buckets.promote point }

/-- The points transferred so far. -/
def points (s : Reaper) : List ℕ :=
  s.timeline.map Transfer.point

end Reaper

end Waywallen
