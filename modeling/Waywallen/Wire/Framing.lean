import Waywallen.Library.ByteStream
import Waywallen.Library.LittleEndian

/-!
# Frames on a socket

A frame is an opcode, a body and descriptors, behind a header of four bytes. The control socket of
a renderer (`uds`), the display endpoint (`codec`) and the bridge of the renderers each have a
framer of their own; the Rust ones agree word for word.
-/

universe u

namespace Waywallen.Wire

/-- `MAX_FDS_PER_MSG`, and `WW_BRIDGE_MAX_FDS`. -/
def maxFdsPerMsg : ℕ := 64

def bridgeMaxBody : ℕ := 65535 - 4

structure Frame (F : Type u) where
  opcode : UInt16
  body : List UInt8
  fds : List F
deriving DecidableEq

namespace Frame

variable {F : Type u}

def total (frame : Frame F) : ℕ := 4 + frame.body.length

def header (frame : Frame F) : List UInt8 := leBytes 2 frame.opcode.toNat ++ leBytes 2 frame.total

def cells (frame : Frame F) : List (Cell F) :=
  ByteStream.message (frame.header ++ frame.body) frame.fds

/-- What every framer asks of a frame. -/
structure Fits (frame : Frame F) : Prop where
  fds : frame.fds.length ≤ maxFdsPerMsg
  total : frame.total ≤ 65535

@[simp]
theorem length_header (frame : Frame F) : frame.header.length = 4 := by
  simp [header]

@[simp]
theorem length_cells (frame : Frame F) : frame.cells.length = frame.total := by
  simp [cells, total]

end Frame

/-! ## Sending -/

inductive Errno
  | eintr
  | epipe
  | econnreset
  | enotconn
  | emsgsize
  | e2big
  | other (code : ℕ)
deriving DecidableEq

/-- The kernel's answer to one call that writes. -/
inductive WriteReply
  | accepted (n : ℕ)
  | failed (e : Errno)
deriving DecidableEq

inductive SendError
  | tooManyFds (n : ℕ)
  | frameTooLarge (total : ℕ)
  | shortWrite (sent total : ℕ)
  | errno (e : Errno)
deriving DecidableEq

/-- `pending` while the sender waits for the kernel. -/
inductive SendResult
  | ok
  | failed (e : SendError)
  | pending
deriving DecidableEq

/-- How a send ended, and what it left on the wire. -/
structure Sent (F : Type u) where
  result : SendResult
  wire : List (Cell F)

/-- A call that is interrupted is made again. -/
def retried (replies : List WriteReply) : List WriteReply :=
  replies.dropWhile fun reply => reply = .failed .eintr

section

variable {F : Type u}

/-- `write_framed`, of `uds.rs` and of `codec.rs`. -/
def writeFramed (frame : Frame F) (replies : List WriteReply) : Sent F :=
  if maxFdsPerMsg < frame.fds.length then ⟨.failed (.tooManyFds frame.fds.length), []⟩
  else if 65535 < frame.total then ⟨.failed (.frameTooLarge frame.total), []⟩
  else
    match retried replies with
    | [] => ⟨.pending, []⟩
    | .failed e :: _ => ⟨.failed (.errno e), []⟩
    | .accepted n :: _ =>
      let sent := ByteStream.took n frame.total
      ⟨if sent = frame.total then .ok else .failed (.shortWrite sent frame.total),
        frame.cells.take sent⟩

/-- How it ended, what was written and the answers that are left. -/
structure Written where
  result : SendResult
  bytes : List UInt8
  replies : List WriteReply

def writeAll : List UInt8 → List WriteReply → Written
  | [], replies => ⟨.ok, [], replies⟩
  | _ :: _, [] => ⟨.pending, [], []⟩
  | b :: bytes, .failed e :: replies =>
    if e = .eintr then writeAll (b :: bytes) replies else ⟨.failed (.errno e), [], replies⟩
  | b :: bytes, .accepted n :: replies =>
    if n = 0 then ⟨.failed (.errno .epipe), [], replies⟩
    else
      let rest := writeAll ((b :: bytes).drop n) replies
      { rest with bytes := (b :: bytes).take n ++ rest.bytes }

/-- `ww_bridge_send_frame`. -/
def bridgeSendFrame (frame : Frame F) (replies : List WriteReply) : Sent F :=
  if bridgeMaxBody < frame.body.length then ⟨.failed (.errno .emsgsize), []⟩
  else if maxFdsPerMsg < frame.fds.length then ⟨.failed (.errno .e2big), []⟩
  else
    match retried replies with
    | [] => ⟨.pending, []⟩
    | .failed e :: _ => ⟨.failed (.errno e), []⟩
    | .accepted n :: replies =>
      let done := ByteStream.took n frame.total
      if done = frame.total then ⟨.ok, frame.cells.take done⟩
      else
        let headLeft := if done < 4 then 4 - done else 0
        let bodyDone := if done < 4 then 0 else done - 4
        let head := writeAll (frame.header.drop (4 - headLeft)) replies
        if head.result = .ok then
          let body := writeAll (frame.body.drop bodyDone) head.replies
          ⟨body.result, frame.cells.take done ++ ByteStream.plain (head.bytes ++ body.bytes)⟩
        else ⟨head.result, frame.cells.take done ++ ByteStream.plain head.bytes⟩

end

inductive Framer
  | uds
  | codec
  | bridge
deriving DecidableEq

def isPeerGone : SendError → Bool
  | .errno e => e = .epipe ∨ e = .econnreset ∨ e = .enotconn
  | _ => false

namespace Framer

variable {F : Type u}

def send : Framer → Frame F → List WriteReply → Sent F
  | .uds => writeFramed
  | .codec => writeFramed
  | .bridge => bridgeSendFrame

/-- Whether the socket is written to after an error. The daemon evicts a renderer only when the
peer is gone; the display endpoint shuts the socket down on any error; the bridge leaves it to its
host, which logs the error. -/
def keepsOpen : Framer → SendError → Bool
  | .uds, e => !isPeerGone e
  | .codec, _ => false
  | .bridge, _ => true

end Framer

/-- One frame given to a framer, with the kernel's answers to the calls it makes. -/
structure Send (F : Type u) where
  framer : Framer
  frame : Frame F
  replies : List WriteReply

namespace Send

variable {F : Type u}

def sent (s : Send F) : Sent F := s.framer.send s.frame s.replies

/-- Whether the next send is reached with the socket open. -/
def continues (s : Send F) : Bool :=
  match s.sent.result with
  | .ok => true
  | .failed e => s.framer.keepsOpen e
  | .pending => false

end Send

section

variable {F : Type u}

/-- What a run of sends puts on the socket. -/
def wire : List (Send F) → List (Cell F)
  | [] => []
  | s :: sends => s.sent.wire ++ if s.continues then wire sends else []

/-- The frames whose send returned without an error. -/
def delivered : List (Send F) → List (Frame F)
  | [] => []
  | s :: sends =>
    (if s.sent.result = .ok then [s.frame] else []) ++ if s.continues then delivered sends else []

end

/-! ## Receiving -/

inductive RecvOutcome (F : Type u)
  | waiting
  | tooManyFds
  | badFrameLen (total : ℕ)
  | frame (frame : Frame F)
deriving DecidableEq

/-- What one receive makes of the stream. -/
structure Reading (F : Type u) where
  header : Option (List UInt8)
  outcome : RecvOutcome F
  next : ℕ
  rest : List (Cell F)

section

variable {F : Type u}

def recvFrame (fdsCap : Option ℕ) (chunks : ℕ → ℕ) (i : ℕ) (stream : List (Cell F)) : Reading F :=
  match ByteStream.fill chunks i 4 stream with
  | none => ⟨none, .waiting, i, stream⟩
  | some (head, j, rest) =>
    let header := head.map Cell.byte
    let fds := head.flatMap Cell.fds
    let total := ofLe (header.drop 2)
    if fdsCap.any (· < fds.length) then ⟨some header, .tooManyFds, j, rest⟩
    else if total < 4 then ⟨some header, .badFrameLen total, j, rest⟩
    else
      match ByteStream.fill chunks j (total - 4) rest with
      | none => ⟨some header, .waiting, j, rest⟩
      | some (body, k, rest) =>
        let opcode := UInt16.ofNat (ofLe (header.take 2))
        ⟨some header, .frame ⟨opcode, body.map Cell.byte, fds⟩, k, rest⟩

/-- `read_framed`, of `uds.rs` and of `codec.rs`. -/
def readFramed (chunks : ℕ → ℕ) (i : ℕ) (stream : List (Cell F)) : Reading F :=
  recvFrame none chunks i stream

/-- `ww_bridge_recv_frame`, with the room for descriptors that the bridge gives it. -/
def bridgeRecvFrame (chunks : ℕ → ℕ) (i : ℕ) (stream : List (Cell F)) : Reading F :=
  recvFrame (some maxFdsPerMsg) chunks i stream

def Framer.recv : Framer → (ℕ → ℕ) → ℕ → List (Cell F) → Reading F
  | .uds => readFramed
  | .codec => readFramed
  | .bridge => bridgeRecvFrame

/-- At most `n` receives in a row; a receiver stops at its first error. -/
def readings (receiver : Framer) (chunks : ℕ → ℕ) : ℕ → ℕ → List (Cell F) → List (Reading F)
  | 0, _, _ => []
  | n + 1, i, stream =>
    let reading := receiver.recv chunks i stream
    reading ::
      match reading.outcome with
      | .frame _ => readings receiver chunks n reading.next reading.rest
      | _ => []

def Reading.frame? (reading : Reading F) : Option (Frame F) :=
  match reading.outcome with
  | .frame frame => some frame
  | _ => none

def framesOf (readings : List (Reading F)) : List (Frame F) := readings.filterMap Reading.frame?

def headersOf (readings : List (Reading F)) : List (List UInt8) :=
  readings.filterMap Reading.header

end

end Waywallen.Wire
