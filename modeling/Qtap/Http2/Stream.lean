import Qtap.Connection.Types
import Qtap.Core.Framing
import Qtap.Http2.Session

/-!
# The HTTP/2 stream processor

Each direction of the connection has a buffer and an HPACK decoder.  Complete frames are
taken off the buffer one by one; each is read by a framer of its own and handed to the
session of its stream.  Framer and HPACK decoder are library code and enter as a
`Codec`.
-/

namespace Qtap.Http2

open Qtap.Core Qtap.Connection

/-- The part of a frame behind its header, as the framer returns it. -/
inductive Payload where
  | headers (fragment : List Byte) (endStream endHeaders : Bool)
  | continuation (fragment : List Byte) (endHeaders : Bool)
  | data (data : List Byte) (endStream : Bool)
  | rstStream
  | goAway
  | other
  deriving DecidableEq, Repr

structure Frame where
  streamID : ℕ
  payload : Payload
  deriving DecidableEq, Repr

inductive ReadError where
  | protocol
  | other
  deriving DecidableEq, Repr

/-- The framer and the HPACK decoder of the HTTP/2 library. -/
structure Codec where
  Decoder : Type
  initial : Decoder
  /-- What a new framer reads from the bytes of one frame. -/
  readFrame : List Byte → Except ReadError Frame
  /-- The fields that a fragment completes, and whether it was written without an error. -/
  write : Decoder → List Byte → Decoder × List HeaderField × Bool
  /-- The end of a header block; an error when it stops inside a field. -/
  close : Decoder → Decoder × Bool

/-! ## Header blocks -/

def maxHeaderListSize : ℕ := 16 * 2 ^ 20

/-- The emitted fields that fit what remains of the header list, and what then remains. -/
def collectFields (remain : ℕ) : List HeaderField → List HeaderField × ℕ
  | [] => ([], remain)
  | field :: rest =>
    if remain < field.size then ([], 0)
    else
      (field :: (collectFields (remain - field.size) rest).1,
        (collectFields (remain - field.size) rest).2)

/-- The header block that starts with the fragment; `frames` is what the framer has still
to read, and its end is an error when the block has not ended. -/
def readMetaFrame (codec : Codec) (decoder : codec.Decoder) (remain : ℕ)
    (fields : List HeaderField) (fragment : List Byte) (endHeaders : Bool)
    (frames : List Payload) : codec.Decoder × Option (List HeaderField) :=
  if 2 * remain < fragment.length then (decoder, none)
  else
    let (decoder, emitted, written) := codec.write decoder fragment
    let (kept, remain) := collectFields remain emitted
    if endHeaders then
      let (decoder, closed) := codec.close decoder
      (decoder, if closed then some (fields ++ kept) else none)
    else if written then
      match frames with
      | .continuation fragment endHeaders :: frames =>
        readMetaFrame codec decoder remain (fields ++ kept) fragment endHeaders frames
      | _ => (decoder, none)
    else (decoder, none)

/-- The framer of a frame holds the bytes of that frame only, so that it has nothing
more to read for a header block that does not end in it. -/
def decodePayload (codec : Codec) (decoder : codec.Decoder) : Payload → codec.Decoder × Item
  | .headers fragment endStream endHeaders =>
    match readMetaFrame codec decoder maxHeaderListSize [] fragment endHeaders [] with
    | (decoder, some fields) => (decoder, .headers fields endStream)
    | (decoder, none) => (decoder, .headersFailed)
  | .continuation _ _ => (decoder, .other)
  | .data data endStream => (decoder, .data data endStream)
  | .rstStream => (decoder, .rstStream)
  | .goAway => (decoder, .goAway)
  | .other => (decoder, .other)

/-- The frames of stream 0 are passed over before their payload is looked at. -/
def decodeFrame (codec : Codec) (decoder : codec.Decoder) (bytes : List Byte) :
    codec.Decoder × Option Decoded :=
  match codec.readFrame bytes with
  | .error error => (decoder, some (.unreadable (error == .protocol)))
  | .ok frame =>
    if frame.streamID = 0 then (decoder, none)
    else
      let (decoder, item) := decodePayload codec decoder frame.payload
      (decoder, some (.frame frame.streamID item))

/-! ## Frames of a buffer -/

def frameHeaderLen : ℕ := 9

/-- The size that the first three bytes of a frame announce, header included. -/
def totalFrameSize : List Byte → ℕ
  | high :: middle :: low :: _ =>
    high.toNat * 2 ^ 16 + middle.toNat * 2 ^ 8 + low.toNat + frameHeaderLen
  | _ => frameHeaderLen

def nextFrame (buffer : List Byte) : Option (List Byte × List Byte) :=
  if buffer.length < frameHeaderLen then none
  else if buffer.length < totalFrameSize buffer then none
  else some (buffer.take (totalFrameSize buffer), buffer.drop (totalFrameSize buffer))

theorem nextFrame_eq_some_iff {buffer frame rest : List Byte} :
    nextFrame buffer = some (frame, rest) ↔
      frameHeaderLen ≤ buffer.length ∧ totalFrameSize buffer ≤ buffer.length ∧
        buffer.take (totalFrameSize buffer) = frame ∧
        buffer.drop (totalFrameSize buffer) = rest := by
  unfold nextFrame
  split_ifs with hheader hframe
  · simp [Nat.not_le.2 hheader]
  · simp [Nat.not_le.2 hframe]
  · simp [Nat.not_lt.1 hheader, Nat.not_lt.1 hframe]

theorem frameHeaderLen_le_totalFrameSize (buffer : List Byte) :
    frameHeaderLen ≤ totalFrameSize buffer := by
  unfold totalFrameSize
  split
  · exact Nat.le_add_left _ _
  · exact le_rfl

theorem totalFrameSize_append {buffer : List Byte} (hheader : frameHeaderLen ≤ buffer.length)
    (more : List Byte) : totalFrameSize (buffer ++ more) = totalFrameSize buffer := by
  match buffer, hheader with
  | _ :: _ :: _ :: _, _ => rfl
  | [], hheader => exact absurd hheader (by decide)
  | [_], hheader => exact absurd hheader (by simp [frameHeaderLen])
  | [_, _], hheader => exact absurd hheader (by simp [frameHeaderLen])

def frameFramer : Framer Byte (List Byte) where
  next := nextFrame
  shrinks := by
    intro buffer rest frame hnext
    obtain ⟨hheader, hframe, _, hrest⟩ := nextFrame_eq_some_iff.1 hnext
    have hsize := frameHeaderLen_le_totalFrameSize buffer
    rw [← hrest, List.length_drop]
    unfold frameHeaderLen at hsize hheader
    omega
  stable := by
    intro buffer rest frame hnext more
    obtain ⟨hheader, hframe, htake, hrest⟩ := nextFrame_eq_some_iff.1 hnext
    rw [nextFrame_eq_some_iff, totalFrameSize_append hheader]
    refine ⟨?_, ?_, ?_, ?_⟩
    · exact hheader.trans (by simp)
    · exact hframe.trans (by simp)
    · rw [List.take_append_of_le_length hframe, htake]
    · rw [List.drop_append_of_le_length hframe, hrest]

/-! ## Processing events -/

/-- `http2.ClientPreface`. -/
def clientPreface : List Byte := ascii "PRI * HTTP/2.0\r\n\r\nSM\r\n\r\n"

/-- The buffer behind the preface; `none` when the preface is incomplete or another. -/
def readPreface (buffer : List Byte) : Option (List Byte) :=
  if clientPreface.isPrefixOf buffer then some (buffer.drop clientPreface.length) else none

structure Stream (codec : Codec) extends Sessions where
  prefaceRead : Bool := false
  egressBuffer : List Byte := []
  ingressBuffer : List Byte := []
  egressDecoder : codec.Decoder := codec.initial
  ingressDecoder : codec.Decoder := codec.initial
  closed : Bool := false

/-- One turn of the frame loop; an error has ended it. -/
def handleBytes (codec : Codec) (env : Env) (bytes : List Byte)
    (state : codec.Decoder × Sessions) : codec.Decoder × Sessions :=
  if state.2.failed then state
  else
    match decodeFrame codec state.1 bytes with
    | (decoder, none) => (decoder, state.2)
    | (decoder, some decoded) => (decoder, state.2.handle env decoded)

def frameLoop (codec : Codec) (env : Env) (buffer : List Byte)
    (state : codec.Decoder × Sessions) : List Byte × codec.Decoder × Sessions :=
  frameFramer.pump (handleBytes codec env) buffer.length buffer state

namespace Stream

variable {codec : Codec}

def processEgress (env : Env) (stream : Stream codec) (buffer : List Byte) : Stream codec :=
  let (rest, decoder, sessions) :=
    frameLoop codec env buffer (stream.egressDecoder, stream.toSessions)
  { stream with
    toSessions := sessions, prefaceRead := true, egressBuffer := rest, egressDecoder := decoder }

def processIngress (env : Env) (stream : Stream codec) (buffer : List Byte) : Stream codec :=
  let (rest, decoder, sessions) :=
    frameLoop codec env buffer (stream.ingressDecoder, stream.toSessions)
  { stream with toSessions := sessions, ingressBuffer := rest, ingressDecoder := decoder }

/-- The direction alone selects buffer and decoder, and the preface is expected in what
the observed process sends. -/
def process (env : Env) (stream : Stream codec) (event : DataEvent) : Stream codec :=
  if stream.closed then stream
  else
    match event.direction with
    | .ingress => stream.processIngress env (stream.ingressBuffer ++ event.data)
    | .egress =>
      if stream.prefaceRead then stream.processEgress env (stream.egressBuffer ++ event.data)
      else
        match readPreface (stream.egressBuffer ++ event.data) with
        | some rest => stream.processEgress env rest
        | none =>
          { stream with failed := true, egressBuffer := stream.egressBuffer ++ event.data }

/-- The connection stops passing events to a stream that has returned an error. -/
def step (env : Env) (stream : Stream codec) (event : DataEvent) : Stream codec :=
  if stream.failed then stream else stream.process env event

def run (env : Env) (stream : Stream codec) (events : List DataEvent) : Stream codec :=
  events.foldl (step env) stream

def close (stream : Stream codec) : Stream codec :=
  { stream with closed := true, egressBuffer := [], ingressBuffer := [] }

end Stream

end Qtap.Http2
