import Qtap.Http2.Stream

/-!
# From data events to HTTP/2 frames

The bytes of each direction are cut into frames without looking at the sessions.  A run
of the stream over events is a run over the frames in the order in which they become
complete, which is how the results about frames apply to every cut of the bytes.
-/

namespace Qtap.Http2

open Qtap.Core Qtap.Connection

/-- A complete frame of one direction, or bytes where the preface should be. -/
inductive Arrival where
  | frame (direction : Direction) (bytes : List Byte)
  | badPreface
  deriving DecidableEq, Repr

/-- What is known of the bytes that have not made up a frame yet. -/
structure Buffers where
  prefaceRead : Bool := false
  egress : List Byte := []
  ingress : List Byte := []
  deriving DecidableEq, Repr

namespace Buffers

def readEgress (buffers : Buffers) (buffer : List Byte) : Buffers × List Arrival :=
  let (frames, rest) := frameFramer.drain buffer
  ({ buffers with prefaceRead := true, egress := rest }, frames.map (.frame .egress))

def readIngress (buffers : Buffers) (buffer : List Byte) : Buffers × List Arrival :=
  let (frames, rest) := frameFramer.drain buffer
  ({ buffers with ingress := rest }, frames.map (.frame .ingress))

def read (buffers : Buffers) (event : DataEvent) : Buffers × List Arrival :=
  match event.direction with
  | .ingress => buffers.readIngress (buffers.ingress ++ event.data)
  | .egress =>
    if buffers.prefaceRead then buffers.readEgress (buffers.egress ++ event.data)
    else
      match readPreface (buffers.egress ++ event.data) with
      | some rest => buffers.readEgress rest
      | none => ({ buffers with egress := buffers.egress ++ event.data }, [.badPreface])

end Buffers

/-- The frames of the events, in the order in which they become complete. -/
def arrivals (events : List DataEvent) : List Arrival := (feed Buffers.read {} events).2

/-- The part of the stream that complete frames act on. -/
structure Wire (codec : Codec) where
  egress : codec.Decoder := codec.initial
  ingress : codec.Decoder := codec.initial
  sessions : Sessions := {}

namespace Wire

variable {codec : Codec}

def decoder (wire : Wire codec) : Direction → codec.Decoder
  | .ingress => wire.ingress
  | .egress => wire.egress

def update (wire : Wire codec) (direction : Direction) (state : codec.Decoder × Sessions) :
    Wire codec :=
  match direction with
  | .ingress => { wire with ingress := state.1, sessions := state.2 }
  | .egress => { wire with egress := state.1, sessions := state.2 }

def receive (env : Env) (wire : Wire codec) : Arrival → Wire codec
  | .frame direction bytes =>
    wire.update direction (handleBytes codec env bytes (wire.decoder direction, wire.sessions))
  | .badPreface => { wire with sessions := { wire.sessions with failed := true } }

def receiveAll (env : Env) (wire : Wire codec) (trace : List Arrival) : Wire codec :=
  trace.foldl (receive env) wire

theorem handleBytes_failed (env : Env) {state : codec.Decoder × Sessions}
    (hfailed : state.2.failed = true) (bytes : List Byte) :
    handleBytes codec env bytes state = state := by
  rw [handleBytes, if_pos hfailed]

/-- Once the connection was given up, frames change nothing. -/
theorem receiveAll_failed (env : Env) {wire : Wire codec} (hfailed : wire.sessions.failed = true)
    (trace : List Arrival) : wire.receiveAll env trace = wire := by
  induction trace with
  | nil => rfl
  | cons arrival trace ih =>
    have hsame : wire.receive env arrival = wire := by
      cases arrival with
      | frame direction bytes =>
        rw [receive, handleBytes_failed env hfailed bytes]
        cases direction <;> rfl
      | badPreface =>
        obtain ⟨_, _, _, _, _, _⟩ := wire
        dsimp only at hfailed
        rw [receive, hfailed]
    rw [receiveAll, List.foldl_cons, hsame]
    exact ih

theorem receiveAll_append (env : Env) (wire : Wire codec) (first second : List Arrival) :
    wire.receiveAll env (first ++ second) = (wire.receiveAll env first).receiveAll env second :=
  List.foldl_append

/-- The frames of one direction go through the frame loop of that direction. -/
theorem receiveAll_frames (env : Env) (wire : Wire codec) (direction : Direction)
    (frames : List (List Byte)) :
    wire.receiveAll env (frames.map (.frame direction)) =
      wire.update direction (frames.foldl (fun state bytes => handleBytes codec env bytes state)
        (wire.decoder direction, wire.sessions)) := by
  induction frames generalizing wire with
  | nil =>
    cases direction <;> rfl
  | cons bytes frames ih =>
    have hrest := ih (wire.receive env (.frame direction bytes))
    rw [List.map_cons, receiveAll, List.foldl_cons]
    rw [receiveAll] at hrest
    rw [hrest]
    cases direction <;> rfl

end Wire

namespace Stream

variable {codec : Codec}

def buffers (stream : Stream codec) : Buffers :=
  { prefaceRead := stream.prefaceRead
    egress := stream.egressBuffer
    ingress := stream.ingressBuffer }

def wire (stream : Stream codec) : Wire codec :=
  { egress := stream.egressDecoder
    ingress := stream.ingressDecoder
    sessions := stream.toSessions }

theorem frameLoop_eq (env : Env) (buffer : List Byte) (state : codec.Decoder × Sessions) :
    frameLoop codec env buffer state = ((frameFramer.drain buffer).2,
        (frameFramer.drain buffer).1.foldl (fun state bytes => handleBytes codec env bytes state)
          state) :=
  frameFramer.pump_eq (handleBytes codec env) buffer.length buffer state le_rfl

theorem processEgress_eq {env : Env} {stream : Stream codec} {buffer : List Byte} :
    (stream.processEgress env buffer).buffers = (stream.buffers.readEgress buffer).1 ∧
      (stream.processEgress env buffer).wire =
        stream.wire.receiveAll env (stream.buffers.readEgress buffer).2 := by
  simp only [processEgress, frameLoop_eq, Buffers.readEgress, Wire.receiveAll_frames]
  exact ⟨rfl, rfl⟩

theorem processIngress_eq {env : Env} {stream : Stream codec} {buffer : List Byte} :
    (stream.processIngress env buffer).buffers = (stream.buffers.readIngress buffer).1 ∧
      (stream.processIngress env buffer).wire =
        stream.wire.receiveAll env (stream.buffers.readIngress buffer).2 := by
  simp only [processIngress, frameLoop_eq, Buffers.readIngress, Wire.receiveAll_frames]
  exact ⟨rfl, rfl⟩

/-- An event is worth the frames that it completes. -/
theorem process_eq (env : Env) {stream : Stream codec} (hopen : stream.closed = false)
    (event : DataEvent) :
    (stream.process env event).closed = false ∧
      (stream.process env event).buffers = (stream.buffers.read event).1 ∧
      (stream.process env event).wire =
        stream.wire.receiveAll env (stream.buffers.read event).2 := by
  obtain ⟨direction, data⟩ := event
  rw [process, hopen]
  cases direction with
  | ingress => exact ⟨hopen, stream.processIngress_eq⟩
  | egress =>
    by_cases hpreface : stream.prefaceRead = true
    · have hread : stream.buffers.read { direction := .egress, data := data } =
          stream.buffers.readEgress (stream.egressBuffer ++ data) :=
        if_pos hpreface
      rw [hread, if_pos hpreface]
      exact ⟨hopen, stream.processEgress_eq⟩
    · have hread : stream.buffers.read { direction := .egress, data := data } =
          match readPreface (stream.egressBuffer ++ data) with
          | some rest => stream.buffers.readEgress rest
          | none =>
            ({ stream.buffers with egress := stream.egressBuffer ++ data }, [.badPreface]) :=
        if_neg hpreface
      rw [hread, if_neg hpreface]
      cases readPreface (stream.egressBuffer ++ data) with
      | some rest => exact ⟨hopen, stream.processEgress_eq⟩
      | none => exact ⟨rfl, rfl, rfl⟩

/-- A run over events is a run over the frames in the order they become complete. -/
theorem run_wire (env : Env) {stream : Stream codec} (hopen : stream.closed = false)
    (events : List DataEvent) :
    (stream.run env events).wire =
      stream.wire.receiveAll env (feed Buffers.read stream.buffers events).2 := by
  induction events generalizing stream with
  | nil => rfl
  | cons event events ih =>
    by_cases hfailed : stream.failed = true
    · have hstep : stream.step env event = stream := if_pos hfailed
      rw [run, List.foldl_cons, hstep, Wire.receiveAll_failed env hfailed]
      have hrest := ih hopen
      rw [Wire.receiveAll_failed env hfailed] at hrest
      exact hrest
    · have hstep : stream.step env event = stream.process env event := if_neg hfailed
      obtain ⟨hnext, hbuffers, hwire⟩ := process_eq env hopen event
      rw [run, List.foldl_cons, hstep, feed, Wire.receiveAll_append, ← hwire, ← hbuffers]
      exact ih hnext

theorem run_sessions (env : Env) (events : List DataEvent) :
    (run env ({} : Stream codec) events).toSessions =
      (Wire.receiveAll env ({} : Wire codec) (arrivals events)).sessions :=
  congrArg Wire.sessions (run_wire env rfl events)

end Stream

end Qtap.Http2
