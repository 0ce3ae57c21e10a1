import Qtap.Mysql.Stream

/-!
# From data events to packets

As long as no event overflows a parser's buffer, the stream does nothing but handle the
packets of both directions in the order in which they become complete.  The results
about the stream are proved for such sequences of arrivals and carried over to every
cut of the bytes into events by `run_eq_foldl_arrivals`.
-/

namespace Qtap.Mysql

open List Qtap.Core Qtap.Connection

/-- A packet that is complete, with the side that sent it. -/
structure Arrival where
  side : Side
  packet : Packet
  deriving DecidableEq, Repr

/-- The bytes of started packets in the buffers of the two parsers. -/
structure Unread where
  request : List Byte := []
  response : List Byte := []
  deriving DecidableEq, Repr

def arrivalsFrom (side : Side) (packets : List Packet) : List Arrival :=
  packets.map fun packet => { side := side, packet := packet }

def sentBy (side : Side) (arrivals : List Arrival) : List Packet :=
  (arrivals.filter fun arrival => arrival.side = side).map Arrival.packet

/-- The bytes of the events that flow from the client to the server, or back. -/
def bytesFrom (env : Env) (side : Side) (events : List DataEvent) : List Byte :=
  (events.filter fun event =>
    match side with
    | .client => isRequest env.source event.direction
    | .server => isResponse env.source event.direction).flatMap DataEvent.data

namespace Unread

def feed (env : Env) (unread : Unread) (event : DataEvent) : List Arrival × Unread :=
  if isRequest env.source event.direction then
    let (packets, rest) := packetFramer.drain (unread.request ++ event.data)
    (arrivalsFrom .client packets, { unread with request := rest })
  else if isResponse env.source event.direction then
    let (packets, rest) := packetFramer.drain (unread.response ++ event.data)
    (arrivalsFrom .server packets, { unread with response := rest })
  else ([], unread)

/-- The buffer that the event goes to has room for it. -/
def fits (env : Env) (unread : Unread) (event : DataEvent) : Bool :=
  if isRequest env.source event.direction then
    decide (unread.request.length + event.data.length ≤ maxBufferSize)
  else if isResponse env.source event.direction then
    decide (unread.response.length + event.data.length ≤ maxBufferSize)
  else true

def arrivals (env : Env) : Unread → List DataEvent → List Arrival
  | _, [] => []
  | unread, event :: events =>
    (unread.feed env event).1 ++ arrivals env (unread.feed env event).2 events

def fitsAll (env : Env) : Unread → List DataEvent → Bool
  | _, [] => true
  | unread, event :: events =>
    unread.fits env event && fitsAll env (unread.feed env event).2 events

end Unread

def Correlation.handle (env : Env) (state : Correlation) (arrival : Arrival) : Correlation :=
  match arrival.side with
  | .client => state.handleRequest env arrival.packet
  | .server => state.handleResponse arrival.packet

/-! ## The packets of a byte stream -/

theorem sentBy_append (side : Side) (first second : List Arrival) :
    sentBy side (first ++ second) = sentBy side first ++ sentBy side second := by
  simp [sentBy]

@[simp]
theorem sentBy_arrivalsFrom (side : Side) (packets : List Packet) :
    sentBy side (arrivalsFrom side packets) = packets := by
  simp [sentBy, arrivalsFrom, filter_map, Function.comp_def]

variable {side : Side} {env : Env} {event : DataEvent}

theorem sentBy_arrivalsFrom_of_ne {other : Side} (hside : other ≠ side) (packets : List Packet) :
    sentBy side (arrivalsFrom other packets) = [] := by
  simp [sentBy, arrivalsFrom, hside]

theorem not_isResponse_of_isRequest {source : Source} {direction : Direction}
    (hrequest : isRequest source direction) : isResponse source direction = false := by
  cases source <;> cases direction <;> first | rfl | exact absurd hrequest (by decide)

/-- The bytes of an event that flows from `side`. -/
def eventBytes (env : Env) (side : Side) (event : DataEvent) : List Byte :=
  bytesFrom env side [event]

theorem bytesFrom_cons (env : Env) (side : Side) (event : DataEvent) (events : List DataEvent) :
    bytesFrom env side (event :: events) =
      eventBytes env side event ++ bytesFrom env side events := by
  rw [eventBytes, bytesFrom, bytesFrom, bytesFrom, ← flatMap_append, ← filter_append,
    singleton_append]

def Unread.of (unread : Unread) : Side → List Byte
  | .client => unread.request
  | .server => unread.response

theorem sentBy_feed (env : Env) (side : Side) (unread : Unread) (event : DataEvent)
    (hunread : packetFramer.next (unread.of side) = none) :
    sentBy side (unread.feed env event).1 =
        (packetFramer.drain (unread.of side ++ eventBytes env side event)).1 ∧
      (unread.feed env event).2.of side =
        (packetFramer.drain (unread.of side ++ eventBytes env side event)).2 := by
  cases hrequest : isRequest env.source event.direction with
  | true =>
    have hresponse := not_isResponse_of_isRequest hrequest
    cases side with
    | client => simp [Unread.feed, eventBytes, bytesFrom, hrequest, Unread.of]
    | server =>
      have hdrain := packetFramer.drain_of_none hunread
      simp only [Unread.of] at hdrain
      simp [Unread.feed, eventBytes, bytesFrom, hrequest, hresponse, Unread.of, hdrain,
        sentBy_arrivalsFrom_of_ne]
  | false =>
    have hdrain := packetFramer.drain_of_none hunread
    cases hresponse : isResponse env.source event.direction with
    | true =>
      cases side with
      | client =>
        simp only [Unread.of] at hdrain
        simp [Unread.feed, eventBytes, bytesFrom, hrequest, hresponse, Unread.of, hdrain,
          sentBy_arrivalsFrom_of_ne]
      | server => simp [Unread.feed, eventBytes, bytesFrom, hrequest, hresponse, Unread.of]
    | false =>
      cases side <;> simp only [Unread.of] at hdrain <;>
        simp [Unread.feed, eventBytes, bytesFrom, hrequest, hresponse, Unread.of, hdrain, sentBy]

/-- However the bytes of a side are cut, the packets that arrive from it are those of
the whole byte stream. -/
theorem sentBy_arrivals (env : Env) (side : Side) (events : List DataEvent) (unread : Unread)
    (hunread : packetFramer.next (unread.of side) = none) :
    sentBy side (unread.arrivals env events) =
      (packetFramer.drain (unread.of side ++ bytesFrom env side events)).1 := by
  induction events generalizing unread with
  | nil =>
    have hdrain := packetFramer.drain_of_none hunread
    simp [Unread.arrivals, bytesFrom, hdrain, sentBy]
  | cons event events ih =>
    obtain ⟨hfirst, hrest⟩ := sentBy_feed env side unread event hunread
    have hnext : packetFramer.next ((unread.feed env event).2.of side) = none := by
      rw [hrest]
      exact packetFramer.next_drain_snd _
    rw [Unread.arrivals, sentBy_append, ih _ hnext, hfirst, hrest, bytesFrom_cons,
      ← append_assoc, packetFramer.drain_append (unread.of side ++ _)]

/-! ## Events of one side -/

/-- The event carries bytes that `side` sent. -/
def flows (env : Env) (side : Side) (event : DataEvent) : Bool :=
  match side with
  | .client => isRequest env.source event.direction
  | .server => isResponse env.source event.direction

theorem isRequest_of_flows_server (hflows : flows env .server event) :
    isRequest env.source event.direction = false := by
  cases hrequest : isRequest env.source event.direction with
  | false => rfl
  | true =>
    rw [flows, not_isResponse_of_isRequest hrequest] at hflows
    cases hflows

theorem Unread.feed_of_flows (hflows : flows env side event) (unread : Unread) :
    (unread.feed env event).1 =
        arrivalsFrom side (packetFramer.drain (unread.of side ++ event.data)).1 ∧
      (unread.feed env event).2.of side =
        (packetFramer.drain (unread.of side ++ event.data)).2 := by
  cases side with
  | client =>
    have hrequest : isRequest env.source event.direction := hflows
    rw [Unread.feed, if_pos hrequest]
    exact ⟨rfl, rfl⟩
  | server =>
    have hresponse : isResponse env.source event.direction := hflows
    rw [Unread.feed, isRequest_of_flows_server hflows, if_pos hresponse]
    exact ⟨rfl, rfl⟩

theorem Unread.fits_of_flows (hflows : flows env side event) (unread : Unread) :
    unread.fits env event =
      decide ((unread.of side).length + event.data.length ≤ maxBufferSize) := by
  cases side with
  | client => exact if_pos hflows
  | server =>
    rw [Unread.fits, isRequest_of_flows_server hflows]
    exact if_pos hflows

/-- Events of one side bring packets of that side alone. -/
theorem arrivals_of_flows {events : List DataEvent}
    (hflows : ∀ event ∈ events, flows env side event) (unread : Unread) :
    unread.arrivals env events = arrivalsFrom side (sentBy side (unread.arrivals env events)) := by
  induction events generalizing unread with
  | nil => rfl
  | cons event events ih =>
    rw [forall_mem_cons] at hflows
    rw [Unread.arrivals, sentBy_append, arrivalsFrom, map_append, ← arrivalsFrom,
      ← arrivalsFrom, ← ih hflows.2, (Unread.feed_of_flows hflows.1 unread).1,
      sentBy_arrivalsFrom]

/-! ## The stream as a fold over arrivals -/

namespace Stream

def unread (stream : Stream) : Unread where
  request := stream.requestParser.buffer
  response := stream.responseParser.buffer

theorem foldl_arrivalsFrom_client (env : Env) (packets : List Packet) (state : Correlation) :
    (arrivalsFrom .client packets).foldl (Correlation.handle env) state =
      packets.foldl (fun state packet => state.handleRequest env packet) state := by
  rw [arrivalsFrom, foldl_map]
  rfl

theorem foldl_arrivalsFrom_server (env : Env) (packets : List Packet) (state : Correlation) :
    (arrivalsFrom .server packets).foldl (Correlation.handle env) state =
      packets.foldl (fun state packet => state.handleResponse packet) state := by
  rw [arrivalsFrom, foldl_map]
  rfl

theorem process_of_fits (env : Env) (event : DataEvent) (stream : Stream)
    (hopen : stream.closed = false) (hfits : stream.unread.fits env event) :
    (stream.process env event).closed = false ∧
      (stream.process env event).unread = (stream.unread.feed env event).2 ∧
      (stream.process env event).toCorrelation =
        (stream.unread.feed env event).1.foldl (Correlation.handle env) stream.toCorrelation := by
  simp only [process, hopen, Unread.feed, unread]
  simp only [Unread.fits, unread] at hfits
  cases hrequest : isRequest env.source event.direction with
  | true =>
    have hroom : stream.requestParser.buffer.length + event.data.length ≤ maxBufferSize := by
      rw [hrequest] at hfits
      exact of_decide_eq_true hfits
    have happend : stream.requestParser.append event.data =
        ({ buffer := stream.requestParser.buffer ++ event.data }, none) := by
      rw [Parser.append, if_neg (Nat.not_lt.2 hroom)]
    simp [happend, processRequests, packetFramer.pump_eq, foldl_arrivalsFrom_client]
  | false =>
    cases hresponse : isResponse env.source event.direction with
    | true =>
      have hroom : stream.responseParser.buffer.length + event.data.length ≤ maxBufferSize := by
        rw [hrequest, hresponse] at hfits
        exact of_decide_eq_true hfits
      have happend : stream.responseParser.append event.data =
          ({ buffer := stream.responseParser.buffer ++ event.data }, none) := by
        rw [Parser.append, if_neg (Nat.not_lt.2 hroom)]
      simp [happend, processResponses, packetFramer.pump_eq, foldl_arrivalsFrom_server]
    | false => simp [hopen]

/-- An event beyond the buffer's limit is dropped. -/
theorem toCorrelation_process_overflow (env : Env) (stream : Stream) (event : DataEvent)
    (hresponse : isResponse env.source event.direction)
    (hoverflow : maxBufferSize < event.data.length) :
    (stream.process env event).toCorrelation = stream.toCorrelation := by
  have happend : stream.responseParser.append event.data =
      ({ buffer := [] }, some .bufferFull) := by
    rw [Parser.append, if_pos (by omega)]
  have hrequest : isRequest env.source event.direction = false := by
    cases hcase : isRequest env.source event.direction with
    | false => rfl
    | true => exact absurd hresponse (by simp [not_isResponse_of_isRequest hcase])
  rw [process, hrequest, hresponse, happend]
  cases hclosed : stream.closed <;> simp

/-- The stream handles the packets of both directions in the order of their arrival. -/
theorem run_eq_foldl_arrivals (env : Env) (events : List DataEvent) (stream : Stream)
    (hopen : stream.closed = false) (hfits : stream.unread.fitsAll env events) :
    (stream.run env events).toCorrelation =
      (stream.unread.arrivals env events).foldl (Correlation.handle env) stream.toCorrelation := by
  induction events generalizing stream with
  | nil => rfl
  | cons event events ih =>
    rw [Unread.fitsAll, Bool.and_eq_true] at hfits
    obtain ⟨hopen', hunread, hstate⟩ := process_of_fits env event stream hopen hfits.1
    have hrun := ih (stream.process env event) hopen' (hunread ▸ hfits.2)
    rw [Unread.arrivals, foldl_append, ← hstate, ← hunread, ← hrun]
    rfl

end Stream

end Qtap.Mysql
