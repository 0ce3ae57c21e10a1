import Qtap.Core.Duplex
import Qtap.Mysql.Arrivals

/-!
# The connection phase

The greeting of the server, the client's answer, any number of rounds in which the server
asks for another authentication method or sends data for the current one, and the final
OK packet.  The stream leaves the phase with the first OK, EOF or ERR header.  A request
for another method has the EOF header, so what the client sends from then on is read as
commands.
-/

namespace Qtap.Mysql

open Correlation Mysql.Stream List Qtap.Core Qtap.Connection

/-! ## Bytes in order -/

def sideOf (env : Env) (event : DataEvent) : Option Side :=
  if isRequest env.source event.direction then some .client
  else if isResponse env.source event.direction then some .server
  else none

/-- The events as chunks of the two byte streams. -/
def chunksOf (env : Env) (events : List DataEvent) : List (Side × List Byte) :=
  events.filterMap fun event => (sideOf env event).map fun side => (side, event.data)

/-- The bytes of the packets in their order, each from its side, cut into events in any
way. -/
def Fed (env : Env) (packets : List Arrival) (events : List DataEvent) : Prop :=
  Framer.tagged (chunksOf env events) =
    Framer.tagged (packets.map fun arrival => (arrival.side, buildPacket arrival.packet))

def toArrival (entry : Side × Packet) : Arrival := { side := entry.1, packet := entry.2 }

theorem Unread.feed_eq_route (env : Env) (unread : Unread) (event : DataEvent) :
    (unread.feed env event).1 = (route (fun _ => packetFramer.push) unread.of
        (chunksOf env [event])).2.map toArrival ∧
      (unread.feed env event).2.of =
        (route (fun _ => packetFramer.push) unread.of (chunksOf env [event])).1 := by
  rw [feed, chunksOf, filterMap_cons, sideOf]
  split_ifs
  case neg => exact ⟨rfl, rfl⟩
  all_goals
    constructor
    · simp [route, Framer.push, arrivalsFrom, toArrival, Unread.of]
    · funext side
      cases side <;> rfl

theorem chunksOf_cons (env : Env) (event : DataEvent) (events : List DataEvent) :
    chunksOf env (event :: events) = chunksOf env [event] ++ chunksOf env events := by
  rw [chunksOf, chunksOf, chunksOf, ← filterMap_append, singleton_append]

theorem Unread.arrivals_eq_route (env : Env) (events : List DataEvent) (unread : Unread) :
    unread.arrivals env events =
      (route (fun _ => packetFramer.push) unread.of (chunksOf env events)).2.map toArrival := by
  induction events generalizing unread with
  | nil => rfl
  | cons event events ih =>
    obtain ⟨hfirst, hrest⟩ := unread.feed_eq_route env event
    rw [arrivals, ih, hfirst, hrest, chunksOf_cons env event events, route_append, map_append]

/-- The packets arrive in the order in which their bytes were fed. -/
theorem arrivals_of_fed {env : Env} {packets : List Arrival} {events : List DataEvent}
    (hfed : Fed env packets events)
    (hpackets : ∀ arrival ∈ packets, arrival.packet.payload.length < 2 ^ 24) :
    Unread.arrivals env {} events = packets := by
  have hempty : ({} : Unread).of = fun _ => [] := by
    funext side
    cases side with
    | client => rfl
    | server => rfl
  have hentries : packets.map (fun arrival => (arrival.side, buildPacket arrival.packet)) =
      (packets.map fun arrival => (arrival.side, arrival.packet)).map
        fun entry => (entry.1, buildPacket entry.2) := by
    rw [map_map]
    rfl
  rw [Fed, hentries] at hfed
  have harrivals := packetFramer.arrivals_eq_of_tagged hfed
  rw [packetFramer.arrivals_encoded packetFramer_encodes _ (by simpa using hpackets)] at harrivals
  rw [Unread.arrivals_eq_route, hempty]
  exact (congrArg (List.map toArrival) harrivals).trans (by
    rw [map_map]
    exact map_id packets)

theorem Unread.arrivals_append (env : Env) (first second : List DataEvent) (unread : Unread) :
    ∃ later, unread.arrivals env (first ++ second) = unread.arrivals env first ++ later ∧
      (unread.fitsAll env (first ++ second) = true → unread.fitsAll env first = true) := by
  induction first generalizing unread with
  | nil => exact ⟨unread.arrivals env second, rfl, fun _ => rfl⟩
  | cons event first ih =>
    obtain ⟨later, hlater, hfits⟩ := ih (unread.feed env event).2
    refine ⟨later, ?_, ?_⟩
    · rw [cons_append, arrivals, hlater, ← append_assoc, arrivals]
    · rw [cons_append, fitsAll, fitsAll, Bool.and_eq_true, Bool.and_eq_true]
      exact fun hboth => ⟨hboth.1, hfits hboth.2⟩

/-! ## The phase -/

inductive AuthHeader where
  | switchRequest
  | moreData
  deriving DecidableEq, Repr

def AuthHeader.byte : AuthHeader → Byte
  | switchRequest => 0xfe
  | moreData => 0x01

/-- A packet of the server and, possibly, what the client sends in reply. -/
structure AuthRound where
  sequenceID : Byte
  header : AuthHeader
  body : List Byte
  answer : Option Packet
  deriving DecidableEq, Repr

structure ConnectionPhase where
  greeting : List Byte
  response : Packet
  rounds : List AuthRound
  lastID : Byte
  lastBody : List Byte
  deriving DecidableEq, Repr

/-- The packet of the server. -/
def AuthRound.request (round : AuthRound) : Packet where
  sequenceID := round.sequenceID
  payload := round.header.byte :: round.body

theorem AuthRound.head_request (round : AuthRound) :
    round.request.payload.head? = some round.header.byte := rfl

def AuthRound.packets (round : AuthRound) : List Arrival :=
  { side := .server, packet := round.request } ::
    round.answer.toList.map fun packet => { side := .client, packet := packet }

namespace ConnectionPhase

def opening (phase : ConnectionPhase) : List Arrival :=
  [{ side := .server, packet := { sequenceID := 0, payload := 0x0a :: phase.greeting } },
    { side := .client, packet := phase.response }]

/-- The final OK packet. -/
def closing (phase : ConnectionPhase) : Arrival where
  side := .server
  packet := { sequenceID := phase.lastID, payload := okPacket :: phase.lastBody }

def packets (phase : ConnectionPhase) : List Arrival :=
  phase.opening ++ phase.rounds.flatMap AuthRound.packets ++ [phase.closing]

/-- Every payload fits one packet. -/
def Fits (phase : ConnectionPhase) : Prop :=
  ∀ arrival ∈ phase.packets, arrival.packet.payload.length < 2 ^ 24

instance (phase : ConnectionPhase) : Decidable phase.Fits :=
  inferInstanceAs (Decidable (∀ arrival ∈ phase.packets, arrival.packet.payload.length < 2 ^ 24))

/-- Once the server has asked for another method, the client sends only empty packets. -/
def SilentAfterSwitch (phase : ConnectionPhase) : Prop :=
  ∀ past packet, past ++ [{ side := .client, packet := packet }] <+: phase.packets →
    (∃ arrival ∈ past, arrival.side = .server ∧
      arrival.packet.payload.head? = some AuthHeader.switchRequest.byte) → packet.payload = []

end ConnectionPhase

/-! ## What one packet does -/

namespace Correlation

/-- No command waits and no result set is being collected. -/
structure Quiet (state : Correlation) : Prop where
  no_command : state.pendingCommands = []
  no_result : state.active = none

/-- The headers that end the phase for the stream. -/
def endsPhase (packet : Packet) : Bool :=
  packet.payload.head? = some okPacket ∨ packet.payload.head? = some eofPacket ∨
    packet.payload.head? = some errPacket

theorem logUncorrelatedResponse_eq (state : Correlation) (packet : Packet) :
    state.logUncorrelatedResponse packet =
      { state with handshakeComplete := state.handshakeComplete || endsPhase packet } := by
  obtain ⟨_, payload⟩ := packet
  obtain ⟨_, _, _, _, _, _⟩ := state
  cases payload with
  | nil => simp [logUncorrelatedResponse, endsPhase]
  | cons =>
    rw [logUncorrelatedResponse]
    dsimp only
    split_ifs with hgreeting hcomplete hends
    · simp [endsPhase, hgreeting.2.1, okPacket, eofPacket, errPacket]
    · rw [hcomplete]
      rfl
    · simp [endsPhase, hends]
    · simp [endsPhase, hends]

/-- A packet of the server finds no command waiting and at most ends the phase. -/
theorem Quiet.handleResponse_eq {state : Correlation} (hquiet : state.Quiet) (packet : Packet) :
    state.handleResponse packet =
      { state with handshakeComplete := state.handshakeComplete || endsPhase packet } := by
  obtain ⟨pendingCommands, _, active, _, _, _⟩ := state
  obtain ⟨rfl, rfl⟩ : pendingCommands = [] ∧ active = none := ⟨hquiet.no_command, hquiet.no_result⟩
  rw [handleResponse]
  split_ifs with hempty
  · simp [endsPhase, hempty]
  · exact logUncorrelatedResponse_eq _ packet

/-- The stream has seen a header that ends the phase. -/
def phaseEnded (trace : List Arrival) : Bool :=
  trace.any fun arrival => arrival.side = .server ∧ endsPhase arrival.packet

theorem phaseEnded_concat (trace : List Arrival) (arrival : Arrival) :
    phaseEnded (trace ++ [arrival]) = (phaseEnded trace || phaseEnded [arrival]) := by
  rw [phaseEnded, any_append]
  rfl

/-- As long as the client is silent once the phase has ended, no command is queued. -/
theorem quiet_of_silent (env : Env) {trace : List Arrival}
    (hsilent : ∀ past packet, past ++ [{ side := .client, packet := packet }] <+: trace →
      phaseEnded past = true → packet.payload = []) {past : List Arrival} (hpast : past <+: trace) :
    (past.foldl (handle env) {}).Quiet ∧
      (past.foldl (handle env) {}).handshakeComplete = phaseEnded past := by
  induction past using List.reverseRecOn with
  | nil => exact ⟨⟨rfl, rfl⟩, rfl⟩
  | append_singleton past arrival ih =>
    obtain ⟨hquiet, hended⟩ := ih ((prefix_append _ _).trans hpast)
    obtain ⟨side, packet⟩ := arrival
    rw [foldl_append, foldl_cons, phaseEnded_concat, ← hended]
    cases side with
    | client =>
      have hsame : handle env (past.foldl (handle env) {}) { side := .client, packet := packet } =
          past.foldl (handle env) {} := by
        cases hcomplete : (past.foldl (handle env) {}).handshakeComplete with
        | false => simp [handle, handleRequest, hcomplete]
        | true =>
          rw [hcomplete] at hended
          exact if_pos (hsilent past packet hpast hended.symm)
      rw [hsame]
      exact ⟨hquiet, by simp [phaseEnded]⟩
    | server =>
      rw [handle, hquiet.handleResponse_eq]
      exact ⟨⟨hquiet.no_command, hquiet.no_result⟩, by simp [phaseEnded]⟩

end Correlation

/-! ## The whole phase -/

namespace ConnectionPhase

/-- Before the final packet only a request for another method ends the phase early. -/
theorem exists_switch_of_phaseEnded {phase : ConnectionPhase} {past : List Arrival}
    (hpast : past <+: phase.opening ++ phase.rounds.flatMap AuthRound.packets)
    (hended : phaseEnded past = true) :
    ∃ arrival ∈ past, arrival.side = .server ∧
      arrival.packet.payload.head? = some AuthHeader.switchRequest.byte := by
  obtain ⟨arrival, harrival, hends⟩ := any_eq_true.1 hended
  obtain ⟨hside, hends⟩ := of_decide_eq_true hends
  refine ⟨arrival, harrival, hside, ?_⟩
  rcases mem_append.1 (hpast.subset harrival) with hopening | hround
  · rw [opening, mem_cons, mem_singleton] at hopening
    rcases hopening with rfl | rfl
    · exact absurd hends (by simp [endsPhase, okPacket, eofPacket, errPacket])
    · cases hside
  · obtain ⟨round, _, hmember⟩ := mem_flatMap.1 hround
    rw [AuthRound.packets, mem_cons, mem_map] at hmember
    rcases hmember with rfl | ⟨packet, _, rfl⟩
    · rw [endsPhase, round.head_request] at hends
      rw [round.head_request]
      cases hheader : round.header with
      | switchRequest => rfl
      | moreData =>
        rw [hheader] at hends
        exact absurd hends (by decide)
    · cases hside

theorem SilentAfterSwitch.silent {phase : ConnectionPhase} (hsilent : phase.SilentAfterSwitch) :
    ∀ past packet, past ++ [{ side := .client, packet := packet }] <+: phase.packets →
      phaseEnded past = true → packet.payload = [] := by
  intro past packet hpast hended
  have hearlier : past <+: phase.opening ++ phase.rounds.flatMap AuthRound.packets := by
    rcases prefix_concat_iff.1 hpast with hwhole | hearlier
    · obtain ⟨_, hlast⟩ := append_inj' hwhole rfl
      cases hlast
    · exact (prefix_append _ _).trans hearlier
  exact hsilent past packet hpast (exists_switch_of_phaseEnded hearlier hended)

end ConnectionPhase

/-- The stream comes out of the connection phase ready for commands and has queued none,
when no event overflows a buffer and the client is silent after a request for another
method. -/
theorem connection_phase_queues_no_command (env : Env) (phase : ConnectionPhase)
    (events : List DataEvent) (hphase : phase.Fits) (hfed : Fed env phase.packets events)
    (hfits : Unread.fitsAll env {} events = true) (hsilent : phase.SilentAfterSwitch) :
    (∀ before, before <+: events → (Stream.run env before {}).pendingCommands = []) ∧
      (Stream.run env events {}).handshakeComplete = true ∧
      (Stream.run env events {}).active = none ∧
      (Stream.run env events {}).pendingCommands = [] := by
  have harrivals := arrivals_of_fed hfed hphase
  have hquiet : ∀ before, before <+: events → (run env before {}).toCorrelation.Quiet ∧
        (run env before {}).handshakeComplete =
          phaseEnded (Unread.arrivals env {} before) := by
    rintro before ⟨after, rfl⟩
    obtain ⟨later, hlater, hleading⟩ := Unread.arrivals_append env before after {}
    have hrun := run_eq_foldl_arrivals env before {} rfl (hleading hfits)
    rw [hrun]
    apply quiet_of_silent env hsilent.silent
    exact ⟨later, hlater.symm.trans harrivals⟩
  obtain ⟨hwhole, hcomplete⟩ := hquiet events (prefix_refl _)
  refine ⟨fun before hbefore => (hquiet before hbefore).1.no_command, ?_, hwhole.no_result,
    hwhole.no_command⟩
  rw [hcomplete, harrivals, ConnectionPhase.packets, phaseEnded_concat]
  exact Bool.or_true _

/-! ## Concrete phases -/

/-- The fields of a greeting behind the protocol version: version 8.0.36, connection 1 and
the `caching_sha2_password` method. -/
def greetingFields : List Byte :=
  [56, 46, 48, 46, 51, 54, 0, 1, 0, 0, 0, 97, 98, 99, 100, 101, 102, 103, 104, 0, 255, 255, 255,
    2, 0, 255, 127, 21, 0, 0, 0, 0, 0, 0, 0, 0, 0, 0, 105, 106, 107, 108, 109, 110, 111, 112, 113,
    114, 115, 116, 0, 99, 97, 99, 104, 105, 110, 103, 95, 115, 104, 97, 50, 95, 112, 97, 115, 115,
    119, 111, 114, 100, 0]

/-- A phase with the given rounds. -/
def phaseWith (rounds : List AuthRound) : ConnectionPhase where
  greeting := greetingFields
  response := { sequenceID := 1, payload := [13, 162, 0, 0] }
  rounds := rounds
  lastID := 9
  lastBody := [0, 0, 2, 0, 0, 0]

def eventOf (arrival : Arrival) : DataEvent where
  direction := match arrival.side with
    | .client => .egress
    | .server => .ingress
  data := buildPacket arrival.packet

theorem chunksOf_map_eventOf (packets : List Arrival) :
    chunksOf clientSide (packets.map eventOf) =
      packets.map fun arrival => (arrival.side, buildPacket arrival.packet) := by
  rw [chunksOf, filterMap_map, ← filterMap_eq_map]
  apply filterMap_congr
  intro arrival _
  obtain ⟨side, _⟩ := arrival
  cases side with
  | client => rfl
  | server => rfl

/-- One event for each packet. -/
theorem fed_map_eventOf (packets : List Arrival) :
    Fed clientSide packets (packets.map eventOf) := by
  rw [Fed, chunksOf_map_eventOf]

/-- Full authentication: the server asks for it, the client asks for the key of the
server and sends the password. -/
def fullAuthentication : ConnectionPhase :=
  phaseWith [⟨2, .moreData, [4], some ⟨3, [2]⟩⟩, ⟨4, .moreData, [45, 45], some ⟨5, [1, 2, 3]⟩⟩]

theorem connection_phase_queues_no_command_full :
    (∀ before, before <+: fullAuthentication.packets.map eventOf →
      (Stream.run clientSide before {}).pendingCommands = []) ∧
    (Stream.run clientSide (fullAuthentication.packets.map eventOf) {}).handshakeComplete = true ∧
    (Stream.run clientSide (fullAuthentication.packets.map eventOf) {}).active = none ∧
    (Stream.run clientSide (fullAuthentication.packets.map eventOf) {}).pendingCommands = [] := by
  refine connection_phase_queues_no_command clientSide fullAuthentication _ (by decide)
    (fed_map_eventOf _) (by decide) ?_
  rintro past packet hpast ⟨arrival, harrival, _, hswitch⟩
  have hnone : ∀ arrival ∈ fullAuthentication.packets,
      arrival.packet.payload.head? ≠ some AuthHeader.switchRequest.byte := by decide
  exact absurd hswitch (hnone arrival (hpast.subset (mem_append_left _ harrival)))

/-- The last two packets of the server in one event. -/
def wideEvents (body : List Byte) : List DataEvent :=
  ((phaseWith []).opening.map eventOf) ++
    [{ direction := .ingress
       data := buildPacket ⟨2, 0x01 :: body⟩ ++ buildPacket (phaseWith []).closing.packet }]

theorem fed_wideEvents (body : List Byte) :
    Fed clientSide (phaseWith [⟨2, .moreData, body, none⟩]).packets (wideEvents body) := by
  rw [Fed, wideEvents, chunksOf, filterMap_append, ← chunksOf, chunksOf_map_eventOf]
  simp [Framer.tagged, ConnectionPhase.packets, AuthRound.packets, AuthRound.request,
    AuthHeader.byte, phaseWith, ConnectionPhase.opening, ConnectionPhase.closing, sideOf,
    clientSide, isRequest, isResponse]

theorem handshakeComplete_wideEvents {body : List Byte} (hbody : 2 ^ 24 - 2 ≤ body.length) :
    (run clientSide (wideEvents body) {}).handshakeComplete = false := by
  have hoverflow : maxBufferSize <
      (buildPacket ⟨2, 0x01 :: body⟩ ++ buildPacket (phaseWith []).closing.packet).length := by
    rw [length_append, length_buildPacket, length_buildPacket, length_cons, maxBufferSize]
    omega
  have hdropped := toCorrelation_process_overflow clientSide
    (run clientSide ((phaseWith []).opening.map eventOf) {})
    { direction := .ingress
      data := buildPacket ⟨2, 0x01 :: body⟩ ++ buildPacket (phaseWith []).closing.packet }
    rfl hoverflow
  exact (congrArg handshakeComplete hdropped).trans (by decide)

/-- The server asks for another method and the client answers. -/
def methodSwitch : ConnectionPhase :=
  phaseWith [⟨2, .switchRequest, [109, 121, 0], some ⟨3, [7, 8, 9]⟩⟩]

/-- An event beyond the buffer's limit is dropped with the final OK packet in it, and the
answer to a request for another method is queued as a command. -/
theorem connection_phase_disturbed :
    ((phaseWith [⟨2, .moreData, List.replicate (2 ^ 24 - 2) 0, none⟩]).Fits ∧
      Fed clientSide (phaseWith [⟨2, .moreData, List.replicate (2 ^ 24 - 2) 0, none⟩]).packets
        (wideEvents (List.replicate (2 ^ 24 - 2) 0)) ∧
      (Stream.run clientSide (wideEvents (List.replicate (2 ^ 24 - 2) 0)) {}).handshakeComplete =
        false) ∧
    (methodSwitch.Fits ∧ Fed clientSide methodSwitch.packets (methodSwitch.packets.map eventOf) ∧
      (Stream.run clientSide ((methodSwitch.packets.map eventOf).take 4)
        {}).pendingCommands.length =
        1) := by
  refine ⟨⟨?_, fed_wideEvents _, ?_⟩, by decide, fed_map_eventOf _, by decide⟩
  · intro arrival harrival
    simp only [ConnectionPhase.packets, ConnectionPhase.opening, ConnectionPhase.closing, phaseWith,
      flatMap_singleton, AuthRound.packets, AuthRound.request, Option.toList_none,
      map_nil,
      mem_append, mem_cons, not_mem_nil, or_false] at harrival
    rcases harrival with ((rfl | rfl) | rfl) | rfl
    · decide
    · decide
    · rw [length_cons, length_replicate]
      norm_num
    · decide
  · apply handshakeComplete_wideEvents
    rw [length_replicate]

end Qtap.Mysql
