import Qtap.Mysql.Arrivals

/-!
# Correlation of commands and responses

The stream pairs a response with the oldest pending command.  For a session of
single-packet commands and OK or ERR responses this is the command that elicited the
response as long as the queue never overflows and no command that the server leaves
unanswered is queued before an answered one.
-/

namespace Qtap.Mysql

open Correlation List Qtap.Core Qtap.Connection Exec

/-- A command of a client, in one packet. -/
structure Command where
  sequenceID : Byte
  code : Byte
  body : List Byte
  deriving DecidableEq, Repr

def Command.packet (command : Command) : Packet where
  sequenceID := command.sequenceID
  payload := command.code :: command.body

/-- The commands that a server responds to. -/
def answered (code : Byte) : Bool :=
  code != comStmtClose && code != comStmtSendLongData && code != comQuit

/-- A server's OK packet or ERR packet. -/
inductive Reply where
  | ok (sequenceID : Byte) (fields : List Byte)
  | err (sequenceID : Byte) (codeLow codeHigh : Byte) (text : List Byte)
  deriving DecidableEq, Repr

def Reply.packet : Reply → Packet
  | ok sequenceID fields => { sequenceID := sequenceID, payload := okPacket :: fields }
  | err sequenceID codeLow codeHigh text =>
    { sequenceID := sequenceID, payload := errPacket :: codeLow :: codeHigh :: text }

/-- The pairs of `completeResponse` and `finishResultSet` in a stream's output. -/
def completions (outputs : List Output) : List (PendingCommand × Response) :=
  outputs.filterMap fun output =>
    match output with
    | .pair pending response => some (pending, response)
    | _ => none

/-- The records that a stream makes of a sequence of commands. -/
def issued (env : Env) : ℕ → ℕ → List Command → List PendingCommand
  | _, _, [] => []
  | now, requested, command :: commands =>
    Correlation.newPending env now requested command.code (commandData command.code command.body) ::
      issued env (now + 1) (Correlation.requestedAfter env requested command.code) commands

/-! ## Reading OK and ERR packets -/

variable {data : List Byte} {pos : ℤ} {rest : List PendingCommand}

theorem returns_slice {low high : ℤ} (hrange : 0 ≤ low ∧ low ≤ high ∧ high ≤ data.length) :
    (slice data low high : Read (List Byte)).Returns fun bytes =>
      (bytes.length : ℤ) = high - low := by
  rw [slice, if_pos hrange]
  apply returns_ok
  simp only [length_take, length_drop]
  omega

theorem returns_sliceFrom (hrange : 0 ≤ pos ∧ pos ≤ data.length) :
    (sliceFrom data pos).Returns fun bytes => (bytes.length : ℤ) = data.length - pos :=
  returns_slice ⟨hrange.1, hrange.2, le_rfl⟩

theorem returns_uintAt {width : ℕ} (hrange : 0 ≤ pos ∧ pos + width ≤ data.length) :
    (uintAt width data pos).Returns fun _ => True := by
  refine (returns_slice ⟨hrange.1, by omega, hrange.2⟩).bind ?_
  intro bytes _
  exact returns_ok trivial

theorem returns_byteAt (hrange : 0 ≤ pos ∧ pos < data.length) :
    (byteAt data pos).Returns fun _ => True := by
  have hlt : pos.toNat < data.length := by omega
  rw [byteAt, if_pos hrange.1, List.getElem?_eq_getElem hlt]
  exact returns_ok trivial

/-- A length-encoded integer is either incomplete or read within the data. -/
theorem readLengthEncodedInt_course (data : List Byte) :
    (∃ error, readLengthEncodedInt data = .err error) ∨
      (readLengthEncodedInt data).Returns fun (_, n) => 0 ≤ n ∧ n ≤ data.length := by
  cases data with
  | nil => exact .inl ⟨_, rfl⟩
  | cons first rest =>
    have hwide (width : ℕ) (n : ℤ) (hn : n = 1 + width) (hlong : n ≤ (first :: rest).length) :
        ((uintAt width (first :: rest) 1).bind fun value => Exec.ok (value, n)).Returns
          fun (_, n) => 0 ≤ n ∧ n ≤ (first :: rest).length := by
      refine (returns_uintAt ⟨by omega, by omega⟩).bind ?_
      intro value _
      exact returns_ok ⟨by omega, hlong⟩
    have hbyte (value : ℕ) : (Exec.ok (value, 1) : Read (ℕ × ℤ)).Returns
        fun (_, n) => 0 ≤ n ∧ n ≤ (first :: rest).length :=
      returns_ok ⟨by omega, by simp⟩
    simp only [readLengthEncodedInt]
    split_ifs with h1 h2 h3 h4 h5 h6 h7
    · exact .inr (hbyte 0)
    · exact .inl ⟨_, rfl⟩
    · exact .inr (hwide 2 3 rfl (by omega))
    · exact .inl ⟨_, rfl⟩
    · exact .inr (hwide 3 4 rfl (by omega))
    · exact .inl ⟨_, rfl⟩
    · exact .inr (hwide 8 9 rfl (by omega))
    · exact .inr (hbyte _)

theorem returns_lenencOrZero (hrange : 0 ≤ pos ∧ pos ≤ data.length) :
    (lenencOrZero data pos).Returns fun (_, n) => 0 ≤ n ∧ pos + n ≤ data.length := by
  refine (returns_sliceFrom hrange).bind ?_
  intro rest hlength
  rcases readLengthEncodedInt_course rest with ⟨_, herror⟩ | ⟨⟨value, n⟩, hvalue, hn⟩
  · rw [herror]
    exact ⟨(0, 0), rfl, by omega⟩
  · rcases hcourse : readLengthEncodedInt rest with ⟨_, _⟩
    rw [hcourse] at hvalue
    subst hvalue
    exact ⟨(value, n), rfl, by omega⟩

theorem returns_optionalUint16 (hrange : 0 ≤ pos ∧ pos ≤ data.length) :
    (optionalUint16 data pos).Returns fun (_, next) => 0 ≤ next ∧ next ≤ data.length := by
  rw [optionalUint16]
  split_ifs with hlong
  · refine (returns_uintAt ⟨hrange.1, hlong⟩).bind ?_
    intro value _
    exact returns_ok ⟨by omega, hlong⟩
  · exact returns_ok hrange

theorem returns_trailingText (hpos : 0 ≤ pos) : (trailingText data pos).Returns fun _ => True := by
  rw [trailingText]
  split_ifs with hlong
  · exact (returns_sliceFrom ⟨hpos, by omega⟩).mono fun _ _ => trivial
  · exact returns_ok trivial

theorem returns_parseOKPacket (header : Byte) (fields : List Byte)
    (hheader : header = okPacket ∨ header = eofPacket) :
    (parseOKPacket (header :: fields)).Returns fun _ => True := by
  rw [parseOKPacket, if_pos (by simpa using hheader)]
  refine (returns_lenencOrZero ⟨by omega, by simp⟩).bind ?_
  intro ⟨affectedRows, n⟩ hn
  refine (returns_lenencOrZero ⟨by omega, by omega⟩).bind ?_
  intro ⟨lastInsertID, m⟩ hm
  refine (returns_optionalUint16 ⟨by omega, by omega⟩).bind ?_
  intro ⟨statusFlags, pos⟩ hpos
  refine (returns_optionalUint16 hpos).bind ?_
  intro ⟨warnings, pos⟩ hpos
  refine (returns_trailingText hpos.1).bind ?_
  intro info _
  exact returns_ok trivial

theorem returns_readSQLState (data : List Byte) :
    (readSQLState data).Returns fun (_, pos) => 0 ≤ pos := by
  rw [readSQLState]
  split
  · refine (returns_byteAt ⟨by omega, by omega⟩).bind ?_
    intro marker _
    split_ifs with hother hstate
    · exact returns_ok (by omega)
    · refine (returns_slice ⟨by omega, by omega, by omega⟩).bind ?_
      intro state _
      exact returns_ok (by omega)
    · exact returns_ok (by omega)
  · exact returns_ok (by omega)

theorem returns_parseERRPacket (codeLow codeHigh : Byte) (text : List Byte) :
    (parseERRPacket (errPacket :: codeLow :: codeHigh :: text)).Returns fun _ => True := by
  refine (returns_uintAt ⟨by omega, by simp only [length_cons]; omega⟩).bind ?_
  intro errorCode _
  refine (returns_readSQLState _).bind ?_
  intro ⟨sqlState, pos⟩ hpos
  refine (returns_trailingText hpos).bind ?_
  intro errorMessage _
  exact returns_ok trivial

/-- An OK or ERR packet is read, and not as the start of a result set. -/
theorem parseResponse_reply (reply : Reply) :
    ∃ response, (parseResponse reply.packet).outcome = .ok response ∧
      ∀ result, response ≠ .resultSet result := by
  cases reply with
  | ok sequenceID fields =>
    obtain ⟨response, hresponse, _⟩ := returns_parseOKPacket okPacket fields (.inl rfl)
    refine ⟨.ok response, ?_, fun result => Response.noConfusion⟩
    simp [Reply.packet, parseResponse, bind_outcome_eq_ok_iff, hresponse]
  | err sequenceID codeLow codeHigh text =>
    obtain ⟨response, hresponse, _⟩ := returns_parseERRPacket codeLow codeHigh text
    refine ⟨.err response, ?_, fun result => Response.noConfusion⟩
    have hheader : errPacket ≠ okPacket := by decide
    simp [Reply.packet, parseResponse, bind_outcome_eq_ok_iff, hresponse, hheader]

/-! ## One packet -/

theorem completions_append (first second : List Output) :
    completions (first ++ second) = completions first ++ completions second :=
  filterMap_append

theorem completions_report (pending : PendingCommand) (response : Response) (writeBytes : ℕ) :
    completions (report pending response writeBytes) = [(pending, response)] := by
  rw [report]
  cases pending.pluginConn <;> rfl

theorem completions_commandOutputs (pending : PendingCommand) (packet : Packet) :
    completions (commandOutputs pending packet) = [] := by
  rw [commandOutputs]
  cases pending.pluginConn <;> rfl

theorem completions_teardown (pending : PendingCommand) : completions (teardown pending) = [] := by
  rw [teardown]
  cases pending.pluginConn <;> rfl

/-- Between commands and outside of result sets. -/
structure Correlation.Ready (state : Correlation) : Prop where
  handshakeComplete : state.handshakeComplete = true
  active : state.active = none

namespace Correlation.Ready

variable {state : Correlation} (hready : state.Ready)
include hready

/-- A command joins the queue, of which only the newest commands are kept. -/
theorem handleRequest_command (env : Env) (command : Command) :
    ∃ next, state.handleRequest env command.packet = next ∧ next.Ready ∧ next.now = state.now + 1 ∧
      next.requested = requestedAfter env state.requested command.code ∧
      next.pendingCommands = (state.pendingCommands.drop
          (if state.pendingCommands.length ≥ maxPendingCommands then 1 else 0)) ++
        [newPending env state.now state.requested command.code
          (commandData command.code command.body)] ∧
      completions next.outputs = completions state.outputs := by
  have hhandle : state.handleRequest env command.packet =
      state.queueCommand env command.packet command.code
        (commandData command.code command.body) := by
    simp [handleRequest, Command.packet, hready.handshakeComplete, parseCommand]
  refine ⟨_, hhandle, ?_⟩
  rw [queueCommand, enqueue]
  split_ifs with hfull
  · rw [drop_one]
    refine ⟨⟨hready.handshakeComplete, hready.active⟩, rfl, rfl, rfl, ?_⟩
    rw [completions_append, completions_append, completions_commandOutputs, append_nil]
    cases state.pendingCommands.head? with
    | none => exact append_nil _
    | some =>
      rw [Option.elim_some, completions_teardown, append_nil]
  · refine ⟨⟨hready.handshakeComplete, hready.active⟩, rfl, rfl, rfl, ?_⟩
    rw [completions_append, completions_commandOutputs, append_nil]

theorem handleResponse_reply (reply : Reply) {pending : PendingCommand}
    (hpending : state.pendingCommands = pending :: rest) :
    ∃ next, state.handleResponse reply.packet = next ∧ next.Ready ∧ next.now = state.now ∧
      next.requested = state.requested ∧ next.pendingCommands = rest ∧
      ∃ response, (parseResponse reply.packet).value? = some response ∧
        completions next.outputs = completions state.outputs ++ [(pending, response)] := by
  obtain ⟨response, hresponse, _⟩ := parseResponse_reply reply
  have hpayload : reply.packet.payload ≠ [] := by
    cases reply <;> exact cons_ne_nil _ _
  have hhandle : state.handleResponse reply.packet =
      completeResponse { state with pendingCommands := rest } pending reply.packet response := by
    simp only [handleResponse, if_neg hpayload, hready.active, hpending, hresponse]
  refine ⟨_, hhandle, ⟨hready.handshakeComplete, hready.active⟩, rfl, rfl, rfl, response, ?_, ?_⟩
  · simp [Exec.value?, hresponse]
  · rw [completeResponse, completions_append, completions_report]

end Correlation.Ready

/-! ## A session -/

/-- The packets of `side` among the first `count` arrivals. -/
def arrivedFrom (side : Side) (arrivals : List Arrival) (count : ℕ) : List Packet :=
  sentBy side (arrivals.take count)

theorem arrivedFrom_zero (side : Side) (arrivals : List Arrival) :
    arrivedFrom side arrivals 0 = [] := rfl

theorem arrivedFrom_cons (side : Side) (arrival : Arrival) (arrivals : List Arrival) (count : ℕ) :
    arrivedFrom side (arrival :: arrivals) (count + 1) =
      sentBy side [arrival] ++ arrivedFrom side arrivals count := by
  rw [arrivedFrom, take_succ_cons, ← singleton_append, sentBy_append]
  rfl

/-- The stream answers commands in the order of the queue: pending commands first, then
those that arrive. -/
theorem completions_foldl_arrivals (env : Env) (arrivals : List Arrival) (state : Correlation)
    (hready : state.Ready) (commands : List Command) (replies : List Reply)
    (hcommands : sentBy .client arrivals = commands.map Command.packet)
    (hreplies : sentBy .server arrivals = replies.map Reply.packet)
    (hqueue : ∀ count ≤ arrivals.length,
      state.pendingCommands.length + (arrivedFrom .client arrivals count).length ∈
        Set.Icc (arrivedFrom .server arrivals count).length
          ((arrivedFrom .server arrivals count).length + maxPendingCommands)) :
    ∃ responses, responses.map some =
        replies.map (fun reply => (parseResponse reply.packet).value?) ∧
      completions (arrivals.foldl (handle env) state).outputs =
        completions state.outputs ++
          (state.pendingCommands ++ issued env state.now state.requested commands).zip
            responses := by
  induction arrivals generalizing state commands replies with
  | nil =>
    obtain rfl : replies = [] := by simpa [sentBy] using hreplies
    exact ⟨[], rfl, by simp⟩
  | cons arrival arrivals ih =>
    obtain ⟨side, packet⟩ := arrival
    have hlater (count : ℕ) (hcount : count ≤ arrivals.length) :=
      hqueue (count + 1) (by simpa using hcount)
    simp only [arrivedFrom_cons, length_append, Set.mem_Icc] at hlater
    rw [← singleton_append, sentBy_append] at hcommands hreplies
    cases side with
    | client =>
      have hone : sentBy .client [⟨.client, packet⟩] = [packet] := rfl
      have hnone : sentBy .server [⟨.client, packet⟩] = [] := rfl
      rw [hone, singleton_append, eq_comm, map_eq_cons_iff] at hcommands
      obtain ⟨command, rest, rfl, rfl, hrest⟩ := hcommands
      simp only [hone, hnone, length_singleton, length_nil] at hlater
      have hshort : state.pendingCommands.length < maxPendingCommands := by
        have hfirst := hlater 0 (Nat.zero_le _)
        rw [arrivedFrom_zero, arrivedFrom_zero] at hfirst
        omega
      obtain ⟨_, rfl, hready', hnow, hrequested, hpending, hcompletions⟩ :=
        hready.handleRequest_command env command
      rw [if_neg (Nat.not_le.2 hshort), drop_zero] at hpending
      obtain ⟨responses, hresponses, hfinal⟩ := ih _ hready' rest replies hrest.symm hreplies
        (fun count hcount => by
          have hbounds := hlater count hcount
          rw [hpending, length_append, length_singleton, Set.mem_Icc]
          omega)
      refine ⟨responses, hresponses, ?_⟩
      rw [hcompletions, hpending, hnow, hrequested, append_assoc] at hfinal
      exact hfinal
    | server =>
      have hone : sentBy .server [⟨.server, packet⟩] = [packet] := rfl
      have hnone : sentBy .client [⟨.server, packet⟩] = [] := rfl
      rw [hone, singleton_append, eq_comm, map_eq_cons_iff] at hreplies
      obtain ⟨reply, rest, rfl, rfl, hrest⟩ := hreplies
      simp only [hone, hnone, length_singleton, length_nil] at hlater
      have hwaiting : state.pendingCommands ≠ [] := by
        have hfirst := hlater 0 (Nat.zero_le _)
        rw [arrivedFrom_zero, arrivedFrom_zero] at hfirst
        exact ne_nil_of_length_pos (by omega)
      obtain ⟨_, waiting, hwaiting⟩ := exists_cons_of_ne_nil hwaiting
      obtain ⟨_, rfl, hready', hnow, hrequested, hpending, response, hresponse, hcompletions⟩ :=
        hready.handleResponse_reply reply hwaiting
      have hlength : state.pendingCommands.length = waiting.length + 1 := by
        rw [hwaiting, length_cons]
      obtain ⟨responses, hresponses, hfinal⟩ := ih _ hready' commands rest hcommands hrest.symm
        (fun count hcount => by
          have hbounds := hlater count hcount
          rw [hpending, Set.mem_Icc]
          omega)
      refine ⟨response :: responses, by simp [hresponse, hresponses], ?_⟩
      rw [hcompletions, hpending, hnow, hrequested, append_assoc] at hfinal
      rw [hwaiting]
      exact hfinal

/-- Appending to a bounded queue that drops its oldest item keeps the newest items. -/
theorem drop_newest {A : Type*} {limit : ℕ} (hlimit : 0 < limit) {queue : List A}
    (hqueue : queue.length ≤ limit) (item : A) (rest : List A) (count : ℕ) :
    (queue.drop (if queue.length ≥ limit then 1 else 0) ++ [item]).length ≤ limit ∧
      ((queue.drop (if queue.length ≥ limit then 1 else 0) ++ [item]) ++ rest).drop
          ((queue.drop (if queue.length ≥ limit then 1 else 0) ++ [item]).length + count - limit) =
        (queue ++ item :: rest).drop (queue.length + (count + 1) - limit) := by
  rw [length_append, length_drop, length_singleton, append_assoc]
  split_ifs with hfull
  · refine ⟨by omega, ?_⟩
    rw [← drop_append_of_le_length (by omega), drop_drop]
    congr 1
    omega
  · refine ⟨by omega, ?_⟩
    congr 1
    omega

/-- Of commands that nobody answers the queue keeps the newest. -/
theorem pendingCommands_foldl_commands (env : Env) (commands : List Command)
    (state : Correlation) (hready : state.Ready)
    (hlength : state.pendingCommands.length ≤ maxPendingCommands) :
    ∃ next, (commands.map Command.packet).foldl (fun state packet => state.handleRequest env packet)
        state = next ∧ next.Ready ∧ completions next.outputs = completions state.outputs ∧
      next.pendingCommands =
        (state.pendingCommands ++ issued env state.now state.requested commands).drop
          (state.pendingCommands.length + commands.length - maxPendingCommands) := by
  induction commands generalizing state with
  | nil =>
    rw [issued, append_nil, length_nil, Nat.add_zero, Nat.sub_eq_zero_of_le hlength]
    exact ⟨state, rfl, hready, rfl, rfl⟩
  | cons command commands ih =>
    obtain ⟨_, hnext, hready', hnow, hrequested, hpending, hcompletions⟩ :=
      hready.handleRequest_command env command
    obtain ⟨hshorter, hdrop⟩ := drop_newest (by decide) hlength
      (newPending env state.now state.requested command.code
        (commandData command.code command.body))
      (issued env (state.now + 1) (requestedAfter env state.requested command.code)
        commands) commands.length
    rw [← hpending] at hshorter hdrop
    obtain ⟨final, hfold, hfinal, hsame, hqueue⟩ := ih _ hready' hshorter
    rw [map_cons, foldl_cons, hnext]
    rw [hnow, hrequested, hdrop] at hqueue
    exact ⟨final, hfold, hfinal, hsame.trans hcompletions, hqueue⟩

/-! ## A session over any cut into events -/

/-- A stream past the handshake that waits for a command. -/
structure Stream.Idle (stream : Stream) : Prop where
  opened : stream.closed = false
  ready : stream.toCorrelation.Ready
  noPending : stream.pendingCommands = []
  noUnread : stream.unread = {}

/-- The records of the commands that elicit responses, in the order of the commands. -/
def elicitors (env : Env) (stream : Stream) (commands : List Command) : List PendingCommand :=
  (issued env stream.now stream.requested commands).filter fun pending =>
    answered pending.commandType

/-- A session on an idle stream: the client's commands and the server's responses, cut
into events so that each response is complete only after its command. -/
structure Session (env : Env) (start : Stream) (commands : List Command)
    (replies : List Reply) (events : List DataEvent) : Prop where
  idle : start.Idle
  commandsFit : ∀ command ∈ commands, command.packet.length < 2 ^ 24 - 1
  repliesFit : ∀ reply ∈ replies, reply.packet.length < 2 ^ 24 - 1
  clientBytes : bytesFrom env .client events = (commands.map Command.packet).flatMap buildPacket
  serverBytes : bytesFrom env .server events = (replies.map Reply.packet).flatMap buildPacket
  order : ∀ count ≤ (start.unread.arrivals env events).length,
    (arrivedFrom .server (start.unread.arrivals env events) count).length ≤
      ((arrivedFrom .client (start.unread.arrivals env events) count).filter fun packet =>
        packet.payload.head?.elim false answered).length

/-- Each response was reported once, as the response to the command that elicited it. -/
def Paired (env : Env) (start : Stream) (commands : List Command) (replies : List Reply)
    (final : Stream) : Prop :=
  ∃ responses : List Response,
    responses.map some = replies.map (fun reply => (parseResponse reply.packet).value?) ∧
      completions final.outputs =
        completions start.outputs ++ (elicitors env start commands).zip responses

theorem map_commandType_issued (env : Env) (commands : List Command) (now requested : ℕ) :
    (issued env now requested commands).map PendingCommand.commandType =
      commands.map Command.code := by
  induction commands generalizing now requested with
  | nil => rfl
  | cons command commands ih =>
    rw [issued, map_cons, ih]
    rfl

/-- Filtering what a shorter list is zipped with changes nothing where nothing is left out. -/
theorem zip_filter_of_take {A B : Type*} (keep : A → Bool) (items : List A) (others : List B)
    (hkeep : ∀ item ∈ items.take others.length, keep item) :
    (items.filter keep).zip others = items.zip others := by
  induction items generalizing others with
  | nil => rfl
  | cons item items ih =>
    cases others with
    | nil => rw [zip_nil_right, zip_nil_right]
    | cons other others =>
      rw [length_cons, take_succ_cons, forall_mem_cons] at hkeep
      rw [filter_cons_of_pos hkeep.1, zip_cons_cons, ih others hkeep.2, zip_cons_cons]

theorem elicitors_zip (env : Env) (start : Stream) (commands : List Command)
    (responses : List Response)
    (hanswered : ∀ command ∈ commands.take responses.length, answered command.code) :
    (elicitors env start commands).zip responses =
      (issued env start.now start.requested commands).zip responses := by
  apply zip_filter_of_take
  intro pending hpending
  have hcode := mem_map_of_mem hpending (f := PendingCommand.commandType)
  rw [map_take, map_commandType_issued, ← map_take, mem_map] at hcode
  obtain ⟨command, hcommand, hcode⟩ := hcode
  rw [← hcode]
  exact hanswered command hcommand

theorem sentBy_arrivals_of_idle {stream : Stream} (hidle : stream.Idle) {env : Env} {side : Side}
    {events : List DataEvent} {packets : List Packet}
    (hpackets : ∀ packet ∈ packets, packet.payload.length < 2 ^ 24)
    (hbytes : bytesFrom env side events = packets.flatMap buildPacket) :
    sentBy side (stream.unread.arrivals env events) = packets := by
  have hempty : (stream.unread.of side) = [] := by
    rw [hidle.noUnread]
    cases side <;> rfl
  rw [sentBy_arrivals env side events _ (hempty ▸ packetFramer.next_nil), hempty,
    nil_append, hbytes, packetFramer_encodes.drain_flatMap packets hpackets]

namespace Session

variable {env : Env} {start : Stream} {commands : List Command} {replies : List Reply}
  {events : List DataEvent} (hsession : Session env start commands replies events)
include hsession

theorem sentBy_client :
    sentBy .client (start.unread.arrivals env events) = commands.map Command.packet := by
  apply sentBy_arrivals_of_idle hsession.idle _ hsession.clientBytes
  exact forall_mem_map.2 fun command hcommand =>
    Nat.lt_of_lt_pred (hsession.commandsFit command hcommand)

theorem sentBy_server :
    sentBy .server (start.unread.arrivals env events) = replies.map Reply.packet := by
  apply sentBy_arrivals_of_idle hsession.idle _ hsession.serverBytes
  exact forall_mem_map.2 fun reply hreply =>
    Nat.lt_of_lt_pred (hsession.repliesFit reply hreply)

end Session

/-- However a session is cut into events, each response is paired with the command that
elicited it, provided the queue and the buffers have room and no unanswered command
stands before an answered one. -/
theorem responses_paired_with_eliciting_commands (env : Env) (start : Stream)
    (commands : List Command) (replies : List Reply) (events : List DataEvent)
    (hsession : Session env start commands replies events)
    (hqueue : ∀ count ≤ (start.unread.arrivals env events).length,
      (arrivedFrom .client (start.unread.arrivals env events) count).length ≤
        (arrivedFrom .server (start.unread.arrivals env events) count).length +
          Correlation.maxPendingCommands) (hbuffers : start.unread.fitsAll env events)
    (hanswered : ∀ command ∈ commands.take replies.length, answered command.code) :
    Paired env start commands replies (start.run env events) := by
  obtain ⟨responses, hresponses, hcompletions⟩ :=
    completions_foldl_arrivals env _ start.toCorrelation hsession.idle.ready commands replies
      hsession.sentBy_client hsession.sentBy_server
      (by
        intro count hcount
        rw [hsession.idle.noPending, length_nil, Nat.zero_add]
        exact ⟨(hsession.order count hcount).trans (length_filter_le _ _), hqueue count hcount⟩)
  have hlength : responses.length = replies.length := by
    simpa using congrArg List.length hresponses
  refine ⟨responses, hresponses, ?_⟩
  rw [Stream.run_eq_foldl_arrivals env events start hsession.idle.opened hbuffers, hcompletions,
    hsession.idle.noPending, nil_append, elicitors_zip env start commands responses]
  rw [hlength]
  exact hanswered

/-! ## Sessions on an established connection -/

def established : Stream := { handshakeComplete := true }

def ping : Command := { sequenceID := 0, code := comPing, body := [] }

def pong : Reply := .ok 1 [0, 0, 2, 0, 0, 0]

theorem established_idle : established.Idle := ⟨rfl, ⟨rfl, rfl⟩, rfl, rfl⟩

/-- A query is cut in two, the responses share an event. -/
theorem responses_paired_with_ping_and_query :
    Paired clientSide established [ping, ⟨0, comQuery, [83, 49]⟩] [pong, .err 1 1 2 [35]]
      (established.run clientSide [⟨.egress, [1, 0, 0, 0, 14, 3, 0, 0]⟩, ⟨.egress, [0, 3, 83, 49]⟩,
          ⟨.ingress, [7, 0, 0, 1, 0, 0, 0, 2, 0, 0, 0, 4, 0, 0, 1, 255, 1, 2, 35]⟩]) :=
  responses_paired_with_eliciting_commands clientSide established _ _ _
    ⟨established_idle, by decide, by decide, by decide, by decide, by decide⟩
    (by decide) (by decide) (by decide)

/-- All commands arrive before the server's first response. -/
def burst (commands : List Command) (reply : Reply) : List DataEvent :=
  [⟨.egress, (commands.map Command.packet).flatMap buildPacket⟩,
    ⟨.ingress, buildPacket reply.packet⟩]

theorem fitsAll_burst {commands : List Command} {reply : Reply}
    (hcommands : ((commands.map Command.packet).flatMap buildPacket).length ≤ maxBufferSize)
    (hreply : (buildPacket reply.packet).length ≤ maxBufferSize) :
    established.unread.fitsAll clientSide (burst commands reply) := by
  simp [-length_flatMap, -length_buildPacket, burst, Unread.fitsAll, Unread.fits,
    Unread.feed, established, Stream.unread, clientSide, isRequest, isResponse, hcommands, hreply]

section Burst

variable {commands : List Command} {reply : Reply}
  (hcommands : ∀ command ∈ commands, command.packet.length < 2 ^ 24 - 1)
  (hreply : reply.packet.length < 2 ^ 24 - 1)
include hcommands hreply

theorem arrivals_burst : established.unread.arrivals clientSide (burst commands reply) =
    arrivalsFrom .client (commands.map Command.packet) ++ arrivalsFrom .server [reply.packet] := by
  have hclient := packetFramer_encodes.drain_flatMap (commands.map Command.packet)
    (forall_mem_map.2 fun command hcommand => Nat.lt_of_lt_pred (hcommands command hcommand))
  have hserver := packetFramer_encodes.drain_flatMap [reply.packet]
    (forall_mem_singleton.2 (Nat.lt_of_lt_pred hreply))
  rw [flatMap_singleton] at hserver
  simp [burst, Unread.arrivals, Unread.feed, established, Stream.unread, clientSide, isRequest,
    isResponse, hclient, hserver]

theorem session_burst (hanswered : ∃ command ∈ commands, answered command.code) :
    Session clientSide established commands [reply] (burst commands reply) where
  idle := established_idle
  commandsFit := hcommands
  repliesFit := by simpa using hreply
  clientBytes := by simp [burst, bytesFrom, clientSide, isRequest]
  serverBytes := by simp [burst, bytesFrom, clientSide, isResponse]
  order := by
    rw [arrivals_burst hcommands hreply]
    intro count hcount
    rcases Nat.lt_or_ge commands.length count with hlate | hearly
    · have hall : (arrivalsFrom .client (commands.map Command.packet) ++
          arrivalsFrom .server [reply.packet]).length ≤ count := by
        simpa [arrivalsFrom] using hlate
      obtain ⟨command, hcommand, hcode⟩ := hanswered
      rw [arrivedFrom, arrivedFrom, take_of_length_le hall, sentBy_append, sentBy_append,
        sentBy_arrivalsFrom, sentBy_arrivalsFrom, sentBy_arrivalsFrom_of_ne (by decide),
        sentBy_arrivalsFrom_of_ne (by decide), append_nil]
      apply length_pos_of_mem (a := command.packet)
      rw [mem_filter]
      exact ⟨mem_map_of_mem hcommand, hcode⟩
    · have hshort : count ≤ (arrivalsFrom .client (commands.map Command.packet)).length := by
        simpa [arrivalsFrom] using hearly
      rw [arrivedFrom, take_append_of_le_length hshort, arrivalsFrom, ← map_take,
        ← arrivalsFrom, sentBy_arrivalsFrom_of_ne (by decide)]
      exact Nat.zero_le _

/-- The response of a burst goes to the oldest command that is still in the queue. -/
theorem completions_burst (hfits : established.unread.fitsAll clientSide (burst commands reply))
    {oldest : PendingCommand} (holdest : (issued clientSide 0 0 commands).drop
      (commands.length - maxPendingCommands) = oldest :: rest) :
    ∃ response, completions (established.run clientSide (burst commands reply)).outputs =
      [(oldest, response)] := by
  obtain ⟨next, hnext, hready, hcompletions, hpending⟩ := pendingCommands_foldl_commands clientSide
    commands established.toCorrelation established_idle.ready (by decide)
  have hqueue : next.pendingCommands = oldest :: rest := by
    rw [hpending, ← holdest]
    simp [established]
  obtain ⟨_, rfl, _, _, _, _, response, _, hfinal⟩ := hready.handleResponse_reply reply hqueue
  refine ⟨response, ?_⟩
  rw [Stream.run_eq_foldl_arrivals clientSide _ established rfl hfits,
    arrivals_burst hcommands hreply, foldl_append, Stream.foldl_arrivalsFrom_client,
    Stream.foldl_arrivalsFrom_server, hnext, foldl_cons, foldl_nil, hfinal, hcompletions]
  rfl

end Burst

theorem not_paired_of_completions {env : Env} {start final : Stream} {commands : List Command}
    {reply : Reply} {pending first : PendingCommand} {response : Response}
    (hstart : completions start.outputs = [])
    (hfinal : completions final.outputs = [(pending, response)])
    (helicitors : elicitors env start commands = first :: rest) (hne : pending ≠ first) :
    ¬ Paired env start commands [reply] final := by
  rintro ⟨responses, _, hpairs⟩
  rw [hfinal, hstart, helicitors, nil_append] at hpairs
  cases responses with
  | nil => simp at hpairs
  | cons =>
    rw [zip_cons_cons, cons_eq_cons, Prod.mk.injEq] at hpairs
    exact hne hpairs.1.1

/-- One ping more than the queue holds. -/
def pings : List Command := ping :: ping :: List.replicate (Correlation.maxPendingCommands - 1) ping

theorem pings_eq : pings = replicate (maxPendingCommands + 1) ping := rfl

theorem length_pings : pings.length = maxPendingCommands + 1 := by
  rw [pings_eq, length_replicate]

theorem pings_fit : ∀ command ∈ pings, command.packet.length < 2 ^ 24 - 1 := by
  intro command hcommand
  rw [pings_eq] at hcommand
  rw [eq_of_mem_replicate hcommand]
  decide

theorem pings_fitsAll : established.unread.fitsAll clientSide (burst pings pong) := by
  apply fitsAll_burst
  · rw [pings_eq, map_replicate, length_flatMap, map_replicate, sum_replicate_nat]
    decide
  · decide

/-- The queue drops its oldest command when it is full, and a command that is never
answered stays at its head: in both cases the next response goes to a wrong command. -/
theorem response_paired_with_another_command :
    (Session clientSide established pings [pong] (burst pings pong) ∧
      ¬ Paired clientSide established pings [pong]
        (established.run clientSide (burst pings pong))) ∧
    (Session clientSide established [⟨0, comStmtClose, [1, 0, 0, 0]⟩, ping] [pong]
        (burst [⟨0, comStmtClose, [1, 0, 0, 0]⟩, ping] pong) ∧
      ¬ Paired clientSide established [⟨0, comStmtClose, [1, 0, 0, 0]⟩, ping] [pong]
        (established.run clientSide (burst [⟨0, comStmtClose, [1, 0, 0, 0]⟩, ping] pong))) := by
  refine ⟨⟨?_, ?_⟩, ?_, ?_⟩
  · exact session_burst pings_fit (by decide) ⟨ping, mem_cons_self, by decide⟩
  · obtain ⟨response, hfinal⟩ := completions_burst pings_fit (by decide) pings_fitsAll
      (by rw [length_pings, Nat.add_sub_cancel_left, pings, issued, issued, drop_one, tail_cons])
    refine not_paired_of_completions rfl hfinal
      (by rw [elicitors, pings, issued, filter_cons_of_pos (by decide)]) ?_
    intro heq
    exact absurd (congrArg PendingCommand.timestamp heq) (by decide)
  · exact session_burst (by decide) (by decide) ⟨ping, by decide, by decide⟩
  · obtain ⟨response, hfinal⟩ : ∃ response, completions (established.run clientSide
          (burst [⟨0, comStmtClose, [1, 0, 0, 0]⟩, ping] pong)).outputs = [(_, response)] :=
      completions_burst (by decide) (by decide) (by decide) rfl
    exact not_paired_of_completions rfl hfinal rfl (by decide)

end Qtap.Mysql
