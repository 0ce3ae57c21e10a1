import Qtap.Connection.Types
import Qtap.Core.Ledger
import Qtap.Kafka.Format

/-!
# The Kafka stream processor

One `Stream` per connection: both parsers and the map of the requests that wait for a response,
keyed by correlation id.  What the stream tells its logger and its plugins is appended to
`outputs`.  `time.Now` is a counter, and plugin connections are numbered in the order in which the
stream asks for them.
-/

namespace Qtap.Kafka

open Kafka.Parser Qtap.Core Qtap.Connection

/-! ## Names -/

def apiKeyNames : List (ℤ × String) :=
  [(0, "Produce"), (1, "Fetch"), (2, "ListOffsets"), (3, "Metadata"), (4, "LeaderAndIsr"),
    (5, "StopReplica"), (6, "UpdateMetadata"), (7, "ControlledShutdown"), (8, "OffsetCommit"),
    (9, "OffsetFetch"), (10, "FindCoordinator"), (11, "JoinGroup"), (12, "Heartbeat"),
    (13, "LeaveGroup"), (14, "SyncGroup"), (15, "DescribeGroups"), (16, "ListGroups"),
    (17, "SaslHandshake"), (18, "ApiVersions"), (19, "CreateTopics"), (20, "DeleteTopics"),
    (21, "DeleteRecords"), (22, "InitProducerId"), (23, "OffsetForLeaderEpoch"),
    (24, "AddPartitionsToTxn"), (25, "AddOffsetsToTxn"), (26, "EndTxn"), (27, "WriteTxnMarkers"),
    (28, "TxnOffsetCommit"), (29, "DescribeAcls"), (30, "CreateAcls"), (31, "DeleteAcls"),
    (32, "DescribeConfigs"), (33, "AlterConfigs"), (34, "AlterReplicaLogDirs"),
    (35, "DescribeLogDirs"), (36, "SaslAuthenticate"), (37, "CreatePartitions"),
    (38, "CreateDelegationToken"), (39, "RenewDelegationToken"), (40, "ExpireDelegationToken"),
    (41, "DescribeDelegationToken"), (42, "DeleteGroups"), (43, "ElectLeaders"),
    (44, "IncrementalAlterConfigs"), (45, "AlterPartitionReassignments"),
    (46, "ListPartitionReassignments"), (47, "OffsetDelete"), (48, "DescribeClientQuotas"),
    (49, "AlterClientQuotas"), (50, "DescribeUserScramCredentials"),
    (51, "AlterUserScramCredentials"), (56, "AlterPartition"), (57, "UpdateFeatures"),
    (60, "DescribeCluster"), (61, "DescribeProducers"), (65, "DescribeTransactions"),
    (66, "ListTransactions"), (67, "AllocateProducerIds")]

def apiKeyName (apiKey : ℤ) : String :=
  (apiKeyNames.lookup apiKey).getD ("Unknown(" ++ toString apiKey ++ ")")

def kafkaErrorNames : List (ℤ × String) :=
  [(0, "NONE"), (-1, "UNKNOWN_SERVER_ERROR"), (1, "OFFSET_OUT_OF_RANGE"), (2, "CORRUPT_MESSAGE"),
    (3, "UNKNOWN_TOPIC_OR_PARTITION"), (4, "INVALID_FETCH_SIZE"), (5, "LEADER_NOT_AVAILABLE"),
    (6, "NOT_LEADER_OR_FOLLOWER"), (7, "REQUEST_TIMED_OUT"), (8, "BROKER_NOT_AVAILABLE"),
    (9, "REPLICA_NOT_AVAILABLE"), (10, "MESSAGE_TOO_LARGE"), (11, "STALE_CONTROLLER_EPOCH"),
    (12, "OFFSET_METADATA_TOO_LARGE"), (13, "NETWORK_EXCEPTION"),
    (14, "COORDINATOR_LOAD_IN_PROGRESS"), (15, "COORDINATOR_NOT_AVAILABLE"),
    (16, "NOT_COORDINATOR"), (17, "INVALID_TOPIC_EXCEPTION"), (18, "RECORD_LIST_TOO_LARGE"),
    (19, "NOT_ENOUGH_REPLICAS"), (20, "NOT_ENOUGH_REPLICAS_AFTER_APPEND"),
    (21, "INVALID_REQUIRED_ACKS"), (22, "ILLEGAL_GENERATION"),
    (23, "INCONSISTENT_GROUP_PROTOCOL"), (24, "INVALID_GROUP_ID"), (25, "UNKNOWN_MEMBER_ID"),
    (26, "INVALID_SESSION_TIMEOUT"), (27, "REBALANCE_IN_PROGRESS"),
    (28, "INVALID_COMMIT_OFFSET_SIZE"), (29, "TOPIC_AUTHORIZATION_FAILED"),
    (30, "GROUP_AUTHORIZATION_FAILED"), (31, "CLUSTER_AUTHORIZATION_FAILED"),
    (32, "INVALID_TIMESTAMP"), (33, "UNSUPPORTED_SASL_MECHANISM"), (34, "ILLEGAL_SASL_STATE"),
    (35, "UNSUPPORTED_VERSION"), (36, "TOPIC_ALREADY_EXISTS"), (37, "INVALID_PARTITIONS"),
    (38, "INVALID_REPLICATION_FACTOR"), (39, "INVALID_REPLICA_ASSIGNMENT"),
    (40, "INVALID_CONFIG"), (41, "NOT_CONTROLLER"), (42, "INVALID_REQUEST"),
    (43, "UNSUPPORTED_FOR_MESSAGE_FORMAT"), (44, "POLICY_VIOLATION"),
    (45, "OUT_OF_ORDER_SEQUENCE_NUMBER"), (46, "DUPLICATE_SEQUENCE_NUMBER"),
    (47, "INVALID_PRODUCER_EPOCH"), (48, "INVALID_TXN_STATE"),
    (49, "INVALID_PRODUCER_ID_MAPPING"), (50, "INVALID_TRANSACTION_TIMEOUT"),
    (51, "CONCURRENT_TRANSACTIONS"), (52, "TRANSACTION_COORDINATOR_FENCED"),
    (53, "TRANSACTIONAL_ID_AUTHORIZATION_FAILED"), (54, "SECURITY_DISABLED"),
    (55, "OPERATION_NOT_ATTEMPTED"), (58, "REASSIGNMENT_IN_PROGRESS")]

def kafkaErrorName (errorCode : ℤ) : String :=
  (kafkaErrorNames.lookup errorCode).getD ("UNKNOWN_ERROR(" ++ toString errorCode ++ ")")

/-! ## Types -/

structure PendingRequest where
  request : Request
  timestamp : ℕ
  pluginConn : Option ℕ
  deriving DecidableEq, Repr

/-- `plugins.KafkaCommand`. -/
structure KafkaCommand where
  apiKey : ℤ
  apiVersion : ℤ
  correlationID : ℤ
  clientID : List Byte
  operation : String
  topics : List (List Byte)
  groupID : List Byte
  messages : List KafkaMessage
  timestamp : ℕ
  deriving DecidableEq, Repr

/-- `plugins.KafkaResult`. -/
structure KafkaResult where
  correlationID : ℤ
  errorCode : ℤ
  errorMessage : String
  isError : Bool
  messages : List KafkaMessage
  deriving DecidableEq, Repr

inductive Output where
  | command (conn : ℕ) (command : KafkaCommand) (readBytes : ℕ)
  | pair (pending : PendingRequest) (response : Response)
  | result (conn : ℕ) (result : KafkaResult) (writeBytes : ℕ)
  | teardown (conn : ℕ)
  deriving DecidableEq, Repr

/-- The connection's side, the plugin manager and the order in which a range over the pending
requests visits them.  Without a manager no plugin connection is opened, with one the `n`-th
request for a connection may be refused. -/
structure Env where
  source : Source
  pluginManager : Option (ℕ → Bool)
  visit : List PendingRequest → List PendingRequest
  visit_perm : ∀ pending, (visit pending).Perm pending

/-- The part of the stream that handling a message reads and changes. -/
structure Correlation where
  pendingRequests : AList fun _ : ℤ => PendingRequest := ∅
  now : ℕ := 0
  requested : ℕ := 0
  outputs : List Output := []

/-- The two incremental parsers. -/
structure Parsers where
  requestParser : Parser := newParser
  responseParser : Parser := newParser
  deriving DecidableEq, Repr

structure Stream extends Correlation, Parsers where
  closed : Bool := false

inductive Message where
  | request (req : Request)
  | response (resp : Response)
  deriving DecidableEq, Repr

def isRequest (source : Source) (direction : Direction) : Bool :=
  (source == .client && direction == .egress) || (source == .server && direction == .ingress)

def isResponse (source : Source) (direction : Direction) : Bool :=
  (source == .client && direction == .ingress) || (source == .server && direction == .egress)

def teardown (pending : PendingRequest) : List Output :=
  match pending.pluginConn with
  | none => []
  | some conn => [.teardown conn]

namespace Correlation

/-! ## Requests -/

/-- The request's plugin connection, when the manager opens one. -/
def openPlugin (env : Env) (requested : ℕ) : Option ℕ :=
  match env.pluginManager with
  | none => none
  | some accepts => if accepts requested then some requested else none

/-- What the plugins are told of a request. -/
def newCommand (req : Request) (timestamp : ℕ) : KafkaCommand where
  apiKey := req.header.apiKey
  apiVersion := req.header.apiVersion
  correlationID := req.header.correlationID
  clientID := req.header.clientID
  operation := apiKeyName req.header.apiKey
  topics := req.topics
  groupID := req.groupID
  messages := req.messages
  timestamp := timestamp

def commandOutputs (pending : PendingRequest) : List Output :=
  match pending.pluginConn with
  | none => []
  | some conn =>
    [.command conn (newCommand pending.request pending.timestamp) pending.request.totalSize]

/-- One turn of the loop in `processRequests`. -/
def handleRequest (env : Env) (req : Request) (state : Correlation) : Correlation :=
  let pending : PendingRequest :=
    { request := req
      timestamp := state.now
      pluginConn := openPlugin env state.requested }
  { pendingRequests := state.pendingRequests.insert req.header.correlationID pending
    now := state.now + 1
    requested := if env.pluginManager.isSome then state.requested + 1 else state.requested
    outputs := state.outputs ++ commandOutputs pending }

/-! ## Responses -/

/-- What the plugins are told of a response. -/
def newResult (resp : Response) (messages : List KafkaMessage) : KafkaResult where
  correlationID := resp.header.correlationID
  errorCode := resp.errorCode
  errorMessage := if resp.errorCode ≠ 0 then kafkaErrorName resp.errorCode else ""
  isError := resp.errorCode ≠ 0
  messages := messages

/-- The messages that a response to a Fetch request brings. -/
def fetchedMessages (pending : PendingRequest) (resp : Response) : Read (List KafkaMessage) :=
  match resp.rawBody with
  | none => .ok []
  | some body =>
    if pending.request.header.apiKey = apiKeyFetch then
      extractFetchResponseMessages body pending.request.header.apiVersion
    else .ok []

/-- What the logger and the request's plugin connection get. -/
def report (pending : PendingRequest) (resp : Response) : Read (List Output) :=
  match pending.pluginConn with
  | none => .ok [.pair pending resp]
  | some conn =>
    (fetchedMessages pending resp).bind fun messages =>
      .ok [.pair pending resp, .result conn (newResult resp messages) resp.totalSize,
        .teardown conn]

/-- One turn of the loop in `processResponses`. -/
def handleResponse (resp : Response) (state : Correlation) : Read Correlation :=
  match state.pendingRequests.lookup resp.header.correlationID with
  | none => .ok state
  | some pending =>
    let header := pending.request.header
    (extractResponseErrorCode (resp.rawBody.getD []) header.apiKey header.apiVersion).bind
      fun code =>
        (report pending { resp with errorCode := code.getD resp.errorCode }).bind fun outputs =>
          .ok { state with
            pendingRequests := state.pendingRequests.erase resp.header.correlationID
            outputs := state.outputs ++ outputs }

def handle (env : Env) : Message → Correlation → Read Correlation
  | .request req, state => .ok (state.handleRequest env req)
  | .response resp, state => state.handleResponse resp

end Correlation

/-! ## Events -/

section Loop

variable {M S : Type}

/-- The loop of `processRequests` and `processResponses`: messages are handled until the parser
reports an error.  The bytes in the buffer bound the number of turns. -/
def Parser.handleAll (parse : Parser → Read (Except ParseError M × Parser))
    (handle : M → S → Read S) (p : Parser) : ℕ → S → Read (S × Parser)
  | 0, state => .ok (state, p)
  | turns + 1, state =>
    (parse p).bind fun
      | (.error _, p) => .ok (state, p)
      | (.ok message, p) =>
        (handle message state).bind fun state => handleAll parse handle p turns state

/-- The parser returns on every buffer, takes what it parses off the buffer and finds nothing in an
empty one. -/
structure Parser.Progress (parse : Parser → Read (Except ParseError M × Parser)) : Prop where
  completes : ∀ p, (parse p).Completes
  shrinks : ∀ {p rest message}, (parse p).outcome = .ok (.ok message, rest) →
    rest.buffer.length < p.buffer.length
  empty : parse newParser = .ok (.error .incomplete, newParser)

theorem Format.progress (format : Format M) : Parser.Progress format.parse where
  completes p := by
    obtain ⟨result, next, hparse, _⟩ := format.advances p
    exact ⟨_, hparse⟩
  shrinks := by
    intro p rest message hok
    obtain ⟨result, next, hparse, hadvances⟩ := format.advances p
    rw [hparse] at hok
    cases hok
    obtain ⟨⟨⟩, _⟩ | ⟨count, hpositive, hcount, hrest⟩ := hadvances
    rw [hrest, List.length_drop]
    omega
  empty := rfl

theorem progress_parseRequest : Parser.Progress parseRequest :=
  parseRequest_eq ▸ requestFormat.progress

theorem progress_parseResponse : Parser.Progress parseResponse :=
  parseResponse_eq ▸ responseFormat.progress

variable {parse : Parser → Read (Except ParseError M × Parser)} {p rest : Parser}

theorem Parser.handleAll_of_error {error : ParseError} (hparse : parse p = .ok (.error error, rest))
    (handle : M → S → Read S) (turns : ℕ) (state : S) :
    p.handleAll parse handle (turns + 1) state = .ok (state, rest) := by
  rw [handleAll, hparse, Exec.bind_ok]

theorem Parser.handleAll_of_ok {message : M} (hparse : parse p = .ok (.ok message, rest))
    (handle : M → S → Read S) (turns : ℕ) (state : S) :
    p.handleAll parse handle (turns + 1) state =
      (handle message state).bind fun state => rest.handleAll parse handle turns state := by
  rw [handleAll, hparse, Exec.bind_ok]

/-- The bound does not cut the loop: where it allows a turn for every byte, one more turn changes
nothing. -/
theorem Parser.Progress.handleAll_succ (hprogress : Parser.Progress parse) (handle : M → S → Read S)
    {turns : ℕ} (hturns : p.buffer.length ≤ turns) (state : S) :
    p.handleAll parse handle (turns + 1) state = p.handleAll parse handle turns state := by
  induction turns generalizing p state with
  | zero =>
    have hempty : p = newParser :=
      congrArg Parser.mk (List.eq_nil_of_length_eq_zero (Nat.le_zero.1 hturns))
    rw [hempty, Parser.handleAll_of_error hprogress.empty, Parser.handleAll]
  | succ turns ih =>
    obtain ⟨⟨result, rest⟩, hparse⟩ := hprogress.completes p
    cases result with
    | error =>
      rw [handleAll_of_error hparse, handleAll_of_error hparse]
    | ok message =>
      rw [handleAll_of_ok hparse, handleAll_of_ok hparse]
      have hrest : rest.buffer.length < p.buffer.length :=
        hprogress.shrinks (congrArg Exec.outcome hparse)
      exact congrArg (handle message state).bind (funext (ih (by omega)))

/-- Two ways of handling the messages, run on the same bytes, stay related when every message
keeps them related. -/
theorem Parser.Progress.handleAll_relates {T : Type} (hprogress : Parser.Progress parse)
    {left : M → S → Read S} {right : M → T → Read T} {related : S → T → Prop}
    (hstep : ∀ message state other, related state other → ∃ next following,
      left message state = .ok next ∧ right message other = .ok following ∧
        related next following) (p : Parser) (turns : ℕ) {state : S} {other : T}
    (hrelated : related state other) :
    ∃ next following rest, p.handleAll parse left turns state = .ok (next, rest) ∧
      p.handleAll parse right turns other = .ok (following, rest) ∧ related next following := by
  induction turns generalizing p state other with
  | zero => exact ⟨state, other, p, rfl, rfl, hrelated⟩
  | succ turns ih =>
    obtain ⟨⟨result, rest⟩, hparse⟩ := hprogress.completes p
    cases result with
    | error =>
      rw [handleAll_of_error hparse, handleAll_of_error hparse]
      exact ⟨state, other, rest, rfl, rfl, hrelated⟩
    | ok message =>
      obtain ⟨_, _, hleft, hright, hnext⟩ := hstep message state other hrelated
      rw [handleAll_of_ok hparse, handleAll_of_ok hparse, hleft, hright]
      exact ih rest hnext

end Loop

namespace Parsers

variable {S : Type} (handle : Message → S → Read S)

def processRequests (parsers : Parsers) (state : S) : Read (S × Parsers) :=
  let p := parsers.requestParser
  (p.handleAll Parser.parseRequest (fun req => handle (.request req)) p.buffer.length state).bind
    fun (state, p) => .ok (state, { parsers with requestParser := p })

def processResponses (parsers : Parsers) (state : S) : Read (S × Parsers) :=
  let p := parsers.responseParser
  (p.handleAll Parser.parseResponse (fun resp => handle (.response resp)) p.buffer.length
    state).bind fun (state, p) => .ok (state, { parsers with responseParser := p })

/-- The parsers and what is kept beside them after an event. -/
def process (source : Source) (event : DataEvent) (parsers : Parsers) (state : S) :
    Read (S × Parsers) :=
  if isRequest source event.direction then
    processRequests handle
      { parsers with requestParser := parsers.requestParser.append event.data } state
  else if isResponse source event.direction then
    processResponses handle
      { parsers with responseParser := parsers.responseParser.append event.data } state
  else .ok (state, parsers)

variable {handle} in
/-- Two ways of handling the messages stay related over an event. -/
theorem process_relates {T : Type} {right : Message → T → Read T} {related : S → T → Prop}
    (hstep : ∀ message state other, related state other → ∃ next following,
      handle message state = .ok next ∧ right message other = .ok following ∧
        related next following) {source : Source} {event : DataEvent} {parsers : Parsers}
    {state : S} {other : T} (hrelated : related state other) :
    ∃ next following rest, parsers.process handle source event state = .ok (next, rest) ∧
      parsers.process right source event other = .ok (following, rest) ∧
        related next following := by
  rw [process, process]
  split_ifs
  · obtain ⟨next, following, rest, hleft, hright, hnext⟩ :=
      progress_parseRequest.handleAll_relates (fun req => hstep (.request req))
        (parsers.requestParser.append event.data) _ hrelated
    refine ⟨next, following, { parsers with requestParser := rest }, ?_, ?_, hnext⟩
    · rw [processRequests, hleft, Exec.bind_ok]
    · rw [processRequests, hright, Exec.bind_ok]
  · obtain ⟨next, following, rest, hleft, hright, hnext⟩ :=
      progress_parseResponse.handleAll_relates (fun resp => hstep (.response resp))
        (parsers.responseParser.append event.data) _ hrelated
    refine ⟨next, following, { parsers with responseParser := rest }, ?_, ?_, hnext⟩
    · rw [processResponses, hleft, Exec.bind_ok]
    · rw [processResponses, hright, Exec.bind_ok]
  · exact ⟨state, other, parsers, rfl, rfl, hrelated⟩

/-- The messages that the parsers take from a sequence of events, behind those they took
before. -/
def messages (source : Source) : List DataEvent → Parsers → List Message → Read (List Message)
  | [], _, taken => .ok taken
  | event :: events, parsers, taken =>
    (process (fun message taken => .ok (taken ++ [message])) source event parsers taken).bind
      fun (taken, parsers) => messages source events parsers taken

end Parsers

namespace Stream

def process (env : Env) (event : DataEvent) (stream : Stream) : Read Stream :=
  if stream.closed then .ok stream
  else
    (stream.toParsers.process (Correlation.handle env) env.source event
      stream.toCorrelation).bind fun (state, parsers) =>
        .ok { stream with toCorrelation := state, toParsers := parsers }

/-- The stream after a sequence of events. -/
def run (env : Env) : List DataEvent → Stream → Read Stream
  | [], stream => .ok stream
  | event :: events, stream => (stream.process env event).bind fun stream => run env events stream

/-- `Close` tears down the plugin connections of the requests still pending. -/
def close (env : Env) (stream : Stream) : Stream :=
  { stream with
    closed := true
    outputs := stream.outputs ++ (env.visit (values stream.pendingRequests)).flatMap teardown }

end Stream

end Qtap.Kafka
