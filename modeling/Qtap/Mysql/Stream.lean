import Qtap.Connection.Types
import Qtap.Mysql.Payload

/-!
# The MySQL stream processor

One `Stream` per connection: both packet parsers, the queue of commands that wait for
a response and the result set being collected.  What the stream tells its logger and
its plugins is appended to `outputs`.  `time.Now` is a counter, so a command's
timestamp identifies it; plugin connections are numbered in the order in which the
stream asks for them.
-/

namespace Qtap.Mysql

open Qtap.Core Qtap.Connection

structure PendingCommand where
  commandType : Byte
  query : List Byte
  timestamp : ℕ
  pluginConn : Option ℕ
  deriving DecidableEq, Repr

inductive ResultType where
  | ok
  | error
  | resultSet
  | eof
  | localInfile
  deriving DecidableEq, Repr

/-- `plugins.MySQLResult`. -/
structure MySQLResult where
  type : ResultType
  affectedRows : ℕ := 0
  lastInsertID : ℕ := 0
  errorCode : ℕ := 0
  errorMessage : List Byte := []
  rowCount : ℕ := 0
  columns : List (List Byte) := []
  rows : List (List (List Byte)) := []
  truncated : Bool := false
  deriving DecidableEq, Repr

inductive Output where
  | command (conn : ℕ) (pending : PendingCommand) (readBytes : ℕ)
  | pair (pending : PendingCommand) (response : Response)
  | result (conn : ℕ) (result : MySQLResult) (writeBytes : ℕ)
  | teardown (conn : ℕ)
  deriving DecidableEq, Repr

/-- The phases of a result set; outside of one the source's phase is `phaseNone`. -/
inductive ResultSetPhase where
  | columnDefs
  | columnsEOF
  | rows
  deriving DecidableEq, Repr

/-- The result set being collected, for the command it answers. -/
structure ActiveResultSet where
  phase : ResultSetPhase
  resultSet : ResultSet
  command : PendingCommand
  bytes : ℕ
  deriving DecidableEq, Repr

/-- The connection's side and the plugin manager: without one no plugin connection is
opened, with one the `n`-th request for a connection may be refused. -/
structure Env where
  source : Source
  pluginManager : Option (ℕ → Bool)

/-- A process that talks to a server, without plugins. -/
def clientSide : Env where
  source := .client
  pluginManager := none

/-- The part of the stream that handling a packet reads and changes. -/
structure Correlation where
  pendingCommands : List PendingCommand := []
  handshakeComplete : Bool := false
  active : Option ActiveResultSet := none
  now : ℕ := 0
  requested : ℕ := 0
  outputs : List Output := []
  deriving DecidableEq, Repr

structure Stream extends Correlation where
  requestParser : Parser := {}
  responseParser : Parser := {}
  closed : Bool := false
  deriving DecidableEq, Repr

def isRequest (source : Source) (direction : Direction) : Bool :=
  (source == .client && direction == .egress) || (source == .server && direction == .ingress)

def isResponse (source : Source) (direction : Direction) : Bool :=
  (source == .client && direction == .ingress) || (source == .server && direction == .egress)

/-! ## Reports -/

def buildPluginResult : Response → MySQLResult
  | .ok response =>
    { type := .ok, affectedRows := response.affectedRows,
      lastInsertID := response.lastInsertID }
  | .err response =>
    { type := .error, errorCode := response.errorCode,
      errorMessage := response.errorMessage }
  | .eof => { type := .eof }
  | .localInfile => { type := .localInfile }
  | .resultSet result =>
    { type := .resultSet
      rowCount := result.rowCount
      columns := result.columns.map ColumnDefinition.name
      rows := result.rows.map (List.map Value.string)
      truncated := decide (result.rowCount > result.rows.length) }

/-- `logCorrelatedPair` and what the command's plugin connection gets. -/
def report (pending : PendingCommand) (response : Response) (writeBytes : ℕ) : List Output :=
  match pending.pluginConn with
  | none => [.pair pending response]
  | some conn =>
    [.pair pending response, .result conn (buildPluginResult response) writeBytes, .teardown conn]

def teardown (pending : PendingCommand) : List Output :=
  match pending.pluginConn with
  | none => []
  | some conn => [.teardown conn]

namespace Correlation

def completeResponse (state : Correlation) (pending : PendingCommand) (packet : Packet)
    (response : Response) : Correlation :=
  { state with outputs := state.outputs ++ report pending response (packet.length + 4) }

def finishResultSet (state : Correlation) (active : ActiveResultSet) : Correlation :=
  { state with
    active := none
    outputs := state.outputs ++
      report active.command (.resultSet active.resultSet) active.bytes }

/-! ## Requests -/

def maxPendingCommands : ℕ := 1000

def usesPlugin (cmd : Byte) : Bool :=
  cmd == comQuery || cmd == comStmtPrepare || cmd == comStmtExecute

def queryText (cmd : Byte) (data : CommandData) : List Byte :=
  if cmd = comQuery ∨ cmd = comStmtPrepare then
    match data with
    | .query text => text
    | _ => []
  else []

/-- The command's plugin connection, when the manager opens one. -/
def openPlugin (env : Env) (requested : ℕ) (cmd : Byte) : Option ℕ :=
  match env.pluginManager with
  | none => none
  | some accepts => if usesPlugin cmd && accepts requested then some requested else none

/-- How often the manager has been asked once the command is read. -/
def requestedAfter (env : Env) (requested : ℕ) (cmd : Byte) : ℕ :=
  if env.pluginManager.isSome && usesPlugin cmd then requested + 1 else requested

/-- The record of a command that is read at time `now`. -/
def newPending (env : Env) (now requested : ℕ) (cmd : Byte) (data : CommandData) :
    PendingCommand where
  commandType := cmd
  query := queryText cmd data
  timestamp := now
  pluginConn := openPlugin env requested cmd

def commandOutputs (pending : PendingCommand) (packet : Packet) : List Output :=
  match pending.pluginConn with
  | none => []
  | some conn => [.command conn pending (packet.length + 4)]

def enqueue (state : Correlation) (pending : PendingCommand) : Correlation :=
  if state.pendingCommands.length ≥ maxPendingCommands then
    { state with
      pendingCommands := state.pendingCommands.tail ++ [pending]
      outputs := state.outputs ++ state.pendingCommands.head?.elim [] teardown }
  else
    { state with pendingCommands := state.pendingCommands ++ [pending] }

def queueCommand (env : Env) (state : Correlation) (packet : Packet) (cmd : Byte)
    (data : CommandData) : Correlation :=
  let pending := newPending env state.now state.requested cmd data
  enqueue
    { state with
      now := state.now + 1
      requested := requestedAfter env state.requested cmd
      outputs := state.outputs ++ commandOutputs pending packet } pending

/-- One turn of the loop in `processRequests`. -/
def handleRequest (env : Env) (packet : Packet) (state : Correlation) : Correlation :=
  if packet.payload = [] then state
  else if !state.handshakeComplete then state
  else
    match (parseCommand packet).outcome with
    | .ok (cmd, data) => state.queueCommand env packet cmd data
    | _ => state

/-! ## Responses -/

/-- The greeting is only logged; the first OK, EOF or ERR packet ends the handshake. -/
def logUncorrelatedResponse (state : Correlation) (packet : Packet) : Correlation :=
  match packet.payload with
  | [] => state
  | first :: _ =>
    if packet.sequenceID = 0 ∧ first = 0x0a ∧ (parseServerHandshake packet).value?.isSome then
      state
    else if state.handshakeComplete then state
    else if first = okPacket ∨ first = eofPacket ∨ first = errPacket then
      { state with handshakeComplete := true }
    else state

/-- `phaseRows` of `processResultSetPacket`. -/
def collectRow (state : Correlation) (active : ActiveResultSet) (packet : Packet) : Correlation :=
  let result := active.resultSet
  if isEOF packet || isOKTerminator packet then state.finishResultSet active
  else if isError packet then state.finishResultSet active
  else
    let counted := { result with rowCount := result.rowCount + 1 }
    if result.rows.length < maxResultSetRows then
      match (parseResultSetRow packet.payload (wrap64 result.columnCount)).outcome with
      | .ok row =>
        { state with active := some { active with
            resultSet := { counted with rows := result.rows ++ [row] } } }
      | _ => { state with active := some { active with resultSet := counted } }
    else { state with active := some { active with resultSet := counted } }

/-- `phaseColumnDefs` of `processResultSetPacket`. -/
def collectColumn (state : Correlation) (active : ActiveResultSet) (packet : Packet) :
    Correlation :=
  let result := active.resultSet
  if isEOF packet then
    { state with active := some { active with
        phase := .rows, resultSet := { result with rows := [] } } }
  else if isError packet then state.finishResultSet active
  else
    match (parseColumnDefinition packet.payload).outcome with
    | .ok column =>
      let columns := result.columns ++ [column]
      if columns.length ≥ result.columnCount then
        { state with active := some { active with
            phase := .columnsEOF, resultSet := { result with columns := columns, rows := [] } } }
      else
        { state with active := some { active with
            resultSet := { result with columns := columns } } }
    | _ => state.finishResultSet active

def processResultSetPacket (state : Correlation) (active : ActiveResultSet) (packet : Packet) :
    Correlation :=
  let active := { active with bytes := active.bytes + (packet.length + 4) }
  match active.phase with
  | .columnDefs => state.collectColumn active packet
  | .columnsEOF =>
    if isEOF packet then { state with active := some { active with phase := .rows } }
    else
      state.collectRow
        { active with phase := .rows, bytes := active.bytes + (packet.length + 4) } packet
  | .rows => state.collectRow active packet

/-- One turn of the loop in `processResponses`. -/
def handleResponse (packet : Packet) (state : Correlation) : Correlation :=
  if packet.payload = [] then state
  else
    match state.active, state.pendingCommands with
    | some active, _ => state.processResultSetPacket active packet
    | none, [] => state.logUncorrelatedResponse packet
    | none, pending :: rest =>
      let state := { state with pendingCommands := rest }
      match (parseResponse packet).outcome with
      | .ok (.resultSet result) =>
        { state with active := some {
            phase := .columnDefs
            resultSet := { result with columns := [], rows := [] }
            command := pending
            bytes := packet.length + 4 } }
      | .ok response => state.completeResponse pending packet response
      | _ => { state with outputs := state.outputs ++ teardown pending }

end Correlation

namespace Stream

/-! ## Events -/

def processRequests (env : Env) (stream : Stream) : Stream :=
  let (buffer, state) :=
    packetFramer.pump (Correlation.handleRequest env) stream.requestParser.buffer.length
      stream.requestParser.buffer stream.toCorrelation
  { stream with toCorrelation := state, requestParser := { buffer := buffer } }

def processResponses (stream : Stream) : Stream :=
  let (buffer, state) :=
    packetFramer.pump Correlation.handleResponse stream.responseParser.buffer.length
      stream.responseParser.buffer stream.toCorrelation
  { stream with toCorrelation := state, responseParser := { buffer := buffer } }

def process (env : Env) (event : DataEvent) (stream : Stream) : Stream :=
  if stream.closed then stream
  else if isRequest env.source event.direction then
    match stream.requestParser.append event.data with
    | (parser, some _) => { stream with requestParser := parser }
    | (parser, none) => processRequests env { stream with requestParser := parser }
  else if isResponse env.source event.direction then
    match stream.responseParser.append event.data with
    | (parser, some _) => { stream with responseParser := parser }
    | (parser, none) => processResponses { stream with responseParser := parser }
  else stream

/-- The stream after a sequence of events. -/
def run (env : Env) (events : List DataEvent) (stream : Stream) : Stream :=
  events.foldl (fun stream event => stream.process env event) stream

/-- `Close` tears down the plugin connections of the commands still pending, of
`COM_QUIT` first. -/
def close (stream : Stream) : Stream :=
  let quits := stream.pendingCommands.filter fun pending => pending.commandType == comQuit
  let others := stream.pendingCommands.filter fun pending => pending.commandType != comQuit
  { stream with
    closed := true
    outputs := stream.outputs ++ quits.flatMap teardown ++ others.flatMap teardown }

end Stream

end Qtap.Mysql
