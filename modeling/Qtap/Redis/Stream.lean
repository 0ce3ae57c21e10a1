import Qtap.Connection.Types
import Qtap.Redis.Incremental

/-!
# The RESP stream

One parser per direction and a queue of commands that wait for their reply.  A value of
the response direction, of whatever type, answers the oldest waiting command; when none
waits it is reported on its own.  The calls on plugin connections are kept in order,
each connection under the number of the command it was created for.
-/

namespace Qtap.Redis

open List Qtap.Core Qtap.Connection

/-! ## Commands and results -/

structure Command where
  name : List Byte
  args : List (List Byte)
  deriving DecidableEq, Repr

/-- Elements that are no bulk strings are skipped, and a command needs a name. -/
def Value.toCommand (value : Value) : Option Command :=
  match value.type, value.array with
  | .array, first :: rest =>
    let name := if first.type = .bulkString then first.str else []
    let args := (rest.filter fun elem => elem.type = .bulkString).map Value.str
    if name = [] then none else some { name := name, args := args }
  | _, _ => none

/-- The Go value of type `any` that plugins receive. -/
inductive Extracted where
  | nil
  | str (text : List Byte)
  | int (number : ℤ)
  | bool (flag : Bool)
  | float (bits : UInt64)
  | list (elements : List Extracted)
  | map (entries : List (List Byte × Extracted))

mutual

def extractValue : Value → Extracted
  | ⟨type, str, int, bool, float, array, map, isNull, _⟩ =>
    match type with
    | .simpleString | .error | .bulkError | .bulkString | .verbatim | .bigNumber =>
      if isNull then .nil else .str str
    | .integer => .int int
    | .boolean => .bool bool
    | .double => .float float
    | .null => .nil
    | .array | .set | .push => if isNull then .nil else .list (extractValues array)
    | .map => .map (extractEntries map)

def extractValues : List Value → List Extracted
  | [] => []
  | value :: values => extractValue value :: extractValues values

def extractEntries : List (List Byte × Value) → List (List Byte × Extracted)
  | [] => []
  | (key, value) :: entries => (key, extractValue value) :: extractEntries entries

end

structure RedisResult where
  type : RESPType
  value : Extracted
  isError : Bool

def redisResult (value : Value) : RedisResult where
  type := value.type
  value := extractValue value
  isError := value.type = .error ∨ value.type = .bulkError

/-! ## Correlation -/

/-- A command awaiting its response, with its plugin connection if there is one. -/
structure PendingCommand where
  command : Command
  pluginConn : Option ℕ
  deriving DecidableEq, Repr

inductive PluginCall where
  | onRedisCommand (conn : ℕ) (command : Command)
  | setReadBytes (conn : ℕ) (size : ℤ)
  | onRedisResult (conn : ℕ) (result : RedisResult)
  | setWriteBytes (conn : ℕ) (size : ℤ)
  | teardown (conn : ℕ)

inductive Report where
  | pair (command : Command) (response : Value)
  | uncorrelated (response : Value)

/-- The connection's source and the plugin manager, which may be missing or fail to open
a connection for a command. -/
structure Env where
  source : Source
  pluginManager : Option (ℕ → Bool) := none

structure Correlation where
  pendingCommands : List PendingCommand := []
  created : ℕ := 0
  calls : List PluginCall := []
  reports : List Report := []

namespace Correlation

def newConnection (env : Env) (state : Correlation) : Option ℕ :=
  env.pluginManager.bind fun opens => if opens state.created then some state.created else none

def handleRequest (env : Env) (state : Correlation) (value : Value) : Correlation :=
  match value.toCommand with
  | none => state
  | some command =>
    let conn := state.newConnection env
    let calls := match conn with
      | some conn => [.onRedisCommand conn command, .setReadBytes conn value.size]
      | none => []
    { state with
      pendingCommands := state.pendingCommands ++ [{ command := command, pluginConn := conn }]
      created := state.created + 1
      calls := state.calls ++ calls }

def handleResponse (state : Correlation) (value : Value) : Correlation :=
  match state.pendingCommands with
  | [] => { state with reports := state.reports ++ [.uncorrelated value] }
  | pending :: rest =>
    let calls := match pending.pluginConn with
      | some conn =>
        [.onRedisResult conn (redisResult value), .setWriteBytes conn value.size, .teardown conn]
      | none => []
    { state with
      pendingCommands := rest
      calls := state.calls ++ calls
      reports := state.reports ++ [.pair pending.command value] }

def handle (env : Env) (state : Correlation) : Side × Value → Correlation
  | (.client, value) => state.handleRequest env value
  | (.server, value) => state.handleResponse value

end Correlation

/-! ## The stream -/

structure Stream extends Correlation where
  requestParser : Parser := {}
  responseParser : Parser := {}
  closed : Bool := false

/-- Data flowing from the client to the server. -/
def isRequest (source : Source) (dir : Direction) : Bool :=
  (source = .client ∧ dir = .egress) ∨ (source = .server ∧ dir = .ingress)

/-- Data flowing from the server to the client. -/
def isResponse (source : Source) (dir : Direction) : Bool :=
  (source = .client ∧ dir = .ingress) ∨ (source = .server ∧ dir = .egress)

namespace Stream

variable (parseFloat : List Byte → Option UInt64)

/-- The loop over `Parse`, which ends with the first call that returns no value.  A value
is never empty, so the length of the buffer bounds the rounds. -/
def parseAll (handle : Correlation → Value → Correlation) :
    ℕ → Parser → Correlation → Parser × Correlation
  | 0, parser, state => (parser, state)
  | fuel + 1, parser, state =>
    match (parser.parse parseFloat).outcome with
    | .ok (value, next) => parseAll handle fuel next (handle state value)
    | _ => (parser, state)

def processRequests (env : Env) (stream : Stream) : Stream :=
  let (parser, state) := parseAll parseFloat (Correlation.handleRequest env)
    stream.requestParser.buffer.length stream.requestParser stream.toCorrelation
  { stream with toCorrelation := state, requestParser := parser }

def processResponses (stream : Stream) : Stream :=
  let (parser, state) := parseAll parseFloat Correlation.handleResponse
    stream.responseParser.buffer.length stream.responseParser stream.toCorrelation
  { stream with toCorrelation := state, responseParser := parser }

def process (env : Env) (stream : Stream) (event : DataEvent) : Stream :=
  if stream.closed then stream
  else if isRequest env.source event.direction then
    processRequests parseFloat env
      { stream with requestParser := stream.requestParser.append event.data }
  else if isResponse env.source event.direction then
    processResponses parseFloat
      { stream with responseParser := stream.responseParser.append event.data }
  else stream

def run (env : Env) (stream : Stream) (events : List DataEvent) : Stream :=
  events.foldl (process parseFloat env) stream

def close (stream : Stream) : Stream :=
  { stream with
    pendingCommands := []
    calls := stream.calls ++
      (stream.pendingCommands.filterMap PendingCommand.pluginConn).map .teardown
    closed := true }

end Stream

/-! ## From events to values -/

def chunkOf (source : Source) (event : DataEvent) : Option (Side × List Byte) :=
  if isRequest source event.direction then some (.client, event.data)
  else if isResponse source event.direction then some (.server, event.data)
  else none

/-- The events as chunks of the two byte streams. -/
def chunksOf (source : Source) (events : List DataEvent) : List (Side × List Byte) :=
  events.filterMap (chunkOf source)

def bytesFrom (source : Source) (side : Side) (events : List DataEvent) : List Byte :=
  (entriesOf side (chunksOf source events)).flatten

/-- The values of both directions in the order in which they become complete. -/
def arrivals (parseFloat : List Byte → Option UInt64) (source : Source)
    (events : List DataEvent) : List (Side × Value) :=
  (respFramer parseFloat).arrivals (chunksOf source events)

theorem chunksOf_cons (source : Source) (event : DataEvent) (events : List DataEvent) :
    chunksOf source (event :: events) =
      (chunkOf source event).toList ++ chunksOf source events := by
  rw [chunksOf, filterMap_cons]
  cases chunkOf source event with
  | none => rfl
  | some => rfl

theorem bytesFrom_cons (source : Source) (side : Side) (event : DataEvent)
    (events : List DataEvent) :
    bytesFrom source side (event :: events) =
      (entriesOf side (chunkOf source event).toList).flatten ++ bytesFrom source side events := by
  rw [bytesFrom, chunksOf_cons, entriesOf_append, flatten_append, bytesFrom]

section Run

variable (parseFloat : List Byte → Option UInt64)

/-- The loop handles what `Parse` returns. -/
theorem Stream.parseAll_eq_foldl (handle : Correlation → Value → Correlation) (fuel : ℕ)
    (parser : Parser) (state : Correlation) :
    parseAll parseFloat handle fuel parser state = ((parser.parseAll parseFloat fuel).1,
        (parser.parseAll parseFloat fuel).2.foldl handle state) := by
  induction fuel generalizing parser state with
  | zero => rfl
  | succ fuel ih =>
    rw [parseAll, Parser.parseAll]
    cases (parser.parse parseFloat).outcome with
    | ok => exact ih _ _
    | err | panic => rfl

theorem Stream.parseAll_eq (handle : Correlation → Value → Correlation) (parser : Parser)
    (state : Correlation) (hsize : parser.buffer.length ≤ maxAlloc) :
    parseAll parseFloat handle parser.buffer.length parser state =
      ({ buffer := ((respFramer parseFloat).drain parser.buffer).2 },
        ((respFramer parseFloat).drain parser.buffer).1.foldl handle state) := by
  rw [parseAll_eq_foldl, Parser.parseAll_eq parseFloat _ _ le_rfl hsize]

def Stream.buffer (stream : Stream) : Side → List Byte
  | .client => stream.requestParser.buffer
  | .server => stream.responseParser.buffer

/-- The effect of one chunk: the buffer of its sender takes the bytes, and the values
that they complete are handled. -/
structure Stream.Advanced (parseFloat : List Byte → Option UInt64) (env : Env)
    (before : Stream) (chunks : List (Side × List Byte)) (after : Stream) : Prop where
  stays_open : after.closed = false
  buffers : after.buffer = (route (fun _ => (respFramer parseFloat).push) before.buffer chunks).1
  handled : after.toCorrelation =
    (route (fun _ => (respFramer parseFloat).push) before.buffer chunks).2.foldl
      (Correlation.handle env) before.toCorrelation

theorem Stream.process_advanced (env : Env) (stream : Stream) (hopen : stream.closed = false)
    (event : DataEvent) (hsize : ∀ side, (stream.buffer side).length +
      (entriesOf side (chunkOf env.source event).toList).flatten.length ≤ maxAlloc) :
    Advanced parseFloat env stream (chunkOf env.source event).toList
      (stream.process parseFloat env event) := by
  rw [process, if_neg (by simp [hopen])]
  rw [chunkOf] at hsize ⊢
  split_ifs at hsize ⊢ with hrequest hresponse
  · have hroom := hsize .client
    rw [Option.toList_some, entriesOf_cons_self, entriesOf_nil, flatten_singleton,
      ← length_append] at hroom
    rw [processRequests, parseAll_eq parseFloat _ (stream.requestParser.append _) _ hroom]
    constructor
    · exact hopen
    · funext side
      cases side <;> rfl
    · simp only [Option.toList_some, route, append_nil, foldl_map]
      rfl
  · have hroom := hsize .server
    rw [Option.toList_some, entriesOf_cons_self, entriesOf_nil, flatten_singleton,
      ← length_append] at hroom
    rw [processResponses, parseAll_eq parseFloat _ (stream.responseParser.append _) _ hroom]
    constructor
    · exact hopen
    · funext side
      cases side <;> rfl
    · simp only [Option.toList_some, route, append_nil, foldl_map]
      rfl
  · exact ⟨hopen, rfl, rfl⟩

theorem Stream.run_advanced (env : Env) (events : List DataEvent) (stream : Stream)
    (hopen : stream.closed = false) (hsize : ∀ side, (stream.buffer side).length +
      (bytesFrom env.source side events).length ≤ maxAlloc) :
    Advanced parseFloat env stream (chunksOf env.source events)
      (stream.run parseFloat env events) := by
  induction events generalizing stream with
  | nil => exact ⟨hopen, rfl, rfl⟩
  | cons event events ih =>
    have hfirst : Advanced parseFloat env stream _ _ :=
      process_advanced parseFloat env stream hopen event fun side => by
        have hside := hsize side
        rw [bytesFrom_cons, length_append] at hside
        omega
    have hrest := ih (stream.process parseFloat env event) hfirst.stays_open fun side => by
      have hside := hsize side
      have hroute := (Prod.ext_iff.1 (route_at (fun _ => (respFramer parseFloat).push)
        stream.buffer (chunkOf env.source event).toList side)).1
      dsimp only at hroute
      rw [bytesFrom_cons, length_append] at hside
      have hpush := (respFramer parseFloat).length_feed_push_le (stream.buffer side)
        (entriesOf side (chunkOf env.source event).toList)
      rw [hfirst.buffers, hroute]
      omega
    rw [chunksOf_cons]
    constructor
    · exact hrest.stays_open
    · rw [route_append, ← hfirst.buffers]
      exact hrest.buffers
    · rw [route_append, foldl_append, ← hfirst.buffers, ← hfirst.handled]
      exact hrest.handled

/-- The stream handles the values of both directions in the order of their arrival. -/
theorem Stream.run_eq_foldl_arrivals (env : Env) (events : List DataEvent)
    (hsize : ∀ side, (bytesFrom env.source side events).length ≤ maxAlloc) :
    (run parseFloat env {} events).toCorrelation =
      (arrivals parseFloat env.source events).foldl (Correlation.handle env) {} := by
  have hbuffer : ({} : Stream).buffer = fun _ => [] := by
    funext side
    cases side with
    | client => rfl
    | server => rfl
  have hrun := (run_advanced parseFloat env events {} rfl fun side => by
    rw [hbuffer, length_nil, Nat.zero_add]
    exact hsize side).handled
  rw [hbuffer] at hrun
  exact hrun

end Run

end Qtap.Redis
