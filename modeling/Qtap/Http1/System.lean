import Qtap.Connection.Types
import Qtap.Core.Transition
import Qtap.Http1.Head

/-!
# The HTTP/1 stream processor as a concurrent system

The caller of `Process` writes the bytes of each event to one of two synchronous pipes;
a request goroutine and a response goroutine read them.  A write returns when the reader
has taken all its bytes, so that a read is one step of both parties.  The steps of the
system are the moments at which a party touches a pipe or what the parties share;
`step` is defined where the step is enabled.
-/

namespace Qtap.Http1

open Qtap.Core Qtap.Connection

inductive Phase where
  | request
  | response
  deriving DecidableEq, Repr

/-- The phase of an event; it stays at its zero value when the role is unknown. -/
def phaseOf : Source → Direction → Phase
  | .server, .ingress => .request
  | .client, .egress => .request
  | .client, .ingress => .response
  | .server, .egress => .response
  | .unknown, _ => .request

structure Event where
  phase : Phase
  data : List Byte
  deriving DecidableEq, Repr

inductive Callback where
  | onRequest (request : Request) (noBody : Bool)
  | onRequestBody (chunk : List Byte) (isComplete : Bool)
  | onInterimResponse (response : Response)
  | onResponse (response : Response) (noBody : Bool)
  | onResponseBody (chunk : List Byte) (isComplete : Bool)
  | onError
  | onDone
  deriving DecidableEq, Repr

/-! ## Body readers -/

/-- How a call of `Read` on a body reader ends. -/
inductive ReadStatus where
  | ok
  | eof
  | error
  deriving DecidableEq, Repr

/-- What a body reader does next: read at most `limit` bytes from the pipe, report an error
and go on without the coding that failed, or return from its own `Read`. -/
inductive Demand (S : Type) where
  | need (limit : ℕ)
  | complain (next : S)
  | yield (data : List Byte) (status : ReadStatus) (next : S)

/-- The stack of transfer and content codings that `setupBodyReader` puts on a pipe, as
library readers: `supply` hands over bytes of the pipe, `hangup` its end.  Each reader asks
for at least one byte, and comes back to the pipe after finitely many returns. -/
structure BodyReader where
  State : Type
  start : Header → State
  poll : State → Demand State
  supply : State → List Byte → State
  hangup : State → State
  fuel : State → ℕ
  need_pos : ∀ {state limit}, poll state = .need limit → 0 < limit
  complain_lt : ∀ {state next}, poll state = .complain next → fuel next < fuel state
  yield_lt : ∀ {state data next}, poll state = .yield data .ok next → fuel next < fuel state
  hangup_lt : ∀ {state limit}, poll state = .need limit → fuel (hangup state) < fuel state

/-- `io.LimitReader` on the pipe: the bytes still to be read, and those just read. -/
def lengthReader : BodyReader where
  State := ℕ × Option (List Byte)
  start headers := ((parseIntValue (headers.get (ascii "Content-Length"))).toNat, none)
  poll
    | (length, some data) => .yield data .ok (length, none)
    | (0, none) => .yield [] .eof (0, none)
    | (length + 1, none) => .need (min (length + 1) (8 * 2 ^ 10))
  supply state data := (state.1 - data.length, some data)
  hangup _ := (0, none)
  fuel
    | (_, some _) => 2
    | (0, none) => 0
    | (_ + 1, none) => 1
  need_pos := by
    rintro ⟨_ | length, _ | data⟩ limit hpoll <;> cases hpoll
    exact Nat.lt_min.2 ⟨Nat.succ_pos length, by decide⟩
  complain_lt := by
    rintro ⟨_ | length, _ | data⟩ next hpoll <;> cases hpoll
  yield_lt := by
    rintro ⟨_ | length, _ | data⟩ data next hpoll <;> cases hpoll
    · exact Nat.two_pos
    · exact Nat.one_lt_two
  hangup_lt := by
    rintro ⟨_ | length, _ | data⟩ limit hpoll <;> cases hpoll
    exact Nat.one_pos

structure Env where
  library : Library
  reader : BodyReader

/-! ## States -/

/-- Where the request goroutine is. -/
inductive RequestControl (env : Env) where
  | head (reader : HeadReader)
  | failed (silent : Bool)
  | parsed (request : Request)
  | stored (request : Request)
  | notified (request : Request)
  | waiting (request : Request)
  | body (state : env.reader.State)
  | discard
  | exited

/-- Where the response goroutine is; `awaiting` is inside `OnDone` after a 101 response,
and `closing` inside `Close`, where it waits for itself. -/
inductive ResponseControl (env : Env) where
  | head (reader : HeadReader)
  | failed (silent : Bool)
  | parsed (response : Response)
  | awaiting
  | closing
  | body (state : env.reader.State)
  | discard
  | exited

/-- One session with its parser: the two goroutines and the state they share. -/
structure Transaction (env : Env) where
  request : RequestControl env := .head {}
  response : ResponseControl env := .head {}
  current : Option Request := none
  expectingContinue : Bool := false
  continueReceived : Bool := false
  cancelled : Bool := false
  closed : Bool := false

/-- The caller with the events it has still to process and the write it is in, and the
session it writes to. -/
structure System (env : Env) where
  pending : List Event
  writing : Option Event := none
  session : Option (Transaction env) := none
  sessions : ℕ := 0
  callbacks : List (ℕ × Callback) := []

def initial (env : Env) (source : Source) (events : List DataEvent) : System env where
  pending := events.map fun event => { phase := phaseOf source event.direction, data := event.data }

inductive Action where
  | callerStart
  | callerError
  | requestStep
  | requestCancel
  | requestEOF
  | responseStep
  | responseEOF
  deriving DecidableEq, Repr

/-! ## Steps -/

namespace System

variable {env : Env}

/-- The bytes that a write of this phase offers. -/
def offered (system : System env) (phase : Phase) : Option (List Byte) :=
  match system.writing with
  | some event => if event.phase = phase then some event.data else none
  | none => none

/-- The reader takes the first bytes of the write, which returns when none is left. -/
def take (system : System env) (count : ℕ) : System env :=
  match system.writing with
  | some event =>
    if event.data.drop count = [] then { system with writing := none }
    else { system with writing := some { event with data := event.data.drop count } }
  | none => system

def report (system : System env) (callbacks : List Callback) : System env :=
  { system with
    callbacks := system.callbacks ++ callbacks.map fun callback => (system.sessions, callback) }

def setSession (system : System env) (transaction : Transaction env) : System env :=
  { system with session := some transaction }

/-- `Process` up to the write: a session is made if there is none or it was closed. -/
def callerStart (system : System env) : Option (System env) :=
  match system.writing, system.pending with
  | none, event :: rest =>
    match system.session with
    | some transaction =>
      if transaction.closed then
        some
          { system with
            pending := rest, writing := some event, session := some {},
            sessions := system.sessions + 1 }
      else some { system with pending := rest, writing := some event }
    | none =>
      some
        { system with
          pending := rest, writing := some event, session := some {},
          sessions := system.sessions + 1 }
  | _, _ => none

/-- A write to a closed pipe fails, and the connection stops passing events on. -/
def callerError (system : System env) (transaction : Transaction env) : Option (System env) :=
  if transaction.closed ∧ system.writing.isSome then
    some { system with writing := none, pending := [] }
  else none

/-- `onError` unless the error is an end of input, then the context is cancelled. -/
def errorCallbacks (silent : Bool) : List Callback := if silent then [] else [.onError]

def discardSize : ℕ := 8 * 2 ^ 10

def headRequest (env : Env) (result : HeadResult) : RequestControl env :=
  match result with
  | .more reader => .head reader
  | .failed silent => .failed silent
  | .complete headers =>
    match readRequest env.library headers with
    | .error silent => .failed silent
    | .ok request => .parsed request

def headResponse (env : Env) (result : HeadResult) : ResponseControl env :=
  match result with
  | .more reader => .head reader
  | .failed silent => .failed silent
  | .complete headers =>
    match readResponse env.library headers with
    | .error silent => .failed silent
    | .ok response => .parsed response

/-- The body callbacks of `streamBody` for one return of the reader. -/
def bodyChunks (data : List Byte) (status : ReadStatus) : List (List Byte × Bool) :=
  if data ≠ [] then [(data, status == .eof)]
  else if status = .eof then [([], true)]
  else []

def bodyErrors (status : ReadStatus) : List Callback :=
  if status = .error then [.onError] else []

/-- Behind the head and a possible 100 response: the body, or nothing but the rest. -/
def afterNotified (transaction : Transaction env) (request : Request) : RequestControl env :=
  if expectsRequestBody request then
    if transaction.expectingContinue then .waiting request
    else .body (env.reader.start request.headers)
  else .discard

def requestStep (system : System env) (transaction : Transaction env) : Option (System env) :=
  match transaction.request with
  | .head reader =>
    match system.offered .request with
    | none => none
    | some [] => some (system.take 0)
    | some (byte :: _) =>
      some ((system.take 1).setSession
        { transaction with request := headRequest env (reader.read byte) })
  | .failed silent =>
    some ((system.report (errorCallbacks silent)).setSession
      { transaction with request := .exited, cancelled := true })
  | .parsed request =>
    some (system.setSession
      { transaction with
        request := .stored request, current := some request,
        expectingContinue := expectsContinue request })
  | .stored request =>
    some ((system.report [.onRequest request (!expectsRequestBody request)]).setSession
      { transaction with request := .notified request })
  | .notified request =>
    some (system.setSession { transaction with request := afterNotified transaction request })
  | .waiting request =>
    if transaction.continueReceived then
      some (system.setSession
        { transaction with request := .body (env.reader.start request.headers) })
    else none
  | .body state =>
    match env.reader.poll state with
    | .need limit =>
      (system.offered .request).map fun data =>
        (system.take limit).setSession
          { transaction with request := .body (env.reader.supply state (data.take limit)) }
    | .complain next =>
      some ((system.report [.onError]).setSession { transaction with request := .body next })
    | .yield data status next =>
      some ((system.report ((bodyChunks data status).map (fun chunk =>
          .onRequestBody chunk.1 chunk.2) ++ bodyErrors status)).setSession
        { transaction with request := if status = .ok then .body next else .discard })
  | .discard => (system.offered .request).map fun _ => system.take discardSize
  | .exited => none

/-- The other branch of the wait for a 100 response. -/
def requestCancel (system : System env) (transaction : Transaction env) : Option (System env) :=
  match transaction.request with
  | .waiting _ =>
    if transaction.cancelled then
      some (system.setSession { transaction with request := .exited })
    else none
  | _ => none

/-- A read from the closed request pipe. -/
def requestEOF (system : System env) (transaction : Transaction env) : Option (System env) :=
  if transaction.closed then
    match transaction.request with
    | .head reader =>
      some (system.setSession { transaction with request := headRequest env reader.atEnd })
    | .body state =>
      match env.reader.poll state with
      | .need _ =>
        some (system.setSession
          { transaction with request := .body (env.reader.hangup state) })
      | _ => none
    | .discard => some (system.setSession { transaction with request := .exited })
    | _ => none
  else none

/-- A 100 response releases the request goroutine if the request has been stored. -/
def continueSignal (transaction : Transaction env) (response : Response) : Transaction env :=
  if response.statusCode = 100 ∧ transaction.expectingContinue then
    { transaction with continueReceived := true, expectingContinue := false }
  else transaction

def isInterim (response : Response) : Bool :=
  100 ≤ response.statusCode && response.statusCode < 200

/-- A complete response head: interim ones are reported and read past, except that 101 is
taken for the end of the transaction; a final one is reported with the body that the
method of the stored request lets expect. -/
def handleResponse (system : System env) (transaction : Transaction env) (response : Response) :
    System env :=
  if isInterim response then
    let response := { response with isInterim := true }
    if response.statusCode = 101 then
      (system.report [.onInterimResponse response, .onResponse response true,
        .onDone]).setSession { transaction with response := .awaiting }
    else
      (system.report [.onInterimResponse response]).setSession
        { continueSignal transaction response with response := .head {} }
  else
    let method := (transaction.current.map Request.method).getD []
    if expectsResponseBody method response then
      (system.report [.onResponse response false]).setSession
        { transaction with response := .body (env.reader.start response.headers) }
    else
      (system.report [.onResponse response true]).setSession
        { transaction with response := .discard }

def responseStep (system : System env) (transaction : Transaction env) : Option (System env) :=
  match transaction.response with
  | .head reader =>
    match system.offered .response with
    | none => none
    | some [] => some (system.take 0)
    | some (byte :: _) =>
      some ((system.take 1).setSession
        { transaction with response := headResponse env (reader.read byte) })
  | .failed silent =>
    some ((system.report (errorCallbacks silent)).setSession
      { transaction with response := .exited, cancelled := true })
  | .parsed response => some (system.handleResponse transaction response)
  | .awaiting =>
    if transaction.cancelled then
      some (system.setSession { transaction with response := .closing, closed := true })
    else none
  | .closing => none
  | .body state =>
    match env.reader.poll state with
    | .need limit =>
      (system.offered .response).map fun data =>
        (system.take limit).setSession
          { transaction with response := .body (env.reader.supply state (data.take limit)) }
    | .complain next =>
      some ((system.report [.onError]).setSession { transaction with response := .body next })
    | .yield data status next =>
      some ((system.report ((bodyChunks data status).map (fun chunk =>
          .onResponseBody chunk.1 chunk.2) ++ bodyErrors status)).setSession
        { transaction with response := if status = .ok then .body next else .discard })
  | .discard => (system.offered .response).map fun _ => system.take discardSize
  | .exited => none

/-- A read from the closed response pipe; behind the body it ends the transaction. -/
def responseEOF (system : System env) (transaction : Transaction env) : Option (System env) :=
  if transaction.closed then
    match transaction.response with
    | .head reader =>
      some (system.setSession { transaction with response := headResponse env reader.atEnd })
    | .body state =>
      match env.reader.poll state with
      | .need _ =>
        some (system.setSession
          { transaction with response := .body (env.reader.hangup state) })
      | _ => none
    | .discard =>
      some ((system.report [.onDone]).setSession { transaction with response := .exited })
    | _ => none
  else none

def step (system : System env) : Action → Option (System env)
  | .callerStart => system.callerStart
  | .callerError => system.session.bind system.callerError
  | .requestStep => system.session.bind system.requestStep
  | .requestCancel => system.session.bind system.requestCancel
  | .requestEOF => system.session.bind system.requestEOF
  | .responseStep => system.session.bind system.responseStep
  | .responseEOF => system.session.bind system.responseEOF

/-- The caller is inside a write and no party can move. -/
def Deadlocked (system : System env) : Prop :=
  system.writing ≠ none ∧ ∀ action, system.step action = none

/-- `Deadlocked` by evaluation. -/
def deadlocked (system : System env) : Bool :=
  system.writing.isSome &&
    [Action.callerStart, .callerError, .requestStep, .requestCancel, .requestEOF, .responseStep,
      .responseEOF].all fun action => (system.step action).isNone

theorem deadlocked_iff (system : System env) : system.deadlocked = true ↔ system.Deadlocked := by
  unfold deadlocked Deadlocked
  simp only [Bool.and_eq_true, Option.isSome_iff_ne_none, List.all_eq_true,
    Option.isNone_iff_eq_none]
  refine and_congr_right fun _ =>
    ⟨fun hall action => hall action ?_, fun hall action _ => hall action⟩
  cases action <;> decide

end System

end Qtap.Http1
