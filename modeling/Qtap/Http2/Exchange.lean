import Qtap.Connection.Types
import Qtap.Core.Transition
import Qtap.Http2.Session

/-!
# Exchanges on HTTP/2 streams

The frames of a request and its response as RFC 9113 orders them within each direction,
and the connection seen at one stream: the table of sessions is a family of independent
machines, so a stream's calls depend on the frames of that stream alone.
-/

namespace Qtap.Http2

open Qtap.Core Qtap.Connection

/-- A frame of a stream and the side that sent it. -/
structure Sent where
  side : Side
  item : Item
  deriving DecidableEq, Repr

/-! ## Well-formed exchanges -/

/-- How far one side of a stream has come with its message. -/
inductive Phase where
  | waiting
  | headers
  | body
  | ended
  deriving DecidableEq, Repr

structure Progress where
  client : Phase := .waiting
  server : Phase := .waiting
  deriving DecidableEq, Repr

def Phase.after (phase : Phase) (endStream : Bool) : Phase :=
  if endStream then .ended else phase

/-- Request headers come first and have no `:status`; a later block is the trailers and
ends the stream. -/
def requestStep : Phase → Item → Option Phase
  | .waiting, .headers fields endStream =>
    if hasStatusHeader fields then none else some (Phase.headers.after endStream)
  | .headers, .headers fields true => if hasStatusHeader fields then none else some .ended
  | .body, .headers fields true => if hasStatusHeader fields then none else some .ended
  | .headers, .data _ endStream => some (Phase.body.after endStream)
  | .body, .data _ endStream => some (Phase.body.after endStream)
  | phase, .other => some phase
  | _, _ => none

/-- A response may have interim header blocks before the final one; all of them have
`:status`, the trailers have not. -/
def responseStep : Phase → Item → Option Phase
  | .waiting, .headers fields endStream =>
    if hasStatusHeader fields then some (Phase.headers.after endStream) else none
  | .headers, .headers fields endStream =>
    if hasStatusHeader fields then some (Phase.headers.after endStream)
    else if endStream then some .ended
    else none
  | .body, .headers fields true => if hasStatusHeader fields then none else some .ended
  | .headers, .data _ endStream => some (Phase.body.after endStream)
  | .body, .data _ endStream => some (Phase.body.after endStream)
  | phase, .other => some phase
  | _, _ => none

/-- One more frame of an exchange; `mayRespond` tells when the server may send frames of
its response, given how far the request has come. -/
def exchangeStep (mayRespond : Phase → Bool) (progress : Progress) (sent : Sent) :
    Option Progress :=
  match sent.side with
  | .client =>
    (requestStep progress.client sent.item).map fun phase => { progress with client := phase }
  | .server =>
    if sent.item = .other then some progress
    else if mayRespond progress.client then
      (responseStep progress.server sent.item).map fun phase => { progress with server := phase }
    else none

/-- The response may start as soon as the request's headers were sent. -/
def early (client : Phase) : Bool := client != .waiting

/-- The response starts when the request has ended. -/
def inTurn (client : Phase) : Bool := client == .ended

/-- The frames are the beginning of a well-formed exchange. -/
def IsExchange (mayRespond : Phase → Bool) (frames : List Sent) : Prop :=
  (runActions (exchangeStep mayRespond) {} frames).isSome

instance (mayRespond : Phase → Bool) (frames : List Sent) :
    Decidable (IsExchange mayRespond frames) :=
  inferInstanceAs (Decidable (_ = true))

/-! ## One stream of a connection -/

/-- The header fields of the request, once it has been started. -/
def requestBlock (frames : List Sent) : Option (List HeaderField) :=
  frames.findSome? fun sent =>
    match sent with
    | { side := .client, item := .headers fields _ } => some fields
    | _ => none

/-- The payload of a DATA frame. -/
def dataOf : Item → List Byte
  | .data data _ => data
  | _ => []

/-- The payloads of the DATA frames that a side has sent. -/
def dataFrom (side : Side) (frames : List Sent) : List Byte :=
  (frames.filter fun sent => sent.side = side).flatMap fun sent => dataOf sent.item

/-- The bytes that were handed to `WriteRequestBody`. -/
def requestBytes (reports : List Report) : List Byte :=
  reports.flatMap fun report =>
    match report with
    | .requestBody data _ => data
    | _ => []

/-- The bytes that were handed to `WriteResponseBody`. -/
def responseBytes (reports : List Report) : List Byte :=
  reports.flatMap fun report =>
    match report with
    | .responseBody data _ => data
    | _ => []

/-- The machine of one stream: the entry of the table, started by any frame. -/
def streamStep (env : Env) (streamID : ℕ) (entry : Option Session) (sent : Sent) :
    Option Session × List Report :=
  (entry.getD {}).handleFrame env streamID sent.item

namespace Sessions

/-- The connection after the frames of all its streams, in the order they were seen. -/
def receive (env : Env) (sessions : Sessions) (trace : List (ℕ × Sent)) : Sessions :=
  sessions.handleAll env (trace.map fun entry => .frame entry.1 entry.2.item)

theorem receive_eq_route (env : Env) (sessions : Sessions) (hlive : sessions.failed = false)
    (trace : List (ℕ × Sent)) :
    (sessions.receive env trace).table = (route (streamStep env) sessions.table trace).1 ∧
      (sessions.receive env trace).reports =
        sessions.reports ++ (route (streamStep env) sessions.table trace).2 ∧
      (sessions.receive env trace).failed = false := by
  induction trace generalizing sessions with
  | nil => exact ⟨rfl, (List.append_nil _).symm, hlive⟩
  | cons entry trace ih =>
    obtain ⟨streamID, sent⟩ := entry
    have hhandle : sessions.handle env (.frame streamID sent.item) =
        sessions.handleFrame env streamID sent.item := by
      rw [handle, hlive]
      rfl
    have hrest := ih (sessions.handleFrame env streamID sent.item) hlive
    simp only [receive, handleAll, List.map_cons, List.foldl_cons, hhandle] at hrest ⊢
    rw [hrest.1, hrest.2.1]
    refine ⟨rfl, ?_, hrest.2.2⟩
    simp only [handleFrame, route, List.append_assoc]
    rfl

/-- A stream's entry and calls come from the frames of that stream, however they are
interleaved with those of the others. -/
theorem receive_at {env : Env} {trace : List (ℕ × Sent)} {streamID : ℕ} :
    ((receive env {} trace).table streamID, (receive env {} trace).reportsOf streamID) =
      feed (streamStep env streamID) none (entriesOf streamID trace) := by
  obtain ⟨htable, hreports, _⟩ := receive_eq_route env {} rfl trace
  rw [reportsOf, htable, hreports]
  exact route_at (streamStep env) (fun _ => none) trace streamID

theorem receive_table_at (env : Env) (trace : List (ℕ × Sent)) (streamID : ℕ) :
    (receive env {} trace).table streamID =
      (feed (streamStep env streamID) none (entriesOf streamID trace)).1 :=
  congrArg Prod.fst (receive_at)

theorem receive_reportsOf (env : Env) (trace : List (ℕ × Sent)) (streamID : ℕ) :
    (receive env {} trace).reportsOf streamID =
      (feed (streamStep env streamID) none (entriesOf streamID trace)).2 :=
  congrArg Prod.snd (receive_at)

end Sessions

end Qtap.Http2
