import Qtap.Core.Keyed
import Qtap.Http2.Message

/-!
# Sessions of an HTTP/2 connection

One session follows the request and the response of one stream.  Its state carries the
messages it has created so far; a session whose response is done has left the table, so
that there is no state for it.  The frames of both directions go through the same
handlers: which side sent a frame plays no role.
-/

namespace Qtap.Http2

open Qtap.Core

inductive StreamState where
  | idle
  | requestHeaders (request : Request)
  | requestBody (request : Request)
  | requestDone (request : Request)
  | responseHeaders (request : Request) (response : Response)
  | responseBody (request : Request) (response : Response)
  deriving DecidableEq, Repr

structure Session where
  state : StreamState := .idle
  isGRPC : Bool := false
  deriving DecidableEq, Repr

/-- The calls that the processor makes on a session, and the streams it gives up. -/
inductive Report where
  | request (request : Request) (endStream : Bool)
  | requestBody (data : List Byte) (endStream : Bool)
  | response (response : Response) (endStream : Bool)
  | responseBody (data : List Byte) (endStream : Bool)
  | trailers (response : Response)
  | skipped
  deriving DecidableEq, Repr

/-- A frame of a stream whose header block, if it carries one, has been decoded. -/
inductive Item where
  | headers (fields : List HeaderField) (endStream : Bool)
  | headersFailed
  | data (data : List Byte) (endStream : Bool)
  | rstStream
  | goAway
  | other
  deriving DecidableEq, Repr

def Item.endsStream : Item → Bool
  | .headers _ endStream => endStream
  | .data _ endStream => endStream
  | _ => false

/-- The request that `CreateRequest` builds; `none` when the URL is refused or the plugin
manager fails. -/
def createRequest (env : Env) (streamID : ℕ) (isGRPC : Bool) (fields : List HeaderField) :
    Option Request :=
  let request := Request.ofFields env fields
  if env.parsesURL request.url && env.newConnection streamID request isGRPC then some request
  else none

namespace Session

/-- The last write of a response body: with or without an error the session is removed. -/
def endResponse (response : Response) (reports : List Report) : Option Session × List Report :=
  if isEncoded response.header then (none, reports ++ [.responseBody [] true, .skipped])
  else (none, reports ++ [.responseBody [] true])

def handleResponseHeaders (session : Session) (request : Request) (fields : List HeaderField)
    (endStream : Bool) : Option Session × List Report :=
  if session.isGRPC && endStream && isTrailersOnly fields then
    let response := Response.ofFields request fields false
    let trailers := response.handleTrailers fields
    endResponse trailers [.response response false, .trailers trailers]
  else
    let response := Response.ofFields request fields endStream
    if endStream then endResponse response [.response response true]
    else
      (some { session with state := .responseHeaders request response }, [.response response false])

/-- A header block on a stream without a request starts one. -/
def handleRequestHeaders (env : Env) (streamID : ℕ) (session : Session)
    (fields : List HeaderField) (endStream : Bool) : Option Session × List Report :=
  match createRequest env streamID session.isGRPC fields with
  | none => (none, [.skipped])
  | some request =>
    if endStream then
      if isEncoded request.header then
        (none, [.request request true, .requestBody [] true, .skipped])
      else
        (some { session with state := .requestDone request },
          [.request request true, .requestBody [] true])
    else
      (some { session with state := .requestHeaders request }, [.request request false])

/-- A header block with `:status` before the request has ended is an early response. -/
def handleEarlyHeaders (session : Session) (request : Request) (fields : List HeaderField)
    (endStream : Bool) : Option Session × List Report :=
  if hasStatusHeader fields then
    let (next, reports) :=
      handleResponseHeaders { session with state := .requestDone request } request fields endStream
    (next, .requestBody [] true :: reports)
  else (some session, [])

/-- A header block during the response is its trailers when it ends the stream. -/
def handleTrailers (session : Session) (response : Response) (fields : List HeaderField)
    (endStream : Bool) : Option Session × List Report :=
  if endStream then
    if session.isGRPC then
      let trailers := response.handleTrailers fields
      endResponse trailers [.trailers trailers]
    else endResponse response []
  else (some session, [])

def handleHeadersFrame (env : Env) (streamID : ℕ) (session : Session)
    (fields : List HeaderField) (endStream : Bool) : Option Session × List Report :=
  match session.state with
  | .idle => session.handleRequestHeaders env streamID fields endStream
  | .requestHeaders request => session.handleEarlyHeaders request fields endStream
  | .requestBody request => session.handleEarlyHeaders request fields endStream
  | .requestDone request => session.handleResponseHeaders request fields endStream
  | .responseHeaders _ response => session.handleTrailers response fields endStream
  | .responseBody _ response => session.handleTrailers response fields endStream

def handleRequestData (session : Session) (request : Request) (data : List Byte)
    (endStream : Bool) : Option Session × List Report :=
  if isEncoded request.header then (none, [.requestBody data endStream, .skipped])
  else if endStream then
    (some { session with state := .requestDone request }, [.requestBody data true])
  else (some { session with state := .requestBody request }, [.requestBody data false])

def handleResponseData (session : Session) (request : Request) (response : Response)
    (data : List Byte) (endStream : Bool) : Option Session × List Report :=
  if isEncoded response.header then (none, [.responseBody data endStream, .skipped])
  else if endStream then (none, [.responseBody data true])
  else (some { session with state := .responseBody request response }, [.responseBody data false])

def handleDataFrame (session : Session) (data : List Byte) (endStream : Bool) :
    Option Session × List Report :=
  match session.state with
  | .requestHeaders request => session.handleRequestData request data endStream
  | .requestBody request => session.handleRequestData request data endStream
  | .responseHeaders request response => session.handleResponseData request response data endStream
  | .responseBody request response => session.handleResponseData request response data endStream
  | .idle => (some session, [])
  | .requestDone _ => (some session, [])

/-- What a frame does to the session of its stream: the session that stays in the table,
if any, and the calls made on it. -/
def handleFrame (env : Env) (streamID : ℕ) (session : Session) :
    Item → Option Session × List Report
  | .headers fields endStream =>
    handleHeadersFrame env streamID
      { session with isGRPC := session.isGRPC || Http2.isGRPC fields } fields endStream
  | .headersFailed => (none, [.skipped])
  | .data data endStream => session.handleDataFrame data endStream
  | .rstStream => (none, [])
  | .goAway => (none, [])
  | .other => (some session, [])

end Session

/-! ## The table of sessions -/

inductive Protocol where
  | http2
  | grpc
  | unknown
  deriving DecidableEq, Repr

/-- The sessions by stream, what the connection has been recognised as, whether it was
given up, and all calls so far. -/
structure Sessions where
  table : ℕ → Option Session := fun _ => none
  protocol : Protocol := .http2
  failed : Bool := false
  reports : List (ℕ × Report) := []

/-- A complete frame as the framer returns it. -/
inductive Decoded where
  | frame (streamID : ℕ) (item : Item)
  | unreadable (protocolError : Bool)
  deriving DecidableEq, Repr

namespace Sessions

/-- `initSession`: any frame on any stream without a session starts one. -/
def sessionOf (sessions : Sessions) (streamID : ℕ) : Session :=
  (sessions.table streamID).getD {}

def recognise (protocol : Protocol) : Item → Protocol
  | .headers fields _ => if isGRPC fields then .grpc else protocol
  | _ => protocol

def handleFrame (env : Env) (sessions : Sessions) (streamID : ℕ) (item : Item) : Sessions :=
  let (next, reports) := (sessions.sessionOf streamID).handleFrame env streamID item
  { sessions with
    table := Function.update sessions.table streamID next
    protocol := recognise sessions.protocol item
    reports := sessions.reports ++ reports.map fun report => (streamID, report) }

/-- Frames that break the protocol are passed over once the connection is known to be
gRPC; before, they end the processing, as every other unreadable frame does. -/
def handle (env : Env) (sessions : Sessions) (decoded : Decoded) : Sessions :=
  if sessions.failed then sessions
  else
    match decoded with
    | .frame streamID item => sessions.handleFrame env streamID item
    | .unreadable true =>
      if sessions.protocol = .grpc then sessions
      else { sessions with failed := true, protocol := .unknown }
    | .unreadable false => { sessions with failed := true }

def handleAll (env : Env) (sessions : Sessions) (frames : List Decoded) : Sessions :=
  frames.foldl (handle env) sessions

/-- The calls made on the sessions of one stream. -/
def reportsOf (sessions : Sessions) (streamID : ℕ) : List Report :=
  entriesOf streamID sessions.reports

end Sessions

end Qtap.Http2
