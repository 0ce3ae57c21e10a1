import Qtap.Core.Header
import Qtap.Core.Numeral

/-!
# Requests and responses of an HTTP/2 stream

What `CreateRequest`, `CreateResponse` and `HandleTrailers` make of a decoded header
block, and the tests that the stream processor applies to one.
-/

namespace Qtap.Http2

open Qtap.Core

structure HeaderField where
  name : List Byte
  value : List Byte
  deriving DecidableEq, Repr

namespace HeaderField

/-- The size of a field in a header list: both texts and an overhead of 32. -/
def size (field : HeaderField) : ℕ := field.name.length + field.value.length + 32

end HeaderField

def hasField (name : String) (fields : List HeaderField) : Bool :=
  fields.any fun field => field.name == ascii name

def hasStatusHeader (fields : List HeaderField) : Bool := hasField ":status" fields

def isTrailersOnly (fields : List HeaderField) : Bool :=
  hasField ":status" fields && hasField "grpc-status" fields

def isGRPC (fields : List HeaderField) : Bool :=
  fields.any fun field =>
    field.name == ascii "content-type" && (ascii "application/grpc").isPrefixOf field.value

/-- The value of the last field of that name, the empty text when there is none. -/
def lastValue (name : String) (fields : List HeaderField) : List Byte :=
  ((fields.filter fun field => field.name == ascii name).map HeaderField.value).getLastD []

def postBlock : List HeaderField :=
  [⟨ascii ":method", ascii "POST"⟩, ⟨ascii ":authority", ascii "api"⟩, ⟨ascii ":path", ascii "/"⟩]

def okBlock : List HeaderField := [⟨ascii ":status", ascii "200"⟩]

/-! ## Requests -/

structure Request where
  method : List Byte
  url : List Byte
  host : List Byte
  requestURI : List Byte
  contentLength : ℤ
  header : Header
  deriving DecidableEq, Repr

/-- What the processor asks its surroundings for: whether the connection is TLS, the
standard library's opinion on hosts and URLs, and the plugin manager. -/
structure Env where
  isTLS : Bool
  /-- `net.ParseIP` accepts the host and it is not an IPv4 address. -/
  isIPv6 : List Byte → Bool
  /-- `url.Parse` accepts the text. -/
  parsesURL : List Byte → Bool
  /-- The plugin manager makes a connection for the request of this stream, or none,
  without an error. -/
  newConnection : ℕ → Request → Bool → Bool

/-- Surroundings that refuse nothing. -/
def acceptAll : Env where
  isTLS := true
  isIPv6 := fun _ => false
  parsesURL := fun _ => true
  newConnection := fun _ _ _ => true

def requestHeader (fields : List HeaderField) : Header :=
  (fields.filter fun field =>
    !([":method", ":scheme", ":authority", ":path"].map ascii).contains field.name).foldl
      (fun header field => header.add field.name field.value) []

/-- The last `content-length` that is a number decides. -/
def requestContentLength (fields : List HeaderField) : ℤ :=
  ((fields.filter fun field => field.name == ascii "content-length").filterMap fun field =>
    parseInt 63 field.value).getLastD 0

def requestPath (fields : List HeaderField) : List Byte :=
  let path := lastValue ":path" fields
  if !(ascii "/").isSuffixOf path && !(ascii "/").isPrefixOf path then ascii "/" ++ path else path

def requestScheme (env : Env) (fields : List HeaderField) : List Byte :=
  if lastValue ":scheme" fields = [] then ascii (if env.isTLS then "https" else "http")
  else lastValue ":scheme" fields

def requestURLHost (env : Env) (fields : List HeaderField) : List Byte :=
  let host := lastValue ":authority" fields
  if env.isIPv6 host then ascii "[" ++ host ++ ascii "]" else host

def Request.ofFields (env : Env) (fields : List HeaderField) : Request where
  method := lastValue ":method" fields
  url := requestScheme env fields ++ ascii "://" ++ requestURLHost env fields ++ requestPath fields
  host := lastValue ":authority" fields
  requestURI := requestPath fields
  contentLength := requestContentLength fields
  header := requestHeader fields

/-- Bodies under a content coding other than `identity` are filtered out. -/
def isEncoded (header : Header) : Bool :=
  let coding := header.get (ascii "Content-Encoding")
  coding != [] && !equalFold coding (ascii "identity")

/-! ## Responses -/

structure Response where
  contentLength : ℤ
  statusCode : ℤ
  header : Header
  deriving DecidableEq, Repr

def responseHeader (fields : List HeaderField) : Header :=
  fields.foldl (fun header field => header.add field.name field.value) []

/-- The request's `:method` is looked up in its header, which never holds a pseudo
header, so that a response without a single length is taken to be empty when the stream
ends, to a `HEAD` request too. -/
def responseContentLength (request : Request) (header : Header) (endStream : Bool) : ℤ :=
  match header.values (ascii "Content-Length") with
  | [length] => ((parseUint 63 length).map Int.ofNat).getD (-1)
  | _ =>
    if endStream && !equalFold (request.header.get (ascii ":method")) (ascii "HEAD") then 0
    else -1

def Response.ofFields (request : Request) (fields : List HeaderField) (endStream : Bool) :
    Response where
  contentLength := responseContentLength request (responseHeader fields) endStream
  statusCode := (atoi ((responseHeader fields).get (ascii ":status"))).getD 0
  header := responseHeader fields

/-! ## Trailers of a gRPC call -/

def grpcStatusNames : List String :=
  ["OK", "CANCELLED", "UNKNOWN", "INVALID_ARGUMENT", "DEADLINE_EXCEEDED", "NOT_FOUND",
    "ALREADY_EXISTS", "PERMISSION_DENIED", "RESOURCE_EXHAUSTED", "FAILED_PRECONDITION",
    "ABORTED", "OUT_OF_RANGE", "UNIMPLEMENTED", "INTERNAL", "UNAVAILABLE", "DATA_LOSS",
    "UNAUTHENTICATED"]

def grpcHTTPStatuses : List ℕ :=
  [200, 499, 500, 400, 504, 404, 409, 403, 429, 400, 409, 400, 501, 500, 503, 500, 401]

/-- The number that a status text stands for: `"0"` to `"16"`, without leading zeros. -/
def grpcStatusCode (status : List Byte) : Option ℕ :=
  (List.range grpcStatusNames.length).find? fun code => ascii (toString code) == status

def grpcStatusName (status : List Byte) : List Byte :=
  ascii (((grpcStatusCode status).bind (grpcStatusNames[·]?)).getD "UNKNOWN")

def grpcStatusToHTTP (status : List Byte) : ℕ :=
  ((grpcStatusCode status).bind (grpcHTTPStatuses[·]?)).getD 500

def hexValue (byte : Byte) : Option Byte :=
  if 48 ≤ byte ∧ byte ≤ 57 then some (byte - 48)
  else if 97 ≤ byte ∧ byte ≤ 102 then some (byte - 97 + 10)
  else if 65 ≤ byte ∧ byte ≤ 70 then some (byte - 65 + 10)
  else none

/-- `url.QueryUnescape`. -/
def queryUnescape : List Byte → Option (List Byte)
  | [] => some []
  | 37 :: high :: low :: rest =>
    (hexValue high).bind fun high => (hexValue low).bind fun low =>
      (queryUnescape rest).map ((high * 16 + low) :: ·)
  | byte :: rest =>
    if byte = 37 then none
    else (queryUnescape rest).map ((if byte = 43 then 32 else byte) :: ·)

def grpcMessage (fields : List HeaderField) : List Byte :=
  let message := lastValue "grpc-message" fields
  (queryUnescape message).getD message

/-- What the trailers of a gRPC call do to the response that was created before. -/
def Response.handleTrailers (response : Response) (fields : List HeaderField) : Response :=
  let status := lastValue "grpc-status" fields
  let header :=
    if status = [] then response.header
    else (response.header.set (ascii "Grpc-Status") status).set (ascii "Grpc-Status-Name")
      (grpcStatusName status)
  let header :=
    if grpcMessage fields = [] then header
    else header.set (ascii "Grpc-Message") (grpcMessage fields)
  if status = [] ∨ status = ascii "0" then { response with header := header }
  else
    { response with
      statusCode := grpcStatusToHTTP status
      header := header.set (ascii ":status") (ascii (toString (grpcStatusToHTTP status))) }

end Qtap.Http2
