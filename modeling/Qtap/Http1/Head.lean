import Qtap.Core.Header
import Qtap.Core.Numeral

/-!
# Heads of HTTP/1 messages

`readHeaders` takes a message head off a pipe byte by byte, up to an empty line and at
most 32 KiB, and `ReadRequest` and `ReadResponse` make a request or a response of it.
Functions of the standard library that need more of a text than its bytes are fields of
`Library`.
-/

namespace Qtap.Http1

open Qtap.Core

/-- The text functions of the standard library that heads are parsed with. -/
structure Library where
  /-- `strings.TrimSpace` -/
  trimSpace : List Byte → List Byte
  /-- `strings.Fields` -/
  fields : List Byte → List (List Byte)
  /-- `textproto.Reader.ReadMIMEHeader`; `none` at the end of the input, while a malformed
  line leaves the fields read before it. -/
  readMIMEHeader : List Byte → Option Header
  /-- `url.ParseRequestURI`: the host of the URL, `none` when the text is refused. -/
  parseRequestURI : List Byte → Option (List Byte)

/-! ## Reading a head -/

def maxHeaderSize : ℕ := 32 * 2 ^ 10

def carriageReturn : Byte := 13

def lineFeed : Byte := 10

/-- The variables of the loop in `readHeaders`; `remaining` is what the limited reader
still lets through. -/
structure HeadReader where
  headers : List Byte := []
  lastFour : List Byte := [0, 0, 0, 0]
  lastTwo : List Byte := [0, 0]
  headerStarted : Bool := false
  remaining : ℕ := maxHeaderSize
  deriving DecidableEq, Repr

/-- What the loop does after a byte: read on, return the head, or fail, silently when the
error is a bare end of input. -/
inductive HeadResult where
  | more (reader : HeadReader)
  | complete (headers : List Byte)
  | failed (silent : Bool)
  deriving DecidableEq, Repr

namespace HeadReader

/-- The end of the input, or of the limit, with the head unfinished. -/
def atEnd (reader : HeadReader) : HeadResult := .failed reader.headers.isEmpty

/-- Nothing is read beyond the limit. -/
def readOn (reader : HeadReader) : HeadResult :=
  if reader.remaining = 0 then reader.atEnd else .more reader

def push (reader : HeadReader) (byte : Byte) : HeadReader :=
  { headers := reader.headers ++ [byte]
    lastFour := reader.lastFour.drop 1 ++ [byte]
    lastTwo := reader.lastTwo.drop 1 ++ [byte]
    headerStarted := true
    remaining := reader.remaining - 1 }

/-- Leading line ends are passed over. -/
def skips (reader : HeadReader) (byte : Byte) : Bool :=
  !reader.headerStarted && (byte == carriageReturn || byte == lineFeed)

def atBoundary (reader : HeadReader) : Bool :=
  reader.lastFour == [carriageReturn, lineFeed, carriageReturn, lineFeed] ||
    reader.lastTwo == [lineFeed, lineFeed]

def read (reader : HeadReader) (byte : Byte) : HeadResult :=
  if reader.skips byte then { reader with remaining := reader.remaining - 1 }.readOn
  else if (reader.push byte).atBoundary then .complete (reader.push byte).headers
  else (reader.push byte).readOn

end HeadReader

/-! ## Parsing a head -/

structure HeaderData where
  requestLine : List Byte
  headers : Header
  deriving DecidableEq, Repr

/-- The bytes up to and including the first line feed, and the rest. -/
def readLine : List Byte → Option (List Byte × List Byte)
  | [] => none
  | byte :: rest =>
    if byte = lineFeed then some ([byte], rest)
    else (readLine rest).map fun (line, rest) => (byte :: line, rest)

def parseHeaderBytes (library : Library) (data : List Byte) : Option HeaderData :=
  (readLine data).bind fun (firstLine, rest) =>
    (library.readMIMEHeader rest).map fun headers =>
      { requestLine := library.trimSpace firstLine, headers := headers }

structure Request where
  method : List Byte := []
  requestURI : List Byte := []
  proto : List Byte := []
  host : List Byte := []
  headers : Header := []
  deriving DecidableEq, Repr

def parseRequestLine (library : Library) (line : List Byte) : Request :=
  match library.fields line with
  | [method, requestURI, proto] =>
    { method := method, requestURI := requestURI, proto := proto }
  | _ => {}

/-- `ReadRequest` on a complete head.  An error is silent when it is an end of input. -/
def readRequest (library : Library) (data : List Byte) : Except Bool Request :=
  match parseHeaderBytes library data with
  | none => .error true
  | some parsed =>
    let line := parseRequestLine library parsed.requestLine
    let justAuthority :=
      line.method == ascii "CONNECT" && !(ascii "/").isPrefixOf line.requestURI
    let requestURI :=
      if justAuthority then ascii "http://" ++ line.requestURI else line.requestURI
    match library.parseRequestURI requestURI with
    | none => .error false
    | some urlHost =>
      let host := if urlHost = [] then parsed.headers.get (ascii "Host") else urlHost
      .ok { line with requestURI := requestURI, host := host, headers := parsed.headers }

structure Response where
  statusCode : ℤ := 0
  status : List Byte := []
  proto : List Byte := []
  headers : Header := []
  isInterim : Bool := false
  deriving DecidableEq, Repr

/-- The text in front of the first separator and, if there is one, the text behind it. -/
def cut (separator : Byte) : List Byte → List Byte × Option (List Byte)
  | [] => ([], none)
  | byte :: rest =>
    if byte = separator then ([], some rest)
    else (byte :: (cut separator rest).1, (cut separator rest).2)

def parseStatusLine (line : List Byte) : Response :=
  match cut 32 line with
  | (_, none) => {}
  | (proto, some rest) =>
    match cut 32 rest with
    | (code, status) =>
      { proto := proto, statusCode := parseIntValue code, status := status.getD [] }

def readResponse (library : Library) (data : List Byte) : Except Bool Response :=
  match parseHeaderBytes library data with
  | none => .error true
  | some parsed => .ok { parseStatusLine parsed.requestLine with headers := parsed.headers }

/-! ## Bodies -/

def expectsBody (headers : Header) : Bool :=
  if headers.get (ascii "Transfer-Encoding") ≠ [] then true
  else if headers.get (ascii "Content-Length") ≠ [] then
    decide (0 < parseIntValue (headers.get (ascii "Content-Length")))
  else false

def expectsRequestBody (request : Request) : Bool := expectsBody request.headers

def expectsContinue (request : Request) : Bool :=
  equalFold (request.headers.get (ascii "Expect")) (ascii "100-continue")

def expectsResponseBody (method : List Byte) (response : Response) : Bool :=
  if method = ascii "HEAD" then false
  else if response.statusCode = 204 ∨ response.statusCode = 304 then false
  else if expectsBody response.headers then true
  else
    let connection := response.headers.get (ascii "Connection")
    equalFold connection (ascii "close") ||
      ((ascii "HTTP/1.0").isPrefixOf response.proto && !equalFold connection (ascii "keep-alive"))

/-! ## The library on ASCII texts -/

def isSpace (byte : Byte) : Bool := byte == 32 || (9 ≤ byte && byte ≤ 13)

def trimSpace (text : List Byte) : List Byte :=
  ((text.dropWhile isSpace).reverse.dropWhile isSpace).reverse

/-- The fields up to the first line without a colon. -/
def parseFields : List (List Byte) → Header
  | [] => []
  | line :: rest =>
    match cut 58 line with
    | (name, some value) => (canonicalHeaderKey name, trimSpace value) :: parseFields rest
    | (_, none) => []

/-- The library on ASCII heads without continuation lines, whose targets are paths or
`http` URLs. -/
def asciiLibrary : Library where
  trimSpace := trimSpace
  fields text := (text.splitOnP isSpace).filter (· ≠ [])
  readMIMEHeader text :=
    some (parseFields (((text.splitOn lineFeed).map trimSpace).takeWhile (· ≠ [])))
  parseRequestURI text :=
    if (ascii "/").isPrefixOf text then some []
    else if (ascii "http://").isPrefixOf text then some ((text.drop 7).takeWhile (· ≠ 47))
    else none

end Qtap.Http1
