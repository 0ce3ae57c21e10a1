import Qtap.Redis.Value

/-!
# The RESP parser

Every function below takes the bytes from its value on and returns the value with
the number of bytes it consumed, as the source does.  All `int` arithmetic wraps at
64 bits.  `strconv.ParseFloat` is a parameter: the parser only asks whether it
accepts a text and stores the bits it returns.
-/

namespace Qtap.Redis

open Qtap.Core

abbrev Parsed := Exec ParseError (Value × ℤ)

/-- `bytes.Index(data, crlf)`. -/
def indexCRLF : List Byte → Option ℕ
  | [] => none
  | first :: rest =>
    if first = 13 ∧ rest.head? = some 10 then some 0
    else (indexCRLF rest).map (· + 1)

def lineEnd (data : List Byte) : Exec ParseError ℤ :=
  match indexCRLF data with
  | some idx => .ok idx
  | none => .err .incomplete

/-- Values that are the text of one line. -/
def parseLine (kind : RESPType) (data : List Byte) : Parsed :=
  (lineEnd data).bind fun idx =>
    (slice data 1 idx).bind fun text =>
      .ok ({ type := kind, str := text }, wrap64 (idx + 2))

def parseSimpleString (data : List Byte) : Parsed := parseLine .simpleString data

def parseError (data : List Byte) : Parsed := parseLine .error data

def parseBigNumber (data : List Byte) : Parsed := parseLine .bigNumber data

/-- The decimal number on the first line, with the position of the line's end. -/
def parseLength (data : List Byte) : Exec ParseError (ℤ × ℤ) :=
  (lineEnd data).bind fun idx =>
    (slice data 1 idx).bind fun text =>
      match atoi text with
      | some length => .ok (idx, length)
      | none => .err .invalidFormat

def parseInteger (data : List Byte) : Parsed :=
  (parseLength data).bind fun (idx, val) =>
    .ok ({ type := .integer, int := val }, wrap64 (idx + 2))

/-- The `length` bytes behind the first line and the line end that closes them. -/
def parseBlob (kind : RESPType) (data : List Byte) (idx length : ℤ) : Parsed :=
  let start := wrap64 (idx + 2)
  let stop := wrap64 (start + length)
  if wrap64 (stop + 2) > data.length then
    .err .incomplete
  else
    (slice data start stop).bind fun text =>
      .ok ({ type := kind, str := text }, wrap64 (stop + 2))

def parseBulkString (data : List Byte) : Parsed :=
  (parseLength data).bind fun (idx, length) =>
    if length < 0 then
      .ok ({ type := .bulkString, isNull := true }, wrap64 (idx + 2))
    else
      parseBlob .bulkString data idx length

-- Unlike a bulk string, a bulk error and a verbatim string have no null form: a
-- negative length goes on to the slice expression.
def parseBulkError (data : List Byte) : Parsed :=
  (parseLength data).bind fun (idx, length) => parseBlob .bulkError data idx length

def parseVerbatim (data : List Byte) : Parsed :=
  (parseLength data).bind fun (idx, length) => parseBlob .verbatim data idx length

def parseNull (data : List Byte) : Parsed :=
  match data with
  | _ :: second :: third :: _ =>
    if second ≠ 13 ∨ third ≠ 10 then .err .invalidFormat
    else .ok ({ type := .null, isNull := true }, 3)
  | _ => .err .incomplete

def parseBoolean (data : List Byte) : Parsed :=
  match data with
  | _ :: second :: third :: fourth :: _ =>
    if third ≠ 13 ∨ fourth ≠ 10 then .err .invalidFormat
    else if second = 116 then .ok ({ type := .boolean, bool := true }, 4)
    else if second = 102 then .ok ({ type := .boolean, bool := false }, 4)
    else .err .invalidFormat
  | _ => .err .incomplete

section Recursive

variable (parseFloat : List Byte → Option UInt64)

/-- The three spelled-out doubles and everything `strconv.ParseFloat` accepts. -/
def doubleBits (text : List Byte) : Option UInt64 :=
  if text = [105, 110, 102] then some 0x7FF0000000000000
  else if text = [45, 105, 110, 102] then some 0xFFF0000000000000
  else if text = [110, 97, 110] then some 0x7FF8000000000001
  else parseFloat text

def parseDouble (data : List Byte) : Parsed :=
  (lineEnd data).bind fun idx =>
    (slice data 1 idx).bind fun text =>
      match doubleBits parseFloat text with
      | some bits => .ok ({ type := .double, float := bits }, wrap64 (idx + 2))
      | none => .err .invalidFormat

/-- The loop `for range count` of the array-like types. -/
def parseElements (parseValue : List Byte → Parsed) (data : List Byte) :
    ℕ → ℤ → List Value → Exec ParseError (List Value × ℤ)
  | 0, pos, elements => .ok (elements, pos)
  | count + 1, pos, elements =>
    if pos ≥ data.length then .err .incomplete
    else
      (slice data pos data.length).bind fun rest =>
        (parseValue rest).bind fun (elem, consumed) =>
          parseElements parseValue data count (wrap64 (pos + consumed)) (elements ++ [elem])

/-- The loop of `parseMap`: a key and a value in every round. -/
def parseEntries (parseValue : List Byte → Parsed) (data : List Byte) :
    ℕ → ℤ → List (List Byte × Value) → Exec ParseError (List (List Byte × Value) × ℤ)
  | 0, pos, entries => .ok (entries, pos)
  | count + 1, pos, entries =>
    if pos ≥ data.length then .err .incomplete
    else
      (slice data pos data.length).bind fun rest =>
        (parseValue rest).bind fun (key, keyConsumed) =>
          let pos := wrap64 (pos + keyConsumed)
          if pos ≥ data.length then .err .incomplete
          else
            (slice data pos data.length).bind fun rest =>
              (parseValue rest).bind fun (val, valConsumed) =>
                parseEntries parseValue data count (wrap64 (pos + valConsumed))
                  (mapSet entries key.str val)

/-- Room for `count` elements, then the elements. -/
def parseAggregate (parseValue : List Byte → Parsed) (kind : RESPType)
    (data : List Byte) (idx count : ℤ) : Parsed :=
  (makeSlice valueSize count).bind fun _ =>
    (parseElements parseValue data count.toNat (wrap64 (idx + 2)) []).bind
      fun (elements, pos) => .ok ({ type := kind, array := elements }, pos)

def parseArray (parseValue : List Byte → Parsed) (data : List Byte) : Parsed :=
  (parseLength data).bind fun (idx, count) =>
    if count < 0 then
      .ok ({ type := .array, isNull := true }, wrap64 (idx + 2))
    else
      parseAggregate parseValue .array data idx count

-- Sets, pushes and maps do not look at the sign of their count.
def parseSet (parseValue : List Byte → Parsed) (data : List Byte) : Parsed :=
  (parseLength data).bind fun (idx, count) => parseAggregate parseValue .set data idx count

def parsePush (parseValue : List Byte → Parsed) (data : List Byte) : Parsed :=
  (parseLength data).bind fun (idx, count) => parseAggregate parseValue .push data idx count

def parseMap (parseValue : List Byte → Parsed) (data : List Byte) : Parsed :=
  (parseLength data).bind fun (idx, count) =>
    (makeMap count).bind fun _ =>
      (parseEntries parseValue data count.toNat (wrap64 (idx + 2)) []).bind
        fun (entries, pos) => .ok ({ type := .map, map := entries }, pos)

/-- The switch of `parseValue`, over the parser for nested values. -/
def parseTyped (parseValue : List Byte → Parsed) (kind : RESPType) (data : List Byte) :
    Parsed :=
  match kind with
  | .simpleString => parseSimpleString data
  | .error => parseError data
  | .integer => parseInteger data
  | .bulkString => parseBulkString data
  | .array => parseArray parseValue data
  | .null => parseNull data
  | .boolean => parseBoolean data
  | .double => parseDouble parseFloat data
  | .bigNumber => parseBigNumber data
  | .bulkError => parseBulkError data
  | .verbatim => parseVerbatim data
  | .map => parseMap parseValue data
  | .set => parseSet parseValue data
  | .push => parsePush parseValue data

/-- `parseValue` with a bound on the nesting depth.  A nested value starts behind
the header of the value around it, so the length of the data is bound enough. -/
def parseNested : ℕ → List Byte → Parsed
  | 0, _ => .err .incomplete
  | depth + 1, data =>
    match data with
    | [] => .err .incomplete
    | first :: _ =>
      match RESPType.ofMarker first with
      | some kind => parseTyped parseFloat (parseNested depth) kind data
      | none => .err .invalidFormat

def parseValue (data : List Byte) : Parsed := parseNested parseFloat data.length data

end Recursive

/-! ## The parser object -/

structure Parser where
  buffer : List Byte := []

namespace Parser

variable (parseFloat : List Byte → Option UInt64)

def append (parser : Parser) (data : List Byte) : Parser :=
  { parser with buffer := parser.buffer ++ data }

def reset (parser : Parser) : Parser := { parser with buffer := [] }

def parse (parser : Parser) : Exec ParseError (Value × Parser) :=
  if parser.buffer = [] then .err .incomplete
  else
    (parseValue parseFloat parser.buffer).bind fun (value, consumed) =>
      (slice parser.buffer consumed parser.buffer.length).bind fun rest =>
        .ok ({ value with size := consumed }, { parser with buffer := rest })

/-- The parser after a call of `Parse`: an error and a recovered panic leave the
buffer as it was. -/
def afterParse (parser : Parser) : Parser :=
  match (parser.parse parseFloat).outcome with
  | .ok (_, next) => next
  | _ => parser

end Parser

end Qtap.Redis
