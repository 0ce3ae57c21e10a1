import Qtap.Mysql.Packet

/-!
# MySQL payloads

The readers of command, response, column-definition and row payloads.  Each is an
`Exec`: slice expressions check their bounds, and an offset computed from a
length-encoded integer is the signed 64-bit value of the Go conversion.
Go strings are byte lists.
-/

namespace Qtap.Mysql

open Qtap.Core

abbrev Read (A : Type) := Exec ParserError A

/-- The index expression `data[pos]`. -/
def byteAt (data : List Byte) (pos : ℤ) : Read Byte :=
  if 0 ≤ pos then
    match data[pos.toNat]? with
    | some byte => .ok byte
    | none => { outcome := .panic .sliceBounds }
  else
    { outcome := .panic .sliceBounds }

/-- The slice expression `data[pos:]`. -/
def sliceFrom (data : List Byte) (pos : ℤ) : Read (List Byte) := slice data pos data.length

/-- `binary.LittleEndian.Uint16(data[pos:])` and its wider siblings. -/
def uintAt (width : ℕ) (data : List Byte) (pos : ℤ) : Read ℕ :=
  (slice data pos (pos + width)).bind fun bytes => .ok (leValue bytes)

/-! ## Length-encoded values -/

/-- The value with the number of bytes it takes. -/
def readLengthEncodedInt : List Byte → Read (ℕ × ℤ)
  | [] => .err .incomplete
  | first :: rest =>
    let data := first :: rest
    if first = 0xfb then .ok (0, 1)
    else if first = 0xfc then
      if data.length < 3 then .err .incomplete
      else (uintAt 2 data 1).bind fun value => .ok (value, 3)
    else if first = 0xfd then
      if data.length < 4 then .err .incomplete
      else (uintAt 3 data 1).bind fun value => .ok (value, 4)
    else if first = 0xfe then
      if data.length < 9 then .err .incomplete
      else (uintAt 8 data 1).bind fun value => .ok (value, 9)
    else .ok (first.toNat, 1)

/-- `uint64(len(data)-pos)`. -/
def remaining (data : List Byte) (pos : ℤ) : ℕ := ((data.length - pos) % 2 ^ 64).toNat

def readLengthEncodedString (data : List Byte) : Read (List Byte × ℤ) :=
  if data = [] then .err .incomplete
  else if data.head? = some 0xfb then .ok ([], 1)
  else
    (readLengthEncodedInt data).bind fun (length, n) =>
      if remaining data n < length then .err .incomplete
      else
        (slice data n (n + wrap64 length)).bind fun text =>
          .ok (text, n + wrap64 length)

/-! ## Commands -/

def comQuit : Byte := 0x01
def comInitDB : Byte := 0x02
def comQuery : Byte := 0x03
def comPing : Byte := 0x0e
def comStmtPrepare : Byte := 0x16
def comStmtExecute : Byte := 0x17
def comStmtSendLongData : Byte := 0x18
def comStmtClose : Byte := 0x19

inductive CommandData where
  | none
  | query (text : List Byte)
  | text (text : List Byte)
  | raw (bytes : List Byte)
  deriving DecidableEq, Repr

/-- The query text behind the prefix that clients with query attributes send. -/
def stripAttributes : List Byte → List Byte
  | 0x00 :: 0x01 :: query => query
  | query => query

def commandData (cmd : Byte) (body : List Byte) : CommandData :=
  if cmd = comQuery then .query (stripAttributes body)
  else if cmd = comQuit then .none
  else if cmd = comPing then .none
  else if cmd = comInitDB then .text body
  else if cmd = comStmtPrepare then .query body
  else .raw body

def parseCommand (packet : Packet) : Read (Byte × CommandData) :=
  match packet.payload with
  | [] => .err .invalidPacket
  | cmd :: body => .ok (cmd, commandData cmd body)

/-! ## Responses -/

def okPacket : Byte := 0x00
def eofPacket : Byte := 0xfe
def errPacket : Byte := 0xff
def localInfile : Byte := 0xfb

structure OKResponse where
  affectedRows : ℕ
  lastInsertID : ℕ
  statusFlags : ℕ
  warnings : ℕ
  info : List Byte
  deriving DecidableEq, Repr

structure ERRResponse where
  errorCode : ℕ
  sqlState : List Byte
  errorMessage : List Byte
  deriving DecidableEq, Repr

structure ColumnDefinition where
  catalog : List Byte
  schema : List Byte
  table : List Byte
  orgTable : List Byte
  name : List Byte
  orgName : List Byte
  characterSet : ℕ
  columnLength : ℕ
  columnType : Byte
  flags : ℕ
  decimals : Byte
  deriving DecidableEq, Repr

structure Value where
  isNull : Bool := false
  data : List Byte := []
  deriving DecidableEq, Repr

/-- `Value.String`: `NULL`, or the bytes. -/
def Value.string (value : Value) : List Byte :=
  if value.isNull then [78, 85, 76, 76] else value.data

structure ResultSet where
  columnCount : ℕ
  columns : List ColumnDefinition := []
  rows : List (List Value) := []
  rowCount : ℕ := 0
  deriving DecidableEq, Repr

inductive Response where
  | ok (response : OKResponse)
  | err (response : ERRResponse)
  | eof
  | localInfile
  | resultSet (result : ResultSet)
  deriving DecidableEq, Repr

/-- A length-encoded integer at `pos`; a failed read counts as zero and takes no bytes. -/
def lenencOrZero (data : List Byte) (pos : ℤ) : Read (ℕ × ℤ) :=
  (sliceFrom data pos).bind fun rest =>
    match readLengthEncodedInt rest with
    | ⟨.err _, makes⟩ => ⟨.ok (0, 0), makes⟩
    | exec => exec

/-- A two-byte field that a short packet may leave out. -/
def optionalUint16 (data : List Byte) (pos : ℤ) : Read (ℕ × ℤ) :=
  if pos + 2 ≤ data.length then (uintAt 2 data pos).bind fun value => .ok (value, pos + 2)
  else .ok (0, pos)

/-- `string(data[pos:])` where the source asks `pos < len(data)` first. -/
def trailingText (data : List Byte) (pos : ℤ) : Read (List Byte) :=
  if pos < data.length then sliceFrom data pos else .ok []

def parseOKPacket (data : List Byte) : Read OKResponse :=
  if data.head? = some okPacket ∨ data.head? = some eofPacket then
    (lenencOrZero data 1).bind fun (affectedRows, n) =>
      (lenencOrZero data (1 + n)).bind fun (lastInsertID, m) =>
        (optionalUint16 data (1 + n + m)).bind fun (statusFlags, pos) =>
          (optionalUint16 data pos).bind fun (warnings, pos) =>
            (trailingText data pos).bind fun info =>
              .ok { affectedRows, lastInsertID, statusFlags, warnings, info }
  else .err .invalidPacket

/-- The marker and the five bytes of the SQL state, with the position behind them. -/
def readSQLState (data : List Byte) : Read (List Byte × ℤ) :=
  if 3 < data.length then
    (byteAt data 3).bind fun marker =>
      if marker ≠ 35 then .ok ([], 3)
      else if 4 + 5 ≤ data.length then
        (slice data 4 9).bind fun state => .ok (state, 9)
      else .ok ([], 4)
  else .ok ([], 3)

def parseERRPacket (data : List Byte) : Read ERRResponse :=
  if data.length < 3 ∨ data.head? ≠ some errPacket then .err .invalidPacket
  else
    (uintAt 2 data 1).bind fun errorCode =>
      (readSQLState data).bind fun (sqlState, pos) =>
        (trailingText data pos).bind fun errorMessage =>
          .ok { errorCode, sqlState, errorMessage }

def parseResponse (packet : Packet) : Read Response :=
  match packet.payload with
  | [] => .err .invalidPacket
  | first :: rest =>
    let payload := first :: rest
    if first = okPacket then (parseOKPacket payload).bind fun response => .ok (.ok response)
    else if first = errPacket then
      (parseERRPacket payload).bind fun response => .ok (.err response)
    else if first = eofPacket then
      if payload.length < 9 then .ok .eof
      else (parseOKPacket payload).bind fun response => .ok (.ok response)
    else if first = localInfile then .ok .localInfile
    else
      (readLengthEncodedInt payload).bind fun (columnCount, _) =>
        .ok (.resultSet { columnCount := columnCount })

/-! ## The server's greeting -/

structure ServerHandshake where
  protocolVersion : Byte
  serverVersion : List Byte := []
  connectionID : ℕ := 0
  authPluginData : List Byte := []
  capabilityFlags : ℕ := 0
  characterSet : Byte := 0
  statusFlags : ℕ := 0
  authPluginName : List Byte := []
  deriving DecidableEq, Repr

/-- The null-terminated text at `pos` with the position behind its terminator; without a
terminator the text is empty and the position stays. -/
def readNullTerminated (data : List Byte) (pos : ℤ) : Read (List Byte × ℤ) :=
  match (data.drop pos.toNat).findIdx? (· == 0) with
  | some index => (slice data pos (pos + index)).bind fun text => .ok (text, pos + index + 1)
  | none => .ok ([], pos)

/-- The rest of the greeting from the upper capability bytes on. -/
def parseHandshakeTail (data : List Byte) (handshake : ServerHandshake) (capLower : ℕ)
    (authData : List Byte) (pos : ℤ) : Read ServerHandshake :=
  if pos + 2 > data.length then
    .ok { handshake with capabilityFlags := capLower, authPluginData := authData }
  else
    (uintAt 2 data pos).bind fun capUpper =>
      let handshake := { handshake with capabilityFlags := capLower ||| capUpper <<< 16 }
      if pos + 2 ≥ data.length then .ok { handshake with authPluginData := authData }
      else
        (byteAt data (pos + 2)).bind fun authLen =>
          let part2Len : ℤ := min ((authLen.toNat : ℤ) - 8) 13
          let pos := pos + 3 + 10
          let second : Read (List Byte × ℤ) :=
            if pos < data.length ∧ authLen.toNat > 8 ∧ pos + part2Len ≤ data.length then
              (slice data pos (pos + part2Len)).bind fun part2 => .ok (part2, pos + part2Len)
            else .ok ([], pos)
          second.bind fun (part2, pos) =>
            let handshake := { handshake with authPluginData := authData ++ part2 }
            if pos < data.length then
              (readNullTerminated data pos).bind fun (authPluginName, _) =>
                .ok { handshake with authPluginName := authPluginName }
            else .ok handshake

/-- The greeting from the lower capability bytes on. -/
def parseHandshakeFlags (data : List Byte) (handshake : ServerHandshake)
    (authData : List Byte) (pos : ℤ) : Read ServerHandshake :=
  if pos + 2 > data.length then .ok handshake
  else
    (uintAt 2 data pos).bind fun capLower =>
      if pos + 2 ≥ data.length then
        .ok { handshake with capabilityFlags := capLower, authPluginData := authData }
      else
        (byteAt data (pos + 2)).bind fun characterSet =>
          let handshake := { handshake with characterSet := characterSet }
          if pos + 5 > data.length then .ok handshake
          else
            (uintAt 2 data (pos + 3)).bind fun statusFlags =>
              parseHandshakeTail data { handshake with statusFlags := statusFlags } capLower
                authData (pos + 5)

def parseServerHandshake (packet : Packet) : Read ServerHandshake :=
  let data := packet.payload
  if data.length < 5 then .err .invalidPacket
  else
    (byteAt data 0).bind fun protocolVersion =>
      (readNullTerminated data 1).bind fun (serverVersion, pos) =>
        let handshake : ServerHandshake := { protocolVersion, serverVersion }
        if pos + 4 > data.length then .ok handshake
        else
          (uintAt 4 data pos).bind fun connectionID =>
            let handshake := { handshake with connectionID := connectionID }
            if pos + 12 > data.length then .ok handshake
            else
              (slice data (pos + 4) (pos + 12)).bind fun authData =>
                parseHandshakeFlags data handshake authData (pos + 13)

/-! ## Result sets -/

/-- One length-encoded string of a column definition. -/
def readField (field : ColumnField) (data : List Byte) (pos : ℤ) : Read (List Byte × ℤ) :=
  (sliceFrom data pos).bind fun rest =>
    match readLengthEncodedString rest with
    | ⟨.ok (text, n), makes⟩ => ⟨.ok (text, pos + n), makes⟩
    | ⟨.err cause, makes⟩ => ⟨.err (.reading field cause), makes⟩
    | ⟨.panic fault, makes⟩ => ⟨.panic fault, makes⟩

def parseColumnDefinition (data : List Byte) : Read ColumnDefinition :=
  (readField .catalog data 0).bind fun (catalog, pos) =>
  (readField .schema data pos).bind fun (schema, pos) =>
  (readField .table data pos).bind fun (table, pos) =>
  (readField .orgTable data pos).bind fun (orgTable, pos) =>
  (readField .name data pos).bind fun (name, pos) =>
  (readField .orgName data pos).bind fun (orgName, pos) =>
    if pos ≥ data.length then .err .incomplete
    else if pos + 1 + 12 > data.length then .err .incomplete
    else
      (uintAt 2 data (pos + 1)).bind fun characterSet =>
      (uintAt 4 data (pos + 3)).bind fun columnLength =>
      (byteAt data (pos + 7)).bind fun columnType =>
      (uintAt 2 data (pos + 8)).bind fun flags =>
      (byteAt data (pos + 10)).bind fun decimals =>
        .ok { catalog, schema, table, orgTable, name, orgName, characterSet, columnLength,
              columnType, flags, decimals }

def maxResultSetRows : ℕ := 100

def maxValueSize : ℕ := 64 * 1024

/-- `...[truncated]`. -/
def truncationMarker : List Byte :=
  [46, 46, 46, 91, 116, 114, 117, 110, 99, 97, 116, 101, 100, 93]

def truncateValue (data : List Byte) : List Byte :=
  if data.length > maxValueSize then data.take maxValueSize ++ truncationMarker else data

/-- The loop over the columns of a row, from `column` on. -/
def parseRowValues (data : List Byte) : ℕ → ℕ → ℤ → Read (List Value)
  | 0, _, _ => .ok []
  | count + 1, column, pos =>
    if pos ≥ data.length then .err (.unexpectedEndOfRow column)
    else
      (byteAt data pos).bind fun first =>
        if first = 0xfb then
          (parseRowValues data count (column + 1) (pos + 1)).bind fun values =>
            .ok ({ isNull := true } :: values)
        else
          (sliceFrom data pos).bind fun rest =>
            match readLengthEncodedInt rest with
            | ⟨.err cause, makes⟩ => ⟨.err (.readingRowValueLength column cause), makes⟩
            | ⟨.panic fault, makes⟩ => ⟨.panic fault, makes⟩
            | ⟨.ok (length, n), _⟩ =>
              if remaining data (pos + n) < length then .err (.incompleteRowValue column)
              else
                (slice data (pos + n) (pos + n + wrap64 length)).bind fun valData =>
                  (parseRowValues data count (column + 1)
                    (pos + n + wrap64 length)).bind fun values =>
                    .ok ({ data := truncateValue valData } :: values)

/-- The size of a `Value` in memory. -/
def valueSize : ℕ := 32

def parseResultSetRow (data : List Byte) (columnCount : ℤ) : Read (List Value) :=
  (makeSlice valueSize columnCount).bind fun _ => parseRowValues data columnCount.toNat 0 0

def isError (packet : Packet) : Bool := packet.payload.head? == some errPacket

def isEOF (packet : Packet) : Bool :=
  packet.payload.head? == some eofPacket && decide (packet.payload.length < 9)

def isOKTerminator (packet : Packet) : Bool :=
  decide (packet.payload.length ≥ 9) && packet.payload.head? == some eofPacket

end Qtap.Mysql
