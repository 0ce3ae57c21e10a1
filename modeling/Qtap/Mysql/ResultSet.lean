import Qtap.Mysql.Arrivals
import Qtap.Mysql.Encoding

/-!
# Text result sets

A server answers a query with the column count, the column definitions and the rows,
and ends them with EOF packets or, when the client deprecates EOF, with one OK packet
under the EOF header.  This module follows the collection of such a result set packet
by packet: which phase each packet is read in, and what is reported at the end.
-/

namespace Qtap.Mysql

open List Qtap.Core Qtap.Connection

/-- The packets that close the column definitions and the rows. -/
inductive Ending where
  | eof (afterColumns afterRows : List Byte)
  | ok (affectedRows lastInsertID : ℕ) (statusFlags warnings info : List Byte)
  deriving DecidableEq, Repr

/-- What a server sends in response to a query; each column comes with its filler bytes. -/
structure TextResult where
  columns : List (ColumnDefinition × List Byte)
  rows : List (List Cell)
  ending : Ending
  deriving DecidableEq, Repr

namespace Ending

def eofPayload (fields : List Byte) : List Byte := eofPacket :: fields

def okPayload (affectedRows lastInsertID : ℕ) (statusFlags warnings info : List Byte) :
    List Byte :=
  eofPacket :: (lenencInt affectedRows ++ lenencInt lastInsertID ++ statusFlags ++ warnings ++ info)

/-- The payloads between the column definitions and the rows. -/
def betweenPayloads : Ending → List (List Byte)
  | eof afterColumns _ => [eofPayload afterColumns]
  | ok .. => []

/-- The payload behind the rows. -/
def lastPayload : Ending → List Byte
  | eof _ afterRows => eofPayload afterRows
  | ok affectedRows lastInsertID statusFlags warnings info =>
    okPayload affectedRows lastInsertID statusFlags warnings info

def WellFormed : Ending → Prop
  | eof afterColumns afterRows => afterColumns.length = 4 ∧ afterRows.length = 4
  | ok affectedRows lastInsertID statusFlags warnings info =>
    affectedRows < 2 ^ 64 ∧ lastInsertID < 2 ^ 64 ∧ statusFlags.length = 2 ∧
      warnings.length = 2 ∧
      (okPayload affectedRows lastInsertID statusFlags warnings info).length < 2 ^ 24 - 1

instance (ending : Ending) : Decidable ending.WellFormed := by
  cases ending <;> exact inferInstanceAs (Decidable (_ ∧ _))

end Ending

namespace TextResult

variable (result : TextResult)

def columnPayloads : List (List Byte) :=
  result.columns.map fun (column, filler) => encodeColumn column filler

def payloads : List (List Byte) :=
  lenencInt result.columns.length :: (result.columnPayloads ++ (result.ending.betweenPayloads ++
      (result.rows.map encodeRow ++ [result.ending.lastPayload])))

/-- A result set as a server may send it, each packet below the size that is split. -/
structure WellFormed : Prop where
  columns_ne_nil : result.columns ≠ []
  columns : ∀ column ∈ result.columns, column.1.WellFormed ∧ column.2.length = 2 ∧
    (encodeColumn column.1 column.2).length < 2 ^ 24 - 1
  rows : ∀ row ∈ result.rows, row.length = result.columns.length ∧
    (encodeRow row).length < 2 ^ 24 - 1
  ending : result.ending.WellFormed

/-- The result that the stream is to hand to the plugins. -/
def expected : MySQLResult where
  type := .resultSet
  rowCount := result.rows.length
  columns := result.columns.map fun column => column.1.name
  rows := (result.rows.take maxResultSetRows).map (List.map fun cell => (decodeCell cell).string)
  truncated := decide (result.rows.length > maxResultSetRows)

/-- The last packet is not taken for the one that closes the column definitions. -/
def Distinguishable : Prop :=
  match result.ending with
  | .eof .. => True
  | .ok .. => result.rows ≠ [] ∨ 9 ≤ result.ending.lastPayload.length

end TextResult

/-! ## The phases -/

/-- A payload that is not taken for the packet that ends the rows. -/
def IsRow (payload : List Byte) : Prop :=
  ∃ first tail, payload = first :: tail ∧ first ≠ 0xfe ∧ first ≠ 0xff

/-- A result set with the payloads of its rows, in whatever way these are written. -/
structure Answer where
  columns : List (ColumnDefinition × List Byte)
  rows : List (List Byte)
  ending : Ending
  deriving DecidableEq, Repr

namespace Answer

variable (answer : Answer)

def payloads : List (List Byte) :=
  lenencInt answer.columns.length ::
    ((answer.columns.map fun (column, filler) => encodeColumn column filler) ++
      (answer.ending.betweenPayloads ++ (answer.rows ++ [answer.ending.lastPayload])))

structure WellFormed : Prop where
  columns_ne_nil : answer.columns ≠ []
  columns : ∀ column ∈ answer.columns, column.1.WellFormed ∧ column.2.length = 2 ∧
    (encodeColumn column.1 column.2).length < 2 ^ 24 - 1
  rows : ∀ payload ∈ answer.rows, IsRow payload ∧ payload.length < 2 ^ 24 - 1
  ending : answer.ending.WellFormed

/-- The last packet is not taken for the one that closes the column definitions. -/
def Distinguishable : Prop :=
  match answer.ending with
  | .eof .. => True
  | .ok .. => answer.rows ≠ [] ∨ 9 ≤ answer.ending.lastPayload.length

end Answer

/-- The result set after some columns and rows were collected. -/
def collected (count : ℕ) (columns : List ColumnDefinition) (rows : List (List Cell)) :
    ResultSet where
  columnCount := count
  columns := columns
  rows := (rows.take maxResultSetRows).map (List.map decodeCell)
  rowCount := rows.length

theorem buildPluginResult_collected (result : TextResult) (count : ℕ) :
    buildPluginResult (.resultSet (collected count (result.columns.map Prod.fst) result.rows)) =
      result.expected := by
  simp only [buildPluginResult, collected, TextResult.expected, map_map, length_map,
    length_take, MySQLResult.mk.injEq, true_and, decide_eq_decide]
  refine ⟨rfl, ?_, ?_⟩
  · congr 1
    funext row
    rw [Function.comp_apply, map_map]
    rfl
  · omega

/-- The values of a row as the text protocol writes them. -/
def textRow (count : ℕ) (payload : List Byte) : Option (List Value) :=
  (parseResultSetRow payload (wrap64 count)).value?

/-- The result set after some columns and row packets.  A packet that is no text row is
counted and not stored. -/
def gathered (count : ℕ) (columns : List ColumnDefinition) (payloads : List (List Byte)) :
    ResultSet where
  columnCount := count
  columns := columns
  rows := (payloads.filterMap (textRow count)).take maxResultSetRows
  rowCount := payloads.length

theorem textRow_encodeRow {row : List Cell} (hsmall : (encodeRow row).length < 2 ^ 24 - 1) :
    textRow row.length (encodeRow row) = some (row.map decodeCell) := by
  have hcount := length_le_encodeRow row
  have hwrap : wrap64 row.length = row.length := wrap64_natCast (by omega)
  rw [textRow, hwrap]
  exact Exec.value?_of_ok (parseResultSetRow_encodeRow row (Nat.lt_of_lt_pred hsmall))

variable {count : ℕ} {packet : Packet} {start : Stream} {command : PendingCommand}
  {result : TextResult}

theorem gathered_encodeRow {rows : List (List Cell)}
    (hrows : ∀ row ∈ rows, row.length = count ∧ (encodeRow row).length < 2 ^ 24 - 1)
    (columns : List ColumnDefinition) :
    gathered count columns (rows.map encodeRow) = collected count columns rows := by
  have hvalues : (rows.map encodeRow).filterMap (textRow count) =
      rows.map (List.map decodeCell) := by
    rw [filterMap_map, ← filterMap_eq_map]
    apply filterMap_congr
    intro row hrow
    obtain ⟨rfl, hsmall⟩ := hrows row hrow
    rw [Function.comp_apply, textRow_encodeRow hsmall, Function.comp_apply]
  rw [gathered, collected, hvalues, map_take, length_map]

theorem take_append_toList {A : Type*} (values : List A) (value : Option A) (limit : ℕ) :
    (values ++ value.toList).take limit =
      if (values.take limit).length < limit then values.take limit ++ value.toList
      else values.take limit := by
  have hone : value.toList.length ≤ 1 := by cases value <;> simp
  rw [length_take, take_append]
  split_ifs with hroom
  · rw [take_of_length_le (by omega : value.toList.length ≤ limit - values.length)]
  · rw [Nat.sub_eq_zero_of_le (by omega), take_zero, append_nil]

theorem gathered_append (count : ℕ) (columns : List ColumnDefinition)
    (payloads : List (List Byte)) (payload : List Byte) :
    gathered count columns (payloads ++ [payload]) =
      { gathered count columns payloads with
        rowCount := (gathered count columns payloads).rowCount + 1
        rows := if (gathered count columns payloads).rows.length < maxResultSetRows then
          (gathered count columns payloads).rows ++ (textRow count payload).toList
          else (gathered count columns payloads).rows } := by
  have hrows : (payloads ++ [payload]).filterMap (textRow count) =
      payloads.filterMap (textRow count) ++ (textRow count payload).toList := by
    cases htext : textRow count payload <;> simp [htext]
  simp only [gathered, hrows, take_append_toList, length_append, length_singleton]
  rfl

@[simp]
theorem gathered_rows (count : ℕ) (columns : List ColumnDefinition) (payloads : List (List Byte)) :
    (gathered count columns payloads).rows =
      (payloads.filterMap (textRow count)).take maxResultSetRows := by
  rw [gathered]

/-- The state while a result set is collected. -/
def Correlation.collecting (state : Correlation) (phase : ResultSetPhase) (result : ResultSet)
    (command : PendingCommand) (bytes : ℕ) : Correlation :=
  { state with active := some {
      phase := phase, resultSet := result, command := command, bytes := bytes } }

theorem head_lenencInt_ne_okPacket (hcount : 0 < count) (hsmall : count < 2 ^ 24) :
    ∃ first tail, lenencInt count = first :: tail ∧ first ≠ okPacket ∧ first ≠ errPacket ∧
      first ≠ eofPacket ∧ first ≠ localInfile := by
  obtain ⟨first, tail, hhead, hnull, heof, herr⟩ := head_lenencInt hsmall
  refine ⟨first, tail, hhead, ?_, herr, heof, hnull⟩
  rw [lenencInt] at hhead
  split_ifs at hhead with hone htwo
  · intro hzero
    have hnat := congrArg UInt8.toNat ((List.cons.inj hhead).1.trans hzero)
    rw [UInt8.toNat_ofNat', Nat.mod_eq_of_lt (by omega)] at hnat
    exact absurd hnat (Nat.pos_iff_ne_zero.1 hcount)
  · rw [← (List.cons.inj hhead).1]
    decide
  · rw [← (List.cons.inj hhead).1]
    decide

theorem parseResponse_columnCount (hcount : 0 < count) (hsmall : count < 2 ^ 24)
    (hpacket : packet.payload = lenencInt count) :
    parseResponse packet = .ok (.resultSet { columnCount := count }) := by
  obtain ⟨_, _, hhead, hok, herr, heof, hinfile⟩ :=
    head_lenencInt_ne_okPacket hcount hsmall
  have hread := readLengthEncodedInt_lenencInt count (by omega) []
  rw [append_nil, hhead] at hread
  rw [parseResponse, hpacket, hhead]
  dsimp only
  rw [if_neg hok, if_neg herr, if_neg heof, if_neg hinfile, hread, Exec.bind_ok]

namespace Correlation

variable (state : Correlation) (command : PendingCommand)

theorem handleResponse_columnCount (hcount : 0 < count) (hsmall : count < 2 ^ 24)
    (hpacket : packet.payload = lenencInt count) (hidle : state.active = none)
    {rest : List PendingCommand} (hpending : state.pendingCommands = command :: rest) :
    state.handleResponse packet =
      { state with pendingCommands := rest }.collecting .columnDefs (gathered count [] [])
        command (packet.length + 4) := by
  have hpayload : packet.payload ≠ [] := hpacket ▸ lenencInt_ne_nil count
  have hresponse : (parseResponse packet).outcome = .ok (.resultSet { columnCount := count }) := by
    rw [parseResponse_columnCount hcount hsmall hpacket]
    rfl
  simp only [handleResponse, if_neg hpayload, hidle, hpending, hresponse]
  rfl

/-- While a result set is collected every packet goes to it. -/
theorem handleResponse_collecting (hpayload : packet.payload ≠ []) (phase : ResultSetPhase)
    (result : ResultSet) (bytes : ℕ) :
    (state.collecting phase result command bytes).handleResponse packet =
      (state.collecting phase result command bytes).processResultSetPacket
        { phase := phase, resultSet := result, command := command, bytes := bytes } packet := by
  rw [handleResponse, if_neg hpayload]
  rfl

theorem isEOF_of_head {first : Byte} {tail : List Byte} (hpacket : packet.payload = first :: tail)
    (hfirst : first ≠ 0xfe) : isEOF packet = false ∧ isOKTerminator packet = false := by
  simp [isEOF, isOKTerminator, hpacket, eofPacket, hfirst]

theorem isError_of_head {first : Byte} {tail : List Byte} (hpacket : packet.payload = first :: tail)
    (hfirst : first ≠ 0xff) : isError packet = false := by
  simp [isError, hpacket, errPacket, hfirst]

theorem isRow_encodeColumn {column : ColumnDefinition} {filler : List Byte}
    (hsmall : (encodeColumn column filler).length < 2 ^ 24) :
    IsRow (encodeColumn column filler) := by
  have hcatalog := length_le_lenencString column.catalog
  rw [encodeColumn, length_append] at hsmall
  obtain ⟨first, _, hhead, _, heof, herr⟩ :=
    head_lenencInt (show column.catalog.length < 2 ^ 24 by omega)
  rw [encodeColumn, lenencString, hhead]
  exact ⟨first, _, rfl, heof, herr⟩

/-- A column definition is added; the last one opens the next phase. -/
theorem handleResponse_column {column : ColumnDefinition} {filler : List Byte}
    (hcolumn : column.WellFormed) (hfiller : filler.length = 2)
    (hsmall : (encodeColumn column filler).length < 2 ^ 24 - 1)
    (hpacket : packet.payload = encodeColumn column filler) (count : ℕ)
    (columns : List ColumnDefinition) (bytes : ℕ) :
    ∃ bytes', (state.collecting .columnDefs (gathered count columns []) command
        bytes).handleResponse packet =
      state.collecting (if columns.length + 1 ≥ count then .columnsEOF else .columnDefs)
        (gathered count (columns ++ [column]) []) command bytes' := by
  obtain ⟨_, _, hhead, heof, herr⟩ :=
    isRow_encodeColumn (Nat.lt_of_lt_pred hsmall)
  have hnonempty : packet.payload ≠ [] := by
    rw [hpacket, hhead]
    exact cons_ne_nil _ _
  have hparse : (parseColumnDefinition packet.payload).outcome = .ok column := by
    rw [hpacket, parseColumnDefinition_encodeColumn column hcolumn filler (by omega)
      (Nat.lt_of_lt_pred hsmall)]
    rfl
  refine ⟨bytes + (packet.length + 4), ?_⟩
  rw [handleResponse_collecting _ _ hnonempty, processResultSetPacket, collectColumn]
  simp only [(isEOF_of_head (hpacket.trans hhead) heof).1,
    isError_of_head (hpacket.trans hhead) herr, hparse, gathered, length_append,
    length_singleton, Bool.false_eq_true, if_false]
  split_ifs <;> rfl

theorem isRow_encodeRow {row : List Cell} (hrow : row ≠ [])
    (hsmall : (encodeRow row).length < 2 ^ 24) : IsRow (encodeRow row) := by
  obtain ⟨_, _, rfl⟩ := exists_cons_of_ne_nil hrow
  rw [encodeRow, flatMap_cons] at hsmall ⊢
  rw [length_append] at hsmall
  obtain ⟨first, _, hhead, heof, herr⟩ :=
    head_encodeCell (lt_of_le_of_lt (Nat.le_add_right _ _) hsmall)
  rw [hhead]
  exact ⟨first, _, rfl, heof, herr⟩

theorem collectRow_of_last (active : ActiveResultSet)
    (hlast : (isEOF packet || isOKTerminator packet) = true) :
    state.collectRow active packet = state.finishResultSet active := by
  rw [collectRow, hlast]
  rfl

/-- A row packet is counted, and stored as long as there is room and it is a text row. -/
theorem collectRow_row (hrow : IsRow packet.payload) {count : ℕ} {columns : List ColumnDefinition}
    {payloads : List (List Byte)} {phase : ResultSetPhase} {result : ResultSet} {bytes bytes' : ℕ} :
    (state.collecting phase result command bytes).collectRow
        { phase := .rows, resultSet := gathered count columns payloads, command := command,
          bytes := bytes' } packet =
      state.collecting .rows (gathered count columns (payloads ++ [packet.payload])) command
        bytes' := by
  obtain ⟨_, _, hhead, heof, herr⟩ := hrow
  obtain ⟨hnotEOF, hnotOK⟩ := isEOF_of_head hhead heof
  have hcount : (gathered count columns payloads).columnCount = count := rfl
  rw [gathered_append, collectRow]
  simp only [hnotEOF, hnotOK, isError_of_head hhead herr, Bool.or_false, Bool.false_eq_true,
    if_false, hcount, textRow]
  generalize parseResultSetRow packet.payload (wrap64 count) = exec
  generalize gathered count columns payloads = result
  split_ifs with hroom
  · rw [Exec.value?]
    cases exec.outcome with
    | ok => rfl
    | err error | panic fault =>
      rw [Option.toList_none, append_nil]
      rfl
  · rfl

variable {phase : ResultSetPhase}

/-- In the last two phases a row leads to the last phase. -/
theorem handleResponse_row (hrow : IsRow packet.payload) (hphase : phase ≠ .columnDefs) (count : ℕ)
    (columns : List ColumnDefinition) (payloads : List (List Byte)) (bytes : ℕ) :
    ∃ bytes', (state.collecting phase (gathered count columns payloads) command
        bytes).handleResponse packet =
      state.collecting .rows (gathered count columns (payloads ++ [packet.payload])) command
        bytes' := by
  obtain ⟨_, _, hhead, heof, _⟩ := id hrow
  have hnonempty : packet.payload ≠ [] := hhead ▸ cons_ne_nil _ _
  rw [handleResponse_collecting _ _ hnonempty, processResultSetPacket]
  cases phase with
  | columnDefs => exact absurd rfl hphase
  | columnsEOF =>
    simp only [(isEOF_of_head hhead heof).1, Bool.false_eq_true, if_false]
    exact ⟨_, collectRow_row state command hrow⟩
  | rows => exact ⟨_, collectRow_row state command hrow⟩

/-- The EOF packet behind the column definitions. -/
theorem handleResponse_columnsEOF {fields : List Byte}
    (hpacket : packet.payload = Ending.eofPayload fields) (hshort : fields.length = 4)
    (result : ResultSet) (bytes : ℕ) :
    ∃ bytes', (state.collecting .columnsEOF result command bytes).handleResponse packet =
      state.collecting .rows result command bytes' := by
  have hnonempty : packet.payload ≠ [] := hpacket ▸ cons_ne_nil _ _
  have heof : isEOF packet = true := by
    simp [isEOF, hpacket, Ending.eofPayload, hshort]
  rw [handleResponse_collecting _ _ hnonempty, processResultSetPacket]
  simp only [heof, if_true]
  exact ⟨_, rfl⟩

/-- The last packet ends the collection. -/
theorem handleResponse_last {fields : List Byte}
    (hpacket : packet.payload = Ending.eofPayload fields)
    (hphase : phase = .rows ∨ phase = .columnsEOF ∧ 9 ≤ packet.payload.length) (result : ResultSet)
    (bytes : ℕ) :
    ∃ bytes', (state.collecting phase result command bytes).handleResponse packet =
      { state with
        active := none
        outputs := state.outputs ++ report command (.resultSet result) bytes' } := by
  have hnonempty : packet.payload ≠ [] := hpacket ▸ cons_ne_nil _ _
  have hlast : (isEOF packet || isOKTerminator packet) = true := by
    have hhead : packet.payload.head? = some eofPacket := hpacket ▸ rfl
    rcases Nat.lt_or_ge packet.payload.length 9 with hshort | hlong
    · simp [isEOF, hhead, hshort]
    · simp [isOKTerminator, hhead, hlong]
  rw [handleResponse_collecting _ _ hnonempty, processResultSetPacket]
  rcases hphase with rfl | ⟨rfl, hlong⟩
  · exact ⟨_, collectRow_of_last _ _ hlast⟩
  · have hnotEOF : isEOF packet = false := by
      simp [isEOF, Nat.not_lt.2 hlong]
    simp only [hnotEOF, Bool.false_eq_true, if_false]
    exact ⟨_, collectRow_of_last _ _ hlast⟩

/-! ## A whole result set -/

/-- The stream handles response packets one after another. -/
def handleResponses (packets : List Packet) : Correlation :=
  packets.foldl (fun state packet => state.handleResponse packet) state

theorem handleResponses_cons (packet : Packet) (packets : List Packet) :
    state.handleResponses (packet :: packets) =
      (state.handleResponse packet).handleResponses packets := rfl

theorem handleResponses_append (first second : List Packet) :
    state.handleResponses (first ++ second) =
      (state.handleResponses first).handleResponses second :=
  foldl_append

theorem handleResponses_columns (count : ℕ) (definitions : List (ColumnDefinition × List Byte))
    (packets : List Packet) (hpackets : packets.map Packet.payload =
      definitions.map fun (column, filler) => encodeColumn column filler)
    (hdefinitions : ∀ column ∈ definitions, column.1.WellFormed ∧ column.2.length = 2 ∧
      (encodeColumn column.1 column.2).length < 2 ^ 24 - 1) (hnonempty : definitions ≠ [])
    (columns : List ColumnDefinition) (hcount : columns.length + definitions.length = count)
    (bytes : ℕ) :
    ∃ bytes', (state.collecting .columnDefs (gathered count columns []) command
        bytes).handleResponses packets =
      state.collecting .columnsEOF
        (gathered count (columns ++ definitions.map Prod.fst) []) command bytes' := by
  induction definitions generalizing packets columns bytes with
  | nil => exact absurd rfl hnonempty
  | cons definition definitions ih =>
    rw [map_cons, map_eq_cons_iff] at hpackets
    obtain ⟨_, packets, rfl, hpacket, hpackets⟩ := hpackets
    rw [forall_mem_cons] at hdefinitions
    obtain ⟨⟨hcolumn, hfiller, hsmall⟩, hrest⟩ := hdefinitions
    obtain ⟨bytes', hstep⟩ := handleResponse_column state command hcolumn hfiller hsmall hpacket
      count columns bytes
    rw [handleResponses_cons, hstep]
    rw [length_cons] at hcount
    by_cases hlast : definitions = []
    · subst hlast
      rw [map_nil, map_eq_nil_iff] at hpackets
      rw [if_pos (by simp at hcount; omega), hpackets]
      exact ⟨bytes', rfl⟩
    · have hmore := length_pos_of_ne_nil hlast
      rw [if_neg (by omega)]
      obtain ⟨bytes'', hfinal⟩ := ih packets hpackets hrest hlast (columns ++ [definition.1])
        (by rw [length_append, length_singleton]; omega) bytes'
      rw [append_assoc] at hfinal
      exact ⟨bytes'', hfinal⟩

theorem handleResponses_rows (count : ℕ) (packets : List Packet)
    (hrows : ∀ packet ∈ packets, IsRow packet.payload) (hphase : phase ≠ .columnDefs)
    (columns : List ColumnDefinition) (done : List (List Byte)) (bytes : ℕ) :
    ∃ bytes', (state.collecting phase (gathered count columns done) command
        bytes).handleResponses packets =
      state.collecting (if packets = [] then phase else .rows)
        (gathered count columns (done ++ packets.map Packet.payload)) command bytes' := by
  induction packets generalizing phase done bytes with
  | nil =>
    rw [map_nil, append_nil]
    exact ⟨bytes, rfl⟩
  | cons packet packets ih =>
    rw [forall_mem_cons] at hrows
    obtain ⟨bytes', hstep⟩ := handleResponse_row state command hrows.1 hphase count columns
      done bytes
    obtain ⟨bytes'', hfinal⟩ := ih hrows.2 (show ResultSetPhase.rows ≠ .columnDefs by decide)
      (done ++ [packet.payload]) bytes'
    rw [ite_self, append_assoc] at hfinal
    rw [handleResponses_cons, hstep]
    exact ⟨bytes'', hfinal⟩

/-- Between the columns and the rows the stream waits for rows or knows they come. -/
theorem handleResponses_between (ending : Ending) (hending : ending.WellFormed)
    (packets : List Packet) (hpackets : packets.map Packet.payload = ending.betweenPayloads)
    (result : ResultSet) (bytes : ℕ) :
    ∃ phase bytes', (state.collecting .columnsEOF result command bytes).handleResponses packets =
        state.collecting phase result command bytes' ∧ phase ≠ .columnDefs ∧
      (phase = .rows ∨ packets = [] ∧ phase = .columnsEOF) := by
  cases ending with
  | eof =>
    rw [Ending.betweenPayloads, map_eq_singleton_iff] at hpackets
    obtain ⟨_, rfl, hpacket⟩ := hpackets
    obtain ⟨bytes', hstep⟩ :=
      handleResponse_columnsEOF state command hpacket hending.1 result bytes
    exact ⟨.rows, bytes', hstep, by decide, .inl rfl⟩
  | ok =>
    rw [Ending.betweenPayloads, map_eq_nil_iff] at hpackets
    rw [hpackets]
    exact ⟨.columnsEOF, bytes, rfl, by decide, .inr ⟨rfl, rfl⟩⟩

theorem lastPayload_eq_eofPayload (ending : Ending) :
    ∃ fields, ending.lastPayload = Ending.eofPayload fields := by
  cases ending with
  | eof afterColumns afterRows => exact ⟨afterRows, rfl⟩
  | ok => exact ⟨_, rfl⟩

/-- The packets of a result set are collected and reported once, at the last of them. -/
theorem handleResponses_answer (answer : Answer) (hanswer : answer.WellFormed)
    (hcount : answer.columns.length < 2 ^ 24) (hdistinguishable : answer.Distinguishable)
    (packets : List Packet) (hpackets : packets.map Packet.payload = answer.payloads)
    (hidle : state.active = none) {rest : List PendingCommand}
    (hpending : state.pendingCommands = command :: rest) :
    ∃ bytes, state.handleResponses packets =
      { state with
        pendingCommands := rest
        active := none
        outputs := state.outputs ++ report command
          (.resultSet (gathered answer.columns.length (answer.columns.map Prod.fst)
            answer.rows)) bytes } := by
  have hpositive := length_pos_of_ne_nil hanswer.columns_ne_nil
  rw [Answer.payloads, map_eq_cons_iff] at hpackets
  obtain ⟨header, packets, rfl, hheader, hpackets⟩ := hpackets
  rw [map_eq_append_iff] at hpackets
  obtain ⟨columns, packets, rfl, hcolumns, hpackets⟩ := hpackets
  rw [map_eq_append_iff] at hpackets
  obtain ⟨between, packets, rfl, hbetween, hpackets⟩ := hpackets
  rw [map_eq_append_iff] at hpackets
  obtain ⟨rows, _, rfl, hrows, hpackets⟩ := hpackets
  rw [map_eq_singleton_iff] at hpackets
  obtain ⟨_, rfl, hlast⟩ := hpackets
  rw [handleResponses_cons,
    handleResponse_columnCount state command hpositive hcount hheader hidle hpending,
    handleResponses_append, handleResponses_append, handleResponses_append]
  obtain ⟨bytes₁, hafterColumns⟩ := handleResponses_columns { state with pendingCommands := rest }
    command answer.columns.length answer.columns columns hcolumns hanswer.columns
    hanswer.columns_ne_nil [] (Nat.zero_add _) (header.length + 4)
  obtain ⟨_, bytes₂, hafterBetween, hphase, hwhich⟩ :=
    handleResponses_between { state with pendingCommands := rest } command answer.ending
      hanswer.ending between hbetween
      (gathered answer.columns.length ([] ++ answer.columns.map Prod.fst) []) bytes₁
  have hisRow : ∀ packet ∈ rows, IsRow packet.payload := by
    intro packet hpacket
    exact (hanswer.rows _ (hrows ▸ mem_map_of_mem hpacket)).1
  obtain ⟨_, hafterRows⟩ := handleResponses_rows { state with pendingCommands := rest }
    command answer.columns.length rows hisRow hphase ([] ++ answer.columns.map Prod.fst) [] bytes₂
  rw [hafterColumns, hafterBetween, hafterRows, hrows]
  obtain ⟨_, hfields⟩ := lastPayload_eq_eofPayload answer.ending
  apply handleResponse_last _ _ (hlast.trans hfields)
  split_ifs with hempty
  · rcases hwhich with hrowsPhase | ⟨hnone, hcolumnsPhase⟩
    · exact .inl hrowsPhase
    · refine .inr ⟨hcolumnsPhase, ?_⟩
      rw [hlast]
      rw [Answer.Distinguishable] at hdistinguishable
      cases hending : answer.ending with
      | eof => simp [hnone, hending, Ending.betweenPayloads] at hbetween
      | ok =>
        rw [hending, ← hrows, hempty] at hdistinguishable
        exact hdistinguishable.resolve_left (absurd rfl)
  · exact .inl rfl

end Correlation

/-! ## Result sets over any cut into events -/

/-- A result set that a server sends to an idle stream with one query pending, cut into
events in any way. -/
structure Delivery (env : Env) (start : Stream) (command : PendingCommand) (result : TextResult)
    (events : List DataEvent) : Prop where
  opened : start.closed = false
  idle : start.active = none
  pending : start.pendingCommands = [command]
  query : command.commandType = comQuery
  noUnread : start.unread.response = []
  wellFormed : result.WellFormed
  responses : ∀ event ∈ events, isResponse env.source event.direction
  bytes : ∃ packets : List Packet, packets.map Packet.payload = result.payloads ∧
    bytesFrom env .server events = packets.flatMap buildPacket

/-- The stream is idle again and has reported exactly the result. -/
def Reported (start : Stream) (command : PendingCommand) (result : TextResult)
    (final : Stream) : Prop :=
  final.active = none ∧ ∃ set writeBytes,
    final.outputs = start.outputs ++ report command (.resultSet set) writeBytes ∧
      buildPluginResult (.resultSet set) = result.expected

/-- A result set in answer to the one command that waits, cut into events in any way. -/
structure Answers (env : Env) (start : Stream) (command : PendingCommand) (answer : Answer)
    (events : List DataEvent) : Prop where
  opened : start.closed = false
  idle : start.active = none
  pending : start.pendingCommands = [command]
  noUnread : start.unread.response = []
  wellFormed : answer.WellFormed
  responses : ∀ event ∈ events, isResponse env.source event.direction
  bytes : ∃ packets : List Packet, packets.map Packet.payload = answer.payloads ∧
    bytesFrom env .server events = packets.flatMap buildPacket

theorem Ending.WellFormed.payloads_fit {ending : Ending} (hending : ending.WellFormed) :
    (∀ payload ∈ ending.betweenPayloads, payload.length < 2 ^ 24) ∧
      ending.lastPayload.length < 2 ^ 24 := by
  cases ending with
  | eof =>
    simp [Ending.betweenPayloads, Ending.lastPayload, Ending.eofPayload, hending.1, hending.2]
  | ok => exact ⟨nofun, Nat.lt_of_lt_pred hending.2.2.2.2⟩

theorem Answer.WellFormed.payloads_fit {answer : Answer} (hanswer : answer.WellFormed) :
    ∀ payload ∈ answer.payloads, payload.length < 2 ^ 24 := by
  obtain ⟨hbetween, hlast⟩ := hanswer.ending.payloads_fit
  intro payload hpayload
  simp only [Answer.payloads, mem_cons, mem_append, mem_map, not_mem_nil, or_false] at hpayload
  rcases hpayload with rfl | ⟨column, hcolumn, rfl⟩ | hpayload | hrow | rfl
  · exact lt_of_le_of_lt (length_lenencInt_le _) (by norm_num)
  · exact Nat.lt_of_lt_pred (hanswer.columns column hcolumn).2.2
  · exact hbetween payload hpayload
  · exact Nat.lt_of_lt_pred (hanswer.rows payload hrow).2
  · exact hlast

/-- However a result set is cut into events that the buffer has room for, it is reported
once, with its rows read as text. -/
theorem Answers.reported {env : Env} {answer : Answer} {events : List DataEvent}
    (hanswers : Answers env start command answer events) (hbuffer : start.unread.fitsAll env events)
    (hcount : answer.columns.length < 2 ^ 24) (hdistinguishable : answer.Distinguishable) :
    (start.run env events).active = none ∧ ∃ writeBytes,
      (start.run env events).outputs = start.outputs ++ report command
        (.resultSet (gathered answer.columns.length (answer.columns.map Prod.fst) answer.rows))
        writeBytes := by
  obtain ⟨packets, hpackets, hbytes⟩ := hanswers.bytes
  have hempty : start.unread.of .server = [] := hanswers.noUnread
  have hsent : sentBy .server (start.unread.arrivals env events) = packets := by
    rw [sentBy_arrivals env .server events _ (hempty ▸ packetFramer.next_nil), hempty,
      nil_append, hbytes, packetFramer_encodes.drain_flatMap packets]
    intro packet hpacket
    exact hanswers.wellFormed.payloads_fit _ (hpackets ▸ mem_map_of_mem hpacket)
  obtain ⟨writeBytes, hfinal⟩ := Correlation.handleResponses_answer start.toCorrelation command
    answer hanswers.wellFormed hcount hdistinguishable packets hpackets hanswers.idle
    hanswers.pending
  have hflows : ∀ event ∈ events, flows env .server event := hanswers.responses
  have hrun : (start.run env events).toCorrelation =
      start.toCorrelation.handleResponses packets := by
    rw [Stream.run_eq_foldl_arrivals env events start hanswers.opened hbuffer,
      arrivals_of_flows hflows, hsent,
      Stream.foldl_arrivalsFrom_server]
    rfl
  rw [hrun, hfinal]
  exact ⟨rfl, writeBytes, rfl⟩

/-! ## Text rows -/

def TextResult.answer (result : TextResult) : Answer where
  columns := result.columns
  rows := result.rows.map encodeRow
  ending := result.ending

theorem Delivery.answers {env : Env} {events : List DataEvent}
    (hdelivery : Delivery env start command result events) :
    Answers env start command result.answer events where
  opened := hdelivery.opened
  idle := hdelivery.idle
  pending := hdelivery.pending
  noUnread := hdelivery.noUnread
  wellFormed :=
    { columns_ne_nil := hdelivery.wellFormed.columns_ne_nil
      columns := hdelivery.wellFormed.columns
      rows := by
        intro payload hpayload
        obtain ⟨row, hrow, rfl⟩ := mem_map.1 hpayload
        obtain ⟨hlength, hsmall⟩ := hdelivery.wellFormed.rows row hrow
        have hsome : row ≠ [] := by
          apply ne_nil_of_length_pos
          rw [hlength]
          exact length_pos_of_ne_nil hdelivery.wellFormed.columns_ne_nil
        exact ⟨Correlation.isRow_encodeRow hsome (Nat.lt_of_lt_pred hsmall), hsmall⟩
      ending := hdelivery.wellFormed.ending }
  responses := hdelivery.responses
  bytes := hdelivery.bytes

theorem TextResult.Distinguishable.answer (hdistinguishable : result.Distinguishable) :
    result.answer.Distinguishable := by
  rw [TextResult.Distinguishable] at hdistinguishable
  rw [TextResult.answer]
  cases hending : result.ending with
  | eof => trivial
  | ok =>
    rw [hending] at hdistinguishable
    exact hdistinguishable.imp_left fun hrows => mt map_eq_nil_iff.1 hrows

/-- However a result set is cut into events, it is reported once and as a whole, provided
the buffer has room, the column count is not taken for a packet header, and the packet
behind an empty list of rows is not taken for the one behind the columns. -/
theorem text_resultSet_reported (env : Env) (start : Stream) (command : PendingCommand)
    (result : TextResult) (events : List DataEvent)
    (hdelivery : Delivery env start command result events)
    (hbuffer : start.unread.fitsAll env events) (hcount : result.columns.length < 2 ^ 24)
    (hdistinguishable : result.Distinguishable) :
    Reported start command result (start.run env events) := by
  obtain ⟨hidle, writeBytes, houtputs⟩ :=
    hdelivery.answers.reported hbuffer hcount hdistinguishable.answer
  refine ⟨hidle, _, writeBytes, houtputs, ?_⟩
  rw [TextResult.answer, gathered_encodeRow hdelivery.wellFormed.rows]
  exact buildPluginResult_collected result result.columns.length

/-! ## Result sets on an established connection -/

def selectOne : PendingCommand where
  commandType := comQuery
  query := [83]
  timestamp := 0
  pluginConn := some 0

/-- A stream that waits for the response to a query. -/
def waiting : Stream := { handshakeComplete := true, pendingCommands := [selectOne], now := 1 }

def columnA : ColumnDefinition where
  catalog := [100, 101, 102]
  schema := []
  table := []
  orgTable := []
  name := [97]
  orgName := []
  characterSet := 63
  columnLength := 1
  columnType := 253
  flags := 0
  decimals := 0

theorem columnA_fits : ∀ column ∈ [(columnA, ([0, 0] : List Byte))], column.1.WellFormed ∧
    column.2.length = 2 ∧ (encodeColumn column.1 column.2).length < 2 ^ 24 - 1 :=
  forall_mem_singleton.2 ⟨⟨by decide, by decide, by decide⟩, by decide, by decide⟩

/-- A value, a NULL and the short OK packet. -/
def twoRows : TextResult where
  columns := [(columnA, [0, 0])]
  rows := [[some [120]], [none]]
  ending := .ok 0 0 [2, 0] [0, 0] []

def twoRowsPackets : List Packet :=
  [⟨1, [1]⟩, ⟨2, encodeColumn columnA [0, 0]⟩, ⟨3, [1, 120]⟩, ⟨4, [251]⟩,
    ⟨5, [254, 0, 0, 2, 0, 0, 0]⟩]

theorem text_resultSet_reported_two_rows :
    Reported waiting selectOne twoRows (waiting.run clientSide
      [⟨.ingress, (twoRowsPackets.flatMap buildPacket).take 11⟩,
        ⟨.ingress, (twoRowsPackets.flatMap buildPacket).drop 11⟩]) :=
  text_resultSet_reported clientSide waiting selectOne twoRows _ ⟨rfl, rfl, rfl, rfl, rfl,
      ⟨by decide, columnA_fits, by decide, by decide⟩,
      by decide, twoRowsPackets, by decide, by decide⟩
    (by decide) (by decide) (.inl (by decide))

theorem not_reported_of_outputs {final : Stream} (houtputs : final.outputs = start.outputs) :
    ¬ Reported start command result final := by
  rintro ⟨_, _, _, hreport, _⟩
  rw [houtputs, report] at hreport
  cases hconn : command.pluginConn <;> simp [hconn] at hreport

theorem outputs_run_overflow (env : Env) (stream : Stream) (event : DataEvent)
    (hresponse : isResponse env.source event.direction)
    (hoverflow : maxBufferSize < event.data.length) :
    (stream.run env [event]).outputs = stream.outputs :=
  congrArg Correlation.outputs (stream.toCorrelation_process_overflow env event hresponse hoverflow)

/-- Two rows of one value each. -/
def wideResult (text : List Byte) : TextResult where
  columns := [(columnA, [0, 0])]
  rows := [[some text], [some text]]
  ending := .eof [0, 0, 2, 0] [0, 0, 2, 0]

def wideEvent (text : List Byte) : DataEvent where
  direction := .ingress
  data := ((wideResult text).payloads.map fun payload => ⟨0, payload⟩).flatMap buildPacket

theorem delivery_wideEvent {text : List Byte} (htext : text.length < 2 ^ 24 - 10) :
    Delivery clientSide waiting selectOne (wideResult text) [wideEvent text] where
  opened := rfl
  idle := rfl
  pending := rfl
  query := rfl
  noUnread := rfl
  wellFormed :=
    { columns_ne_nil := cons_ne_nil _ _
      columns := columnA_fits
      rows := by
        have hheader := length_lenencInt_le text.length
        intro row hrow
        rw [wideResult, mem_cons, mem_singleton, or_self] at hrow
        rw [hrow, encodeRow, flatMap_singleton, encodeCell, lenencString, length_append]
        exact ⟨rfl, by omega⟩
      ending := ⟨rfl, rfl⟩ }
  responses := by simp [wideEvent, clientSide, isResponse]
  bytes := by
    refine ⟨_, ?_, append_nil _⟩
    rw [map_map]
    exact map_id _

theorem length_wideEvent_data {text : List Byte} (htext : 2 ^ 23 ≤ text.length) :
    maxBufferSize < (wideEvent text).data.length := by
  have hrow : text.length ≤ (encodeRow [some text]).length := by
    rw [encodeRow, flatMap_singleton]
    exact length_le_lenencString text
  simp only [wideEvent, wideResult, TextResult.payloads, TextResult.columnPayloads,
    Ending.betweenPayloads, map_cons, map_nil, map_append, flatMap_append,
    flatMap_cons, flatMap_nil, length_append, length_nil, length_buildPacket,
    maxBufferSize]
  omega

/-- No rows, and the seven-byte OK packet that closes them. -/
def noRows : TextResult where
  columns := [(columnA, [0, 0])]
  rows := []
  ending := .ok 0 0 [2, 0] [0, 0] []

def noRowsEvent : DataEvent where
  direction := .ingress
  data := ([⟨1, [1]⟩, ⟨2, encodeColumn columnA [0, 0]⟩,
    ⟨3, [254, 0, 0, 2, 0, 0, 0]⟩] : List Packet).flatMap buildPacket

/-- An event beyond the buffer's limit is dropped, and a short OK packet behind no rows is
taken for the end of the column definitions: in both cases no result is reported. -/
theorem text_resultSet_not_reported :
    (Delivery clientSide waiting selectOne (wideResult (List.replicate (2 ^ 23) 120))
        [wideEvent (List.replicate (2 ^ 23) 120)] ∧
      ¬ Reported waiting selectOne (wideResult (List.replicate (2 ^ 23) 120))
        (waiting.run clientSide [wideEvent (List.replicate (2 ^ 23) 120)])) ∧
    (Delivery clientSide waiting selectOne noRows [noRowsEvent] ∧
      ¬ Reported waiting selectOne noRows (waiting.run clientSide [noRowsEvent])) := by
  refine ⟨⟨?_, ?_⟩, ?_, ?_⟩
  · apply delivery_wideEvent
    norm_num
  · apply not_reported_of_outputs
    apply outputs_run_overflow clientSide waiting _ rfl
    apply length_wideEvent_data
    rw [length_replicate]
  · exact ⟨rfl, rfl, rfl, rfl, rfl, ⟨cons_ne_nil _ _, columnA_fits, by decide, by decide⟩,
      by decide, [⟨1, [1]⟩, ⟨2, encodeColumn columnA [0, 0]⟩, ⟨3, [254, 0, 0, 2, 0, 0, 0]⟩],
      by decide, by decide⟩
  · apply not_reported_of_outputs
    decide

end Qtap.Mysql
