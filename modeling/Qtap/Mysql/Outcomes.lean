import Qtap.Mysql.ResultSet

/-!
# Results that are reported for what they are not

The collection of a result set knows text rows only and one way to end.  The rows of a
prepared statement are read as if they were text, and an error packet in place of a row
or a column definition ends the result set like any other end.
-/

namespace Qtap.Mysql

open List Qtap.Core Qtap.Connection

/-! ## Rows of prepared statements -/

/-- A byte of the NULL bitmap: column `i` has bit `i + 2`. -/
def nullByte (row : List Cell) (index : ℕ) : Byte :=
  UInt8.ofNat ((List.range 8).map fun bit =>
    if 2 ≤ 8 * index + bit ∧ row[8 * index + bit - 2]? = some none then 2 ^ bit else 0).sum

def nullBitmap (row : List Cell) : List Byte :=
  (List.range ((row.length + 7 + 2) / 8)).map (nullByte row)

/-- A row of strings in the binary protocol: a header, the NULL bitmap and the values. -/
def encodeBinaryRow (row : List Cell) : List Byte :=
  0 :: (nullBitmap row ++ row.flatMap fun cell => cell.elim [] lenencString)

/-- What a server sends in response to the execution of a prepared statement. -/
def binaryAnswer (columns : List (ColumnDefinition × List Byte)) (rows : List (List Cell))
    (ending : Ending) : Answer where
  columns := columns
  rows := rows.map encodeBinaryRow
  ending := ending

def executeOne : PendingCommand where
  commandType := comStmtExecute
  query := []
  timestamp := 0
  pluginConn := some 0

def executing : Stream := { handshakeComplete := true, pendingCommands := [executeOne], now := 1 }

/-- One column and the rows `x` and NULL. -/
def executed : Answer :=
  binaryAnswer [(columnA, [0, 0])] [[some [120]], [none]] (.eof [0, 0, 2, 0] [0, 0, 2, 0])

def executedEvent : DataEvent where
  direction := .ingress
  data := (executed.payloads.map fun payload => ⟨0, payload⟩).flatMap buildPacket

theorem answers_executed : Answers clientSide executing executeOne executed [executedEvent] where
  opened := rfl
  idle := rfl
  pending := rfl
  noUnread := rfl
  wellFormed :=
    { columns_ne_nil := cons_ne_nil _ _
      columns := columnA_fits
      rows := by
        intro payload hpayload
        obtain ⟨row, _, rfl⟩ := mem_map.1 hpayload
        refine ⟨⟨0, _, rfl, by decide, by decide⟩, ?_⟩
        revert row
        decide
      ending := ⟨rfl, rfl⟩ }
  responses := by decide
  bytes := ⟨executed.payloads.map fun payload => ⟨0, payload⟩, by decide, by decide⟩

/-- In every phase an error packet ends the result set, which is reported as one; it never
becomes the error that the same packet is as a whole response. -/
theorem error_reported_as_resultSet (state : Correlation) (active : ActiveResultSet)
    (packet : Packet) (hactive : state.active = some active) (herror : isError packet = true) :
    (state.handleResponse packet).active = none ∧
      (∃ bytes, (state.handleResponse packet).outputs =
        state.outputs ++ report active.command (.resultSet active.resultSet) bytes) ∧
      ∀ response bytes, (state.handleResponse packet).outputs ≠
        state.outputs ++ report active.command (.err response) bytes := by
  obtain ⟨tail, hpayload⟩ : ∃ tail, packet.payload = errPacket :: tail := by
    rw [isError, beq_iff_eq] at herror
    exact head?_eq_some_iff.1 herror
  obtain ⟨hnotEOF, hnotOK⟩ := Correlation.isEOF_of_head hpayload (by decide)
  have hnonempty : packet.payload ≠ [] := hpayload ▸ cons_ne_nil _ _
  have hrow (current : ActiveResultSet) :
      state.collectRow current packet = state.finishResultSet current := by
    rw [Correlation.collectRow, hnotEOF, hnotOK, herror]
    rfl
  have hcolumn (current : ActiveResultSet) :
      state.collectColumn current packet = state.finishResultSet current := by
    rw [Correlation.collectColumn, hnotEOF, herror]
    rfl
  have hfinish : ∃ phase bytes, state.handleResponse packet =
      state.finishResultSet { active with phase := phase, bytes := bytes } := by
    rw [Correlation.handleResponse, if_neg hnonempty, hactive]
    simp only [Correlation.processResultSetPacket, hrow, hcolumn, hnotEOF, Bool.false_eq_true,
      if_false]
    cases active.phase with
    | columnDefs | rows => exact ⟨active.phase, _, rfl⟩
    | columnsEOF => exact ⟨.rows, _, rfl⟩
  obtain ⟨_, bytes, hfinish⟩ := hfinish
  rw [hfinish]
  refine ⟨rfl, ⟨bytes, rfl⟩, ?_⟩
  intro response other heq
  have hreport := append_cancel_left heq
  cases hconn : active.command.pluginConn with
  | none | some conn => simp [report, hconn] at hreport

/-- A result set with one column definition, collected for a query. -/
def collectingOne : Correlation :=
  waiting.toCorrelation.collecting .rows (gathered 1 [columnA] []) selectOne 0

/-- Error 1317, without a message. -/
def errorPacket : Packet := ⟨3, [0xff, 0x25, 0x05]⟩

/-- The result that the plugin gets is a result set without an error code. -/
theorem error_lost_in_resultSet :
    isError errorPacket = true ∧
      (collectingOne.handleResponse errorPacket).outputs.filterMap (fun
        | .result _ result _ => some (result.type, result.errorCode)
        | _ => none) = [(.resultSet, 0)] := by
  decide

theorem error_reported_as_resultSet_collectingOne :
    (collectingOne.handleResponse errorPacket).active = none :=
  (error_reported_as_resultSet collectingOne _ errorPacket rfl (by decide)).1

end Qtap.Mysql
