import Qtap.Core.Position
import Qtap.Mysql.Payload

/-!
# Payloads as a server writes them

The encoders of the MySQL protocol for length-encoded values, column definitions and
text rows, and the facts that the readers of the stream give back what was written.
A reader stands at a position of the payload; what it reads is described by the rest of
the payload from there.
-/

namespace Qtap.Mysql

open List Qtap.Core Exec

/-! ## Positions -/

variable {data rest : List Byte} {pos value : ℕ}

theorem sliceFrom_at (hdata : data.drop pos = rest) (hpos : pos ≤ data.length) :
    sliceFrom data pos = .ok rest := by
  rw [sliceFrom, slice_suffix hpos, hdata]

theorem uintAt_at {piece : List Byte} {width : ℕ} (hdata : data.drop pos = piece ++ rest)
    (hwidth : width = piece.length) (hpos : pos + width ≤ data.length) :
    uintAt width data pos = .ok (leValue piece) := by
  have hslice : (slice data pos (pos + width) : Read (List Byte)) = .ok piece := by
    have := slice_at (E := ParserError) (pos + width) hdata (by rw [hwidth]) hpos
    exact_mod_cast this
  rw [uintAt, hslice, bind_ok]

theorem byteAt_at {first : Byte} (hdata : data.drop pos = first :: rest) :
    byteAt data pos = .ok first := by
  have hget : data[pos]? = some first := by
    rw [← List.head?_drop, hdata, List.head?_cons]
  rw [byteAt, if_pos (Int.natCast_nonneg pos), Int.toNat_natCast, hget]

theorem remaining_eq (hpos : pos ≤ data.length) (hdata : data.length < 2 ^ 63) :
    remaining data pos = data.length - pos := by
  rw [remaining]
  omega

/-! ## Length-encoded values -/

def lenencInt (value : ℕ) : List Byte :=
  if value < 251 then [UInt8.ofNat value]
  else if value < 2 ^ 16 then 0xfc :: leBytes 2 value
  else if value < 2 ^ 24 then 0xfd :: leBytes 3 value
  else 0xfe :: leBytes 8 value

def lenencString (text : List Byte) : List Byte := lenencInt text.length ++ text

theorem lenencInt_ne_nil (value : ℕ) : lenencInt value ≠ [] := by
  rw [lenencInt]
  split_ifs <;> exact cons_ne_nil _ _

theorem length_lenencInt_le (value : ℕ) : (lenencInt value).length ≤ 9 := by
  rw [lenencInt]
  split_ifs <;> simp

theorem ofNat_ne_of_lt {byte : Byte} (hvalue : value < byte.toNat) : UInt8.ofNat value ≠ byte := by
  intro heq
  have hnat := congrArg UInt8.toNat heq
  rw [UInt8.toNat_ofNat'] at hnat
  omega

theorem uintAt_leBytes (header : Byte) (width value : ℕ) (hvalue : value < 256 ^ width)
    (rest : List Byte) : uintAt width (header :: (leBytes width value ++ rest)) 1 = .ok value := by
  have hdata : (header :: (leBytes width value ++ rest)).drop 1 = leBytes width value ++ rest := rfl
  have hread := uintAt_at hdata (length_leBytes width value).symm (by
    simp only [length_cons, length_append, length_leBytes]
    omega)
  rw [leValue_leBytes width value hvalue] at hread
  exact_mod_cast hread

theorem readLengthEncodedInt_lenencInt (value : ℕ) (hvalue : value < 2 ^ 64) (rest : List Byte) :
    readLengthEncodedInt (lenencInt value ++ rest) =
      .ok (value, ((lenencInt value).length : ℤ)) := by
  have hlong (header : Byte) (width total : ℕ) (htotal : total = width + 1) :
      ¬ (header :: (leBytes width value ++ rest)).length < total := by
    simp only [length_cons, length_append, length_leBytes]
    omega
  rw [lenencInt]
  split_ifs with hone htwo hthree
  · have hnat : (UInt8.ofNat value).toNat = value := by
      rw [UInt8.toNat_ofNat', Nat.mod_eq_of_lt (by omega)]
    rw [singleton_append, readLengthEncodedInt, if_neg (ofNat_ne_of_lt hone),
      if_neg (ofNat_ne_of_lt (lt_trans hone (by decide))),
      if_neg (ofNat_ne_of_lt (lt_trans hone (by decide))),
      if_neg (ofNat_ne_of_lt (lt_trans hone (by decide))), hnat]
    rfl
  · have hread := uintAt_leBytes 0xfc 2 value (by omega) rest
    rw [cons_append, readLengthEncodedInt, if_pos rfl, if_neg (hlong 0xfc 2 3 rfl), hread, bind_ok]
    simp
  · have hread := uintAt_leBytes 0xfd 3 value (by omega) rest
    rw [cons_append, readLengthEncodedInt, hread]
    simp
  · have hread := uintAt_leBytes 0xfe 8 value (by omega) rest
    rw [cons_append, readLengthEncodedInt, hread]
    simp

/-- Values below `2 ^ 24` never start like an EOF, ERR or NULL marker. -/
theorem head_lenencInt (hvalue : value < 2 ^ 24) :
    ∃ first tail, lenencInt value = first :: tail ∧ first ≠ 0xfb ∧ first ≠ 0xfe ∧
      first ≠ 0xff := by
  rw [lenencInt]
  split_ifs with hone htwo
  · exact ⟨_, _, rfl, ofNat_ne_of_lt hone, ofNat_ne_of_lt (lt_trans hone (by decide)),
      ofNat_ne_of_lt (lt_trans hone (by decide))⟩
  · exact ⟨_, _, rfl, by decide, by decide, by decide⟩
  · exact ⟨_, _, rfl, by decide, by decide, by decide⟩

theorem readLengthEncodedString_lenencString (text rest : List Byte)
    (htext : text.length < 2 ^ 24) (hrest : rest.length < 2 ^ 24) :
    readLengthEncodedString (lenencString text ++ rest) =
      .ok (text, ((lenencString text).length : ℤ)) := by
  obtain ⟨_, _, hhead, hnull, _⟩ := head_lenencInt htext
  have hsize := length_lenencInt_le text.length
  have hlength : (lenencString text ++ rest).length =
      (lenencInt text.length).length + text.length + rest.length := by
    rw [lenencString, length_append, length_append]
  have hnonempty : lenencString text ++ rest ≠ [] := by
    rw [lenencString, hhead]
    exact cons_ne_nil _ _
  have hfirst : (lenencString text ++ rest).head? ≠ some 0xfb := by
    rw [lenencString, hhead]
    simpa using hnull
  have hdata : (lenencString text ++ rest).drop (lenencInt text.length).length = text ++ rest := by
    rw [lenencString, append_assoc, drop_left]
  have hint := readLengthEncodedInt_lenencInt text.length (by omega) (text ++ rest)
  rw [← append_assoc, ← lenencString] at hint
  have hroom : ¬ remaining (lenencString text ++ rest) ((lenencInt text.length).length : ℤ) <
      text.length := by
    rw [remaining_eq (by omega) (by omega)]
    omega
  have hslice := slice_at (E := ParserError) ((lenencInt text.length).length + text.length) hdata
    rfl (by omega)
  rw [Nat.cast_add] at hslice
  rw [readLengthEncodedString, if_neg hnonempty, if_neg hfirst, hint, bind_ok]
  dsimp only
  rw [if_neg hroom, wrap64_natCast (by omega), hslice, bind_ok, lenencString,
    length_append, Nat.cast_add]

theorem lenencString_ne_nil (text : List Byte) : lenencString text ≠ [] := by
  exact append_ne_nil_of_left_ne_nil (lenencInt_ne_nil _) _

theorem length_le_lenencString (text : List Byte) : text.length ≤ (lenencString text).length := by
  rw [lenencString, length_append]
  exact Nat.le_add_left _ _

/-! ## Column definitions -/

structure ColumnDefinition.WellFormed (column : ColumnDefinition) : Prop where
  characterSet : column.characterSet < 2 ^ 16
  columnLength : column.columnLength < 2 ^ 32
  flags : column.flags < 2 ^ 16

def encodeColumn (column : ColumnDefinition) (filler : List Byte) : List Byte :=
  lenencString column.catalog ++ (lenencString column.schema ++ (lenencString column.table ++
    (lenencString column.orgTable ++ (lenencString column.name ++ (lenencString column.orgName ++
      (0x0c :: (leBytes 2 column.characterSet ++ (leBytes 4 column.columnLength ++
        (column.columnType :: (leBytes 2 column.flags ++ (column.decimals :: filler)))))))))))

theorem readField_at (field : ColumnField) {text : List Byte} (hsmall : data.length < 2 ^ 24)
    (hdata : data.drop pos = lenencString text ++ rest) :
    readField field data pos = .ok (text, ((pos + (lenencString text).length : ℕ) : ℤ)) := by
  have hend := pos_add_length_le hdata (lenencString_ne_nil text)
  have htext := length_le_lenencString text
  have hrest : rest.length < 2 ^ 24 := by
    have := congrArg List.length hdata
    rw [length_drop, length_append] at this
    omega
  rw [readField, sliceFrom_at hdata (by omega), bind_ok,
    readLengthEncodedString_lenencString text rest (by omega) hrest]
  rfl

theorem uintAt_leBytes_at {width : ℕ} (hdata : data.drop pos = leBytes width value ++ rest)
    (hvalue : value < 256 ^ width) (hpos : pos + width ≤ data.length) :
    uintAt width data pos = .ok value := by
  rw [uintAt_at hdata (length_leBytes width value).symm hpos, leValue_leBytes width value hvalue]

/-- The fields of fixed width, from their length marker on. -/
theorem parseFixedFields_at {filler : List Byte} (column : ColumnDefinition)
    (hcolumn : column.WellFormed) (hfiller : 2 ≤ filler.length)
    (hdata : data.drop pos = 0x0c :: (leBytes 2 column.characterSet ++
      (leBytes 4 column.columnLength ++ (column.columnType ::
        (leBytes 2 column.flags ++ (column.decimals :: filler)))))) :
    ¬ (pos : ℤ) ≥ data.length ∧ ¬ (pos : ℤ) + 1 + 12 > data.length ∧
      uintAt 2 data (pos + 1) = .ok column.characterSet ∧
      uintAt 4 data (pos + 3) = .ok column.columnLength ∧
      byteAt data (pos + 7) = .ok column.columnType ∧
      uintAt 2 data (pos + 8) = .ok column.flags ∧
      byteAt data (pos + 10) = .ok column.decimals := by
  have hlength := congrArg List.length hdata
  simp only [length_drop, length_cons, length_append, length_leBytes] at hlength
  have hcharacterSet := drop_succ hdata
  have hcolumnLength := drop_add_length hcharacterSet
  have hcolumnType := drop_add_length hcolumnLength
  have hflags := drop_succ hcolumnType
  have hdecimals := drop_add_length hflags
  simp only [length_leBytes, Nat.add_assoc,
    Nat.reduceAdd] at hcolumnLength hcolumnType hflags hdecimals
  refine ⟨by omega, by omega, ?_, ?_, ?_, ?_, ?_⟩
  · exact_mod_cast uintAt_leBytes_at hcharacterSet hcolumn.characterSet (by omega)
  · exact_mod_cast uintAt_leBytes_at hcolumnLength hcolumn.columnLength (by omega)
  · exact_mod_cast byteAt_at hcolumnType
  · exact_mod_cast uintAt_leBytes_at hflags hcolumn.flags (by omega)
  · exact_mod_cast byteAt_at hdecimals

theorem parseColumnDefinition_encodeColumn (column : ColumnDefinition)
    (hcolumn : column.WellFormed) (filler : List Byte) (hfiller : 2 ≤ filler.length)
    (hsmall : (encodeColumn column filler).length < 2 ^ 24) :
    parseColumnDefinition (encodeColumn column filler) = .ok column := by
  generalize hdata : encodeColumn column filler = data at hsmall
  have hcatalog : data.drop 0 = encodeColumn column filler := hdata.symm
  have hschema := drop_add_length hcatalog
  have htable := drop_add_length hschema
  have horgTable := drop_add_length htable
  have hname := drop_add_length horgTable
  have horgName := drop_add_length hname
  have hfixed := parseFixedFields_at column hcolumn hfiller (drop_add_length horgName)
  obtain ⟨hmarker, hlong, hcharacterSet, hcolumnLength, hcolumnType, hflags, hdecimals⟩ := hfixed
  have hfirst := readField_at .catalog hsmall hcatalog
  rw [Nat.cast_zero] at hfirst
  simp only [parseColumnDefinition, bind_ok, hfirst, readField_at .schema hsmall hschema,
    readField_at .table hsmall htable, readField_at .orgTable hsmall horgTable,
    readField_at .name hsmall hname, readField_at .orgName hsmall horgName, if_neg hmarker,
    if_neg hlong, hcharacterSet, hcolumnLength, hcolumnType, hflags, hdecimals]

/-! ## Text rows -/

/-- A value of a text row: NULL, or bytes. -/
abbrev Cell := Option (List Byte)

def encodeCell : Cell → List Byte
  | none => [0xfb]
  | some text => lenencString text

def encodeRow (row : List Cell) : List Byte := row.flatMap encodeCell

def decodeCell : Cell → Value
  | none => { isNull := true }
  | some text => { data := truncateValue text }

theorem encodeCell_ne_nil (cell : Cell) : encodeCell cell ≠ [] := by
  cases cell with
  | none => exact cons_ne_nil _ _
  | some text => exact lenencString_ne_nil text

/-- The first byte of a short cell is none of the markers of EOF, OK and ERR packets. -/
theorem head_encodeCell {cell : Cell} (hcell : (encodeCell cell).length < 2 ^ 24) :
    ∃ first tail, encodeCell cell = first :: tail ∧ first ≠ 0xfe ∧ first ≠ 0xff := by
  cases cell with
  | none => exact ⟨0xfb, [], rfl, by decide, by decide⟩
  | some text =>
    have htext := length_le_lenencString text
    obtain ⟨first, tail, hhead, _, heof, herr⟩ :=
      head_lenencInt (lt_of_le_of_lt htext hcell)
    refine ⟨first, tail ++ text, ?_, heof, herr⟩
    rw [encodeCell, lenencString, hhead, cons_append]

theorem readLengthEncodedInt_cell {text : List Byte} (htext : text.length < 2 ^ 24) :
    readLengthEncodedInt (lenencString text ++ rest) =
      .ok (text.length, ((lenencInt text.length).length : ℤ)) := by
  rw [lenencString, append_assoc]
  exact readLengthEncodedInt_lenencInt text.length (by omega) (text ++ rest)

theorem parseRowValues_at (hsmall : data.length < 2 ^ 24) (row : List Cell) (pos column : ℕ)
    (hdata : data.drop pos = encodeRow row) :
    parseRowValues data row.length column pos = .ok (row.map decodeCell) := by
  induction row generalizing pos column with
  | nil => rfl
  | cons cell row ih =>
    rw [encodeRow, flatMap_cons, ← encodeRow] at hdata
    have hnext := drop_add_length hdata
    have hend := pos_add_length_le hdata (encodeCell_ne_nil cell)
    have hinside : ¬ (pos : ℤ) ≥ data.length := by
      have := length_pos_of_ne_nil (encodeCell_ne_nil cell)
      omega
    rw [length_cons, parseRowValues, if_neg hinside]
    cases cell with
    | none =>
      have hrest := ih (pos + 1) (column + 1) hnext
      rw [Nat.cast_add, Nat.cast_one] at hrest
      rw [byteAt_at hdata, hrest]
      rfl
    | some text =>
      rw [encodeCell] at hdata hnext hend
      have htext : text.length < 2 ^ 24 := by
        have := length_le_lenencString text
        omega
      obtain ⟨first, tail, hhead, hnull, _⟩ := head_lenencInt htext
      have hfirst : data.drop pos = first :: (tail ++ text ++ encodeRow row) := by
        rw [hdata, lenencString, hhead, cons_append, cons_append]
      have hlength : (lenencString text).length =
          (lenencInt text.length).length + text.length := length_append
      have hvalue : data.drop (pos + (lenencInt text.length).length) = text ++ encodeRow row := by
        apply drop_add_length
        rw [hdata, lenencString, append_assoc]
      have hroom : ¬ remaining data ((pos : ℤ) + (lenencInt text.length).length) < text.length := by
        rw [← Nat.cast_add, remaining_eq (by omega) (by omega)]
        omega
      have hslice := slice_at (E := ParserError)
        (pos + (lenencInt text.length).length + text.length) hvalue rfl
        (by omega)
      have hrest := ih (pos + (lenencString text).length) (column + 1) hnext
      rw [hlength, ← Nat.add_assoc] at hrest
      simp only [Nat.cast_add] at hslice hrest
      rw [byteAt_at hfirst, bind_ok, if_neg hnull, sliceFrom_at hdata (by omega),
        bind_ok, readLengthEncodedInt_cell htext]
      simp only [Exec.ok, wrap64_natCast (show text.length < 2 ^ 63 by omega), if_neg hroom]
      rw [hslice, hrest]
      rfl

theorem length_le_encodeRow (row : List Cell) : row.length ≤ (encodeRow row).length :=
  length_le_flatMap _ encodeCell_ne_nil row

theorem parseResultSetRow_encodeRow (row : List Cell) (hsmall : (encodeRow row).length < 2 ^ 24) :
    (parseResultSetRow (encodeRow row) row.length).outcome = .ok (row.map decodeCell) := by
  have hcount := length_le_encodeRow row
  have hmake : (makeSlice valueSize row.length : Read Unit).outcome = .ok () := by
    rw [makeSlice_outcome_eq_ok_iff, valueSize, maxAlloc]
    omega
  have hvalues := parseRowValues_at hsmall row 0 0 rfl
  rw [Nat.cast_zero] at hvalues
  rw [parseResultSetRow, bind_outcome_eq_ok_iff]
  refine ⟨(), hmake, ?_⟩
  rw [Int.toNat_natCast, hvalues]
  rfl

end Qtap.Mysql
