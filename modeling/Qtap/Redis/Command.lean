import Qtap.Redis.Encoding
import Qtap.Redis.Stream

/-!
# Commands on the wire

A command is a non-empty array of bulk strings.  Its length fields may be spelled in any
way the number parser reads.  The stream reads the command back, except when its first
string is empty: then the array is no command for it.
-/

namespace Qtap.Redis

open List Qtap.Core

/-- `BulkStrings texts bytes`: the bytes are these bulk strings, one after the other. -/
inductive BulkStrings : List (List Byte) → List Byte → Prop where
  | nil : BulkStrings [] []
  | cons {digits text bytes : List Byte} {texts : List (List Byte)}
      (hdigits : atoi digits = some (text.length : ℤ)) (hrest : BulkStrings texts bytes) :
      BulkStrings (text :: texts) (36 :: (digits ++ crlf ++ (text ++ crlf)) ++ bytes)

def Command.texts (command : Command) : List (List Byte) := command.name :: command.args

/-- The bytes are the command as an array of bulk strings, of a size that the parser can
make room for. -/
def IsCommand (command : Command) (bytes : List Byte) : Prop :=
  ∃ digits body, atoi digits = some (command.texts.length : ℤ) ∧
    BulkStrings command.texts body ∧ HasRoom .array command.texts.length ∧
    bytes = 42 :: (digits ++ crlf) ++ body

variable {command : Command}

/-! ## Reading a command back -/

def bulkString (text : List Byte) : Value := { type := .bulkString, str := text }

/-- Bulk strings are the elements of an array. -/
theorem BulkStrings.pieces {texts : List (List Byte)} {body : List Byte}
    (hbody : BulkStrings texts body) :
    ∃ pieces : List (Value × List Byte), (∀ piece ∈ pieces, Encodes piece.1 piece.2) ∧
      pieces.map Prod.fst = texts.map bulkString ∧ pieces.flatMap Prod.snd = body := by
  induction hbody with
  | nil => exact ⟨[], by simp⟩
  | @cons digits text bytes texts hdigits hrest ih =>
    obtain ⟨pieces, hpieces, hvalues, rfl⟩ := ih
    have hfirst : Encodes (bulkString text) (36 :: (digits ++ crlf ++ (text ++ crlf))) :=
      .blob rfl hdigits
    refine ⟨(bulkString text, _) :: pieces, forall_mem_cons.2 ⟨hfirst, hpieces⟩, ?_, rfl⟩
    rw [map_cons, map_cons, hvalues]

theorem IsCommand.encodes {bytes : List Byte} (hcommand : IsCommand command bytes) :
    Encodes { type := .array, array := command.texts.map bulkString } bytes := by
  obtain ⟨_, _, hdigits, hbody, hroom, rfl⟩ := hcommand
  obtain ⟨pieces, hpieces, hvalues, rfl⟩ := hbody.pieces
  have hlength : pieces.length = command.texts.length := by
    simpa using congrArg length hvalues
  rw [← hvalues]
  refine .list (.inl rfl) (hlength ▸ hdigits) ?_ hpieces
  rw [hlength]
  exact_mod_cast (hroom.resolve_left (by decide)).2

theorem toCommand_bulkStrings (hname : command.name ≠ []) (size : ℤ) :
    ({ type := .array, array := command.texts.map bulkString, size := size } : Value).toCommand =
      some command := by
  have hargs : ∀ texts : List (List Byte),
      ((texts.map bulkString).filter fun elem => elem.type = .bulkString).map Value.str =
        texts := by
    intro texts
    induction texts with
    | nil => rfl
    | cons text texts ih =>
      rw [map_cons, filter_cons_of_pos (by rfl), map_cons, ih]
      rfl
  simp only [Value.toCommand, Command.texts, map_cons, hargs]
  exact if_neg hname

/-- The stream reads a command back from its bytes. -/
theorem reads_command (parseFloat : List Byte → Option UInt64) {bytes : List Byte}
    (hcommand : IsCommand command bytes) (hsize : bytes.length ≤ maxAlloc)
    (hname : command.name ≠ []) :
    ∃ value, (respFramer parseFloat).Reads bytes value ∧ value.toCommand = some command := by
  have hparse := Parser.parse_of_encodes parseFloat hcommand.encodes hsize []
  rw [append_nil] at hparse
  exact ⟨_, (next_eq_some_iff hsize).2 hparse, toCommand_bulkStrings hname bytes.length⟩

/-! ## The type of a value -/

/-- What the call returns is of this type. -/
def HasType (kind : RESPType) (exec : Parsed) : Prop :=
  ∀ value consumed, exec.outcome = .ok (value, consumed) → value.type = kind

theorem hasType_err (kind : RESPType) (error : ParseError) : HasType kind (.err error) :=
  fun _ _ hvalue => nomatch hvalue

theorem hasType_ok {kind : RESPType} {value : Value} (htype : value.type = kind) (consumed : ℤ) :
    HasType kind (.ok (value, consumed)) := by
  intro other size hvalue
  cases hvalue
  exact htype

theorem hasType_bind {R : Type} {kind : RESPType} {exec : Exec ParseError R} {next : R → Parsed}
    (hnext : ∀ result, HasType kind (next result)) : HasType kind (exec.bind next) := by
  intro value consumed hvalue
  obtain ⟨result, _, hresult⟩ := Exec.bind_outcome_eq_ok_iff.1 hvalue
  exact hnext result value consumed hresult

theorem hasType_parseBlob (kind : RESPType) (data : List Byte) (idx length : ℤ) :
    HasType kind (parseBlob kind data idx length) := by
  rw [parseBlob]
  split_ifs with hshort
  · exact hasType_err _ _
  · exact hasType_bind fun _ => hasType_ok rfl _

theorem hasType_parseAggregate (parse : List Byte → Parsed) (kind : RESPType) (data : List Byte)
    (idx count : ℤ) : HasType kind (parseAggregate parse kind data idx count) :=
  hasType_bind fun _ => hasType_bind fun _ => hasType_ok rfl _

theorem hasType_parseTyped (parseFloat : List Byte → Option UInt64) (parse : List Byte → Parsed)
    (kind : RESPType) (data : List Byte) :
    HasType kind (parseTyped parseFloat parse kind data) := by
  cases kind with
  | simpleString | error | bigNumber =>
    exact hasType_bind fun _ => hasType_bind fun _ => hasType_ok rfl _
  | integer => exact hasType_bind fun _ => hasType_ok rfl _
  | double =>
    apply hasType_bind
    intro idx
    apply hasType_bind
    intro text
    split
    · exact hasType_ok rfl _
    · exact hasType_err _ _
  | null =>
    simp only [parseTyped, parseNull]
    split
    · split_ifs
      · exact hasType_err _ _
      · exact hasType_ok rfl _
    · exact hasType_err _ _
  | boolean =>
    simp only [parseTyped, parseBoolean]
    split
    · split_ifs
      · exact hasType_err _ _
      · exact hasType_ok rfl _
      · exact hasType_ok rfl _
      · exact hasType_err _ _
    · exact hasType_err _ _
  | bulkString =>
    apply hasType_bind
    rintro ⟨idx, _⟩
    simp only
    split_ifs
    · exact hasType_ok rfl _
    · exact hasType_parseBlob _ _ _ _
  | bulkError | verbatim => exact hasType_bind fun _ => hasType_parseBlob _ _ _ _
  | array =>
    apply hasType_bind
    rintro ⟨_, _⟩
    simp only
    split_ifs
    · exact hasType_ok rfl _
    · exact hasType_parseAggregate _ _ _ _ _
  | set | push => exact hasType_bind fun _ => hasType_parseAggregate _ _ _ _ _
  | map => exact hasType_bind fun _ => hasType_bind fun _ => hasType_bind fun _ => hasType_ok rfl _

/-- The leading byte of a value gives its type. -/
theorem kindOf_of_reads {parseFloat : List Byte → Option UInt64} {data : List Byte} {value : Value}
    (hreads : (respFramer parseFloat).Reads data value) : kindOf data = some value.type := by
  obtain ⟨hparse, _⟩ := (nextValue_eq_some_iff parseFloat).1 hreads
  obtain ⟨_, raw, consumed, _, hraw, _, rfl, _⟩ := (Parser.parse_eq_ok_iff parseFloat).1 hparse
  cases data with
  | nil => cases hraw
  | cons first =>
    rw [parseValue, length_cons, parseNested] at hraw
    rw [kindOf_cons]
    cases hkind : RESPType.ofMarker first with
    | none =>
      rw [hkind] at hraw
      cases hraw
    | some kind =>
      rw [hkind] at hraw
      exact congrArg some (hasType_parseTyped parseFloat _ kind _ raw consumed hraw).symm

end Qtap.Redis
