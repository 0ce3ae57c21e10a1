import Qtap.Core.Numeral

/-!
# RESP values

The record follows the parser's own: one type tag and one field for each kind of
payload.  A double is kept as its IEEE-754 bit pattern and a Go map as an
association list in which a later binding replaces an earlier one.
-/

namespace Qtap.Redis

open Qtap.Core

inductive RESPType where
  | simpleString
  | error
  | integer
  | bulkString
  | array
  | null
  | boolean
  | double
  | bigNumber
  | bulkError
  | verbatim
  | map
  | set
  | push
  deriving DecidableEq, Repr

namespace RESPType

/-- The leading byte of a value of this type. -/
def marker : RESPType → Byte
  | simpleString => 43
  | error => 45
  | integer => 58
  | bulkString => 36
  | array => 42
  | null => 95
  | boolean => 35
  | double => 44
  | bigNumber => 40
  | bulkError => 33
  | verbatim => 61
  | map => 37
  | set => 126
  | push => 62

/-- The cases of the type switch in `parseValue`, in its order. -/
def all : List RESPType :=
  [simpleString, error, integer, bulkString, array, null, boolean, double, bigNumber,
    bulkError, verbatim, map, set, push]

def ofMarker (byte : Byte) : Option RESPType :=
  all.find? fun kind => kind.marker = byte

@[simp]
theorem ofMarker_marker (kind : RESPType) : ofMarker kind.marker = some kind := by
  cases kind <;> decide

theorem marker_of_ofMarker {byte : Byte} {kind : RESPType}
    (hkind : ofMarker byte = some kind) : byte = kind.marker := by
  have hmarker := List.find?_some hkind
  exact (of_decide_eq_true hmarker).symm

theorem marker_ne_cr (kind : RESPType) : kind.marker ≠ 13 := by
  cases kind <;> decide

end RESPType

structure Value where
  type : RESPType
  str : List Byte := []
  int : ℤ := 0
  bool : Bool := false
  float : UInt64 := 0
  array : List Value := []
  map : List (List Byte × Value) := []
  isNull : Bool := false
  size : ℤ := 0

/-- `unsafe.Sizeof(Value{})` on a 64-bit platform. -/
def valueSize : ℕ := 96

/-- Assignment `m[key] = value`. -/
def mapSet (entries : List (List Byte × Value)) (key : List Byte) (value : Value) :
    List (List Byte × Value) :=
  entries.filter (fun entry => entry.1 ≠ key) ++ [(key, value)]

/-- `ErrIncomplete` asks for more data, `ErrInvalidFormat` rejects the bytes. -/
inductive ParseError where
  | incomplete
  | invalidFormat
  deriving DecidableEq, Repr

end Qtap.Redis
