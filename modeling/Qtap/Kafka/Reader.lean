import Qtap.Core.BigEndian
import Qtap.Core.Varint

/-!
# Reading Kafka messages

The helpers of the Kafka parser.  A reader gets the whole message and an offset; where
the source signals a malformed field with a negative offset, the model returns `none`.
Index and slice expressions check their bounds.  Messages have at most 100 MB, so no
offset comes near the limits of an `int`.
-/

namespace Qtap.Kafka

open Qtap.Core

/-- The only way in which a reader can go wrong is a panic. -/
abbrev Read (A : Type) := Exec Empty A

/-- The index expression `data[offset]`. -/
def byteAt (data : List Byte) (offset : ℕ) : Read Byte :=
  match data[offset]? with
  | some byte => .ok byte
  | none => { outcome := .panic .sliceBounds }

/-- `binary.BigEndian.Uint16(data[offset:offset+2])` and its wider sibling. -/
def uintAt (width : ℕ) (data : List Byte) (offset : ℕ) : Read ℕ :=
  (slice data offset (offset + width : ℕ)).bind fun bytes => .ok (beValue bytes)

def int16At (data : List Byte) (offset : ℕ) : Read ℤ :=
  (uintAt 2 data offset).bind fun value => .ok (signed 16 value)

def int32At (data : List Byte) (offset : ℕ) : Read ℤ :=
  (uintAt 4 data offset).bind fun value => .ok (signed 32 value)

/-- The loop of `readUnsignedVarint`, from its `i`-th round on. -/
def readVarintGroups (data : List Byte) (offset : ℕ) : ℕ → ℕ → ℕ → Read (Option (ℕ × ℕ))
  | 0, _, _ => .ok none
  | groups + 1, i, result =>
    if offset + i ≥ data.length then .ok none
    else
      (byteAt data (offset + i)).bind fun b =>
        let result := result ||| ((b.toNat &&& 0x7f) <<< (7 * i)) % 2 ^ 32
        if b.toNat &&& 0x80 = 0 then .ok (some (result, i + 1))
        else readVarintGroups data offset groups (i + 1) result

/-- The value and the number of bytes consumed. -/
def readUnsignedVarint (data : List Byte) (offset : ℕ) : Read (Option (ℕ × ℕ)) :=
  readVarintGroups data offset 5 0 0

/-- The loop of `skipTaggedFields`. -/
def skipFields (data : List Byte) : ℕ → ℕ → Read (Option ℕ)
  | 0, offset => .ok (some offset)
  | numTags + 1, offset =>
    (readUnsignedVarint data offset).bind fun
      | none => .ok none
      | some (_, n) =>
        (readUnsignedVarint data (offset + n)).bind fun
          | none => .ok none
          | some (dataLen, m) =>
            if offset + n + m + dataLen > data.length then .ok none
            else skipFields data numTags (offset + n + m + dataLen)

def skipTaggedFields (data : List Byte) (offset : ℕ) : Read (Option ℕ) :=
  (readUnsignedVarint data offset).bind fun
    | none => .ok none
    | some (numTags, n) => skipFields data numTags (offset + n)

def readCompactString (data : List Byte) (offset : ℕ) : Read (Option (List Byte × ℕ)) :=
  (readUnsignedVarint data offset).bind fun
    | none => .ok none
    | some (rawLen, n) =>
      if rawLen = 0 then .ok (some ([], offset + n))
      else
        let strLen := rawLen - 1
        if offset + n + strLen > data.length then .ok none
        else
          (slice data (offset + n : ℕ) (offset + n + strLen : ℕ)).bind fun text =>
            .ok (some (text, offset + n + strLen))

def readCompactNullableString (data : List Byte) (offset : ℕ) : Read (Option (List Byte × ℕ)) :=
  readCompactString data offset

/-- The length of an array, `-1` for null, and the offset behind it. -/
def readCompactArrayLen (data : List Byte) (offset : ℕ) : Read (Option (ℤ × ℕ)) :=
  (readUnsignedVarint data offset).bind fun
    | none => .ok none
    | some (rawLen, n) =>
      if rawLen = 0 then .ok (some (-1, offset + n))
      else .ok (some ((rawLen - 1 : ℕ), offset + n))

/-- A nullable string with an `int16` length. -/
def skipNullableString (data : List Byte) (offset : ℕ) : Read (Option ℕ) :=
  if offset + 2 > data.length then .ok none
  else
    (int16At data offset).bind fun strLen =>
      if strLen = -1 then .ok (some (offset + 2))
      else if strLen < 0 ∨ offset + 2 + strLen.toNat > data.length then .ok none
      else .ok (some (offset + 2 + strLen.toNat))

/-- The zigzag step of `readSignedVarint`, on 32-bit words. -/
def unfoldSign (uval : ℕ) : ℤ :=
  signed 32 ((uval >>> 1) ^^^ ((2 ^ 32 - (uval &&& 1)) % 2 ^ 32))

def readSignedVarint (data : List Byte) (offset : ℕ) : Read (Option (ℤ × ℕ)) :=
  (readUnsignedVarint data offset).bind fun
    | none => .ok none
    | some (uval, n) => .ok (some (unfoldSign uval, n))

end Qtap.Kafka
