import Qtap.Core.Position
import Qtap.Kafka.Parser

/-!
# Kafka's primitive types

The encodings of the Kafka protocol for strings, arrays, byte fields and tagged fields, in
the legacy and in the flexible form, and the facts that the readers give back what was
written.  Lengths need no bound of their own: whatever stands in a message is shorter than
the message, and a message has less than two gigabytes.
-/

namespace Qtap.Kafka

open Nat List Qtap.Core Exec

/-! ## Encodings -/

/-- A field of fixed width, whatever it holds. -/
abbrev Fixed (width : ℕ) := {bytes : List Byte // bytes.length = width}

def int16Bytes (value : ℤ) : List Byte := beBytes 2 (unsigned 16 value)

def int32Bytes (value : ℤ) : List Byte := beBytes 4 (unsigned 32 value)

structure TaggedField where
  tag : UInt32
  content : List Byte

def TaggedField.encode (field : TaggedField) : List Byte :=
  encodeVarint field.tag.toNat ++ (encodeVarint field.content.length ++ field.content)

/-- The tagged fields that close a structure of a flexible version. -/
def taggedFields (flexible : Bool) (fields : List TaggedField) : List Byte :=
  if flexible then encodeVarint fields.length ++ fields.flatMap TaggedField.encode else []

def stringField (flexible : Bool) (text : List Byte) : List Byte :=
  (if flexible then encodeVarint (text.length + 1) else int16Bytes text.length) ++ text

def nullableString (flexible : Bool) : Option (List Byte) → List Byte
  | none => if flexible then encodeVarint 0 else int16Bytes (-1)
  | some text => stringField flexible text

/-- The length of an array or of a byte field. -/
def lengthField (flexible : Bool) (count : ℕ) : List Byte :=
  if flexible then encodeVarint (count + 1) else int32Bytes count

def nullLength (flexible : Bool) : List Byte :=
  if flexible then encodeVarint 0 else int32Bytes (-1)

def nullableBytes (flexible : Bool) : Option (List Byte) → List Byte
  | none => nullLength flexible
  | some bytes => lengthField flexible bytes.length ++ bytes

/-- Legacy strings have an `int16` length. -/
def StringFits (flexible : Bool) (text : List Byte) : Prop :=
  flexible = false → text.length < 2 ^ 15

@[simp]
theorem length_int16Bytes (value : ℤ) : (int16Bytes value).length = 2 := length_beBytes

@[simp]
theorem length_int32Bytes (value : ℤ) : (int32Bytes value).length = 4 := length_beBytes

theorem nullableString_ne_nil (flexible : Bool) (text : Option (List Byte)) :
    nullableString flexible text ≠ [] := by
  apply ne_nil_of_length_pos
  have hvarint (value : ℕ) := length_pos_of_ne_nil (encodeVarint_ne_nil value)
  cases text <;> cases flexible <;> simp [nullableString, stringField, hvarint]

/-! ## Fixed-width numbers -/

variable {data rest : List Byte} {offset : ℕ}

theorem uintAt_at {width : ℕ} {bytes : List Byte} (hat : At data offset (bytes ++ rest))
    (hwidth : bytes.length = width) : uintAt width data offset = .ok (beValue bytes) := by
  have hslice := hat.slice (E := Empty)
  rw [hwidth] at hslice
  rw [uintAt, hslice, bind_ok]

theorem int16At_at {value : ℤ} (hat : At data offset (int16Bytes value ++ rest))
    (hlow : -2 ^ 15 ≤ value) (hhigh : value < 2 ^ 15) : int16At data offset = .ok value := by
  rw [int16At, uintAt_at hat (length_int16Bytes value), bind_ok, int16Bytes,
    beValue_beBytes _ _ (unsigned_lt 16 value), signed_unsigned (by norm_num) hlow hhigh]

theorem int32At_at {value : ℤ} (hat : At data offset (int32Bytes value ++ rest))
    (hlow : -2 ^ 31 ≤ value) (hhigh : value < 2 ^ 31) : int32At data offset = .ok value := by
  rw [int32At, uintAt_at hat (length_int32Bytes value), bind_ok, int32Bytes,
    beValue_beBytes _ _ (unsigned_lt 32 value), signed_unsigned (by norm_num) hlow hhigh]

/-! ## Variable-length numbers -/

theorem readVarintGroups_eq {data : List Byte} {offset groups i result : ℕ} :
    readVarintGroups data offset groups i result =
      .ok (decodeGroups groups i result (data.drop (offset + i))) := by
  induction groups generalizing i result with
  | zero => rw [readVarintGroups, decodeGroups]
  | succ groups ih =>
    by_cases hend : offset + i ≥ data.length
    · rw [readVarintGroups, if_pos hend, drop_of_length_le hend, decodeGroups]
    · have hlt := not_le.1 hend
      have hbyte : byteAt data (offset + i) = .ok data[offset + i] := by
        rw [byteAt, List.getElem?_eq_getElem hlt]
      rw [readVarintGroups, hbyte, bind_ok, drop_eq_getElem_cons hlt]
      simp only [decodeGroups]
      split_ifs
      · rfl
      · rw [ih, add_assoc]

/-- The varint reader sees the bytes from the offset on and nothing else. -/
theorem readUnsignedVarint_eq {data : List Byte} {offset : ℕ} :
    readUnsignedVarint data offset = .ok (decodeVarint (data.drop offset)) :=
  readVarintGroups_eq

theorem readUnsignedVarint_at {value : ℕ} (hat : At data offset (encodeVarint value ++ rest))
    (hvalue : value < 2 ^ 32) :
    readUnsignedVarint data offset = .ok (some (value, (encodeVarint value).length)) := by
  rw [readUnsignedVarint_eq, hat.drop, decodeVarint_encodeVarint hvalue]

theorem unfoldSign_eq {code : ℕ} (hcode : code < 2 ^ 32) : unfoldSign code = unzigzag code := by
  have hhalf : code / 2 < 2 ^ 31 := by omega
  rw [unfoldSign, unzigzag, Nat.and_one_is_mod, Nat.shiftRight_eq_div_pow, pow_one]
  rcases Nat.mod_two_eq_zero_or_one code with heven | hodd
  · rw [heven, if_pos rfl, Nat.sub_zero, Nat.mod_self, Nat.xor_zero, signed, if_pos hhalf]
  · have hflip : code / 2 ^^^ (2 ^ 32 - 1) = 2 ^ 32 - 1 - code / 2 := by
      have hbits := congrArg BitVec.toNat (BitVec.xor_allOnes (x := BitVec.ofNat 32 (code / 2)))
      rwa [BitVec.toNat_xor, BitVec.toNat_not, BitVec.toNat_ofNat, mod_eq_of_lt (by omega)] at hbits
    rw [hodd, mod_eq_of_lt (by norm_num), signed]
    omega

theorem readSignedVarint_at {value : ℤ} (hat : At data offset (encodeSigned value ++ rest))
    (hlow : -2 ^ 31 ≤ value) (hhigh : value < 2 ^ 31) :
    readSignedVarint data offset = .ok (some (value, (encodeSigned value).length)) := by
  have hcode := zigzag_lt hlow hhigh
  rw [readSignedVarint, readUnsignedVarint_at hat hcode, bind_ok]
  simp only
  rw [unfoldSign_eq hcode, unzigzag_zigzag]
  rfl

/-! ## Tagged fields -/

theorem TaggedField.encode_ne_nil (field : TaggedField) : field.encode ≠ [] := by
  exact append_ne_nil_of_left_ne_nil (encodeVarint_ne_nil _) _

theorem skipFields_at {fields : List TaggedField}
    (hcontents : ∀ field ∈ fields, field.content.length < 2 ^ 32)
    (hat : At data offset (fields.flatMap TaggedField.encode ++ rest)) :
    skipFields data fields.length offset =
      .ok (some (offset + (fields.flatMap TaggedField.encode).length)) := by
  induction fields generalizing offset with
  | nil => rfl
  | cons field fields ih =>
    obtain ⟨hfirst, hothers⟩ := forall_mem_cons.1 hcontents
    rw [flatMap_cons, append_assoc, TaggedField.encode, append_assoc, append_assoc] at hat
    have hlength := hat.advance
    have hcontent := hlength.advance
    have hfits := hcontent.fits
    rw [length_cons, skipFields, readUnsignedVarint_at hat field.tag.toNat_lt, bind_ok]
    simp only
    rw [readUnsignedVarint_at hlength hfirst, bind_ok]
    simp only
    rw [if_neg (not_lt.2 hfits), ih hothers hcontent.advance]
    simp [TaggedField.encode, add_assoc]

theorem skipTaggedFields_at {fields : List TaggedField} (hcount : fields.length < 2 ^ 32)
    (hcontents : ∀ field ∈ fields, field.content.length < 2 ^ 32)
    (hat : At data offset (taggedFields true fields ++ rest)) :
    skipTaggedFields data offset = .ok (some (offset + (taggedFields true fields).length)) := by
  simp only [taggedFields, if_true, append_assoc] at hat ⊢
  rw [skipTaggedFields, readUnsignedVarint_at hat hcount, bind_ok]
  simp only
  rw [skipFields_at hcontents hat.advance, length_append, add_assoc]

theorem skipTags_at (hsize : data.length < 2 ^ 31) (flexible : Bool) (fields : List TaggedField)
    (hat : At data offset (taggedFields flexible fields ++ rest)) :
    skipTags data offset flexible =
      .ok (some (offset + (taggedFields flexible fields).length)) := by
  cases flexible with
  | false => rfl
  | true =>
    have hfits := hat.fits
    have hcount := length_le_flatMap _ TaggedField.encode_ne_nil fields
    rw [taggedFields, if_pos rfl, length_append] at hfits
    refine skipTaggedFields_at (by omega) (fun field hfield => ?_) hat
    have hcontent := (sublist_flatten_of_mem (mem_map_of_mem (f := TaggedField.encode) hfield)).length_le
    rw [← flatMap_def, TaggedField.encode, length_append, length_append] at hcontent
    omega

/-- Numbers and tagged fields are read back wherever they stand in a message. -/
theorem varints_read_back (front rest : List Byte) :
    (∀ value : UInt32,
      readUnsignedVarint (front ++ (encodeVarint value.toNat ++ rest)) front.length =
        .ok (some (value.toNat, (encodeVarint value.toNat).length))) ∧
    (∀ value : Int32,
      readSignedVarint (front ++ (encodeSigned value.toInt ++ rest)) front.length =
        .ok (some (value.toInt, (encodeSigned value.toInt).length))) ∧
    ∀ fields : List TaggedField, fields.length < 2 ^ 32 →
      (∀ field ∈ fields, field.content.length < 2 ^ 32) →
        skipTaggedFields (front ++ (taggedFields true fields ++ rest)) front.length =
          .ok (some (front ++ taggedFields true fields).length) := by
  have hat (piece) : At (front ++ (piece ++ rest)) front.length (piece ++ rest) := ⟨by simp, drop_left⟩
  refine ⟨fun value => readUnsignedVarint_at (hat _) value.toNat_lt, fun value =>
    readSignedVarint_at (hat _) value.le_toInt value.toInt_lt, fun fields hcount hcontents => ?_⟩
  rw [skipTaggedFields_at hcount hcontents (hat _), length_append]

/-- One field, behind one byte and before another. -/
theorem varints_read_back_one :
    skipTaggedFields ([7] ++ (taggedFields true [⟨3, [8]⟩] ++ [9])) 1 =
      .ok (some ([7] ++ taggedFields true [⟨3, [8]⟩]).length) :=
  (varints_read_back [7] [9]).2.2 [⟨3, [8]⟩] (by decide) (by decide)

/-! ## Strings -/

theorem readCompactString_at (hsize : data.length < 2 ^ 31) {text : List Byte}
    (hat : At data offset (stringField true text ++ rest)) :
    readCompactString data offset = .ok (some (text, offset + (stringField true text).length)) := by
  simp only [stringField, if_true, append_assoc] at hat ⊢
  have htext := hat.advance
  have hfits := htext.fits
  rw [readCompactString, readUnsignedVarint_at hat (by omega), bind_ok]
  simp only [Nat.succ_ne_zero, if_false, Nat.add_sub_cancel]
  rw [if_neg (Nat.not_lt.2 hfits), htext.slice, bind_ok, length_append, Nat.add_assoc]

theorem legacyString_at {text : List Byte} (hfits : text.length < 2 ^ 15)
    (hat : At data offset (stringField false text ++ rest)) :
    int16At data offset = .ok text.length ∧ offset + 2 + text.length ≤ data.length ∧
      (slice data (offset + 2 : ℕ) ((offset + 2 : ℕ) + (text.length : ℤ)) : Read (List Byte)) =
        .ok text := by
  simp only [stringField, Bool.false_eq_true, if_false, append_assoc] at hat
  have htext := hat.advance
  refine ⟨int16At_at hat (by omega) (by omega), htext.fits, ?_⟩
  exact_mod_cast htext.slice (E := Empty)

theorem legacyNull_at (hat : At data offset (nullableString false none ++ rest)) :
    int16At data offset = .ok (-1) ∧ offset + 2 ≤ data.length := by
  simp only [nullableString, Bool.false_eq_true, if_false] at hat
  refine ⟨int16At_at hat (by norm_num) (by norm_num), ?_⟩
  simpa using hat.fits

theorem length_legacyString (text : List Byte) :
    (stringField false text).length = 2 + text.length := by
  rw [stringField, if_neg Bool.false_ne_true, length_append, length_int16Bytes]

theorem skipNullableString_at {text : Option (List Byte)}
    (htext : ∀ string ∈ text, StringFits false string)
    (hat : At data offset (nullableString false text ++ rest)) :
    skipNullableString data offset = .ok (some (offset + (nullableString false text).length)) := by
  cases text with
  | none =>
    obtain ⟨hlength, hend⟩ := legacyNull_at hat
    rw [skipNullableString, if_neg (not_lt.2 hend), hlength]
    rfl
  | some text =>
    obtain ⟨hlength, _, -⟩ := legacyString_at (htext text rfl rfl) hat
    rw [skipNullableString, if_neg (by omega), hlength, bind_ok, if_neg (by omega),
      if_neg (by omega), Int.toNat_natCast, nullableString, length_legacyString, add_assoc]

/-! ## Optional by version -/

theorem skipTransactionalID_at (hsize : data.length < 2 ^ 31) (flexible : Bool) (version : ℤ)
    (hversion : 3 ≤ version) {text : Option (List Byte)}
    (htext : ∀ string ∈ text, StringFits flexible string)
    (hat : At data offset (nullableString flexible text ++ rest)) :
    skipTransactionalID data offset version flexible =
      .ok (some (offset + (nullableString flexible text).length)) := by
  cases flexible with
  | false =>
    rw [skipTransactionalID, if_neg Bool.false_ne_true, if_pos hversion,
      skipNullableString_at htext hat]
  | true =>
    rw [skipTransactionalID, readCompactNullableString]
    cases text with
    | none =>
      rw [readCompactString, readUnsignedVarint_at hat (by norm_num)]
      rfl
    | some => rw [readCompactString_at hsize hat]; rfl

theorem not_lt_of_int32 {value : ℤ} (hat : At data offset (int32Bytes value ++ rest)) :
    ¬ data.length < offset + 4 := by
  have hfits := hat.fits
  rw [length_int32Bytes] at hfits
  exact not_lt.2 hfits

/-- The loops do not run over an empty array. -/
theorem readCount_at (flexible : Bool) {count : ℕ} (hbound : count < 2 ^ 31)
    (hat : At data offset (lengthField flexible count ++ rest)) :
    readCount data offset flexible =
      .ok (if count = 0 then none
        else some (count, offset + (lengthField flexible count).length)) := by
  have hcount : (count : ℤ) ≤ 0 ↔ count = 0 := by omega
  cases flexible with
  | false =>
    simp only [lengthField, Bool.false_eq_true, if_false] at hat ⊢
    rw [readCount, if_neg Bool.false_ne_true, if_neg (not_lt_of_int32 hat),
      int32At_at hat (by omega) (by omega), bind_ok, Int.toNat_natCast, length_int32Bytes]
    simp only [hcount]
  | true =>
    simp only [lengthField, if_true] at hat ⊢
    rw [readCount, if_pos rfl, readCompactArrayLen, readUnsignedVarint_at hat (by omega)]
    simp only [Nat.succ_ne_zero, if_false, Nat.add_sub_cancel, bind_ok, hcount, Int.toNat_natCast]

theorem readTopicName_at (hsize : data.length < 2 ^ 31) (flexible : Bool) {name : List Byte}
    (hfits : StringFits flexible name) (hat : At data offset (stringField flexible name ++ rest)) :
    readTopicName data offset flexible =
      .ok (some (name, offset + (stringField flexible name).length)) := by
  cases flexible with
  | true => rw [readTopicName, if_pos rfl, readCompactString_at hsize hat]
  | false =>
    obtain ⟨hlength, _, hslice⟩ := legacyString_at (hfits rfl) hat
    rw [readTopicName, if_neg Bool.false_ne_true, if_neg (by omega), hlength, bind_ok]
    rw [if_neg (by omega), hslice, bind_ok, Int.toNat_natCast, length_legacyString, add_assoc]

theorem readRecordSetSize_at (flexible : Bool) {size : ℕ} (hpositive : 0 < size)
    (hbound : size < 2 ^ 31) (hat : At data offset (lengthField flexible size ++ rest)) :
    readRecordSetSize data offset flexible =
      .ok (some (some size, offset + (lengthField flexible size).length)) := by
  cases flexible with
  | false =>
    simp only [lengthField, Bool.false_eq_true, if_false] at hat ⊢
    rw [readRecordSetSize, if_neg Bool.false_ne_true, if_neg (not_lt_of_int32 hat),
      int32At_at hat (by omega) (by omega), bind_ok, if_neg (by omega),
      Int.toNat_natCast, length_int32Bytes]
  | true =>
    simp only [lengthField, if_true] at hat ⊢
    rw [readRecordSetSize, if_pos rfl, readUnsignedVarint_at hat (by omega), bind_ok]
    simp only [Nat.succ_ne_zero, if_false, Nat.add_sub_cancel]

theorem readRecordSetSize_null (flexible : Bool)
    (hat : At data offset (nullLength flexible ++ rest)) :
    readRecordSetSize data offset flexible =
      .ok (some (none, offset + (nullLength flexible).length)) := by
  cases flexible with
  | false =>
    simp only [nullLength, Bool.false_eq_true, if_false] at hat ⊢
    rw [readRecordSetSize, if_neg Bool.false_ne_true, if_neg (not_lt_of_int32 hat),
      int32At_at hat (by norm_num) (by norm_num), bind_ok, if_pos (by norm_num),
      length_int32Bytes]
  | true =>
    rw [readRecordSetSize, readUnsignedVarint_at hat (by norm_num)]
    rfl

end Qtap.Kafka
