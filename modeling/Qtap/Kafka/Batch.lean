import Qtap.Kafka.Wire

/-!
# Record batches

Record batches of format 2 as a producer writes them, and what the parser samples from
them: the first records, with the key and the value cut to their limits.
-/

namespace Qtap.Kafka

open List Qtap.Core Exec

/-! ## Encodings -/

/-- The length before a nullable field of a record. -/
def signedLength : Option (List Byte) → ℤ
  | none => -1
  | some bytes => bytes.length

def signedBytes (field : Option (List Byte)) : List Byte :=
  encodeSigned (signedLength field) ++ field.getD []

structure RecordHeader where
  key : List Byte
  value : Option (List Byte)

def RecordHeader.encode (header : RecordHeader) : List Byte :=
  signedBytes (some header.key) ++ signedBytes header.value

structure Record where
  attributes : Byte
  timestampDelta : Int64
  offsetDelta : Int32
  key : Option (List Byte)
  value : Option (List Byte)
  headers : List RecordHeader

namespace Record

/-- The timestamp delta fits into 32 bits. -/
def ShortTimestamp (record : Record) : Prop :=
  -2 ^ 31 ≤ record.timestampDelta.toInt ∧ record.timestampDelta.toInt < 2 ^ 31

instance (record : Record) : Decidable record.ShortTimestamp :=
  inferInstanceAs (Decidable (_ ∧ _))

/-- The fields behind the attributes. -/
def fields (record : Record) : List Byte :=
  encodeSigned record.timestampDelta.toInt ++ (encodeSigned record.offsetDelta.toInt ++
    (signedBytes record.key ++ (signedBytes record.value ++
      (encodeSigned record.headers.length ++ record.headers.flatMap RecordHeader.encode))))

def encode (record : Record) : List Byte :=
  encodeSigned (record.fields.length + 1) ++ (record.attributes :: record.fields)

/-- The message sampled from a record. -/
def sample (topic : List Byte) (partition : ℤ) (record : Record) : KafkaMessage where
  topic := topic
  partition := partition
  key := (record.key.getD []).take maxKeySize
  value := (record.value.getD []).take maxValueSize
  truncated := decide ((record.value.getD []).length > maxValueSize)

end Record

structure Batch where
  /-- Base offset, batch length and leader epoch. -/
  lead : Fixed 16
  crc : Fixed 4
  attributes : Fixed 2
  /-- Last offset delta, timestamps, producer id and epoch, base sequence. -/
  middle : Fixed 34
  records : List Record
  uncompressed : beValue attributes.val &&& 0x07 = 0

def Batch.encode (batch : Batch) : List Byte :=
  batch.lead.val ++ ([2] ++ (batch.crc.val ++ (batch.attributes.val ++ (batch.middle.val ++
    (int32Bytes batch.records.length ++ batch.records.flatMap Record.encode)))))

theorem Record.encode_ne_nil (record : Record) : record.encode ≠ [] :=
  append_ne_nil_of_left_ne_nil (encodeVarint_ne_nil _) _

theorem Batch.length_encode (batch : Batch) :
    batch.encode.length = 61 + (batch.records.flatMap Record.encode).length := by
  simp only [Batch.encode, length_append, length_singleton, batch.lead.property,
    batch.crc.property, batch.attributes.property, batch.middle.property, length_int32Bytes]
  omega

/-! ## Records -/

variable {data rest : List Byte} {offset recordEnd : ℕ}

theorem readKey_at {key : Option (List Byte)} (hat : At data offset (key.getD [] ++ rest))
    (hend : offset + (key.getD []).length ≤ recordEnd) :
    readKey data offset recordEnd (signedLength key) =
      .ok (some ((key.getD []).take maxKeySize, offset + (key.getD []).length)) := by
  cases key with
  | none => rfl
  | some key =>
    simp only [Option.getD_some] at hat hend ⊢
    by_cases hempty : key = []
    · rw [hempty]
      rfl
    · have hpositive := length_pos_of_ne_nil hempty
      rw [readKey, signedLength, if_pos (by omega), Int.toNat_natCast,
        if_neg (Nat.not_lt.2 hend), hat.slice_take, bind_ok]

theorem readValue_at {value : Option (List Byte)} (hat : At data offset (value.getD [] ++ rest))
    (hend : offset + (value.getD []).length ≤ recordEnd) :
    readValue data offset recordEnd (signedLength value) =
      .ok (some ((value.getD []).take maxValueSize,
        decide ((value.getD []).length > maxValueSize))) := by
  cases value with
  | none => rfl
  | some value =>
    simp only [Option.getD_some] at hat hend ⊢
    by_cases hempty : value = []
    · rw [hempty]
      rfl
    · have hpositive := length_pos_of_ne_nil hempty
      rw [readValue, signedLength, if_pos (by omega), Int.toNat_natCast,
        if_neg (Nat.not_lt.2 hend), hat.slice_take, bind_ok]

theorem signedLength_range (field : Option (List Byte)) (hfield : (field.getD []).length < 2 ^ 31) :
    -2 ^ 31 ≤ signedLength field ∧ signedLength field < 2 ^ 31 := by
  cases field with
  | none => exact ⟨by decide, by decide⟩
  | some =>
    rw [Option.getD_some] at hfield
    rw [signedLength]
    omega

section

variable (hsize : data.length < 2 ^ 31 + offset)

include hsize

theorem readRecordFields_at {record : Record}
    (htimestamp : record.ShortTimestamp) (hat : At data offset (record.fields ++ rest))
    (hend : recordEnd = offset + record.fields.length) :
    readRecordFields data offset recordEnd =
      .ok (some ((record.key.getD []).take maxKeySize, (record.value.getD []).take maxValueSize,
        decide ((record.value.getD []).length > maxValueSize))) := by
  simp only [Record.fields, signedBytes, append_assoc, length_append] at hat hend
  have hoffsetAt := hat.advance
  have hkeyLengthAt := hoffsetAt.advance
  have hkeyAt := hkeyLengthAt.advance
  have hvalueLengthAt := hkeyAt.advance
  have hvalueAt := hvalueLengthAt.advance
  have hkey := signedLength_range record.key (by have := hkeyAt.fits; omega)
  have hvalue := signedLength_range record.value (by have := hvalueAt.fits; omega)
  rw [readRecordFields, readSignedVarint_at hat htimestamp.1 htimestamp.2, bind_ok]
  simp only
  rw [readSignedVarint_at hoffsetAt record.offsetDelta.le_toInt record.offsetDelta.toInt_lt,
    bind_ok]
  simp only
  rw [readSignedVarint_at hkeyLengthAt hkey.1 hkey.2, bind_ok]
  simp only
  rw [readKey_at hkeyAt (by omega), bind_ok]
  simp only
  rw [readSignedVarint_at hvalueLengthAt hvalue.1 hvalue.2, bind_ok]
  simp only
  rw [readValue_at hvalueAt (by omega), bind_ok]

theorem readRecord_at {record : Record}
    (htimestamp : record.ShortTimestamp) (hat : At data offset (record.encode ++ rest)) :
    readRecord data offset =
      .ok (some ((record.key.getD []).take maxKeySize, (record.value.getD []).take maxValueSize,
        decide ((record.value.getD []).length > maxValueSize), offset + record.encode.length)) := by
  rw [Record.encode, append_assoc] at hat
  have hbody := hat.advance
  have hend := hbody.fits
  have hfields : At data (offset + (encodeSigned (record.fields.length + 1)).length + 1)
      (record.fields ++ rest) := by
    rw [cons_append, ← singleton_append] at hbody
    exact hbody.advance
  rw [length_cons] at hend
  rw [readRecord, if_neg (by omega), readSignedVarint_at hat (by omega) (by omega), bind_ok]
  simp only
  rw [if_neg (by omega), if_neg (by omega), if_neg (by omega),
    readRecordFields_at (by omega) htimestamp hfields (by omega), bind_ok, Record.encode,
    length_append, length_cons]
  simp only [ok_inj, Option.some.injEq, Prod.mk.injEq, true_and]
  omega

theorem readRecords_at (topic : List Byte) (partition : ℤ) {records : List Record} {limit : ℕ}
    (htimestamps : ∀ record ∈ records.take limit, record.ShortTimestamp)
    (hlimit : limit ≤ records.length)
    (hat : At data offset (records.flatMap Record.encode ++ rest)) (messages : List KafkaMessage) :
    readRecords data topic partition limit offset messages =
      .ok (messages ++ (records.take limit).map (Record.sample topic partition)) := by
  induction limit generalizing offset records messages with
  | zero => rw [readRecords, take_zero, map_nil, append_nil]
  | succ limit ih =>
    cases records with
    | nil => exact absurd hlimit (by simp)
    | cons record =>
      rw [flatMap_cons, append_assoc] at hat
      rw [readRecords, readRecord_at hsize (htimestamps record mem_cons_self) hat, bind_ok]
      simp only
      rw [ih (by omega) (forall_mem_cons.1 htimestamps).2
        (Nat.le_of_succ_le_succ hlimit) hat.advance, append_assoc]
      rfl

end

/-! ## Batches -/

/-- A batch gives its first records. -/
theorem extractRecordBatchMessages_at (hsize : data.length < 2 ^ 31 + 61) (topic : List Byte)
    (partition : ℤ) (batch : Batch) (hdata : data = batch.encode) {limit : ℕ}
    (htimestamps : ∀ record ∈ batch.records.take limit, record.ShortTimestamp) :
    extractRecordBatchMessages data topic partition limit =
      .ok ((batch.records.take limit).map (Record.sample topic partition)) := by
  have hlength := batch.length_encode
  rw [← hdata] at hlength
  have hcount := length_le_flatMap _ Record.encode_ne_nil batch.records
  have hleadAt := At.start data
  nth_rewrite 2 [hdata] at hleadAt
  have hmagicAt := hleadAt.advance
  have hcrcAt := hmagicAt.advance
  have hattributesAt := hcrcAt.advance
  have hcountAt := hattributesAt.advance.advance
  have hrecordsAt := hcountAt.advance
  simp only [batch.lead.property, batch.crc.property, batch.attributes.property,
    batch.middle.property, length_singleton, length_int32Bytes, Nat.zero_add, Nat.reduceAdd]
    at hmagicAt hattributesAt hcountAt hrecordsAt
  have hmagic : byteAt data 16 = .ok 2 := by
    rw [byteAt, At.getElem 2 hmagicAt]
  rw [extractRecordBatchMessages, if_neg (by omega), hmagic, bind_ok, if_neg (by simp),
    uintAt_at hattributesAt batch.attributes.property, bind_ok,
    if_neg (by simp [batch.uncompressed]), int32At_at hcountAt (by omega) (by omega), bind_ok]
  by_cases hempty : batch.records = []
  · rw [if_pos (by simp [hempty]), hempty, take_nil, map_nil]
  · have hpositive := length_pos_of_ne_nil hempty
    have htake : batch.records.take (min batch.records.length limit) = batch.records.take limit :=
      take_eq_take_iff.2 (by omega)
    have hread := readRecords_at hsize topic partition (htake ▸ htimestamps)
      (Nat.min_le_left batch.records.length limit)
      (by rw [append_nil]; exact hrecordsAt) []
    rw [if_neg (by omega), Int.toNat_natCast, hread, nil_append, htake]

/-- A batch of one record with this timestamp delta. -/
def stamped (timestampDelta : Int64) : Batch where
  lead := ⟨[0, 0, 0, 0, 0, 0, 0, 0, 0, 0, 0, 62, 0, 0, 0, 0], rfl⟩
  crc := ⟨[0, 0, 0, 0], rfl⟩
  attributes := ⟨[0, 0], rfl⟩
  middle := ⟨List.replicate 34 0, rfl⟩
  records := [⟨0, timestampDelta, 0, none, some [0x76], []⟩]
  uncompressed := rfl

end Qtap.Kafka
