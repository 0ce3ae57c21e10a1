import Qtap.Kafka.Response
import Qtap.Kafka.Wire

/-!
# The Kafka parser stays within the message

Every index and slice expression of the parser is guarded, so that each function returns
on arbitrary bytes.  The only premises are the ends that callers have checked before: a
record that lies within its batch, an offset that lies within the message.
-/

namespace Qtap.Kafka

open Qtap.Core

open Qtap.Core.Exec (completes_ok completes_ite completes_guard)

/-! ## Readers -/

variable {data : List Byte} {offset recordEnd : ℕ}

theorem byteAt_completes (hoffset : offset < data.length) : (byteAt data offset).Completes :=
  ⟨data[offset], by rw [byteAt, List.getElem?_eq_getElem hoffset]⟩

theorem uintAt_eq {width : ℕ} (hend : offset + width ≤ data.length) :
    uintAt width data offset = .ok (beValue ((data.drop offset).take width)) := by
  rw [uintAt, slice_of_le (Nat.le_add_right offset width) hend, Exec.bind_ok,
    Nat.add_sub_cancel_left]

theorem int16At_eq (hend : offset + 2 ≤ data.length) :
    int16At data offset = .ok (signed 16 (beValue ((data.drop offset).take 2))) := by
  rw [int16At, uintAt_eq hend, Exec.bind_ok]

theorem int32At_eq (hend : offset + 4 ≤ data.length) :
    int32At data offset = .ok (signed 32 (beValue ((data.drop offset).take 4))) := by
  rw [int32At, uintAt_eq hend, Exec.bind_ok]

theorem int16At_completes (hend : ¬ data.length < offset + 2) : (int16At data offset).Completes :=
  ⟨_, int16At_eq (Nat.not_lt.1 hend)⟩

theorem int32At_completes (hend : ¬ data.length < offset + 4) : (int32At data offset).Completes :=
  ⟨_, int32At_eq (Nat.not_lt.1 hend)⟩

/-- A string behind a length that has been checked against the message. -/
theorem slice_signed_completes {length : ℤ} (hlength : 0 ≤ length)
    (hend : offset + length ≤ data.length) :
    (slice data offset (offset + length) : Read (List Byte)).Completes := by
  lift length to ℕ using hlength
  exact_mod_cast slice_completes (E := Empty) (Nat.le_add_right offset length)
    (by exact_mod_cast hend)

variable {apiVersion : ℤ} {flexible : Bool} {count : ℕ} {topicName : List Byte}
  {messages : List KafkaMessage}

theorem readUnsignedVarint_completes : (readUnsignedVarint data offset).Completes :=
  ⟨_, readUnsignedVarint_eq⟩

theorem readSignedVarint_completes : (readSignedVarint data offset).Completes :=
  readUnsignedVarint_completes.bindSome rfl fun _ => completes_ok _

theorem skipFields_completes {numTags : ℕ} : (skipFields data numTags offset).Completes := by
  induction numTags generalizing offset with
  | zero => exact completes_ok _
  | succ numTags ih =>
    refine readUnsignedVarint_completes.bindSome rfl fun ⟨tag, n⟩ => ?_
    refine readUnsignedVarint_completes.bindSome rfl fun ⟨dataLen, m⟩ => ?_
    exact completes_guard fun _ => ih

theorem skipTags_completes : (skipTags data offset flexible).Completes := by
  refine completes_ite (fun _ => ?_) fun _ => completes_ok _
  exact readUnsignedVarint_completes.bindSome rfl fun _ =>
    skipFields_completes

theorem readCompactString_completes : (readCompactString data offset).Completes := by
  refine readUnsignedVarint_completes.bindSome rfl fun ⟨rawLen, n⟩ => ?_
  refine completes_guard fun _ => completes_guard fun hend => ?_
  exact (slice_completes (Nat.le_add_right _ _) (Nat.not_lt.1 hend)).bindOk _

theorem readCompactArrayLen_completes : (readCompactArrayLen data offset).Completes :=
  readUnsignedVarint_completes.bindSome rfl fun _ =>
    completes_guard fun _ => completes_ok _

theorem skipNullableString_completes : (skipNullableString data offset).Completes := by
  refine completes_guard fun hend => ?_
  refine (int16At_completes hend).bind fun strLen _ => ?_
  exact completes_guard fun _ => completes_guard fun _ => completes_ok _

/-! ## Records -/

section Records

variable (hend : recordEnd ≤ data.length)

include hend

theorem readKey_completes {keyLen : ℤ} : (readKey data offset recordEnd keyLen).Completes := by
  refine completes_ite (fun _ => completes_guard fun hover => ?_) fun _ => completes_ok _
  exact (slice_completes (Nat.le_add_right _ _) (by omega)).bindOk _

theorem readValue_completes {valueLen : ℤ} :
    (readValue data offset recordEnd valueLen).Completes := by
  refine completes_ite (fun _ => completes_guard fun hover => ?_) fun _ => completes_ok _
  exact (slice_completes (Nat.le_add_right _ _) (by omega)).bindOk _

theorem readRecordFields_completes : (readRecordFields data offset recordEnd).Completes := by
  refine readSignedVarint_completes.bindSome rfl fun ⟨timestampDelta, n⟩ => ?_
  refine readSignedVarint_completes.bindSome rfl fun ⟨offsetDelta, n⟩ => ?_
  refine readSignedVarint_completes.bindSome rfl fun ⟨keyLen, n⟩ => ?_
  refine (readKey_completes hend).bindSome rfl fun ⟨key, offset⟩ => ?_
  refine readSignedVarint_completes.bindSome rfl fun ⟨valueLen, n⟩ => ?_
  exact (readValue_completes hend).bindSome rfl fun _ => completes_ok _

end Records

theorem readRecord_completes : (readRecord data offset).Completes := by
  refine completes_guard fun _ => ?_
  refine readSignedVarint_completes.bindSome rfl fun ⟨recordLen, n⟩ => ?_
  refine completes_guard fun _ => completes_guard fun hend => completes_guard fun _ => ?_
  exact (readRecordFields_completes (Nat.not_lt.1 hend)).bindSome rfl fun _ => completes_ok _

theorem readRecords_completes {topic : List Byte} {partition : ℤ} {limit : ℕ} :
    (readRecords data topic partition limit offset messages).Completes := by
  induction limit generalizing offset messages with
  | zero => exact completes_ok _
  | succ limit ih => exact readRecord_completes.bindSome rfl fun _ => ih

theorem extractRecordBatchMessages_completes {topic : List Byte} {partition : ℤ} {maxMessages : ℕ} :
    (extractRecordBatchMessages data topic partition maxMessages).Completes := by
  refine completes_guard fun hshort => ?_
  refine (byteAt_completes (by omega)).bind fun magic _ => completes_guard fun _ => ?_
  have hattributes : (uintAt 2 data 21).Completes := ⟨_, uintAt_eq (by omega)⟩
  refine hattributes.bind fun attributes _ => completes_guard fun _ => ?_
  refine (int32At_completes (by omega)).bind fun recordCount _ => completes_guard fun _ => ?_
  exact readRecords_completes

/-! ## Produce requests -/

theorem readCount_completes : (readCount data offset flexible).Completes := by
  refine completes_ite (fun _ => ?_) fun _ => completes_guard fun hend => ?_
  · exact readCompactArrayLen_completes.bindSome rfl fun _ => completes_ok _
  · exact (int32At_completes hend).bindOk _

theorem readTopicName_completes : (readTopicName data offset flexible).Completes := by
  refine completes_ite (fun _ => readCompactString_completes) fun _ => ?_
  refine completes_guard fun hend => ?_
  refine (int16At_completes hend).bind fun tl _ => completes_guard fun hlength => ?_
  rw [not_or, not_lt, not_lt] at hlength
  exact (slice_signed_completes hlength.1 hlength.2).bindOk _

theorem readRecordSetSize_completes : (readRecordSetSize data offset flexible).Completes := by
  refine completes_ite (fun _ => ?_) fun _ => completes_guard fun hend => ?_
  · exact readUnsignedVarint_completes.bindSome rfl fun _ => completes_ok _
  · exact (int32At_completes hend).bindOk _

theorem extractPartition_completes :
    (extractPartition data flexible topicName offset messages).Completes := by
  refine completes_guard fun hend => ?_
  refine (int32At_completes hend).bind fun partitionID _ => ?_
  refine readRecordSetSize_completes.bindSome rfl ?_
  rintro ⟨_ | _, _⟩
  · exact completes_ok _
  · refine completes_guard fun hset => ?_
    apply (slice_completes (Nat.le_add_right _ _) (Nat.not_lt.1 hset)).bind
    intro batchData _
    apply extractRecordBatchMessages_completes.bind
    intro msgs _
    exact skipTags_completes.bindOk _

theorem extractPartitions_completes {partCount : ℕ} :
    (extractPartitions data flexible topicName partCount offset messages).Completes := by
  induction partCount generalizing offset messages with
  | zero => exact completes_ok _
  | succ partCount ih =>
    refine completes_ite (fun _ => ?_) fun _ => completes_ok _
    apply extractPartition_completes.bind
    rintro ⟨_, _ | _⟩ -
    · exact completes_ok _
    · exact ih

theorem extractTopic_completes : (extractTopic data flexible offset messages).Completes := by
  refine readTopicName_completes.bindSome rfl fun ⟨topicName, offset⟩ => ?_
  refine readCount_completes.bindSome rfl fun ⟨partCount, offset⟩ => ?_
  apply extractPartitions_completes.bind
  rintro ⟨_, _ | _⟩ -
  · exact completes_ok _
  · exact skipTags_completes.bindOk _

theorem extractTopics_completes {topicCount : ℕ} :
    (extractTopics data flexible topicCount offset messages).Completes := by
  induction topicCount generalizing offset messages with
  | zero => exact completes_ok _
  | succ topicCount ih =>
    refine completes_ite (fun _ => ?_) fun _ => completes_ok _
    apply extractTopic_completes.bind
    rintro ⟨_, _ | _⟩ -
    · exact completes_ok _
    · exact ih

theorem skipTransactionalID_completes :
    (skipTransactionalID data offset apiVersion flexible).Completes := by
  refine completes_ite (fun _ => ?_) fun _ => ?_
  · exact readCompactString_completes.bindSome rfl fun _ => completes_ok _
  · exact completes_ite (fun _ => skipNullableString_completes) fun _ => completes_ok _

theorem extractTopicArrayLegacy_completes : (extractTopicArrayLegacy data offset).Completes := by
  refine completes_guard fun hend => ?_
  refine (int32At_completes hend).bind fun arrayLen _ => ?_
  refine completes_guard fun _ => completes_guard fun hname => ?_
  refine (int16At_completes hname).bind fun topicLen _ => ?_
  refine completes_guard fun hlength => ?_
  rw [not_or, not_le, not_lt] at hlength
  exact (slice_signed_completes hlength.1.le hlength.2).bindOk _

theorem extractTopicArray_completes : (extractTopicArray data offset flexible).Completes := by
  refine completes_ite (fun _ => ?_) fun _ => extractTopicArrayLegacy_completes
  refine readCompactArrayLen_completes.bindSome rfl fun ⟨arrayLen, offset⟩ => ?_
  refine completes_guard fun _ => completes_guard fun _ => ?_
  exact readCompactString_completes.bindSome rfl fun _ => completes_ok _

theorem extractProduceTopics_completes :
    (extractProduceTopics data offset apiVersion flexible).Completes :=
  skipTransactionalID_completes.bindSome rfl fun _ =>
    completes_guard fun _ => extractTopicArray_completes

/-- On arbitrary bytes the extraction of messages returns. -/
theorem extractProduceMessages_completes :
    (extractProduceMessages data offset apiVersion flexible).Completes := by
  refine skipTransactionalID_completes.bindSome rfl fun _ => ?_
  refine completes_guard fun _ => ?_
  exact readCount_completes.bindSome rfl fun _ =>
    extractTopics_completes

/-! ## Requests -/

theorem extractGroupID_completes : (extractGroupID data offset flexible).Completes := by
  refine completes_ite (fun _ => ?_) fun _ => completes_guard fun hend => ?_
  · exact readCompactString_completes.bindSome rfl fun _ => completes_ok _
  · apply (int16At_completes hend).bind
    refine fun strLen _ => completes_guard fun hlength => ?_
    rw [not_or, not_le, not_lt] at hlength
    exact slice_signed_completes hlength.1.le hlength.2

theorem extractRequestDetails_completes {req : Request} {data : List Byte} {offset : ℕ}
    {apiKey apiVersion : ℤ} :
    (extractRequestDetails req data offset apiKey apiVersion).Completes := by
  have hgroup : ((extractGroupID data offset (isFlexibleVersion apiKey apiVersion)).bind
      fun groupID => Exec.ok { req with groupID := groupID }).Completes :=
    extractGroupID_completes.bindOk _
  have hmetadata (flexible : Bool) : (extractMetadataTopics data offset flexible).Completes :=
    completes_guard fun _ => extractTopicArray_completes
  unfold extractRequestDetails
  split
  · apply extractProduceTopics_completes.bind
    intro topics _
    exact extractProduceMessages_completes.bindOk _
  · have hfetch (flexible : Bool) :
        (extractFetchTopics data offset apiVersion flexible).Completes :=
      completes_guard fun _ => extractTopicArray_completes
    exact (hfetch _).bindOk _
  · exact (hmetadata _).bindOk _
  · exact (hmetadata _).bindOk _
  all_goals first | exact hgroup | exact completes_ok _

theorem readClientID_completes : (readClientID data offset).Completes := by
  refine completes_ite (fun hend => ?_) fun _ => completes_ok _
  apply (int16At_completes (Nat.not_lt.2 hend)).bind
  refine fun clientIDLen _ => completes_ite (fun hlength => ?_) fun _ => completes_ok _
  exact (slice_signed_completes hlength.1.le hlength.2).bindOk _

/-! ## Responses -/

theorem readArrayLen_completes : (readArrayLen data offset flexible).Completes := by
  refine completes_ite (fun _ => readCompactArrayLen_completes) fun _ => ?_
  exact completes_guard fun hend => (int32At_completes hend).bindOk _

theorem readBytesField_completes : (readBytesField data offset flexible).Completes := by
  refine completes_ite (fun _ => ?_) fun _ => completes_guard fun hend => ?_
  · refine readUnsignedVarint_completes.bindSome rfl fun ⟨rawLen, n⟩ => ?_
    refine completes_guard fun _ => completes_guard fun hsize => ?_
    exact (slice_completes (Nat.le_add_right _ _) (Nat.not_lt.1 hsize)).bindOk _
  · apply (int32At_completes hend).bind
    refine fun size _ => completes_guard fun hnull => completes_guard fun hsize => ?_
    exact (slice_signed_completes (not_le.1 hnull).le (not_lt.1 hsize)).bindOk _

theorem skipTopicName_completes : (skipTopicName data offset flexible).Completes := by
  refine completes_ite (fun _ => ?_) fun _ => completes_guard fun hend => ?_
  · exact readCompactString_completes.bindSome rfl fun _ => completes_ok _
  · apply (int16At_completes hend).bind
    exact fun tl _ => completes_guard fun _ => completes_ok _

theorem firstPartitionErrorCode_completes :
    (firstPartitionErrorCode data offset flexible).Completes := by
  refine readArrayLen_completes.bindSome rfl fun ⟨topicCount, offset⟩ => ?_
  refine completes_guard fun _ => ?_
  refine skipTopicName_completes.bindSome rfl fun offset => ?_
  refine readArrayLen_completes.bindSome rfl fun ⟨partCount, offset⟩ => ?_
  refine completes_guard fun _ => completes_guard fun hend => ?_
  exact (int16At_completes (by omega)).bindOk _

theorem extractResponseErrorCode_completes {body : List Byte} {apiKey apiVersion : ℤ} :
    (extractResponseErrorCode body apiKey apiVersion).Completes := by
  unfold extractResponseErrorCode
  split
  · refine skipTags_completes.bindSome rfl fun offset => ?_
    refine completes_ite (fun _ => completes_guard fun _ => ?_) fun _ => ?_ <;>
      exact firstPartitionErrorCode_completes
  · exact completes_ok _

/-! ### Fetch responses -/

theorem skipTransactions_completes : (skipTransactions data flexible count offset).Completes := by
  induction count generalizing offset with
  | zero => exact completes_ok _
  | succ count ih => exact skipTags_completes.bindSome rfl fun _ => ih

theorem skipPartitionFields_completes :
    (skipPartitionFields data offset apiVersion flexible).Completes := by
  have hskip (offset : ℕ) : (skipAbortedTransactions data offset flexible).Completes :=
    readArrayLen_completes.bindSome rfl fun ⟨_, offset⟩ =>
      skipTransactions_completes
  refine completes_ite (fun _ => ?_) fun _ => completes_ok _
  exact (hskip _).bindSome rfl fun _ => completes_ok _

theorem parseFetchPartition_completes :
    (parseFetchPartition data offset apiVersion flexible).Completes := by
  refine completes_guard fun hend => ?_
  refine (int32At_completes (by omega)).bind fun partitionID _ => ?_
  refine skipPartitionFields_completes.bindSome rfl ?_
  refine fun offset => completes_guard fun _ => ?_
  refine readBytesField_completes.bindSome rfl fun ⟨recordSet, offset⟩ => ?_
  exact skipTags_completes.bindSome rfl fun _ => completes_ok _

theorem fetchPartitions_completes {partCount : ℕ} :
    (fetchPartitions data apiVersion flexible topicName partCount offset messages).Completes := by
  induction partCount generalizing offset messages with
  | zero => exact completes_ok _
  | succ partCount ih =>
    refine completes_ite (fun _ => ?_) fun _ => completes_ok _
    refine parseFetchPartition_completes.bindSome rfl ?_
    refine fun ⟨partitionID, recordSetData, offset⟩ => completes_ite (fun _ => ?_) fun _ => ih
    exact extractRecordBatchMessages_completes.bind fun msgs _ => ih

theorem fetchTopic_completes : (fetchTopic data apiVersion flexible offset messages).Completes := by
  refine (completes_guard fun _ => readTopicName_completes).bindSome rfl ?_
  rintro ⟨_, offset⟩
  refine readArrayLen_completes.bindSome rfl fun ⟨partCount, offset⟩ => ?_
  refine completes_guard fun _ => ?_
  apply fetchPartitions_completes.bind
  rintro ⟨_, _ | _⟩ -
  · exact completes_ok _
  · exact skipTags_completes.bindOk _

theorem fetchTopics_completes {topicCount : ℕ} :
    (fetchTopics data apiVersion flexible topicCount offset messages).Completes := by
  induction topicCount generalizing offset messages with
  | zero => exact completes_ok _
  | succ topicCount ih =>
    refine completes_ite (fun _ => ?_) fun _ => completes_ok _
    apply fetchTopic_completes.bind
    rintro ⟨_, _ | _⟩ -
    · exact completes_ok _
    · exact ih

theorem extractFetchResponseMessages_completes {body : List Byte} {apiVersion : ℤ} :
    (extractFetchResponseMessages body apiVersion).Completes := by
  have hheader : (skipFetchResponseHeader body apiVersion
      (isFlexibleVersion apiKeyFetch apiVersion)).Completes :=
    skipTags_completes.bindSome rfl fun _ => completes_ok _
  refine hheader.bindSome rfl fun offset => completes_guard fun _ => ?_
  refine readArrayLen_completes.bindSome rfl fun ⟨topicCount, offset⟩ => ?_
  exact completes_guard fun _ => fetchTopics_completes

end Qtap.Kafka
