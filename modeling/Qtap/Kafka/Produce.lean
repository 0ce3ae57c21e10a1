import Qtap.Kafka.Batch
import Qtap.Kafka.Topics

/-!
# Messages of a Produce request

Produce requests up to version 12, with topics, partitions and at most one record batch
for each partition.  The parser keeps one offset through its three loops.  Behind a null
record set of a flexible version it forgets the tagged fields of the partition, so that it
stays in step with the encoder only when nothing is left to read after such a set.
-/

namespace Qtap.Kafka

open List Option Qtap.Core Exec

/-! ## Requests -/

structure Partition where
  index : Int32
  batch : Option Batch
  tags : List TaggedField

def Partition.encode (flexible : Bool) (partition : Partition) : List Byte :=
  int32Bytes partition.index.toInt ++ (nullableBytes flexible (partition.batch.map Batch.encode) ++
    taggedFields flexible partition.tags)

def Partition.records (partition : Partition) : List Record :=
  match partition.batch with
  | none => []
  | some batch => batch.records

/-- The messages of a partition of the topic `topic`. -/
def Partition.samples (topic : List Byte) (partition : Partition) : List KafkaMessage :=
  partition.records.map (Record.sample topic partition.index.toInt)

structure ProduceTopic where
  name : List Byte
  partitions : List Partition
  tags : List TaggedField

def ProduceTopic.encode (flexible : Bool) (topic : ProduceTopic) : List Byte :=
  stringField flexible topic.name ++ (lengthField flexible topic.partitions.length ++
    (topic.partitions.flatMap (Partition.encode flexible) ++ taggedFields flexible topic.tags))

/-- The partitions of all topics in the order of the request, each with its topic. -/
def allPartitions (topics : List ProduceTopic) : List (List Byte × Partition) :=
  topics.flatMap fun topic => topic.partitions.map fun partition => (topic.name, partition)

/-- The messages of partitions, in order. -/
def samplesOf (partitions : List (List Byte × Partition)) : List KafkaMessage :=
  partitions.flatMap fun partition => partition.2.samples partition.1

/-- A Produce request of a version that names its topics. -/
structure ProduceRequest where
  version : ℕ
  header : Header
  fields : ProduceFields
  topics : List ProduceTopic
  tags : List TaggedField
  version_le : version ≤ 12
  partitions_ne : ∀ topic ∈ topics, topic.partitions ≠ []
  transactionalID_fits : ∀ text ∈ fields.transactionalID,
    StringFits (Api.produce.flexible version) text
  names_fit : ∀ topic ∈ topics, StringFits (Api.produce.flexible version) topic.name
  timestamps_short : ∀ partition ∈ allPartitions topics, ∀ record ∈ partition.2.records,
    record.ShortTimestamp

namespace ProduceRequest

def flexible (request : ProduceRequest) : Bool := Api.produce.flexible request.version

def message (request : ProduceRequest) : List Byte :=
  request.header.encode Api.produce.key request.version request.flexible ++
    (request.fields.encode request.version ++ (lengthField request.flexible request.topics.length ++
      (request.topics.flatMap (ProduceTopic.encode request.flexible) ++
        taggedFields request.flexible request.tags)))

/-- All messages of the request, in order over topics, partitions and records. -/
def samples (request : ProduceRequest) : List KafkaMessage :=
  samplesOf (allPartitions request.topics)

/-- The parser consumes the request and samples its first messages. -/
def Sampled (request : ProduceRequest) (more : List Byte) : Prop :=
  ∃ req, ({ buffer := frame request.message ++ more } : Parser).parseRequest =
      .ok (.ok req, { buffer := more }) ∧ req.messages = request.samples.take maxMessages

end ProduceRequest

/-- With `count` messages seen before, null record sets come after the first ten messages
or last. -/
def NullsLast (count : ℕ) (partitions : List (List Byte × Partition)) : Prop :=
  ∀ before partition after, partitions = before ++ partition :: after →
    partition.2.batch = none → after = [] ∨ maxMessages ≤ count + (samplesOf before).length

/-! ## Lists of partitions -/

theorem samplesOf_append (left right : List (List Byte × Partition)) :
    samplesOf (left ++ right) = samplesOf left ++ samplesOf right := flatMap_append

variable {count : ℕ} {partitions : List (List Byte × Partition)} {messages : List KafkaMessage}
  {partition : Partition}

theorem NullsLast.head {partition : List Byte × Partition}
    (hnulls : NullsLast count (partition :: partitions)) (hnull : partition.2.batch = none) :
    partitions = [] ∨ maxMessages ≤ count :=
  hnulls [] partition partitions rfl hnull

theorem NullsLast.drop {before : List (List Byte × Partition)}
    (hnulls : NullsLast count (before ++ partitions)) :
    NullsLast (count + (samplesOf before).length) partitions := by
  intro middle null after hsplit hnull
  rcases hnulls (before ++ middle) null after (by rw [hsplit, append_assoc]) hnull with
    hlast | hmany
  · exact .inl hlast
  · rw [samplesOf_append, length_append, ← Nat.add_assoc] at hmany
    exact .inr hmany

theorem NullsLast.tail {partition : List Byte × Partition}
    (hnulls : NullsLast count (partition :: partitions)) :
    NullsLast (count + (partition.2.samples partition.1).length) partitions := by
  have hdrop := @NullsLast.drop count partitions [partition] hnulls
  rwa [samplesOf, flatMap_singleton] at hdrop

theorem Partition.encode_ne_nil (flexible : Bool) (partition : Partition) :
    partition.encode flexible ≠ [] :=
  append_ne_nil_of_left_ne_nil (ne_nil_of_length_pos (by simp)) _

theorem ProduceTopic.encode_ne_nil (flexible : Bool) (topic : ProduceTopic) :
    topic.encode flexible ≠ [] :=
  append_ne_nil_of_left_ne_nil (nullableString_ne_nil flexible (some topic.name)) _

/-- Ten messages stay the first ten. -/
theorem take_maxMessages_of_ge {more : List KafkaMessage} (hfull : maxMessages ≤ messages.length) :
    (messages ++ more).take maxMessages = messages.take maxMessages :=
  take_append_of_le_length hfull

/-! ## Partitions -/

variable {data rest : List Byte} {offset : ℕ}

theorem extractPartition_batch (hsize : data.length < 2 ^ 31) (flexible : Bool) (name : List Byte)
    {batch : Batch} (hbatch : partition.batch = some batch)
    (htimestamps : ∀ record ∈ batch.records, record.ShortTimestamp)
    (hat : At data offset (partition.encode flexible ++ rest)) (messages : List KafkaMessage) :
    extractPartition data flexible name offset messages =
      .ok (messages ++ (partition.samples name).take (maxMessages - messages.length),
        some (offset + (partition.encode flexible).length)) := by
  have hlength := batch.length_encode
  simp only [Partition.encode, hbatch, map_some, nullableBytes, append_assoc] at hat ⊢
  have hsizeAt := hat.advance
  have hbatchAt := hsizeAt.advance
  have htagsAt := hbatchAt.advance
  have hfits := hat.fits
  have hend := hbatchAt.fits
  have hshort : batch.encode.length < 2 ^ 31 := by omega
  rw [length_int32Bytes] at hfits hsizeAt hbatchAt htagsAt hend
  rw [extractPartition, if_neg (Nat.not_lt.2 hfits),
    int32At_at hat partition.index.le_toInt partition.index.toInt_lt, bind_ok,
    readRecordSetSize_at flexible (by omega) hshort hsizeAt, bind_ok]
  simp only
  rw [if_neg (Nat.not_lt.2 hend), hbatchAt.slice, bind_ok,
    extractRecordBatchMessages_at (by omega) name _ batch rfl
      fun record hrecord => htimestamps record (mem_of_mem_take hrecord), bind_ok,
    skipTags_at hsize flexible partition.tags htagsAt, bind_ok, Partition.samples,
    Partition.records, hbatch, map_take]
  simp [length_int32Bytes, Nat.add_assoc]

theorem extractPartition_null (flexible : Bool) (name : List Byte) (hbatch : partition.batch = none)
    (hat : At data offset (partition.encode flexible ++ rest)) (messages : List KafkaMessage) :
    ∃ next, extractPartition data flexible name offset messages = .ok (messages, some next) ∧
      (flexible = false → At data next rest) := by
  simp only [Partition.encode, hbatch, map_none, nullableBytes, append_assoc] at hat
  have hsizeAt := hat.advance
  have hfits := hat.fits
  rw [length_int32Bytes] at hfits hsizeAt
  refine ⟨offset + 4 + (nullLength flexible).length, ?_, ?_⟩
  · rw [extractPartition, if_neg (Nat.not_lt.2 hfits),
      int32At_at hat partition.index.le_toInt partition.index.toInt_lt, bind_ok,
      readRecordSetSize_null flexible hsizeAt, bind_ok]
  · rintro rfl
    exact hsizeAt.advance

/-- One round of the partition loop adds the messages of the partition, and is in step with
the encoder unless it met a null record set. -/
theorem extractPartition_at (hsize : data.length < 2 ^ 31) (flexible : Bool) (name : List Byte)
    (htimestamps : ∀ record ∈ partition.records, record.ShortTimestamp)
    (hat : At data offset (partition.encode flexible ++ rest))
    (hroom : messages.length ≤ maxMessages) :
    ∃ next, extractPartition data flexible name offset messages =
        .ok ((messages ++ partition.samples name).take maxMessages, some next) ∧
      (At data next rest ∨ flexible = true ∧ partition.batch = none) := by
  cases hbatch : partition.batch with
  | none =>
    obtain ⟨next, hextract, hnext⟩ := extractPartition_null flexible name hbatch hat messages
    refine ⟨next, ?_, ?_⟩
    · rw [hextract, Partition.samples, Partition.records, hbatch, map_nil, append_nil,
        take_of_length_le hroom]
    · cases flexible with
      | false => exact .inl (hnext rfl)
      | true => exact .inr ⟨rfl, rfl⟩
  | some =>
    rw [Partition.records, hbatch] at htimestamps
    refine ⟨_, ?_, .inl hat.advance⟩
    rw [extractPartition_batch hsize flexible name hbatch htimestamps hat, take_append,
      take_of_length_le hroom]

theorem extractPartitions_full (flexible : Bool) (name : List Byte) (partCount : ℕ)
    (hfull : maxMessages ≤ messages.length) :
    extractPartitions data flexible name partCount offset messages =
      .ok (messages, some offset) := by
  cases partCount with
  | zero => rfl
  | succ => rw [extractPartitions, if_neg (Nat.not_lt.2 hfull)]

/-- The loop over the partitions of a topic, with the partitions of later topics in
`later`: it gathers the messages and ends in step with the encoder, unless ten messages
are gathered or nothing follows. -/
theorem extractPartitions_at (hsize : data.length < 2 ^ 31) {flexible : Bool} {name : List Byte}
    {partitions : List Partition} {later : List (List Byte × Partition)}
    (htimestamps : ∀ partition ∈ partitions, ∀ record ∈ partition.records, record.ShortTimestamp)
    (hat : At data offset (partitions.flatMap (Partition.encode flexible) ++ rest))
    (hroom : messages.length ≤ maxMessages) (hnulls : flexible = true →
      NullsLast messages.length (partitions.map (fun partition => (name, partition)) ++ later)) :
    ∃ next, extractPartitions data flexible name partitions.length offset messages =
        .ok ((messages ++ samplesOf (partitions.map fun partition => (name, partition))).take
          maxMessages, some next) ∧
      (At data next rest ∨
        maxMessages ≤ (messages ++ samplesOf (partitions.map fun partition =>
          (name, partition))).length ∨ later = []) := by
  induction partitions generalizing offset messages with
  | nil =>
    refine ⟨offset, ?_, .inl hat⟩
    rw [length_nil, extractPartitions, map_nil, samplesOf, flatMap_nil,
      append_nil, take_of_length_le hroom]
  | cons partition partitions ih =>
    rw [map_cons, samplesOf, flatMap_cons, ← append_assoc]
    rw [flatMap_cons, append_assoc] at hat
    rw [map_cons, cons_append] at hnulls
    by_cases hfull : maxMessages ≤ messages.length
    · refine ⟨offset, ?_, .inr (.inl ?_)⟩
      · rw [extractPartitions_full flexible name _ hfull, append_assoc,
          take_maxMessages_of_ge hfull, take_of_length_le hroom]
      · rw [append_assoc, length_append]
        omega
    obtain ⟨next, hextract, hnext⟩ := extractPartition_at hsize flexible name
      (htimestamps partition mem_cons_self) hat hroom
    rw [length_cons, extractPartitions, if_pos (Nat.not_le.1 hfull), hextract, bind_ok]
    simp only
    by_cases hten : maxMessages ≤ (messages ++ partition.samples name).length
    · -- the tenth message: the loop ends wherever it stands
      refine ⟨next, ?_, .inr (.inl ?_)⟩
      · rw [extractPartitions_full flexible name _ (by rw [length_take]; omega),
          take_maxMessages_of_ge hten]
      · rw [length_append]
        omega
    rw [take_of_length_le (Nat.not_le.1 hten).le]
    rcases hnext with hstep | ⟨rfl, hnull⟩
    · apply ih (forall_mem_cons.1 htimestamps).2 hstep (Nat.not_le.1 hten).le
      intro hflexible
      rw [length_append]
      exact (hnulls hflexible).tail
    · -- out of step behind a null record set, which is the last one
      have hlast := ((hnulls rfl).head hnull).resolve_right hfull
      rw [append_eq_nil_iff, map_eq_nil_iff] at hlast
      obtain ⟨rfl, hlater⟩ := hlast
      refine ⟨next, ?_, .inr (.inr hlater)⟩
      rw [length_nil, extractPartitions, map_nil, flatMap_nil, append_nil,
        take_of_length_le (Nat.not_le.1 hten).le]

/-! ## Topics -/

/-- One round of the topic loop. -/
theorem extractTopic_at (hsize : data.length < 2 ^ 31) (flexible : Bool) {topic : ProduceTopic}
    (hname : StringFits flexible topic.name) (hpartitions : topic.partitions ≠ [])
    (htimestamps : ∀ partition ∈ topic.partitions, ∀ record ∈ partition.records,
      record.ShortTimestamp) (later : List (List Byte × Partition))
    (hat : At data offset (topic.encode flexible ++ rest)) (hroom : messages.length ≤ maxMessages)
    (hnulls : flexible = true → NullsLast messages.length
      (topic.partitions.map (fun partition => (topic.name, partition)) ++ later)) :
    ∃ next, extractTopic data flexible offset messages =
        .ok ((messages ++ samplesOf (topic.partitions.map fun partition =>
          (topic.name, partition))).take maxMessages, next) ∧
      ((∃ position, next = some position ∧ At data position rest) ∨
        maxMessages ≤ (messages ++ samplesOf (topic.partitions.map fun partition =>
          (topic.name, partition))).length ∨ later = []) := by
  rw [ProduceTopic.encode, append_assoc, append_assoc, append_assoc] at hat
  have hcountAt := hat.advance
  have hpartitionsAt := hcountAt.advance
  have hcount := length_le_flatMap _ (Partition.encode_ne_nil flexible) topic.partitions
  have hbound : topic.partitions.length < 2 ^ 31 := by
    have hend := hpartitionsAt.fits
    omega
  obtain ⟨position, hextract, hposition⟩ := extractPartitions_at hsize htimestamps hpartitionsAt
    hroom hnulls
  rw [extractTopic, readTopicName_at hsize flexible hname hat, bind_ok]
  simp only
  rw [readCount_at flexible hbound hcountAt, if_neg (mt length_eq_zero_iff.1 hpartitions), bind_ok]
  simp only
  rw [hextract, bind_ok]
  simp only
  rcases hposition with hstep | hdone
  · rw [skipTags_at hsize flexible topic.tags hstep]
    exact ⟨_, rfl, .inl ⟨_, rfl, hstep.advance⟩⟩
  · obtain ⟨next, hskip⟩ := @skipTags_completes data position flexible
    rw [hskip]
    exact ⟨next, rfl, .inr hdone⟩

theorem extractTopics_full (flexible : Bool) (topicCount : ℕ)
    (hfull : maxMessages ≤ messages.length) :
    extractTopics data flexible topicCount offset messages = .ok messages := by
  cases topicCount with
  | zero => rfl
  | succ => rw [extractTopics, if_neg (Nat.not_lt.2 hfull)]

/-- The topic loop gathers the first ten messages. -/
theorem extractTopics_at (hsize : data.length < 2 ^ 31) (flexible : Bool)
    (topics : List ProduceTopic) (hnames : ∀ topic ∈ topics, StringFits flexible topic.name)
    (hpartitions : ∀ topic ∈ topics, topic.partitions ≠ [])
    (htimestamps : ∀ topic ∈ topics, ∀ partition ∈ topic.partitions, ∀ record ∈ partition.records,
      record.ShortTimestamp)
    (hat : At data offset (topics.flatMap (ProduceTopic.encode flexible) ++ rest))
    (messages : List KafkaMessage) (hroom : messages.length ≤ maxMessages)
    (hnulls : flexible = true → NullsLast messages.length (allPartitions topics)) :
    extractTopics data flexible topics.length offset messages =
      .ok ((messages ++ samplesOf (allPartitions topics)).take maxMessages) := by
  induction topics generalizing offset messages with
  | nil =>
    rw [length_nil, extractTopics, allPartitions, flatMap_nil, samplesOf,
      flatMap_nil, append_nil, take_of_length_le hroom]
  | cons topic topics ih =>
    have hsplit : allPartitions (topic :: topics) =
        topic.partitions.map (fun partition => (topic.name, partition)) ++ allPartitions topics :=
      flatMap_cons
    rw [hsplit, samplesOf_append, ← append_assoc]
    rw [flatMap_cons, append_assoc] at hat
    by_cases hfull : maxMessages ≤ messages.length
    · rw [extractTopics_full flexible _ hfull, append_assoc, take_maxMessages_of_ge hfull,
        take_of_length_le hroom]
    obtain ⟨next, hextract, hnext⟩ := extractTopic_at hsize flexible
      (hnames topic mem_cons_self) (hpartitions topic mem_cons_self)
      (htimestamps topic mem_cons_self) (allPartitions topics) hat hroom hnulls
    rw [length_cons, extractTopics, if_pos (Nat.not_le.1 hfull), hextract]
    by_cases hten : maxMessages ≤ (messages ++ samplesOf (topic.partitions.map fun partition =>
        (topic.name, partition))).length
    · rw [take_maxMessages_of_ge hten]
      cases next with
      | none => rfl
      | some =>
        exact extractTopics_full flexible _ (by rw [length_take]; omega)
    rw [take_of_length_le (Nat.not_le.1 hten).le]
    rcases hnext with ⟨_, rfl, hstep⟩ | hmany | hlater
    · apply ih (forall_mem_cons.1 hnames).2 (forall_mem_cons.1 hpartitions).2
        (forall_mem_cons.1 htimestamps).2 hstep _
        (Nat.not_le.1 hten).le
      intro hflexible
      rw [length_append]
      exact (hnulls hflexible).drop
    · exact absurd hmany hten
    · -- no partition follows, and so no topic
      have hnone : topics = [] := by
        cases topics with
        | nil => rfl
        | cons other =>
          rw [allPartitions, flatMap_cons, append_eq_nil_iff, map_eq_nil_iff] at hlater
          exact absurd hlater.1 (hpartitions other (by simp))
      rw [hnone]
      have hempty : samplesOf (allPartitions []) = [] := rfl
      rw [hempty, append_nil, take_of_length_le (Nat.not_le.1 hten).le]
      cases next with
      | none => rfl
      | some => rfl

/-! ## Requests -/

namespace ProduceRequest

variable {request : ProduceRequest}

theorem extractProduceMessages_at (hsize : data.length < 2 ^ 31)
    (hnulls : request.flexible = true → NullsLast 0 (allPartitions request.topics))
    (hat : At data offset (request.fields.encode request.version ++
      (lengthField request.flexible request.topics.length ++
        (request.topics.flatMap (ProduceTopic.encode request.flexible) ++ rest)))) :
    extractProduceMessages data offset request.version request.flexible =
      .ok (request.samples.take maxMessages) := by
  obtain ⟨_, hskip, hnext⟩ := skipTransactionalID_fields request.transactionalID_fits hsize hat
  have hcountAt := hat.advance
  have htopicsAt := hcountAt.advance
  have hcount := length_le_flatMap _ (ProduceTopic.encode_ne_nil request.flexible) request.topics
  have hbound : request.topics.length < 2 ^ 31 := by
    have hend := htopicsAt.fits
    omega
  have hmember (topic : ProduceTopic) (htopic : topic ∈ request.topics) (partition : Partition)
      (hpartition : partition ∈ topic.partitions) :
      (topic.name, partition) ∈ allPartitions request.topics :=
    mem_flatMap.2 ⟨topic, htopic, mem_map_of_mem hpartition⟩
  have hextract := extractTopics_at hsize request.flexible request.topics request.names_fit
    request.partitions_ne (fun topic htopic partition hpartition =>
      request.timestamps_short _ (hmember topic htopic partition hpartition)) htopicsAt
    [] (Nat.zero_le _) hnulls
  rw [flexible] at hcountAt hextract
  rw [extractProduceMessages, flexible, hskip, bind_ok]
  simp only
  rw [hnext, if_neg (Nat.not_lt.2 hcountAt.le)]
  rw [readCount_at _ hbound hcountAt]
  by_cases hempty : request.topics = []
  · rw [samples, hempty]
    rfl
  · rw [if_neg (mt length_eq_zero_iff.1 hempty)]
    exact hextract

/-- For every Produce request up to version 12 that the parser accepts, whatever its
topics, partitions and records are and whatever follows it, the messages are the first
ten in order.  In flexible versions a null record set must come last or behind them. -/
theorem produce_messages_sampled (request : ProduceRequest)
    (hsize : request.message.length ≤ maxMessageSize)
    (hnulls : request.flexible = true → NullsLast 0 (allPartitions request.topics))
    (more : List Byte) : request.Sampled more := by
  have hbound : request.message.length < 2 ^ 31 := hsize.trans_lt (by decide)
  have hflexible : isFlexibleVersion Api.produce.key request.version = request.flexible :=
    isFlexibleVersion_key .produce request.version
  have hversion : (0 : ℤ) ≤ request.version ∧ (request.version : ℤ) ≤ 20 := by
    have hle := request.version_le
    omega
  obtain ⟨start, hat, hparse⟩ := parseMessage_eq request.header (key_range .produce) hversion
    (by rw [hflexible]; rfl) hbound
  obtain ⟨topics, htopics⟩ := @extractProduceTopics_completes request.message start request.version
    request.flexible
  have hdetails : extractRequestDetails
      (request.header.request Api.produce.key request.version request.message) request.message start
        Api.produce.key request.version =
      .ok { request.header.request Api.produce.key request.version request.message with
        topics := topics, messages := request.samples.take maxMessages } := by
    change ((extractProduceTopics request.message start request.version
      (isFlexibleVersion Api.produce.key request.version)).bind fun topics =>
        (extractProduceMessages request.message start request.version
          (isFlexibleVersion Api.produce.key request.version)).bind fun messages =>
            .ok { request.header.request Api.produce.key request.version request.message with
              topics := topics, messages := messages }) = _
    rw [hflexible, htopics, bind_ok, extractProduceMessages_at hbound hnulls hat, bind_ok]
  rw [hdetails] at hparse
  exact ⟨_, parseRequest_of_parseMessage (request.header.eight_le_length _ _ _ _) hsize hparse more,
    rfl⟩

/-- A batch of one record without a key. -/
def batchOf (value : List Byte) : Batch :=
  { stamped 0 with
    lead := ⟨[0, 0, 0, 0, 0, 0, 0, 0, 0, 0, 0, 57, 0, 0, 0, 0], rfl⟩
    records := [⟨0, 0, 0, none, some value, []⟩] }

/-- A request for the topic `t`. -/
def requestFor (version : ℕ) (partitions : List Partition) (hversion : version ≤ 12)
    (hpartitions : partitions ≠ [])
    (htimestamps : ∀ partition ∈ partitions, ∀ record ∈ partition.records, record.ShortTimestamp) :
    ProduceRequest where
  version := version
  header := TypedRequest.offsetFetchOrders.header
  fields := { transactionalID := none, acks := ⟨[0, 1], rfl⟩, timeout := ⟨[0, 0, 0, 9], rfl⟩ }
  topics := [{ name := [0x74], partitions := partitions, tags := [] }]
  tags := []
  version_le := hversion
  partitions_ne := by simpa using hpartitions
  transactionalID_fits := nofun
  names_fit := by simp [StringFits]
  timestamps_short := by simpa [allPartitions] using htimestamps

theorem records_batchOf (index : Int32) (value : List Byte) :
    ∀ record ∈ ({ index := index, batch := some (batchOf value), tags := [] } : Partition).records,
      record.ShortTimestamp := by
  simp only [Partition.records, batchOf, mem_singleton, forall_eq, Record.ShortTimestamp]
  decide

/-- One record of `size` bytes. -/
def oneRecord (size : ℕ) : ProduceRequest :=
  requestFor 3 [{ index := 0, batch := some (batchOf (List.replicate size 0)), tags := [] }]
    (by decide) (cons_ne_nil _ _) (by
      intro partition hpartition
      rw [mem_singleton.1 hpartition]
      exact records_batchOf 0 _)

/-- A null record set before one record, in a flexible version. -/
def nullFirst : ProduceRequest :=
  requestFor 9 [{ index := 0, batch := none, tags := [] },
    { index := 1, batch := some (batchOf [0x76]), tags := [] }] (by decide) (cons_ne_nil _ _)
    (by simpa [Partition.records] using records_batchOf 1 _)

/-- One record before a null record set. -/
def nullLast : ProduceRequest :=
  requestFor 9 [{ index := 0, batch := some (batchOf [0x76]), tags := [] },
    { index := 1, batch := none, tags := [] }] (by decide) (cons_ne_nil _ _)
    (by simpa [Partition.records] using records_batchOf 0 _)

theorem length_batchOf (value : List Byte) (hvalue : value.length ≤ 2 ^ 30) :
    value.length < (batchOf value).encode.length ∧
      (batchOf value).encode.length ≤ value.length + 100 := by
  have hzero : (encodeSigned 0).length ≤ 5 := length_encodeSigned_le (by norm_num) (by norm_num)
  have hnull : (encodeSigned (-1)).length ≤ 5 := length_encodeSigned_le (by norm_num) (by norm_num)
  have hsize : (encodeSigned value.length).length ≤ 5 :=
    length_encodeSigned_le (by omega) (by omega)
  have hfields : (Record.fields ⟨0, 0, 0, none, some value, []⟩).length ≤ value.length + 25 := by
    simp only [Record.fields, signedBytes, signedLength, length_append, getD_none,
      getD_some, flatMap_nil, length_nil, Int64.toInt_zero, Int32.toInt_zero,
      Nat.cast_zero]
    omega
  have hlong : value.length ≤ (Record.fields ⟨0, 0, 0, none, some value, []⟩).length := by
    simp only [Record.fields, signedBytes, length_append, getD_some]
    omega
  have hrecord : (encodeSigned ((Record.fields ⟨0, 0, 0, none, some value, []⟩).length + 1)).length
      ≤ 5 := length_encodeSigned_le (by omega) (by omega)
  rw [Batch.length_encode, batchOf, flatMap_singleton, Record.encode, length_append, length_cons]
  omega

theorem length_oneRecord (size : ℕ) :
    (oneRecord size).message.length = 37 + (batchOf (List.replicate size 0)).encode.length := by
  simp only [message, oneRecord, requestFor, Header.encode, ProduceFields.encode,
    ProduceTopic.encode, Partition.encode, flexible, Api.flexible, Api.flexibleSince, stringField,
    lengthField, nullableBytes, nullableString, taggedFields, length_append, flatMap_cons,
    flatMap_nil, map_some, length_int16Bytes, length_int32Bytes, TypedRequest.offsetFetchOrders]
  simp
  omega

theorem nullsLast_nullLast : NullsLast 0 (allPartitions nullLast.topics) := by
  intro before partition after hsplit hnull
  rcases before with _ | ⟨first, _ | ⟨second, before⟩⟩
  · cases hsplit
    cases hnull
  · cases hsplit
    exact .inl rfl
  · cases before <;> cases hsplit

theorem not_sampled_of_error {error : ParseError} {rest : Parser} {more : List Byte}
    {request : ProduceRequest}
    (hparse : ({ buffer := frame request.message ++ more } : Parser).parseRequest =
      .ok (.error error, rest)) : ¬ request.Sampled more := by
  rintro ⟨_, hreq, -⟩
  rw [hparse, ok_inj, Prod.mk.injEq] at hreq
  exact nomatch hreq.1

/-- A request above the size limit is not parsed, and a null record set hides the record
behind it. -/
theorem produce_messages_lost :
    ¬ (oneRecord 104857600).Sampled [] ∧ (oneRecord 104857600).samples ≠ [] ∧
      ¬ nullFirst.Sampled [] ∧ nullFirst.samples = [⟨[0x74], 1, [], [0x76], false⟩] := by
  refine ⟨?_, ?_, ?_, ?_⟩
  · have hlength := length_oneRecord 104857600
    have hbatch := length_batchOf (List.replicate 104857600 0) (by
      norm_num)
    rw [length_replicate] at hbatch
    apply not_sampled_of_error
    apply parseRequest_of_oversize
    · rw [maxMessageSize]
      omega
    · omega
  · exact cons_ne_nil _ _
  · have hparse : ({ buffer := frame nullFirst.message ++ [] } : Parser).parseRequest =
        .ok (.ok { header := ⟨0, 9, 1, []⟩, messageSize := 105, topics := [[0x74]]
                   totalSize := 109 }, { buffer := [] }) := by
      decide +kernel
    rintro ⟨_, hreq, hmessages⟩
    rw [hparse, ok_inj, Prod.mk.injEq, Except.ok.injEq] at hreq
    rw [← hreq.1] at hmessages
    exact absurd hmessages (by decide)
  · decide

theorem produce_messages_sampled_nullLast :
    nullLast.message.length ≤ maxMessageSize ∧ NullsLast 0 (allPartitions nullLast.topics) ∧
      nullLast.Sampled [] := by
  have hsize : nullLast.message.length ≤ maxMessageSize := by
    decide +kernel
  exact ⟨hsize, nullsLast_nullLast,
    produce_messages_sampled nullLast hsize (fun _ => nullsLast_nullLast) []⟩

end ProduceRequest

end Qtap.Kafka
