import Qtap.Kafka.Reader

/-!
# The Kafka request parser

`ParseRequest` with everything it extracts from a request: the first topic of the APIs
that name topics, the group of the consumer-group APIs, and up to ten messages of a
Produce request.
-/

namespace Qtap.Kafka

open Qtap.Core

/-! ## Types -/

structure RequestHeader where
  apiKey : ℤ
  apiVersion : ℤ
  correlationID : ℤ
  clientID : List Byte := []
  deriving DecidableEq, Repr

/-- A sampled message. -/
structure KafkaMessage where
  topic : List Byte
  partition : ℤ
  key : List Byte
  value : List Byte
  truncated : Bool
  deriving DecidableEq, Repr

structure Request where
  header : RequestHeader
  messageSize : ℤ
  topics : List (List Byte) := []
  groupID : List Byte := []
  messages : List KafkaMessage := []
  totalSize : ℕ
  deriving DecidableEq, Repr

inductive ParseError where
  | incomplete
  | invalidFormat
  deriving DecidableEq, Repr

structure Parser where
  buffer : List Byte
  deriving DecidableEq, Repr

def newParser : Parser where
  buffer := []

def Parser.append (p : Parser) (data : List Byte) : Parser where
  buffer := p.buffer ++ data

/-! ## APIs and versions -/

@[match_pattern] abbrev apiKeyProduce : ℤ := 0
@[match_pattern] abbrev apiKeyFetch : ℤ := 1
@[match_pattern] abbrev apiKeyListOffsets : ℤ := 2
@[match_pattern] abbrev apiKeyMetadata : ℤ := 3
@[match_pattern] abbrev apiKeyOffsetCommit : ℤ := 8
@[match_pattern] abbrev apiKeyOffsetFetch : ℤ := 9
@[match_pattern] abbrev apiKeyFindCoordinator : ℤ := 10
@[match_pattern] abbrev apiKeyJoinGroup : ℤ := 11
@[match_pattern] abbrev apiKeyHeartbeat : ℤ := 12
@[match_pattern] abbrev apiKeyLeaveGroup : ℤ := 13
@[match_pattern] abbrev apiKeySyncGroup : ℤ := 14
@[match_pattern] abbrev apiKeyDescribeGroups : ℤ := 15
@[match_pattern] abbrev apiKeyListGroups : ℤ := 16
@[match_pattern] abbrev apiKeySaslHandshake : ℤ := 17
@[match_pattern] abbrev apiKeyApiVersions : ℤ := 18
@[match_pattern] abbrev apiKeyCreateTopics : ℤ := 19
@[match_pattern] abbrev apiKeyDeleteTopics : ℤ := 20
@[match_pattern] abbrev apiKeySaslAuthenticate : ℤ := 36

/-- Flexible versions have tagged fields and compact strings and arrays. -/
def isFlexibleVersion (apiKey apiVersion : ℤ) : Bool :=
  match apiKey with
  | apiKeyProduce => 9 ≤ apiVersion
  | apiKeyFetch => 12 ≤ apiVersion
  | apiKeyListOffsets => 6 ≤ apiVersion
  | apiKeyMetadata => 9 ≤ apiVersion
  | apiKeyOffsetCommit => 8 ≤ apiVersion
  | apiKeyOffsetFetch => 6 ≤ apiVersion
  | apiKeyFindCoordinator => 3 ≤ apiVersion
  | apiKeyJoinGroup => 6 ≤ apiVersion
  | apiKeyHeartbeat => 4 ≤ apiVersion
  | apiKeyLeaveGroup => 4 ≤ apiVersion
  | apiKeySyncGroup => 4 ≤ apiVersion
  | apiKeyDescribeGroups => 5 ≤ apiVersion
  | apiKeyListGroups => 3 ≤ apiVersion
  | apiKeySaslHandshake => 1 ≤ apiVersion
  -- flexible from version 3 on, but the header of its requests never is
  | apiKeyApiVersions => false
  | apiKeyCreateTopics => 5 ≤ apiVersion
  | apiKeyDeleteTopics => 4 ≤ apiVersion
  | apiKeySaslAuthenticate => 2 ≤ apiVersion
  | _ => false

/-! ## Topics and groups -/

def extractTopicArrayLegacy (data : List Byte) (offset : ℕ) : Read (List (List Byte)) :=
  if offset + 4 > data.length then .ok []
  else
    (int32At data offset).bind fun arrayLen =>
      if arrayLen ≤ 0 ∨ arrayLen > 10000 then .ok []
      else if offset + 4 + 2 > data.length then .ok []
      else
        (int16At data (offset + 4)).bind fun topicLen =>
          let offset := offset + 4 + 2
          if topicLen ≤ 0 ∨ offset + topicLen > data.length then .ok []
          else (slice data offset (offset + topicLen)).bind fun topic => .ok [topic]

def extractTopicArrayCompact (data : List Byte) (offset : ℕ) : Read (List (List Byte)) :=
  (readCompactArrayLen data offset).bind fun
    | none => .ok []
    | some (arrayLen, offset) =>
      if arrayLen ≤ 0 then .ok []
      else if arrayLen > 10000 then .ok []
      else
        (readCompactString data offset).bind fun
          | none => .ok []
          | some (topicName, _) => .ok (if topicName = [] then [] else [topicName])

def extractTopicArray (data : List Byte) (offset : ℕ) (flexible : Bool) : Read (List (List Byte)) :=
  if flexible then extractTopicArrayCompact data offset else extractTopicArrayLegacy data offset

/-- The transactional id of a Produce request, from version 3 on. -/
def skipTransactionalID (data : List Byte) (offset : ℕ) (apiVersion : ℤ) (flexible : Bool) :
    Read (Option ℕ) :=
  if flexible then
    (readCompactNullableString data offset).bind fun
      | none => .ok none
      | some (_, offset) => .ok (some offset)
  else if 3 ≤ apiVersion then skipNullableString data offset
  else .ok (some offset)

def extractProduceTopics (data : List Byte) (offset : ℕ) (apiVersion : ℤ) (flexible : Bool) :
    Read (List (List Byte)) :=
  (skipTransactionalID data offset apiVersion flexible).bind fun
    | none => .ok []
    | some offset =>
      -- acks and timeout
      let offset := offset + 6
      if offset > data.length then .ok [] else extractTopicArray data offset flexible

/-- The bytes that `extractFetchTopics` takes to stand before the topics. -/
def fetchPreamble (apiVersion : ℤ) : ℕ :=
  12 + (if 3 ≤ apiVersion then 4 else 0) + (if 4 ≤ apiVersion then 1 else 0) +
    (if 7 ≤ apiVersion then 8 else 0)

def extractFetchTopics (data : List Byte) (offset : ℕ) (apiVersion : ℤ) (flexible : Bool) :
    Read (List (List Byte)) :=
  let offset := offset + fetchPreamble apiVersion
  if offset > data.length then .ok [] else extractTopicArray data offset flexible

def extractMetadataTopics (data : List Byte) (offset : ℕ) (flexible : Bool) :
    Read (List (List Byte)) :=
  if offset > data.length then .ok [] else extractTopicArray data offset flexible

def extractCreateTopicsTopics (data : List Byte) (offset : ℕ) (flexible : Bool) :
    Read (List (List Byte)) :=
  if offset > data.length then .ok [] else extractTopicArray data offset flexible

def extractGroupID (data : List Byte) (offset : ℕ) (flexible : Bool) : Read (List Byte) :=
  if flexible then
    (readCompactString data offset).bind fun
      | none => .ok []
      | some (s, _) => .ok s
  else if offset + 2 > data.length then .ok []
  else
    (int16At data offset).bind fun strLen =>
      let offset := offset + 2
      if strLen ≤ 0 ∨ offset + strLen > data.length then .ok []
      else slice data offset (offset + strLen)

/-! ## Messages -/

def maxMessages : ℕ := 10
def maxValueSize : ℕ := 65536
def maxKeySize : ℕ := 1024

/-- The key of a record whose length has been read: the bytes kept and the offset behind
it, or nothing when it does not fit into the record. -/
def readKey (data : List Byte) (offset recordEnd : ℕ) (keyLen : ℤ) :
    Read (Option (List Byte × ℕ)) :=
  if keyLen > 0 then
    if offset + keyLen.toNat > recordEnd then .ok none
    else
      (slice data offset (offset + min keyLen.toNat maxKeySize : ℕ)).bind fun key =>
        .ok (some (key, offset + keyLen.toNat))
  else .ok (some ([], offset))

/-- The value of a record whose length has been read, and whether it was cut. -/
def readValue (data : List Byte) (offset recordEnd : ℕ) (valueLen : ℤ) :
    Read (Option (List Byte × Bool)) :=
  if valueLen > 0 then
    if offset + valueLen.toNat > recordEnd then .ok none
    else
      (slice data offset (offset + min valueLen.toNat maxValueSize : ℕ)).bind fun value =>
        .ok (some (value, decide (valueLen.toNat > maxValueSize)))
  else .ok (some ([], false))

/-- The fields of a record from the timestamp delta on. -/
def readRecordFields (data : List Byte) (offset recordEnd : ℕ) :
    Read (Option (List Byte × List Byte × Bool)) :=
  (readSignedVarint data offset).bind fun
    | none => .ok none
    | some (_, n) =>
      let offset := offset + n
      (readSignedVarint data offset).bind fun
        | none => .ok none
        | some (_, n) =>
          let offset := offset + n
          (readSignedVarint data offset).bind fun
            | none => .ok none
            | some (keyLen, n) =>
              (readKey data (offset + n) recordEnd keyLen).bind fun
                | none => .ok none
                | some (key, offset) =>
                  (readSignedVarint data offset).bind fun
                    | none => .ok none
                    | some (valueLen, n) =>
                      (readValue data (offset + n) recordEnd valueLen).bind fun
                        | none => .ok none
                        | some (value, truncated) => .ok (some (key, value, truncated))

/-- One round of the record loop: the key, the value, whether it was cut and the end of
the record, or nothing where the loop breaks. -/
def readRecord (data : List Byte) (offset : ℕ) :
    Read (Option (List Byte × List Byte × Bool × ℕ)) :=
  if offset ≥ data.length then .ok none
  else
    (readSignedVarint data offset).bind fun
      | none => .ok none
      | some (recordLen, n) =>
        if recordLen < 0 then .ok none
        else
          let offset := offset + n
          let recordEnd := offset + recordLen.toNat
          if recordEnd > data.length then .ok none
          else if offset ≥ recordEnd then .ok none
          else
            -- attributes
            (readRecordFields data (offset + 1) recordEnd).bind fun
              | none => .ok none
              | some (key, value, truncated) => .ok (some (key, value, truncated, recordEnd))

/-- The record loop of `extractRecordBatchMessages`. -/
def readRecords (data topic : List Byte) (partition : ℤ) :
    ℕ → ℕ → List KafkaMessage → Read (List KafkaMessage)
  | 0, _, messages => .ok messages
  | limit + 1, offset, messages =>
    (readRecord data offset).bind fun
      | none => .ok messages
      | some (key, value, truncated, recordEnd) =>
        readRecords data topic partition limit recordEnd
          (messages ++ [⟨topic, partition, key, value, truncated⟩])

def extractRecordBatchMessages (data topic : List Byte) (partition : ℤ) (maxMessages : ℕ) :
    Read (List KafkaMessage) :=
  if data.length < 61 then .ok []
  else
    (byteAt data 16).bind fun magic =>
      if magic ≠ 2 then .ok []
      else
        (uintAt 2 data 21).bind fun attributes =>
          if attributes &&& 0x07 ≠ 0 then .ok []
          else
            (int32At data 57).bind fun recordCount =>
              if recordCount ≤ 0 then .ok []
              else readRecords data topic partition (min recordCount.toNat maxMessages) 61 []

/-- An array length of a Produce request, and the offset behind it. -/
def readCount (data : List Byte) (offset : ℕ) (flexible : Bool) : Read (Option (ℕ × ℕ)) :=
  if flexible then
    (readCompactArrayLen data offset).bind fun
      | none => .ok none
      | some (count, offset) => .ok (if count ≤ 0 then none else some (count.toNat, offset))
  else if offset + 4 > data.length then .ok none
  else
    (int32At data offset).bind fun count =>
      .ok (if count ≤ 0 then none else some (count.toNat, offset + 4))

def readTopicName (data : List Byte) (offset : ℕ) (flexible : Bool) :
    Read (Option (List Byte × ℕ)) :=
  if flexible then readCompactString data offset
  else if offset + 2 > data.length then .ok none
  else
    (int16At data offset).bind fun tl =>
      let offset := offset + 2
      if tl < 0 ∨ offset + tl > data.length then .ok none
      else
        (slice data offset (offset + tl)).bind fun topicName =>
          .ok (some (topicName, offset + tl.toNat))

/-- The size of a record set and the offset behind it.  The size is missing where the
loop continues with the next partition. -/
def readRecordSetSize (data : List Byte) (offset : ℕ) (flexible : Bool) :
    Read (Option (Option ℕ × ℕ)) :=
  if flexible then
    (readUnsignedVarint data offset).bind fun
      | none => .ok none
      | some (rawLen, n) =>
        .ok (some (if rawLen = 0 then none else some (rawLen - 1), offset + n))
  else if offset + 4 > data.length then .ok none
  else
    (int32At data offset).bind fun recordSetSize =>
      .ok (some (if recordSetSize ≤ 0 then none else some recordSetSize.toNat, offset + 4))

def skipTags (data : List Byte) (offset : ℕ) (flexible : Bool) : Read (Option ℕ) :=
  if flexible then skipTaggedFields data offset else .ok (some offset)

/-- One round of the partition loop.  The offset is missing where the function returns. -/
def extractPartition (data : List Byte) (flexible : Bool) (topicName : List Byte) (offset : ℕ)
    (messages : List KafkaMessage) : Read (List KafkaMessage × Option ℕ) :=
  if offset + 4 > data.length then .ok (messages, none)
  else
    (int32At data offset).bind fun partitionID =>
      (readRecordSetSize data (offset + 4) flexible).bind fun
        | none => .ok (messages, none)
        -- a null record set: on to the next partition, past no tagged fields
        | some (none, offset) => .ok (messages, some offset)
        | some (some recordSetSize, offset) =>
          if offset + recordSetSize > data.length then .ok (messages, none)
          else
            (slice data offset (offset + recordSetSize : ℕ)).bind fun batchData =>
              (extractRecordBatchMessages batchData topicName partitionID
                (maxMessages - messages.length)).bind fun msgs =>
                  (skipTags data (offset + recordSetSize) flexible).bind fun next =>
                    .ok (messages ++ msgs, next)

/-- The partition loop. -/
def extractPartitions (data : List Byte) (flexible : Bool) (topicName : List Byte) :
    ℕ → ℕ → List KafkaMessage → Read (List KafkaMessage × Option ℕ)
  | 0, offset, messages => .ok (messages, some offset)
  | partCount + 1, offset, messages =>
    if messages.length < maxMessages then
      (extractPartition data flexible topicName offset messages).bind fun
        | (messages, none) => .ok (messages, none)
        | (messages, some offset) =>
          extractPartitions data flexible topicName partCount offset messages
    else .ok (messages, some offset)

/-- One round of the topic loop. -/
def extractTopic (data : List Byte) (flexible : Bool) (offset : ℕ) (messages : List KafkaMessage) :
    Read (List KafkaMessage × Option ℕ) :=
  (readTopicName data offset flexible).bind fun
    | none => .ok (messages, none)
    | some (topicName, offset) =>
      (readCount data offset flexible).bind fun
        | none => .ok (messages, none)
        | some (partCount, offset) =>
          (extractPartitions data flexible topicName partCount offset messages).bind fun
            | (messages, none) => .ok (messages, none)
            | (messages, some offset) =>
              (skipTags data offset flexible).bind fun next => .ok (messages, next)

/-- The topic loop. -/
def extractTopics (data : List Byte) (flexible : Bool) :
    ℕ → ℕ → List KafkaMessage → Read (List KafkaMessage)
  | 0, _, messages => .ok messages
  | topicCount + 1, offset, messages =>
    if messages.length < maxMessages then
      (extractTopic data flexible offset messages).bind fun
        | (messages, none) => .ok messages
        | (messages, some offset) => extractTopics data flexible topicCount offset messages
    else .ok messages

def extractProduceMessages (data : List Byte) (offset : ℕ) (apiVersion : ℤ) (flexible : Bool) :
    Read (List KafkaMessage) :=
  (skipTransactionalID data offset apiVersion flexible).bind fun
    | none => .ok []
    | some offset =>
      let offset := offset + 6
      if offset > data.length then .ok []
      else
        (readCount data offset flexible).bind fun
          | none => .ok []
          | some (topicCount, offset) => extractTopics data flexible topicCount offset []

/-! ## Requests -/

def extractRequestDetails (req : Request) (data : List Byte) (offset : ℕ)
    (apiKey apiVersion : ℤ) : Read Request :=
  let flexible := isFlexibleVersion apiKey apiVersion
  let group :=
    (extractGroupID data offset flexible).bind fun groupID => .ok { req with groupID := groupID }
  match apiKey with
  | apiKeyProduce =>
    (extractProduceTopics data offset apiVersion flexible).bind fun topics =>
      (extractProduceMessages data offset apiVersion flexible).bind fun messages =>
        .ok { req with topics := topics, messages := messages }
  | apiKeyFetch =>
    (extractFetchTopics data offset apiVersion flexible).bind fun topics =>
      .ok { req with topics := topics }
  | apiKeyMetadata =>
    (extractMetadataTopics data offset flexible).bind fun topics =>
      .ok { req with topics := topics }
  | apiKeyCreateTopics =>
    (extractCreateTopicsTopics data offset flexible).bind fun topics =>
      .ok { req with topics := topics }
  | apiKeyJoinGroup => group
  | apiKeySyncGroup => group
  | apiKeyOffsetCommit => group
  | apiKeyOffsetFetch => group
  | apiKeyHeartbeat => group
  | apiKeyLeaveGroup => group
  | _ => .ok req

/-- The client id and the offset behind it. -/
def readClientID (data : List Byte) (offset : ℕ) : Read (List Byte × ℕ) :=
  if offset + 2 ≤ data.length then
    (int16At data offset).bind fun clientIDLen =>
      let offset := offset + 2
      if clientIDLen > 0 ∧ offset + clientIDLen ≤ data.length then
        (slice data offset (offset + clientIDLen)).bind fun clientID =>
          .ok (clientID, offset + clientIDLen.toNat)
      else .ok ([], offset)
  else .ok ([], offset)

/-- `ParseRequest` on a complete message: the request, or nothing for an invalid header. -/
def parseMessage (data : List Byte) (messageSize : ℤ) (totalSize : ℕ) : Read (Option Request) :=
  (int16At data 0).bind fun apiKey =>
    (int16At data 2).bind fun apiVersion =>
      (int32At data 4).bind fun correlationID =>
        if apiKey < 0 ∨ apiKey > 74 then .ok none
        else if apiVersion < 0 ∨ apiVersion > 20 then .ok none
        else
          (readClientID data 8).bind fun (clientID, offset) =>
            let req : Request :=
              { header := ⟨apiKey, apiVersion, correlationID, clientID⟩
                messageSize := messageSize
                totalSize := totalSize }
            (skipTags data offset (isFlexibleVersion apiKey apiVersion)).bind fun
              -- the request counts, but nothing is extracted from it
              | none => .ok (some req)
              | some offset =>
                (extractRequestDetails req data offset apiKey apiVersion).bind fun req =>
                  .ok (some req)

/-- `p.buffer = p.buffer[count:]`. -/
def Parser.discard (p : Parser) (count : ℕ) : Read Parser :=
  (slice p.buffer count p.buffer.length).bind fun rest => .ok { buffer := rest }

def Parser.parseRequest (p : Parser) : Read (Except ParseError Request × Parser) :=
  if p.buffer.length < 4 then .ok (.error .incomplete, p)
  else
    (int32At p.buffer 0).bind fun messageSize =>
      if messageSize < 8 ∨ messageSize > 104857600 then
        (p.discard 1).bind fun p => .ok (.error .invalidFormat, p)
      else
        let totalSize := messageSize.toNat + 4
        if p.buffer.length < totalSize then .ok (.error .incomplete, p)
        else
          (slice p.buffer 4 totalSize).bind fun data =>
            if data.length < 8 then
              (p.discard 1).bind fun p => .ok (.error .invalidFormat, p)
            else
              (parseMessage data messageSize totalSize).bind fun
                | none => (p.discard 1).bind fun p => .ok (.error .invalidFormat, p)
                | some req => (p.discard totalSize).bind fun p => .ok (.ok req, p)

end Qtap.Kafka
