import Qtap.Kafka.Parser

/-!
# The Kafka response parser

`ParseResponse` only takes a response off the buffer.  What stands in its body depends on the
request it answers, so the error code and the fetched messages are extracted later, when the
stream has found that request.
-/

namespace Qtap.Kafka

open Qtap.Core

structure ResponseHeader where
  correlationID : ℤ
  deriving DecidableEq, Repr

/-- A response; the raw body is missing when nothing follows the correlation id. -/
structure Response where
  header : ResponseHeader
  messageSize : ℤ
  errorCode : ℤ := 0
  rawBody : Option (List Byte) := none
  totalSize : ℕ
  deriving DecidableEq, Repr

def Parser.parseResponse (p : Parser) : Read (Except ParseError Response × Parser) :=
  if p.buffer.length < 4 then .ok (.error .incomplete, p)
  else
    (int32At p.buffer 0).bind fun messageSize =>
      if messageSize < 4 ∨ messageSize > 104857600 then
        (p.discard 1).bind fun p => .ok (.error .invalidFormat, p)
      else
        let totalSize := messageSize.toNat + 4
        if p.buffer.length < totalSize then .ok (.error .incomplete, p)
        else
          (slice p.buffer 4 totalSize).bind fun data =>
            if data.length < 4 then
              (p.discard 1).bind fun p => .ok (.error .invalidFormat, p)
            else
              (int32At data 0).bind fun correlationID =>
                (slice data 4 data.length).bind fun body =>
                  let resp : Response :=
                    { header := ⟨correlationID⟩
                      messageSize := messageSize
                      rawBody := if data.length > 4 then some body else none
                      totalSize := totalSize }
                  (p.discard totalSize).bind fun p => .ok (.ok resp, p)

/-! ## Fields of a response -/

/-- An array length, legacy or compact, and the offset behind it. -/
def readArrayLen (data : List Byte) (offset : ℕ) (flexible : Bool) : Read (Option (ℤ × ℕ)) :=
  if flexible then readCompactArrayLen data offset
  else if offset + 4 > data.length then .ok none
  else (int32At data offset).bind fun n => .ok (some (n, offset + 4))

/-- A `BYTES` or `COMPACT_BYTES` field and the offset behind it; null is the empty one. -/
def readBytesField (data : List Byte) (offset : ℕ) (flexible : Bool) :
    Read (Option (List Byte × ℕ)) :=
  if flexible then
    (readUnsignedVarint data offset).bind fun
      | none => .ok none
      | some (rawLen, n) =>
        if rawLen = 0 then .ok (some ([], offset + n))
        else
          let size := rawLen - 1
          if offset + n + size > data.length then .ok none
          else
            (slice data (offset + n : ℕ) (offset + n + size : ℕ)).bind fun bytes =>
              .ok (some (bytes, offset + n + size))
  else if offset + 4 > data.length then .ok none
  else
    (int32At data offset).bind fun size =>
      let offset := offset + 4
      if size ≤ 0 then .ok (some ([], offset))
      else if offset + size > data.length then .ok none
      else
        (slice data offset (offset + size)).bind fun bytes =>
          .ok (some (bytes, offset + size.toNat))

/-! ## Error codes -/

/-- The topic name that `extractProduceResponseErrorCode` skips; it checks the same ends as the
request parser but takes no slice. -/
def skipTopicName (body : List Byte) (offset : ℕ) (flexible : Bool) : Read (Option ℕ) :=
  if flexible then
    (readCompactString body offset).bind fun
      | none => .ok none
      | some (_, offset) => .ok (some offset)
  else if offset + 2 > body.length then .ok none
  else
    (int16At body offset).bind fun tl =>
      let offset := offset + 2
      if tl < 0 ∨ offset + tl > body.length then .ok none
      else .ok (some (offset + tl.toNat))

/-- The first partition's error code, from the offset of the topics. -/
def firstPartitionErrorCode (body : List Byte) (offset : ℕ) (flexible : Bool) :
    Read (Option ℤ) :=
  (readArrayLen body offset flexible).bind fun
    | none => .ok none
    | some (topicCount, offset) =>
      if topicCount ≤ 0 then .ok none
      else
        (skipTopicName body offset flexible).bind fun
          | none => .ok none
          | some offset =>
            (readArrayLen body offset flexible).bind fun
              | none => .ok none
              | some (partCount, offset) =>
                if partCount ≤ 0 then .ok none
                else if offset + 6 > body.length then .ok none
                else (int16At body (offset + 4)).bind fun errCode => .ok (some errCode)

def extractProduceResponseErrorCode (body : List Byte) (apiVersion : ℤ) : Read (Option ℤ) :=
  let flexible := isFlexibleVersion apiKeyProduce apiVersion
  (skipTags body 0 flexible).bind fun
    | none => .ok none
    | some offset =>
      -- throttle_time_ms
      if 1 ≤ apiVersion then
        if offset + 4 > body.length then .ok none
        else firstPartitionErrorCode body (offset + 4) flexible
      else firstPartitionErrorCode body offset flexible

def extractResponseErrorCode (body : List Byte) (apiKey apiVersion : ℤ) : Read (Option ℤ) :=
  match apiKey with
  | apiKeyProduce => extractProduceResponseErrorCode body apiVersion
  | _ => .ok none

/-! ## Fetched messages -/

def skipFetchResponseHeader (body : List Byte) (apiVersion : ℤ) (flexible : Bool) :
    Read (Option ℕ) :=
  (skipTags body 0 flexible).bind fun
    | none => .ok none
    | some offset =>
      .ok (some (offset + (if 1 ≤ apiVersion then 4 else 0) + (if 7 ≤ apiVersion then 6 else 0)))

/-- The text `<uuid>`, which stands for a topic id. -/
def uuidName : List Byte := [60, 117, 117, 105, 100, 62]

def readFetchTopicName (data : List Byte) (offset : ℕ) (apiVersion : ℤ) (flexible : Bool) :
    Read (Option (List Byte × ℕ)) :=
  if 13 ≤ apiVersion then
    .ok (if offset + 16 > data.length then none else some (uuidName, offset + 16))
  else readTopicName data offset flexible

/-- The loop of `skipAbortedTransactions`. -/
def skipTransactions (data : List Byte) (flexible : Bool) : ℕ → ℕ → Read (Option ℕ)
  | 0, offset => .ok (some offset)
  | count + 1, offset =>
    -- producer_id and first_offset
    (skipTags data (offset + 16) flexible).bind fun
      | none => .ok none
      | some offset => skipTransactions data flexible count offset

def skipAbortedTransactions (data : List Byte) (offset : ℕ) (flexible : Bool) :
    Read (Option ℕ) :=
  (readArrayLen data offset flexible).bind fun
    | none => .ok none
    -- a range over a negative number is empty
    | some (count, offset) => skipTransactions data flexible count.toNat offset

/-- The offset behind the fixed fields of a partition. -/
def skipPartitionFields (data : List Byte) (offset : ℕ) (apiVersion : ℤ) (flexible : Bool) :
    Read (Option ℕ) :=
  -- last_stable_offset and log_start_offset
  let offset := offset + 14 + (if 4 ≤ apiVersion then 8 else 0) + (if 5 ≤ apiVersion then 8 else 0)
  if 4 ≤ apiVersion then
    (skipAbortedTransactions data offset flexible).bind fun
      | none => .ok none
      -- preferred_read_replica
      | some offset => .ok (some (offset + if 11 ≤ apiVersion then 4 else 0))
  else .ok (some offset)

/-- The partition's index, its record set and the offset behind it. -/
def parseFetchPartition (data : List Byte) (offset : ℕ) (apiVersion : ℤ) (flexible : Bool) :
    Read (Option (ℤ × List Byte × ℕ)) :=
  if offset + 14 > data.length then .ok none
  else
    (int32At data offset).bind fun partitionID =>
      (skipPartitionFields data offset apiVersion flexible).bind fun
        | none => .ok none
        | some offset =>
          if offset > data.length then .ok none
          else
            (readBytesField data offset flexible).bind fun
              | none => .ok none
              | some (recordSetData, offset) =>
                (skipTags data offset flexible).bind fun
                  | none => .ok none
                  | some offset => .ok (some (partitionID, recordSetData, offset))

/-- The partition loop.  The offset is missing where the function returns. -/
def fetchPartitions (body : List Byte) (apiVersion : ℤ) (flexible : Bool)
    (topicName : List Byte) :
    ℕ → ℕ → List KafkaMessage → Read (List KafkaMessage × Option ℕ)
  | 0, offset, messages => .ok (messages, some offset)
  | partCount + 1, offset, messages =>
    if messages.length < maxMessages then
      (parseFetchPartition body offset apiVersion flexible).bind fun
        | none => .ok (messages, none)
        | some (partitionID, recordSetData, offset) =>
          if recordSetData.length > 0 then
            (extractRecordBatchMessages recordSetData topicName partitionID
              (maxMessages - messages.length)).bind fun msgs =>
                fetchPartitions body apiVersion flexible topicName partCount offset
                  (messages ++ msgs)
          else
            fetchPartitions body apiVersion flexible topicName partCount offset messages
    else .ok (messages, some offset)

/-- One round of the topic loop. -/
def fetchTopic (body : List Byte) (apiVersion : ℤ) (flexible : Bool) (offset : ℕ)
    (messages : List KafkaMessage) : Read (List KafkaMessage × Option ℕ) :=
  (readFetchTopicName body offset apiVersion flexible).bind fun
    | none => .ok (messages, none)
    | some (topicName, offset) =>
      (readArrayLen body offset flexible).bind fun
        | none => .ok (messages, none)
        | some (partCount, offset) =>
          if partCount ≤ 0 then .ok (messages, none)
          else
            (fetchPartitions body apiVersion flexible topicName partCount.toNat offset
              messages).bind fun
                | (messages, none) => .ok (messages, none)
                | (messages, some offset) =>
                  (skipTags body offset flexible).bind fun next => .ok (messages, next)

/-- The topic loop. -/
def fetchTopics (body : List Byte) (apiVersion : ℤ) (flexible : Bool) :
    ℕ → ℕ → List KafkaMessage → Read (List KafkaMessage)
  | 0, _, messages => .ok messages
  | topicCount + 1, offset, messages =>
    if messages.length < maxMessages then
      (fetchTopic body apiVersion flexible offset messages).bind fun
        | (messages, none) => .ok messages
        | (messages, some offset) =>
          fetchTopics body apiVersion flexible topicCount offset messages
    else .ok messages

def extractFetchResponseMessages (body : List Byte) (apiVersion : ℤ) :
    Read (List KafkaMessage) :=
  let flexible := isFlexibleVersion apiKeyFetch apiVersion
  (skipFetchResponseHeader body apiVersion flexible).bind fun
    | none => .ok []
    | some offset =>
      if offset > body.length then .ok []
      else
        (readArrayLen body offset flexible).bind fun
          | none => .ok []
          | some (topicCount, offset) =>
            if topicCount ≤ 0 then .ok []
            else fetchTopics body apiVersion flexible topicCount.toNat offset []

end Qtap.Kafka
