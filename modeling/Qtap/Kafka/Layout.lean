import Qtap.Kafka.Frame

/-!
# Where requests name their topics and groups

The layouts of the requests from which the parser takes a topic or a group, for every
version.  Each layout spells out the fields up to the first topic or group; the other
fields of an entry and whatever follows the array are arbitrary bytes.  From some version
on Kafka puts other fields where the parser expects the name: topic ids in Produce and
Fetch requests, topic ids before the names in Metadata requests, an array of groups in
OffsetFetch requests.
-/

namespace Qtap.Kafka

open Qtap.Core

/-! ## Layouts -/

inductive Api where
  | produce
  | fetch
  | metadata
  | createTopics
  | joinGroup
  | syncGroup
  | offsetCommit
  | offsetFetch
  | heartbeat
  | leaveGroup
  deriving DecidableEq, Repr

def Api.key : Api → ℤ
  | .produce => 0
  | .fetch => 1
  | .metadata => 3
  | .createTopics => 19
  | .joinGroup => 11
  | .syncGroup => 14
  | .offsetCommit => 8
  | .offsetFetch => 9
  | .heartbeat => 12
  | .leaveGroup => 13

/-- The first flexible version. -/
def Api.flexibleSince : Api → ℕ
  | .produce => 9
  | .fetch => 12
  | .metadata => 9
  | .createTopics => 5
  | .joinGroup => 6
  | .syncGroup => 4
  | .offsetCommit => 8
  | .offsetFetch => 6
  | .heartbeat => 4
  | .leaveGroup => 4

def Api.flexible (api : Api) (version : ℕ) : Bool := api.flexibleSince ≤ version

/-- How an entry of a topic array begins. -/
inductive Naming where
  | name
  | id
  | idAndName
  deriving DecidableEq, Repr

structure TopicEntry where
  id : Fixed 16
  name : Option (List Byte)
  others : List Byte

def TopicEntry.encode (naming : Naming) (flexible : Bool) (entry : TopicEntry) : List Byte :=
  match naming with
  | .name => nullableString flexible entry.name ++ entry.others
  | .id => entry.id.val ++ entry.others
  | .idAndName => entry.id.val ++ (nullableString flexible entry.name ++ entry.others)

/-- The name of a topic, if the request carries it. -/
def TopicEntry.nameIn (naming : Naming) (entry : TopicEntry) : Option (List Byte) :=
  match naming with
  | .id => none
  | _ => entry.name

def topicArray (naming : Naming) (flexible : Bool) : Option (List TopicEntry) → List Byte
  | none => nullLength flexible
  | some topics =>
    lengthField flexible topics.length ++ topics.flatMap (TopicEntry.encode naming flexible)

structure GroupEntry where
  groupID : List Byte
  others : List Byte

def groupArray (groups : List GroupEntry) : List Byte :=
  lengthField true groups.length ++
    groups.flatMap fun group => stringField true group.groupID ++ group.others

/-- The consumer-group APIs whose requests begin with the group in every version. -/
inductive GroupApi where
  | joinGroup
  | syncGroup
  | offsetCommit
  | heartbeat
  | leaveGroup
  deriving DecidableEq, Repr

def GroupApi.api : GroupApi → Api
  | .joinGroup => .joinGroup
  | .syncGroup => .syncGroup
  | .offsetCommit => .offsetCommit
  | .heartbeat => .heartbeat
  | .leaveGroup => .leaveGroup

structure FetchFields where
  replicaID : Fixed 4
  maxWait : Fixed 4
  minBytes : Fixed 4
  maxBytes : Fixed 4
  isolationLevel : Fixed 1
  session : Fixed 8

/-- The fields before the topics of a Fetch request.  The replica id is gone from version
15 on. -/
def FetchFields.encode (fields : FetchFields) (version : ℕ) : List Byte :=
  (if version ≤ 14 then fields.replicaID.val else []) ++
    (fields.maxWait.val ++ (fields.minBytes.val ++
    ((if 3 ≤ version then fields.maxBytes.val else []) ++
      ((if 4 ≤ version then fields.isolationLevel.val else []) ++
        (if 7 ≤ version then fields.session.val else [])))))

structure ProduceFields where
  transactionalID : Option (List Byte)
  acks : Fixed 2
  timeout : Fixed 4

def ProduceFields.encode (fields : ProduceFields) (version : ℕ) : List Byte :=
  (if 3 ≤ version then nullableString (Api.produce.flexible version) fields.transactionalID
    else []) ++ (fields.acks.val ++ fields.timeout.val)

inductive Body where
  | produce (fields : ProduceFields) (topics : Option (List TopicEntry))
  | fetch (fields : FetchFields) (topics : Option (List TopicEntry))
  | metadata (topics : Option (List TopicEntry))
  | createTopics (topics : Option (List TopicEntry))
  | group (api : GroupApi) (groupID : List Byte)
  /-- Up to version 7. -/
  | offsetFetch (groupID : List Byte)
  /-- From version 8 on. -/
  | offsetFetchBatch (groups : List GroupEntry)

namespace Body

def api : Body → Api
  | produce _ _ => .produce
  | fetch _ _ => .fetch
  | metadata _ => .metadata
  | createTopics _ => .createTopics
  | group api _ => api.api
  | offsetFetch _ => .offsetFetch
  | offsetFetchBatch _ => .offsetFetch

/-- The topics of the request. -/
def topics : Body → Option (List TopicEntry)
  | produce _ topics => topics
  | fetch _ topics => topics
  | metadata topics => topics
  | createTopics topics => topics
  | _ => none

def naming (version : ℕ) : Body → Naming
  | produce _ _ => if 13 ≤ version then .id else .name
  | fetch _ _ => if 13 ≤ version then .id else .name
  | metadata _ => if 10 ≤ version then .idAndName else .name
  | _ => .name

/-- The array of topics as the request holds it. -/
def topicField (body : Body) (version : ℕ) : List Byte :=
  topicArray (body.naming version) (body.api.flexible version) body.topics

def encode (body : Body) (version : ℕ) : List Byte :=
  match body with
  | produce fields _ => fields.encode version ++ body.topicField version
  | fetch fields _ => fields.encode version ++ body.topicField version
  | metadata _ => body.topicField version
  | createTopics _ => body.topicField version
  | group api groupID => stringField (api.api.flexible version) groupID
  | offsetFetch groupID => stringField (Api.offsetFetch.flexible version) groupID
  | offsetFetchBatch groups => groupArray groups

/-- The name of the first topic, if the request has one. -/
def firstTopic (body : Body) (version : ℕ) : Option (List Byte) :=
  (body.topics.bind List.head?).bind (TopicEntry.nameIn (body.naming version))

def firstGroup : Body → Option (List Byte)
  | group _ groupID => some groupID
  | offsetFetch groupID => some groupID
  | offsetFetchBatch groups => groups.head?.map GroupEntry.groupID
  | _ => none

def strings : Body → List (List Byte)
  | produce fields topics => fields.transactionalID.toList ++ (topics.getD []).flatMap fun topic =>
    topic.name.toList
  | fetch _ topics => (topics.getD []).flatMap fun topic => topic.name.toList
  | metadata topics => (topics.getD []).flatMap fun topic => topic.name.toList
  | createTopics topics => (topics.getD []).flatMap fun topic => topic.name.toList
  | group _ groupID => [groupID]
  | offsetFetch groupID => [groupID]
  | offsetFetchBatch groups => groups.map GroupEntry.groupID

def InVersion (version : ℕ) : Body → Prop
  | offsetFetch _ => version ≤ 7
  | offsetFetchBatch _ => 8 ≤ version
  | _ => True

end Body

/-- A request of one of the APIs, in one of the versions that the parser accepts. -/
structure TypedRequest where
  version : ℕ
  header : Header
  body : Body
  trailing : List Byte
  version_le : version ≤ 20
  inVersion : body.InVersion version
  strings_fit : ∀ text ∈ body.strings, StringFits (body.api.flexible version) text

namespace TypedRequest

def message (request : TypedRequest) : List Byte :=
  request.header.encode request.body.api.key request.version
    (request.body.api.flexible request.version) ++
      (request.body.encode request.version ++ request.trailing)

end TypedRequest

/-! ## What the parser may report -/

/-- The reported topic and group are those of the request, or missing. -/
def Body.ReportedBy (body : Body) (version : ℕ) (req : Request) : Prop :=
  (req.topics = [] ∨ ∃ name, body.firstTopic version = some name ∧ req.topics = [name]) ∧
    (req.groupID = [] ∨ body.firstGroup = some req.groupID)

/-- The parser runs on the request, and a request that it returns reports nothing but the
first topic and the first group. -/
def TypedRequest.ReportedRight (request : TypedRequest) (more : List Byte) : Prop :=
  ∃ result rest,
    ({ buffer := frame request.message ++ more } : Parser).parseRequest = .ok (result, rest) ∧
      ∀ req, result = .ok req → request.body.ReportedBy request.version req

/-- The bytes begin with a whole compact string that is not empty. -/
def StartsWithString (bytes text : List Byte) : Prop :=
  text ≠ [] ∧ ∃ used, decodeVarint bytes = some (text.length + 1, used) ∧ text <+: bytes.drop used

/-- The bytes begin with the length of a compact array of at most 10000 elements, and the
first of them with a string. -/
def StartsWithTopic (bytes text : List Byte) : Prop :=
  ∃ count used, 1 ≤ count ∧ count ≤ 10000 ∧ decodeVarint bytes = some (count + 1, used) ∧
    StartsWithString (bytes.drop used) text

/-- In a layout that the parser does not know, a string that is not the name of the first
topic or group stands where the parser looks for it.  In Fetch requests without replica
id it looks four bytes behind the start of the topic array. -/
def TypedRequest.Misread (request : TypedRequest) : Prop :=
  match request.body with
  | .produce _ _ =>
    13 ≤ request.version ∧
      ∃ text, StartsWithTopic (request.body.topicField request.version ++ request.trailing) text ∧
        request.body.firstTopic request.version ≠ some text
  | .fetch _ _ =>
    13 ≤ request.version ∧
      ∃ text, StartsWithTopic ((request.body.topicField request.version ++ request.trailing).drop
        (if 15 ≤ request.version then 4 else 0)) text ∧
          request.body.firstTopic request.version ≠ some text
  | .metadata _ =>
    10 ≤ request.version ∧
      ∃ text, StartsWithTopic (request.body.topicField request.version ++ request.trailing) text ∧
        request.body.firstTopic request.version ≠ some text
  | .offsetFetchBatch groups =>
    ∃ text, StartsWithString (groupArray groups ++ request.trailing) text ∧
      request.body.firstGroup ≠ some text
  | _ => False

end Qtap.Kafka
