import Qtap.Kafka.Format

/-!
# Request frames

A request as a client sends it: the size, the header with the client's name and, in
flexible versions, the tagged fields, and the body.  `ParseRequest` finds the body where
it starts, unless the message is larger than the parser accepts.
-/

namespace Qtap.Kafka

open List Qtap.Core Exec

/-- The largest message the parser accepts. -/
def maxMessageSize : ℕ := 104857600

structure Header where
  correlationID : Int32
  clientID : Option (List Byte)
  clientID_fits : ∀ text ∈ clientID, text.length < 2 ^ 15
  tags : List TaggedField

def Header.encode (header : Header) (apiKey version : ℤ) (flexible : Bool) : List Byte :=
  int16Bytes apiKey ++ (int16Bytes version ++ (int32Bytes header.correlationID.toInt ++
    (nullableString false header.clientID ++ taggedFields flexible header.tags)))

/-- The header that the parser reports. -/
def Header.parsed (header : Header) (apiKey version : ℤ) : RequestHeader where
  apiKey := apiKey
  apiVersion := version
  correlationID := header.correlationID.toInt
  clientID := header.clientID.getD []

def frame (message : List Byte) : List Byte := int32Bytes message.length ++ message

/-- The request that the parser starts from, before it looks at the body. -/
def Header.request (header : Header) (apiKey version : ℤ) (message : List Byte) : Request where
  header := header.parsed apiKey version
  messageSize := message.length
  totalSize := message.length + 4

theorem Header.eight_le_length (header : Header) (apiKey version : ℤ) (flexible : Bool)
    (body : List Byte) : 8 ≤ (header.encode apiKey version flexible ++ body).length := by
  simp only [Header.encode, length_append, length_int16Bytes, length_int32Bytes]
  omega

variable {data rest : List Byte} {offset : ℕ}

theorem readClientID_at {clientID : Option (List Byte)}
    (hfits : ∀ text ∈ clientID, text.length < 2 ^ 15)
    (hat : At data offset (nullableString false clientID ++ rest)) :
    readClientID data offset =
      .ok (clientID.getD [], offset + (nullableString false clientID).length) := by
  cases clientID with
  | none =>
    obtain ⟨hlength, hend⟩ := legacyNull_at hat
    rw [readClientID, if_pos hend, hlength]
    rfl
  | some text =>
    obtain ⟨hlength, _, hslice⟩ := legacyString_at (hfits text rfl) hat
    rw [readClientID, if_pos (by omega), hlength, bind_ok, nullableString,
      length_legacyString, Option.getD_some, ← Nat.add_assoc]
    by_cases hempty : text = []
    · rw [hempty]
      rfl
    · have hpositive := length_pos_of_ne_nil hempty
      rw [if_pos (by omega), hslice, bind_ok, Int.toNat_natCast]

/-- The parser reads the header of a message and stands at its body. -/
theorem parseMessage_eq (header : Header) {apiKey version : ℤ} {body : List Byte}
    (hkey : 0 ≤ apiKey ∧ apiKey ≤ 74) (hversion : 0 ≤ version ∧ version ≤ 20)
    (hmessage : data = header.encode apiKey version (isFlexibleVersion apiKey version) ++ body)
    (hsize : data.length < 2 ^ 31) :
    ∃ start, At data start body ∧
      parseMessage data data.length (data.length + 4) =
        (extractRequestDetails (header.request apiKey version data) data start apiKey version).bind
          fun req => .ok (some req) := by
  have hkeyAt := At.start data
  nth_rewrite 2 [hmessage] at hkeyAt
  simp only [Header.encode, append_assoc] at hkeyAt
  have hversionAt := hkeyAt.advance
  have hcorrelationAt := hversionAt.advance
  have hclientAt := hcorrelationAt.advance
  have htagsAt := hclientAt.advance
  have hcorrelation := int32At_at hcorrelationAt header.correlationID.le_toInt
    header.correlationID.toInt_lt
  have hclient := readClientID_at header.clientID_fits hclientAt
  have htags := skipTags_at hsize _ header.tags htagsAt
  simp only [length_int16Bytes, length_int32Bytes,
    Nat.zero_add] at hversionAt hcorrelation hclient htags
  refine ⟨_, htagsAt.advance, ?_⟩
  rw [parseMessage, int16At_at hkeyAt (by omega) (by omega), bind_ok,
    int16At_at hversionAt (by omega) (by omega), bind_ok, hcorrelation, bind_ok,
    if_neg (by omega), if_neg (by omega), hclient, bind_ok]
  simp only
  rw [htags]
  rfl

theorem announced_frame {message : List Byte} (hsize : message.length < 2 ^ 31) (more : List Byte) :
    announced (frame message ++ more) = message.length := by
  have hsizeAt : At (frame message ++ more) 0 (int32Bytes message.length ++ (message ++ more)) :=
    At.start _
  have hfits := hsizeAt.fits
  rw [length_int32Bytes] at hfits
  have hread := int32At_at hsizeAt (by omega) (by omega)
  rw [int32At_eq (by omega)] at hread
  exact ok_inj.1 hread

theorem length_frame (message : List Byte) : (frame message).length = message.length + 4 := by
  rw [frame, length_append, length_int32Bytes, Nat.add_comm]

theorem parseRequest_of_oversize {message : List Byte} (hlarge : maxMessageSize < message.length)
    (hsize : message.length < 2 ^ 31) (more : List Byte) :
    ({ buffer := frame message ++ more } : Parser).parseRequest =
      .ok (.error .invalidFormat, { buffer := (frame message ++ more).tail }) := by
  have hfour : 4 ≤ (frame message ++ more).length := by
    rw [length_append, length_frame]
    omega
  have hlimit : 104857600 < message.length := hlarge
  rw [parseRequest_eq]
  apply Format.parse_of_not_sized hfour
  rw [Format.Sized, announced_frame hsize]
  omega

theorem parseRequest_of_parseMessage {message : List Byte} {req : Request}
    (hsmall : 8 ≤ message.length) (hsize : message.length ≤ maxMessageSize)
    (hparse : parseMessage message message.length (message.length + 4) = .ok (some req))
    (more : List Byte) :
    ({ buffer := frame message ++ more } : Parser).parseRequest =
      .ok (.ok req, { buffer := more }) := by
  have hlimit : message.length ≤ 104857600 := hsize
  have hannounced := @announced_frame message (by omega) more
  have htotal : totalSize (frame message ++ more) = (frame message).length := by
    rw [totalSize, hannounced, Int.toNat_natCast, length_frame]
  have hsized : requestFormat.Sized (frame message ++ more) := by
    rw [Format.Sized, hannounced]
    exact ⟨by exact_mod_cast hsmall, by omega⟩
  have hcontent : Format.content (frame message ++ more) = message := by
    rw [Format.content, hannounced, frame, append_assoc,
      drop_left' (length_int32Bytes _), Int.toNat_natCast, take_left]
  rw [parseRequest_eq, Format.parse_of_complete hsized (by rw [htotal]; simp), hcontent,
    hannounced, htotal, drop_left, length_frame]
  exact (congrArg (Exec.bind · _) hparse).trans (bind_ok _ _)

end Qtap.Kafka
