import Qtap.Kafka.Safety

/-!
# Messages and what cannot become one

`ParseRequest` and `ParseResponse` read a size, wait for as many bytes and look at the header.
What they accept, what they drop a byte of and what they wait for is decided by the bytes at the
front of the buffer.  Bytes that arrive later change neither of the first two.
-/

namespace Qtap.Kafka

open List Qtap.Core Exec

/-! ## Messages of one direction -/

/-- The size that the first four bytes announce. -/
def announced (buffer : List Byte) : ℤ := signed 32 (beValue (buffer.take 4))

/-- The bytes of the first message, its size included. -/
def totalSize (buffer : List Byte) : ℕ := (announced buffer).toNat + 4

/-- What the two parse functions share and where they differ: the smallest size, the headers that
are known and the reading of a complete message. -/
structure Format (M : Type) where
  smallest : ℕ
  known : List Byte → Prop
  interpret : List Byte → ℤ → ℕ → Read (Option M)
  interpret_of_known : ∀ {data}, smallest ≤ data.length → known data → ∀ size total,
    ∃ message, interpret data size total = .ok (some message)
  interpret_of_unknown : ∀ {data}, smallest ≤ data.length → ¬ known data → ∀ size total,
    interpret data size total = .ok none

namespace Format

variable {M : Type} (format : Format M) {buffer : List Byte}

def parse (p : Parser) : Read (Except ParseError M × Parser) :=
  if p.buffer.length < 4 then .ok (.error .incomplete, p)
  else
    (int32At p.buffer 0).bind fun messageSize =>
      if messageSize < format.smallest ∨ messageSize > 104857600 then
        (p.discard 1).bind fun p => .ok (.error .invalidFormat, p)
      else
        let totalSize := messageSize.toNat + 4
        if p.buffer.length < totalSize then .ok (.error .incomplete, p)
        else
          (slice p.buffer 4 totalSize).bind fun data =>
            if data.length < format.smallest then
              (p.discard 1).bind fun p => .ok (.error .invalidFormat, p)
            else
              (format.interpret data messageSize totalSize).bind fun
                | none => (p.discard 1).bind fun p => .ok (.error .invalidFormat, p)
                | some message => (p.discard totalSize).bind fun p => .ok (.ok message, p)

/-- The announced size lies within the limits. -/
def Sized (buffer : List Byte) : Prop :=
  format.smallest ≤ announced buffer ∧ announced buffer ≤ 104857600

/-- What follows the size. -/
def content (buffer : List Byte) : List Byte := (buffer.drop 4).take (announced buffer).toNat

/-- The buffer starts with a message. -/
structure Accepts (buffer : List Byte) : Prop where
  sized : format.Sized buffer
  complete : totalSize buffer ≤ buffer.length
  known : format.known (content buffer)

/-- The buffer starts with what cannot become a message. -/
inductive Rejects (buffer : List Byte) : Prop
  | size (hfour : 4 ≤ buffer.length) (hsize : ¬ format.Sized buffer)
  | header (hsized : format.Sized buffer) (hcomplete : totalSize buffer ≤ buffer.length)
      (hunknown : ¬ format.known (content buffer))

variable {format}

theorem announced_append (hfour : 4 ≤ buffer.length) (more : List Byte) :
    announced (buffer ++ more) = announced buffer := by
  rw [announced, take_append_of_le_length hfour, announced]

theorem four_le (hcomplete : totalSize buffer ≤ buffer.length) : 4 ≤ buffer.length :=
  (Nat.le_add_left 4 _).trans hcomplete

theorem totalSize_append (hfour : 4 ≤ buffer.length) (more : List Byte) :
    totalSize (buffer ++ more) = totalSize buffer := by
  rw [totalSize, announced_append hfour, totalSize]

theorem content_append (hcomplete : totalSize buffer ≤ buffer.length) (more : List Byte) :
    content (buffer ++ more) = content buffer := by
  have hfour := four_le hcomplete
  rw [totalSize] at hcomplete
  rw [content, announced_append hfour, drop_append_of_le_length hfour,
    take_append_of_le_length (by rw [length_drop]; omega), content]

theorem sized_append (hfour : 4 ≤ buffer.length) (more : List Byte) :
    format.Sized (buffer ++ more) ↔ format.Sized buffer := by
  rw [Sized, announced_append hfour, Sized]

theorem Accepts.append (haccepts : format.Accepts buffer) (more : List Byte) :
    format.Accepts (buffer ++ more) where
  sized := (sized_append (four_le haccepts.complete) more).2 haccepts.sized
  complete := by
    rw [totalSize_append (four_le haccepts.complete), length_append]
    exact haccepts.complete.trans (Nat.le_add_right _ _)
  known := by
    rw [content_append haccepts.complete]
    exact haccepts.known

theorem smallest_le_length_content (hsized : format.Sized buffer)
    (hcomplete : totalSize buffer ≤ buffer.length) : format.smallest ≤ (content buffer).length := by
  have hsmall := hsized.1
  rw [totalSize] at hcomplete
  rw [content, length_take, length_drop]
  omega

theorem discard_eq {p : Parser} {count : ℕ} (hcount : count ≤ p.buffer.length) :
    p.discard count = .ok ⟨p.buffer.drop count⟩ := by
  rw [Parser.discard, slice_suffix hcount, bind_ok]

theorem discard_one (hfour : 4 ≤ buffer.length) :
    (⟨buffer⟩ : Parser).discard 1 = .ok ⟨buffer.tail⟩ := by
  rw [discard_eq (le_trans (by norm_num) hfour), drop_one]

theorem parse_of_not_sized (hfour : 4 ≤ buffer.length) (hsize : ¬ format.Sized buffer) :
    format.parse ⟨buffer⟩ = .ok (.error .invalidFormat, ⟨buffer.tail⟩) := by
  rw [Sized] at hsize
  rw [parse, if_neg (Nat.not_lt.2 hfour), show int32At buffer 0 = .ok (announced buffer) from
    int32At_eq hfour, bind_ok, if_pos (by omega), discard_one hfour, bind_ok]

theorem parse_of_incomplete (hsized : format.Sized buffer)
    (hincomplete : buffer.length < totalSize buffer) :
    format.parse ⟨buffer⟩ = .ok (.error .incomplete, ⟨buffer⟩) := by
  obtain ⟨_, _⟩ := hsized
  by_cases hfour : buffer.length < 4
  · rw [parse, if_pos hfour]
  · rw [parse, if_neg hfour, show int32At buffer 0 = .ok (announced buffer) from
      int32At_eq (Nat.not_lt.1 hfour), bind_ok, if_neg (by omega)]
    exact if_pos hincomplete

theorem parse_of_complete (hsized : format.Sized buffer)
    (hcomplete : totalSize buffer ≤ buffer.length) :
    format.parse ⟨buffer⟩ =
      (format.interpret (content buffer) (announced buffer) (totalSize buffer)).bind fun
        | none => .ok (.error .invalidFormat, ⟨buffer.tail⟩)
        | some message => .ok (.ok message, ⟨buffer.drop (totalSize buffer)⟩) := by
  have hfour := four_le hcomplete
  have hlength := Nat.not_lt.2 (smallest_le_length_content hsized hcomplete)
  obtain ⟨_, _⟩ := hsized
  rw [totalSize] at hcomplete ⊢
  have hslice : (slice buffer 4 ((announced buffer).toNat + 4 : ℕ) : Read (List Byte)) =
      .ok (content buffer) := by
    have hslice := slice_of_le (E := Empty) (Nat.le_add_left 4 _) hcomplete
    rwa [Nat.add_sub_cancel] at hslice
  rw [parse, if_neg (Nat.not_lt.2 hfour), show int32At buffer 0 = .ok (announced buffer) from
    int32At_eq hfour, bind_ok, if_neg (by omega)]
  rw [if_neg (Nat.not_lt.2 hcomplete), hslice, bind_ok, if_neg hlength, discard_one hfour,
    discard_eq hcomplete]
  simp only [bind_ok]

theorem exists_parse_of_accepts (haccepts : format.Accepts buffer) :
    ∃ message, ∀ more, format.parse ⟨buffer ++ more⟩ =
      .ok (.ok message, ⟨buffer.drop (totalSize buffer) ++ more⟩) := by
  have hfour := four_le haccepts.complete
  have hlength := smallest_le_length_content haccepts.sized haccepts.complete
  obtain ⟨message, hmessage⟩ := format.interpret_of_known hlength haccepts.known
    (announced buffer) (totalSize buffer)
  refine ⟨message, fun more => ?_⟩
  have happend := haccepts.append more
  rw [parse_of_complete happend.sized happend.complete, content_append haccepts.complete,
    announced_append hfour, totalSize_append hfour, hmessage, bind_ok,
    drop_append_of_le_length haccepts.complete]

theorem parse_of_rejects (hrejects : format.Rejects buffer) :
    format.parse ⟨buffer⟩ = .ok (.error .invalidFormat, ⟨buffer.tail⟩) := by
  cases hrejects with
  | size hfour hsize => exact parse_of_not_sized hfour hsize
  | header hsized hcomplete hunknown =>
    have hlength := smallest_le_length_content hsized hcomplete
    rw [parse_of_complete hsized hcomplete, format.interpret_of_unknown hlength hunknown, bind_ok]

/-- What the parse function makes of a buffer. -/
theorem parse_cases (format : Format M) (buffer : List Byte) :
    (format.Accepts buffer ∧ ∃ message, ∀ more, format.parse ⟨buffer ++ more⟩ =
        .ok (.ok message, ⟨buffer.drop (totalSize buffer) ++ more⟩)) ∨
      (format.Rejects buffer ∧
        format.parse ⟨buffer⟩ = .ok (.error .invalidFormat, ⟨buffer.tail⟩)) ∨
      format.parse ⟨buffer⟩ = .ok (.error .incomplete, ⟨buffer⟩) := by
  by_cases hfour : 4 ≤ buffer.length
  · by_cases hsized : format.Sized buffer
    · by_cases hcomplete : totalSize buffer ≤ buffer.length
      · by_cases hknown : format.known (content buffer)
        · have haccepts : format.Accepts buffer := ⟨hsized, hcomplete, hknown⟩
          exact .inl ⟨haccepts, exists_parse_of_accepts haccepts⟩
        · have hrejects : format.Rejects buffer := .header hsized hcomplete hknown
          exact .inr (.inl ⟨hrejects, parse_of_rejects hrejects⟩)
      · exact .inr (.inr (parse_of_incomplete hsized (Nat.not_le.1 hcomplete)))
    · have hrejects : format.Rejects buffer := .size hfour hsized
      exact .inr (.inl ⟨hrejects, parse_of_rejects hrejects⟩)
  · exact .inr (.inr (if_pos (Nat.not_le.1 hfour)))

end Format

/-! ## Requests and responses -/

/-- The numbers of a request's call and of its version lie within the limits. -/
def KnownRequest (data : List Byte) : Prop :=
  (0 ≤ signed 16 (beValue (data.take 2)) ∧ signed 16 (beValue (data.take 2)) ≤ 74) ∧
    0 ≤ signed 16 (beValue ((data.drop 2).take 2)) ∧
      signed 16 (beValue ((data.drop 2).take 2)) ≤ 20

def requestFormat : Format Request where
  smallest := 8
  known := KnownRequest
  interpret := parseMessage
  interpret_of_known := by
    intro data hlength hknown size total
    rw [KnownRequest] at hknown
    rw [parseMessage, int16At_eq (by omega), bind_ok, int16At_eq (by omega), bind_ok,
      List.drop_zero, int32At_eq (by omega), bind_ok, if_neg (by omega), if_neg (by omega)]
    obtain ⟨⟨clientID, offset⟩, hclient⟩ := @readClientID_completes data 8
    rw [hclient, bind_ok]
    dsimp only
    obtain ⟨next, hskip⟩ := @skipTags_completes data offset (isFlexibleVersion
      (signed 16 (beValue (data.take 2))) (signed 16 (beValue ((data.drop 2).take 2))))
    rw [hskip, bind_ok]
    cases next with
    | none => exact ⟨_, rfl⟩
    | some offset =>
      dsimp only
      generalize hdetails : extractRequestDetails _ data offset _ _ = details
      obtain ⟨req, rfl⟩ : details.Completes :=
        hdetails ▸ extractRequestDetails_completes
      exact ⟨req, bind_ok _ _⟩
  interpret_of_unknown := by
    intro data hlength hunknown size total
    rw [KnownRequest] at hunknown
    rw [parseMessage, int16At_eq (by omega), bind_ok, int16At_eq (by omega), bind_ok,
      List.drop_zero, int32At_eq (by omega), bind_ok]
    split_ifs with hkey hversion
    · rfl
    · rfl
    · omega

theorem parseRequest_eq : Parser.parseRequest = requestFormat.parse := by
  funext p
  rw [Parser.parseRequest, Format.parse]
  simp only [requestFormat, Nat.cast_ofNat]
  congr! 9
  all_goals
    funext message
    cases message <;> rfl

def responseFormat : Format Response where
  smallest := 4
  known _ := True
  interpret data size total :=
    (int32At data 0).bind fun correlationID =>
      (slice data 4 data.length).bind fun body =>
        .ok (some
          { header := ⟨correlationID⟩
            messageSize := size
            rawBody := if data.length > 4 then some body else none
            totalSize := total })
  interpret_of_known := by
    intro data hlength _ size total
    rw [int32At_eq (by omega), bind_ok, show (4 : ℤ) = (4 : ℕ) from rfl, slice_suffix hlength,
      bind_ok]
    exact ⟨_, rfl⟩
  interpret_of_unknown := by
    intro data hlength hunknown
    exact absurd trivial hunknown

theorem parseResponse_eq : Parser.parseResponse = responseFormat.parse := by
  funext p
  rw [Parser.parseResponse, Format.parse]
  simp only [responseFormat, Nat.cast_ofNat, bind_assoc, bind_ok]

/-! ## Buffers -/

/-- The call returns.  It asks for more and leaves the buffer alone, or takes bytes off its
front. -/
def Parser.Advances {M : Type} (p : Parser) (exec : Read (Except ParseError M × Parser)) : Prop :=
  ∃ result next, exec = .ok (result, next) ∧
    (result = .error .incomplete ∧ next = p ∨
      ∃ count, 0 < count ∧ count ≤ p.buffer.length ∧ next.buffer = p.buffer.drop count)

theorem Format.advances {M : Type} (format : Format M) (p : Parser) :
    p.Advances (format.parse p) := by
  obtain ⟨haccepts, message, hparse⟩ | ⟨hrejects, hparse⟩ | hparse := format.parse_cases p.buffer
  · have hparse := hparse []
    rw [append_nil, append_nil] at hparse
    exact ⟨_, _, hparse, .inr ⟨totalSize p.buffer, Nat.succ_pos _, haccepts.complete, rfl⟩⟩
  · have hfour : 4 ≤ p.buffer.length := by
      cases hrejects with
      | size hfour => exact hfour
      | header _ hcomplete => exact four_le hcomplete
    exact ⟨_, _, hparse, .inr ⟨1, Nat.one_pos, by omega, drop_one.symm⟩⟩
  · exact ⟨_, _, hparse, .inl ⟨rfl, rfl⟩⟩

/-- The parsers stay within their buffers and within the bodies of responses of every version, and
a buffer that is not waiting for more gets shorter. -/
theorem parsers_stay_in_bounds (p : Parser) (body : List Byte) (apiKey apiVersion : ℤ) :
    p.Advances p.parseRequest ∧ p.Advances p.parseResponse ∧
      (extractFetchResponseMessages body apiVersion).Completes ∧
      (extractResponseErrorCode body apiKey apiVersion).Completes := by
  refine ⟨?_, ?_, extractFetchResponseMessages_completes, extractResponseErrorCode_completes⟩
  · rw [parseRequest_eq]
    exact requestFormat.advances p
  · rw [parseResponse_eq]
    exact responseFormat.advances p

end Qtap.Kafka
