import Qtap.Kafka.Layout

/-!
# Reported topics and groups

What the parser reports is determined by the bytes at the place where it looks: a topic
exactly when a topic array begins there, a group exactly when a string does.  In the
layouts it knows these are the first topic and the first group of the request.
-/

namespace Qtap.Kafka

open Nat Body Option List Qtap.Core Exec

variable {data rest : List Byte} {offset : ℕ}

/-! ## Arbitrary bytes -/

theorem readCompactString_spec (data : List Byte) (offset : ℕ) :
    ∃ result, readCompactString data offset = .ok result ∧
      ∀ text, StartsWithString (data.drop offset) text ↔
        text ≠ [] ∧ ∃ next, result = some (text, next) := by
  rw [readCompactString, readUnsignedVarint_eq, bind_ok]
  cases hlength : decodeVarint (data.drop offset) with
  | none =>
    refine ⟨none, rfl, fun text => ?_⟩
    simp [StartsWithString, hlength]
  | some decoded =>
    obtain ⟨rawLen, used⟩ := decoded
    cases rawLen with
    | zero =>
      refine ⟨some ([], offset + used), rfl, fun text => ?_⟩
      simp [StartsWithString, hlength]
    | succ length =>
      simp only [Nat.succ_ne_zero, if_false, Nat.add_sub_cancel]
      by_cases hend : offset + used + length > data.length
      · refine ⟨none, by rw [if_pos hend], fun text => ?_⟩
        simp only [StartsWithString, hlength, some.injEq, Prod.mk.injEq, reduceCtorEq,
          exists_false, and_false, iff_false, not_and, not_exists, drop_drop]
        rintro hne _ ⟨hsame, rfl⟩ hbegins
        have hpositive := length_pos_of_ne_nil hne
        have hle := hbegins.length_le
        rw [length_drop] at hle
        omega
      · refine ⟨some ((data.drop (offset + used)).take length, offset + used + length), ?_,
          fun text => ?_⟩
        · rw [if_neg hend, slice_of_le (Nat.le_add_right _ _) (Nat.not_lt.1 hend),
            Nat.add_sub_cancel_left, bind_ok]
        · simp only [StartsWithString, hlength, some.injEq, Prod.mk.injEq,
            Nat.add_right_cancel_iff, drop_drop, exists_and_left, exists_eq', and_true]
          refine and_congr_right fun _ => ⟨?_, ?_⟩
          · rintro ⟨_, ⟨rfl, rfl⟩, hbegins⟩
            exact (prefix_iff_eq_take.1 hbegins).symm
          · rintro rfl
            refine ⟨used, ⟨?_, rfl⟩, take_prefix _ _⟩
            rw [length_take, length_drop]
            omega

theorem extractTopicArrayCompact_spec (data : List Byte) (offset : ℕ) :
    ∃ topics, extractTopicArrayCompact data offset = .ok topics ∧
      (topics = [] ∨ ∃ text, topics = [text]) ∧
        ∀ text, StartsWithTopic (data.drop offset) text ↔ topics = [text] := by
  rw [extractTopicArrayCompact, readCompactArrayLen, readUnsignedVarint_eq]
  cases hlength : decodeVarint (data.drop offset) with
  | none =>
    refine ⟨[], rfl, .inl rfl, fun text => ?_⟩
    simp [StartsWithTopic, hlength]
  | some decoded =>
    obtain ⟨rawLen, used⟩ := decoded
    cases rawLen with
    | zero =>
      refine ⟨[], rfl, .inl rfl, fun text => ?_⟩
      simp [StartsWithTopic, hlength]
    | succ count =>
      simp only [succ_ne_zero, if_false, bind_ok]
      by_cases hcount : 1 ≤ count ∧ count ≤ 10000
      · obtain ⟨result, hread, hresult⟩ := readCompactString_spec data (offset + used)
        have hstart (text : List Byte) : StartsWithTopic (data.drop offset) text ↔
            StartsWithString (data.drop (offset + used)) text := by
          simp only [StartsWithTopic, hlength, some.injEq, Prod.mk.injEq,
            add_right_cancel_iff, drop_drop]
          constructor
          · rintro ⟨_, _, _, _, ⟨rfl, rfl⟩, hstring⟩
            exact hstring
          · exact fun hstring => ⟨count, used, hcount.1, hcount.2, ⟨rfl, rfl⟩, hstring⟩
        rw [if_neg (by omega), if_neg (by omega), hread]
        cases result with
        | none =>
          refine ⟨[], rfl, .inl rfl, fun text => ?_⟩
          rw [hstart, hresult]
          simp
        | some found =>
          refine ⟨_, rfl, ?_, fun text => ?_⟩
          · split_ifs
            · exact .inl rfl
            · exact .inr ⟨_, rfl⟩
          · rw [hstart, hresult]
            by_cases hempty : found.1 = []
            · simp [Prod.ext_iff, hempty]
            · simp only [Prod.ext_iff, hempty, if_false, some.injEq, exists_and_left,
                exists_eq', and_true, List.cons.injEq]
              exact ⟨And.right, fun hsame => ⟨hsame ▸ hempty, hsame⟩⟩
      · refine ⟨[], ?_, .inl rfl, fun text => ?_⟩
        · by_cases hzero : count = 0
          · rw [if_pos (by omega)]
          · rw [if_neg (by omega), if_pos (by omega)]
        · simp only [StartsWithTopic, hlength, some.injEq, Prod.mk.injEq,
            add_right_cancel_iff, nil_eq, reduceCtorEq, iff_false, not_exists]
          rintro _ _ ⟨hlow, hhigh, ⟨rfl, rfl⟩, _⟩
          exact hcount ⟨hlow, hhigh⟩

theorem extractGroupID_spec (data : List Byte) (offset : ℕ) :
    ∃ groupID, extractGroupID data offset true = .ok groupID ∧
      ∀ text, StartsWithString (data.drop offset) text ↔ text ≠ [] ∧ groupID = text := by
  obtain ⟨result, hread, hresult⟩ := readCompactString_spec data offset
  rw [extractGroupID, hread]
  cases result with
  | none =>
    refine ⟨[], rfl, fun text => ?_⟩
    rw [hresult]
    simp only [reduceCtorEq, exists_false, and_false, false_iff, not_and]
    exact fun hne heq => hne heq.symm
  | some found =>
    refine ⟨found.1, rfl, fun text => ?_⟩
    rw [hresult]
    simp [Prod.ext_iff]

variable {bytes : List Byte} {topics : Option (List TopicEntry)} {fields : ProduceFields}
  {version : ℕ} {req : Request}

/-- A report that follows the bytes is right when these name nothing else. -/
theorem topics_right_iff {topics : List (List Byte)} {first : Option (List Byte)}
    (hshape : topics = [] ∨ ∃ text, topics = [text])
    (hspec : ∀ text, StartsWithTopic bytes text ↔ topics = [text]) :
    (topics = [] ∨ ∃ name, first = some name ∧ topics = [name]) ↔
      ∀ text, StartsWithTopic bytes text → first = some text := by
  constructor
  · rintro (rfl | ⟨name, hfirst, rfl⟩) text htext
    · exact absurd ((hspec text).1 htext) (cons_ne_nil _ _).symm
    · rw [hfirst, singleton_injective ((hspec text).1 htext)]
  · intro hright
    rcases hshape with hempty | ⟨text, htext⟩
    · exact .inl hempty
    · exact .inr ⟨text, hright text ((hspec text).2 htext), htext⟩

/-! ## Known layouts -/

theorem startsWithString_nullableString {name : Option (List Byte)} {text : List Byte}
    (hsize : (nullableString true name).length < 2 ^ 31)
    (hstart : StartsWithString (nullableString true name ++ rest) text) : name = some text := by
  obtain ⟨_, _, hdecode, hbegins⟩ := hstart
  cases name with
  | none =>
    rw [nullableString, if_pos rfl, decodeVarint_encodeVarint (by norm_num)] at hdecode
    simp at hdecode
  | some =>
    simp only [nullableString, stringField, if_true, length_append,
      append_assoc] at hsize hdecode hbegins
    rw [decodeVarint_encodeVarint (by omega), some.injEq, Prod.mk.injEq,
      add_right_cancel_iff] at hdecode
    obtain ⟨hlength, rfl⟩ := hdecode
    rw [drop_left, prefix_iff_eq_take, ← hlength, take_left] at hbegins
    rw [hbegins]

theorem length_topics_le (flexible : Bool) (topics : List TopicEntry) :
    topics.length ≤ (topicArray .name flexible (some topics)).length := by
  have hle := length_le_flatMap (TopicEntry.encode .name flexible)
    (fun entry => append_ne_nil_of_left_ne_nil (nullableString_ne_nil _ _) _) topics
  rw [topicArray, length_append]
  omega

theorem startsWithTopic_topicArray {text : List Byte}
    (hsize : (topicArray .name true topics).length < 2 ^ 31)
    (hstart : StartsWithTopic (topicArray .name true topics ++ rest) text) :
    (topics.bind List.head?).bind TopicEntry.name = some text := by
  obtain ⟨_, _, hpositive, _, hdecode, hstring⟩ := hstart
  cases topics with
  | none =>
    rw [topicArray, nullLength, if_pos rfl, decodeVarint_encodeVarint (by norm_num)] at hdecode
    simp at hdecode
  | some topics =>
    have hcount := length_topics_le true topics
    simp only [topicArray, lengthField, if_true, append_assoc] at hdecode hstring
    rw [decodeVarint_encodeVarint (by omega), some.injEq, Prod.mk.injEq,
      add_right_cancel_iff] at hdecode
    obtain ⟨rfl, rfl⟩ := hdecode
    rw [drop_left] at hstring
    cases topics with
    | nil => simp at hpositive
    | cons entry =>
      rw [flatMap_cons, TopicEntry.encode, append_assoc, append_assoc] at hstring
      have hshort : (nullableString true entry.name).length < 2 ^ 31 := by
        simp only [topicArray, flatMap_cons, TopicEntry.encode, length_append] at hsize
        omega
      exact startsWithString_nullableString hshort hstring

theorem extractTopicArrayLegacy_at
    (hfits : ∀ entry ∈ topics.getD [], ∀ text ∈ entry.name, text.length < 2 ^ 15)
    (hsize : data.length < 2 ^ 31) (hat : At data offset (topicArray .name false topics ++ rest)) :
    ∃ reported, extractTopicArrayLegacy data offset = .ok reported ∧
      (reported = [] ∨ ∃ name, (topics.bind List.head?).bind TopicEntry.name = some name ∧
        reported = [name]) := by
  cases topics with
  | none =>
    simp only [topicArray, nullLength, Bool.false_eq_true, if_false] at hat
    have hend := hat.fits
    rw [length_int32Bytes] at hend
    refine ⟨[], ?_, .inl rfl⟩
    rw [extractTopicArrayLegacy, if_neg (not_lt.2 hend),
      int32At_at hat (by norm_num) (by norm_num), bind_ok, if_pos (by norm_num)]
  | some topics =>
    have hcount := (length_topics_le false topics).trans (le_of_add_left_le hat.fits)
    simp only [topicArray, lengthField, Bool.false_eq_true, if_false, append_assoc] at hat
    have hend := hat.fits
    have hentries := hat.advance
    rw [length_int32Bytes] at hend hentries
    rw [extractTopicArrayLegacy, if_neg (not_lt.2 hend),
      int32At_at hat (by omega) (by omega), bind_ok]
    by_cases hrange : (topics.length : ℤ) ≤ 0 ∨ (topics.length : ℤ) > 10000
    · exact ⟨[], by rw [if_pos hrange], .inl rfl⟩
    · rw [if_neg hrange]
      cases topics with
      | nil => exact absurd (.inl (by simp)) hrange
      | cons entry =>
        rw [flatMap_cons, TopicEntry.encode, append_assoc, append_assoc] at hentries
        have hname := hfits entry (by simp)
        cases htext : entry.name with
        | none =>
          rw [htext] at hentries
          obtain ⟨hlength, hend⟩ := legacyNull_at hentries
          refine ⟨[], ?_, .inl rfl⟩
          rw [if_neg (not_lt.2 hend), hlength, bind_ok, if_pos (.inl (by norm_num))]
        | some text =>
          rw [htext] at hentries
          obtain ⟨hlength, _, hslice⟩ := legacyString_at (hname text htext) hentries
          rw [if_neg (by omega), hlength, bind_ok]
          by_cases hempty : text = []
          · exact ⟨[], by rw [if_pos (.inl (by simp [hempty]))], .inl rfl⟩
          · have hpositive := length_pos_of_ne_nil hempty
            refine ⟨[text], ?_, .inr ⟨text, htext, rfl⟩⟩
            rw [if_neg (by omega), hslice, bind_ok]

/-- A topic array whose entries begin with their names. -/
theorem extractTopicArray_at (flexible : Bool)
    (hfits : ∀ entry ∈ topics.getD [], ∀ text ∈ entry.name, StringFits flexible text)
    (hsize : data.length < 2 ^ 31)
    (hat : At data offset (topicArray .name flexible topics ++ rest)) :
    ∃ reported, extractTopicArray data offset flexible = .ok reported ∧
      (reported = [] ∨ ∃ name, (topics.bind List.head?).bind TopicEntry.name = some name ∧
        reported = [name]) := by
  cases flexible with
  | false =>
    exact extractTopicArrayLegacy_at
      (fun entry hentry text htext => hfits entry hentry text htext rfl)
      hsize hat
  | true =>
    obtain ⟨reported, hextract, hshape, hspec⟩ := extractTopicArrayCompact_spec data offset
    refine ⟨reported, hextract, (topics_right_iff hshape hspec).2 fun text htext => ?_⟩
    rw [hat.drop] at htext
    exact startsWithTopic_topicArray (by have := hat.fits; omega) htext

theorem extractGroupID_at {groupID : List Byte} (flexible : Bool)
    (hfits : StringFits flexible groupID) (hsize : data.length < 2 ^ 31)
    (hat : At data offset (stringField flexible groupID ++ rest)) :
    extractGroupID data offset flexible = .ok groupID := by
  cases flexible with
  | true => rw [extractGroupID, if_pos rfl, readCompactString_at hsize hat, bind_ok]
  | false =>
    obtain ⟨hlength, _, hslice⟩ := legacyString_at (hfits rfl) hat
    rw [extractGroupID, if_neg Bool.false_ne_true, if_neg (by omega), hlength, bind_ok]
    by_cases hempty : groupID = []
    · rw [if_pos (.inl (by simp [hempty])), hempty]
    · have hpositive := length_pos_of_ne_nil hempty
      rw [if_neg (by omega), hslice]

/-! ## Requests -/

theorem isFlexibleVersion_key (api : Api) (version : ℕ) :
    isFlexibleVersion api.key version = api.flexible version := by
  cases api <;> simp only [Api.key, isFlexibleVersion, Api.flexible, Api.flexibleSince] <;>
    exact decide_eq_decide.2 (by norm_cast)

theorem key_range (api : Api) : 0 ≤ api.key ∧ api.key ≤ 74 := by
  cases api <;> decide

section

variable (hfits : ∀ text ∈ fields.transactionalID, StringFits (Api.produce.flexible version) text)
  (hsize : data.length < 2 ^ 31) (hat : At data offset (fields.encode version ++ rest))

include hfits hsize hat

theorem skipTransactionalID_fields :
    ∃ next, skipTransactionalID data offset version (Api.produce.flexible version) =
      .ok (some next) ∧
      next + 6 = offset + (fields.encode version).length := by
  have hsix : (fields.acks.val ++ fields.timeout.val).length = 6 := by
    rw [length_append, fields.acks.property, fields.timeout.property]
  by_cases hversion : 3 ≤ version
  · simp only [ProduceFields.encode, if_pos hversion, append_assoc] at hat ⊢
    refine ⟨_, skipTransactionalID_at hsize _ version (by omega) hfits hat, ?_⟩
    rw [length_append, hsix, add_assoc]
  · have hlegacy : Api.produce.flexible version = false := by
      simp only [Api.flexible, Api.flexibleSince]
      exact decide_eq_false (by omega)
    refine ⟨offset, ?_, ?_⟩
    · rw [hlegacy, skipTransactionalID, if_neg Bool.false_ne_true, if_neg (by omega)]
    · rw [ProduceFields.encode, if_neg hversion, nil_append, hsix]

theorem extractProduceTopics_eq :
    extractProduceTopics data offset version (Api.produce.flexible version) =
      extractTopicArray data (offset + (fields.encode version).length)
        (Api.produce.flexible version) := by
  obtain ⟨_, hskip, hnext⟩ := skipTransactionalID_fields hfits hsize hat
  have hend := hat.fits
  rw [extractProduceTopics, hskip, bind_ok]
  simp only
  rw [hnext, if_neg (not_lt.2 hend)]

end

theorem fetchPreamble_eq (fields : FetchFields) (version : ℕ) :
    fetchPreamble version = (fields.encode version).length + if 15 ≤ version then 4 else 0 := by
  have hlengths := And.intro fields.replicaID.property (And.intro fields.maxWait.property
    (And.intro fields.minBytes.property (And.intro fields.maxBytes.property
      (And.intro fields.isolationLevel.property fields.session.property))))
  obtain ⟨hreplica, hwait, hmin, hmax, hisolation, hsession⟩ := hlengths
  simp only [fetchPreamble, FetchFields.encode, length_append, hwait, hmin]
  norm_cast
  split_ifs <;> simp only [hreplica, hmax, hisolation, hsession, length_nil] <;> omega

/-- Topics that are read behind the end of the message are none. -/
theorem extractTopics_beyond (flexible : Bool) (hbeyond : data.length < offset) :
    extractTopicArray data offset flexible = .ok [] := by
  cases flexible with
  | false =>
    rw [extractTopicArray, if_neg Bool.false_ne_true, extractTopicArrayLegacy, if_pos (by omega)]
  | true =>
    rw [extractTopicArray, extractTopicArrayCompact, readCompactArrayLen,
      readUnsignedVarint_eq, drop_of_length_le hbeyond.le]
    rfl

theorem extractFetchTopics_eq (fields : FetchFields) (version : ℕ) (flexible : Bool) :
    extractFetchTopics data offset version flexible =
      extractTopicArray data (offset + (fields.encode version).length +
        if 15 ≤ version then 4 else 0) flexible := by
  rw [extractFetchTopics, fetchPreamble_eq fields, ← add_assoc]
  by_cases hbeyond : offset + (fields.encode version).length +
      (if 15 ≤ version then 4 else 0) > data.length
  · rw [if_pos hbeyond, extractTopics_beyond flexible hbeyond]
  · rw [if_neg hbeyond]

theorem mem_strings {body : Body} {entry : TopicEntry} {text : List Byte}
    (hentry : entry ∈ body.topics.getD []) (htext : text ∈ entry.name) : text ∈ body.strings := by
  have hmem : text ∈ (body.topics.getD []).flatMap fun topic => topic.name.toList :=
    mem_flatMap.2 ⟨entry, hentry, mem_toList.2 htext⟩
  cases body with
  | produce => exact mem_append_right _ hmem
  | fetch fields topics | metadata topics | createTopics topics => exact hmem
  | _ => cases hentry

theorem reportedBy_of_groupID_nil {body : Body} (hgroup : req.groupID = []) :
    body.ReportedBy version req ↔
      req.topics = [] ∨ ∃ name, body.firstTopic version = some name ∧ req.topics = [name] :=
  and_iff_left (.inl hgroup)

namespace TypedRequest

variable {request : TypedRequest}

/-- The parser reports what it reads as a topic array at `offset`. -/
def Follows (request : TypedRequest) (parsed : Read Request) (data : List Byte) (offset : ℕ) :
    Prop :=
  ∀ reported,
    extractTopicArray data offset (request.body.api.flexible request.version) = .ok reported →
      ∃ req, parsed = .ok req ∧ req.topics = reported ∧ req.groupID = []

/-- The outcome for a request: it is parsed, and rightly unless it is misread. -/
def Settled (request : TypedRequest) (parsed : Read Request) : Prop :=
  ∃ req, parsed = .ok req ∧ (request.body.ReportedBy request.version req ↔ ¬ request.Misread)

def SettledAt (request : TypedRequest) (req : Request) (data : List Byte) (offset : ℕ) : Prop :=
  request.Settled (extractRequestDetails req data offset request.body.api.key request.version)

/-- In a layout that the parser knows it finds the array of topics, in the others it reads what
stands `skew` bytes behind the start of the array. -/
structure Skewed (request : TypedRequest) (skew : ℕ) : Prop where
  known : request.body.naming request.version = .name → skew = 0 ∧ ¬ request.Misread
  unknown : request.body.naming request.version ≠ .name →
    request.body.api.flexible request.version = true ∧
      (request.Misread ↔ ∃ text, StartsWithTopic
        ((request.body.topicField request.version ++ request.trailing).drop skew) text ∧
          request.body.firstTopic request.version ≠ some text)

theorem Skewed.settled {parsed : Read Request} {skew : ℕ} (hskewed : request.Skewed skew)
    (hfollows : request.Follows parsed data (offset + skew)) (hsize : data.length < 2 ^ 31)
    (hat : At data offset (request.body.topicField request.version ++ request.trailing)) :
    request.Settled parsed := by
  by_cases hnaming : request.body.naming request.version = .name
  · obtain ⟨rfl, hmisread⟩ := hskewed.known hnaming
    rw [topicField, hnaming] at hat
    obtain ⟨reported, hextract, hright⟩ := extractTopicArray_at _
      (fun entry hentry text htext => request.strings_fit text (mem_strings hentry htext)) hsize hat
    obtain ⟨req, hparsed, htopics, hgroup⟩ := hfollows reported hextract
    refine ⟨req, hparsed, iff_of_true ((reportedBy_of_groupID_nil hgroup).2 ?_) hmisread⟩
    rw [htopics, firstTopic, hnaming]
    exact hright
  · obtain ⟨hflexible, hmisread⟩ := hskewed.unknown hnaming
    obtain ⟨reported, hextract, hshape, hspec⟩ := extractTopicArrayCompact_spec data (offset + skew)
    rw [← drop_drop, hat.drop] at hspec
    obtain ⟨req, hparsed, htopics, hgroup⟩ := hfollows reported (by rw [hflexible]; exact hextract)
    refine ⟨req, hparsed, ?_⟩
    rw [reportedBy_of_groupID_nil hgroup, htopics, topics_right_iff hshape hspec, hmisread]
    simp

theorem flexible_eq_true {api : Api} (hversion : api.flexibleSince ≤ version) :
    api.flexible version = true := decide_eq_true hversion

/-- The topics have no names since a version that is flexible. -/
theorem skewed_of_since (since : ℕ) {skew : ℕ} (hsince : request.body.api.flexibleSince ≤ since)
    (hnaming : request.body.naming request.version = .name ↔ ¬ since ≤ request.version)
    (hskew : ¬ since ≤ request.version → skew = 0) (hmisread : request.Misread ↔
      since ≤ request.version ∧ ∃ text, StartsWithTopic
        ((request.body.topicField request.version ++ request.trailing).drop skew) text ∧
          request.body.firstTopic request.version ≠ some text) : request.Skewed skew where
  known hname := ⟨hskew (hnaming.1 hname), fun hwrong => hnaming.1 hname (hmisread.1 hwrong).1⟩
  unknown hname := by
    have hversion := not_not.1 (mt hnaming.2 hname)
    exact ⟨flexible_eq_true (hsince.trans hversion), hmisread.trans (and_iff_right hversion)⟩

/-- The APIs from which the parser takes a group. -/
theorem extractRequestDetails_group (api : Api) (version : ℕ)
    (hgroup : api = .joinGroup ∨ api = .syncGroup ∨ api = .offsetCommit ∨ api = .offsetFetch ∨
      api = .heartbeat ∨ api = .leaveGroup) (req : Request) (data : List Byte) (offset : ℕ) :
    extractRequestDetails req data offset api.key version =
      (extractGroupID data offset (api.flexible version)).bind fun groupID =>
        .ok { req with groupID := groupID } := by
  rw [← isFlexibleVersion_key]
  rcases hgroup with rfl | rfl | rfl | rfl | rfl | rfl <;> rfl

section Extracts

variable (hsize : data.length < 2 ^ 31)
  (hat : At data offset (request.body.encode request.version ++ request.trailing))

include hsize hat

theorem settled_produce (hbody : request.body = .produce fields topics)
    (hgroup : req.groupID = []) :
    request.SettledAt req data offset := by
  have hapi : request.body.api = .produce := by rw [hbody, api]
  have hstrings (text : List Byte) (htext : text ∈ fields.transactionalID) :
      StringFits (Api.produce.flexible request.version) text := by
    rw [← hapi]
    apply request.strings_fit text
    rw [hbody]
    exact mem_append_left _ (mem_toList.2 htext)
  rw [hbody, encode, ← hbody, append_assoc] at hat
  have hskewed : request.Skewed 0 := skewed_of_since 13 (by rw [hapi]; decide)
    (by simp [hbody, naming]) (fun _ => rfl) (by simp [Misread, hbody])
  refine hskewed.settled ?_ hsize hat.advance
  intro reported hreported
  obtain ⟨messages, hmessages⟩ := @extractProduceMessages_completes data offset request.version
    (Api.produce.flexible request.version)
  refine ⟨{ req with topics := reported, messages := messages }, ?_, rfl, hgroup⟩
  rw [hapi, add_zero] at hreported
  rw [hapi]
  change ((extractProduceTopics data offset request.version
    (isFlexibleVersion Api.produce.key request.version)).bind fun topics =>
      (extractProduceMessages data offset request.version
        (isFlexibleVersion Api.produce.key request.version)).bind fun messages =>
          .ok { req with topics := topics, messages := messages }) = _
  rw [isFlexibleVersion_key, extractProduceTopics_eq hstrings hsize hat, hreported, bind_ok,
    hmessages, bind_ok]

theorem settled_fetch {fields : FetchFields} (hbody : request.body = .fetch fields topics)
    (hgroup : req.groupID = []) :
    request.SettledAt req data offset := by
  have hapi : request.body.api = .fetch := by rw [hbody, api]
  rw [hbody, encode, ← hbody, append_assoc] at hat
  have hskewed : request.Skewed (if 15 ≤ request.version then 4 else 0) :=
    skewed_of_since 13 (by rw [hapi]; decide) (by simp [hbody, naming])
      (fun hversion => if_neg (by omega)) (by simp [Misread, hbody])
  refine hskewed.settled ?_ hsize hat.advance
  intro reported hreported
  refine ⟨{ req with topics := reported }, ?_, rfl, hgroup⟩
  rw [hapi] at hreported ⊢
  change ((extractFetchTopics data offset request.version
    (isFlexibleVersion Api.fetch.key request.version)).bind fun topics =>
      .ok { req with topics := topics }) = _
  rw [isFlexibleVersion_key, extractFetchTopics_eq fields, hreported, bind_ok]

/-- Metadata and CreateTopics requests begin with their topics. -/
theorem settled_leading {api : Api} (hapi : request.body.api = api)
    (hleading : api = .metadata ∨ api = .createTopics)
    (hencode : request.body.encode request.version = request.body.topicField request.version)
    (hskewed : request.Skewed 0) (hgroup : req.groupID = []) :
    request.SettledAt req data offset := by
  rw [hencode] at hat
  refine hskewed.settled ?_ hsize hat
  intro reported hreported
  refine ⟨{ req with topics := reported }, ?_, rfl, hgroup⟩
  rw [hapi, add_zero] at hreported
  rw [hapi]
  have hdetails : extractRequestDetails req data offset api.key request.version =
      (if offset > data.length then Exec.ok [] else extractTopicArray data offset
        (isFlexibleVersion api.key request.version)).bind fun topics =>
          .ok { req with topics := topics } := by
    rcases hleading with rfl | rfl <;> rfl
  rw [hdetails, isFlexibleVersion_key, if_neg (not_lt.2 hat.le), hreported, bind_ok]

theorem settled_groupID (api : Api) (groupID : List Byte) (hapi : request.body.api = api)
    (hgroup : api = .joinGroup ∨ api = .syncGroup ∨ api = .offsetCommit ∨ api = .offsetFetch ∨
      api = .heartbeat ∨ api = .leaveGroup) (hencode : request.body.encode request.version =
      stringField (api.flexible request.version) groupID)
    (hfirst : request.body.firstGroup = some groupID) (hmem : groupID ∈ request.body.strings)
    (hmisread : ¬ request.Misread) (htopics : req.topics = []) :
    request.SettledAt req data offset := by
  have hfits := request.strings_fit groupID hmem
  rw [hapi] at hfits
  rw [hencode] at hat
  refine ⟨{ req with groupID := groupID }, ?_, iff_of_true ⟨.inl htopics, .inr hfirst⟩ hmisread⟩
  rw [hapi, extractRequestDetails_group api _ hgroup, extractGroupID_at _ hfits hsize hat, bind_ok]

omit hsize in
theorem settled_offsetFetchBatch {groups : List GroupEntry}
    (hbody : request.body = .offsetFetchBatch groups) (htopics : req.topics = []) :
    request.SettledAt req data offset := by
  have hapi : request.body.api = .offsetFetch := by rw [hbody, api]
  have hversion : 8 ≤ request.version := by
    have hin := request.inVersion
    rwa [hbody] at hin
  rw [hbody, encode] at hat
  obtain ⟨groupID, hextract, hspec⟩ := extractGroupID_spec data offset
  rw [hat.drop] at hspec
  refine ⟨{ req with groupID := groupID }, ?_, ?_⟩
  · rw [hapi, extractRequestDetails_group .offsetFetch _ (by simp),
      flexible_eq_true (by simp only [Api.flexibleSince]; omega), hextract, bind_ok]
  · have hmisread : request.Misread ↔ groupID ≠ [] ∧ request.body.firstGroup ≠ some groupID := by
      rw [Misread, hbody]
      simp only [hspec]
      constructor
      · rintro ⟨_, ⟨hne, rfl⟩, hfirst⟩
        exact ⟨hne, hfirst⟩
      · exact fun hwrong => ⟨groupID, ⟨hwrong.1, rfl⟩, hwrong.2⟩
    rw [hmisread, not_and_or, not_not, not_not]
    exact and_iff_right (.inl htopics)

theorem settled (req : Request) (htopics : req.topics = []) (hgroup : req.groupID = []) :
    request.SettledAt req data offset := by
  obtain ⟨body, hbody⟩ : ∃ body, request.body = body := ⟨_, rfl⟩
  cases body with
  | produce =>
    exact settled_produce hsize hat hbody hgroup
  | fetch =>
    exact settled_fetch hsize hat hbody hgroup
  | metadata =>
    apply settled_leading hsize hat (by rw [hbody, api]) (.inl rfl)
      (by rw [hbody, encode]) _ hgroup
    exact skewed_of_since 10 (by rw [hbody, api]; decide) (by simp [hbody, naming])
      (fun _ => rfl) (by simp [Misread, hbody])
  | createTopics =>
    apply settled_leading hsize hat (by rw [hbody, api]) (.inr rfl)
      (by rw [hbody, encode]) _ hgroup
    exact ⟨by simp [Misread, hbody], by simp [hbody, Body.naming]⟩
  | group api groupID =>
    apply settled_groupID hsize hat api.api groupID _ _ _ _ _ _ htopics
    · rw [hbody, Body.api]
    · cases api <;> simp [GroupApi.api]
    · rw [hbody, Body.encode]
    · rw [hbody, Body.firstGroup]
    · rw [hbody]
      exact mem_singleton_self _
    · simp [Misread, hbody]
  | offsetFetch groupID =>
    apply settled_groupID hsize hat .offsetFetch groupID _ _ _ _ _ _ htopics
    · rw [hbody, api]
    · simp
    · rw [hbody, encode]
    · rw [hbody, firstGroup]
    · rw [hbody]
      exact mem_singleton_self _
    · simp [Misread, hbody]
  | offsetFetchBatch =>
    exact settled_offsetFetchBatch hat hbody htopics

end Extracts

theorem reportedRight_iff_of_le {more : List Byte}
    (hsize : request.message.length ≤ maxMessageSize) :
    request.ReportedRight more ↔ ¬ request.Misread := by
  have hbound : request.message.length < 2 ^ 31 := hsize.trans_lt (by decide)
  have hmessage : request.message = request.header.encode request.body.api.key request.version
      (isFlexibleVersion request.body.api.key request.version) ++
        (request.body.encode request.version ++ request.trailing) := by
    rw [isFlexibleVersion_key]
    rfl
  have hversion : (0 : ℤ) ≤ request.version ∧ (request.version : ℤ) ≤ 20 := by
    have := request.version_le
    omega
  obtain ⟨_, hat, hparse⟩ := parseMessage_eq request.header (key_range _) hversion hmessage hbound
  obtain ⟨req, hdetails, hright⟩ := request.settled hbound hat
    (request.header.request request.body.api.key request.version request.message) rfl rfl
  rw [hdetails] at hparse
  have hrequest := parseRequest_of_parseMessage
    (hmessage ▸ request.header.eight_le_length _ _ _ _) hsize hparse more
  rw [← hright, ReportedRight, hrequest]
  constructor
  · rintro ⟨_, _, hresult, hreported⟩
    rw [ok_inj, Prod.mk.injEq] at hresult
    exact hreported req hresult.1.symm
  · intro hreported
    refine ⟨.ok req, { buffer := more }, rfl, ?_⟩
    rintro _ ⟨⟩
    exact hreported

/-- For every request of the ten APIs, in every version the parser accepts and whatever
follows it: what is reported is the first topic and the first group or nothing, unless a
request in a layout that the parser does not know is misread.  Requests above the size
limit are not reported at all. -/
theorem topics_and_groups_reported_iff (request : TypedRequest)
    (hsize : request.message.length < 2 ^ 31) (more : List Byte) :
    request.ReportedRight more ↔ maxMessageSize < request.message.length ∨ ¬ request.Misread := by
  by_cases hlarge : maxMessageSize < request.message.length
  · refine iff_of_true ⟨_, _, parseRequest_of_oversize hlarge hsize more, ?_⟩ (.inl hlarge)
    intro req hreq
    cases hreq
  · rw [reportedRight_iff_of_le (not_lt.1 hlarge), or_iff_right hlarge]

/-- An OffsetFetch request of version 8 for the group `orders`: all its topics, unstable
offsets allowed. -/
def offsetFetchOrders : TypedRequest where
  version := 8
  header := { correlationID := 1, clientID := none, clientID_fits := nofun, tags := [] }
  body := .offsetFetchBatch [{ groupID := [0x6f, 0x72, 0x64, 0x65, 0x72, 0x73], others := [0, 0] }]
  trailing := [0, 0]
  version_le := by decide
  inVersion := le_refl 8
  strings_fit := nofun

/-- A Metadata request of version 10 that asks for one topic by its id. -/
def metadataById : TypedRequest where
  version := 10
  header := { correlationID := 1, clientID := none, clientID_fits := nofun, tags := [] }
  body := .metadata (some
    [{ id := ⟨[3, 0x61, 0x62, 9, 9, 9, 9, 9, 9, 9, 9, 9, 9, 9, 9, 9], rfl⟩
       name := none
       others := [0] }])
  trailing := [1, 0, 0, 0]
  version_le := by decide
  inVersion := trivial
  strings_fit := by simp [Body.strings]

theorem not_reportedRight {rest : Parser} {more : List Byte}
    (hparse : ({ buffer := frame request.message ++ more } : Parser).parseRequest =
      .ok (.ok req, rest)) (hwrong : ¬ request.body.ReportedBy request.version req) :
    ¬ request.ReportedRight more := by
  rintro ⟨_, _, hresult, hreported⟩
  rw [hparse, ok_inj, Prod.mk.injEq] at hresult
  exact hwrong (hreported req hresult.1.symm)

/-- The length byte of the group's name is reported as the group, and bytes of a topic id
as the topic. -/
theorem later_layouts_misread :
    (∃ req, ({ buffer := frame offsetFetchOrders.message } : Parser).parseRequest =
      .ok (.ok req, { buffer := [] }) ∧ req.groupID = [7]) ∧
    (∃ req, ({ buffer := frame metadataById.message } : Parser).parseRequest =
      .ok (.ok req, { buffer := [] }) ∧ req.topics = [[0x61, 0x62]]) ∧
    ¬ offsetFetchOrders.ReportedRight [] ∧ ¬ metadataById.ReportedRight [] := by
  have hgroup : ({ buffer := frame offsetFetchOrders.message ++ [] } : Parser).parseRequest =
      .ok (.ok { header := ⟨9, 8, 1, []⟩, messageSize := 23, groupID := [7], totalSize := 27 },
        { buffer := [] }) := by
    decide +kernel
  have htopic : ({ buffer := frame metadataById.message ++ [] } : Parser).parseRequest =
      .ok (.ok { header := ⟨3, 10, 1, []⟩, messageSize := 34, topics := [[0x61, 0x62]]
                 totalSize := 38 }, { buffer := [] }) := by
    decide +kernel
  refine ⟨⟨_, by simpa using hgroup, rfl⟩, ⟨_, by simpa using htopic, rfl⟩,
    not_reportedRight hgroup ?_, not_reportedRight htopic ?_⟩
  · rintro ⟨-, hnil | hfirst⟩
    · cases hnil
    · exact absurd hfirst (by decide)
  · rintro ⟨hnil | ⟨_, hfirst, -⟩, -⟩
    · cases hnil
    · exact absurd hfirst (by simp [metadataById, firstTopic, topics, naming, TopicEntry.nameIn])

theorem topics_and_groups_reported_iff_orders :
    offsetFetchOrders.message.length < 2 ^ 31 ∧
      (offsetFetchOrders.ReportedRight [] ↔
        maxMessageSize < offsetFetchOrders.message.length ∨ ¬ offsetFetchOrders.Misread) := by
  have hsize : offsetFetchOrders.message.length < 2 ^ 31 := by
    decide +kernel
  exact ⟨hsize, topics_and_groups_reported_iff offsetFetchOrders hsize []⟩

end TypedRequest

end Qtap.Kafka
