import Qtap.Core.Duplex
import Qtap.Redis.Safety

/-!
# Parsing a growing buffer

A value that the parser has recognised stays the same when more bytes arrive behind it.
The proof follows the calls of the parser; the nesting bound, which grows with the
buffer, is carried through every one of them.  The parser is then an instance of the
framing library, with every complete value of the grammar as one of its frames.
-/

namespace Qtap.Redis

open Redis.Parser List Qtap.Core Exec

/-- What the one parser returns, the other returns on every longer buffer. -/
def Persists {R : Type} (parse parse' : List Byte → Exec ParseError R) : Prop :=
  ∀ data more, (parse data).Agrees (parse' (data ++ more))

/-! ## Leaves -/

theorem indexCRLF_append {data : List Byte} {idx : ℕ} (hidx : indexCRLF data = some idx)
    (more : List Byte) : indexCRLF (data ++ more) = some idx := by
  induction data generalizing idx with
  | nil => cases hidx
  | cons first rest ih =>
    cases rest with
    | nil => simp [indexCRLF] at hidx
    | cons second rest =>
      have hhead : (second :: rest ++ more).head? = (second :: rest).head? := rfl
      rw [cons_append, indexCRLF, hhead]
      rw [indexCRLF] at hidx
      split_ifs at hidx with hline
      · rw [if_pos hline, hidx]
      · obtain ⟨_, hinner, rfl⟩ := Option.map_eq_some_iff.1 hidx
        rw [if_neg hline, ih hinner, Option.map_some]

theorem lineEnd_persists : Persists lineEnd lineEnd := by
  intro data more idx hidx
  rw [lineEnd] at hidx ⊢
  cases hline : indexCRLF data with
  | none =>
    rw [hline] at hidx
    cases hidx
  | some =>
    rw [hline] at hidx
    rw [indexCRLF_append hline more]
    exact hidx

theorem parseLine_persists (kind : RESPType) : Persists (parseLine kind) (parseLine kind) := by
  intro data more
  apply (lineEnd_persists data more).bind
  intro idx _
  apply slice_agrees.bind
  exact fun _ _ => .refl _

theorem parseLength_persists : Persists parseLength parseLength := by
  intro data more
  apply (lineEnd_persists data more).bind
  intro idx _
  apply slice_agrees.bind
  exact fun _ _ => .refl _

theorem parseInteger_persists : Persists parseInteger parseInteger := by
  intro data more
  apply (parseLength_persists data more).bind
  exact fun _ _ => .refl _

theorem parseDouble_persists (parseFloat : List Byte → Option UInt64) :
    Persists (parseDouble parseFloat) (parseDouble parseFloat) := by
  intro data more
  apply (lineEnd_persists data more).bind
  intro idx _
  apply slice_agrees.bind
  exact fun _ _ => .refl _

theorem parseBlob_persists {kind : RESPType} {idx length : ℤ} :
    Persists (fun data => parseBlob kind data idx length)
      (fun data => parseBlob kind data idx length) := by
  intro data more
  simp only [parseBlob]
  split
  · exact agrees_err _ _
  · rw [if_neg (by rw [length_append]; push_cast; omega)]
    apply slice_agrees.bind
    exact fun _ _ => .refl _

theorem parseBulkString_persists : Persists parseBulkString parseBulkString := by
  intro data more
  apply (parseLength_persists data more).bind
  rintro ⟨idx, length⟩ _
  simp only
  split_ifs with hnull
  · exact .refl _
  · exact parseBlob_persists data more

theorem parseNull_persists : Persists parseNull parseNull := by
  intro data more value hvalue
  match data, hvalue with
  | _ :: _ :: _ :: _, hvalue => exact hvalue
  | [], hvalue => cases hvalue
  | [_], hvalue => cases hvalue
  | [_, _], hvalue => cases hvalue

theorem parseBoolean_persists : Persists parseBoolean parseBoolean := by
  intro data more value hvalue
  match data, hvalue with
  | _ :: _ :: _ :: _ :: _, hvalue => exact hvalue
  | [], hvalue => cases hvalue
  | [_], hvalue => cases hvalue
  | [_, _], hvalue => cases hvalue
  | [_, _, _], hvalue => cases hvalue

/-! ## Aggregates -/

section Aggregates

variable {parse parse' : List Byte → Parsed} (hparse : Persists parse parse')

include hparse

/-- One element: the rest of the buffer grows with the buffer. -/
theorem suffix_agrees {R : Type} (data more : List Byte) (pos : ℤ)
    {next next' : Value × ℤ → Exec ParseError R}
    (hnext : ∀ result, (next result).Agrees (next' result)) :
    ((slice data pos data.length).bind fun rest => (parse rest).bind next).Agrees
      ((slice (data ++ more) pos (data ++ more).length).bind fun rest =>
        (parse' rest).bind next') := by
  intro result hresult
  obtain ⟨rest, hrest, hresult⟩ := bind_outcome_eq_ok_iff.1 hresult
  apply bind_outcome_eq_ok_iff.2
  refine ⟨rest ++ more, slice_suffix_append hrest more, ?_⟩
  exact (hparse rest more).bind (fun value _ => hnext value) result hresult

omit hparse in
theorem guard_agrees {R : Type} (data more : List Byte) (pos : ℤ)
    {next next' : Exec ParseError R} (hnext : next.Agrees next') :
    (if pos ≥ data.length then .err .incomplete else next).Agrees
      (if pos ≥ (data ++ more).length then .err .incomplete else next') := by
  split
  · exact agrees_err _ _
  · rw [if_neg (by rw [length_append]; push_cast; omega)]
    exact hnext

theorem parseElements_agrees (data more : List Byte) (count : ℕ) (pos : ℤ) (elements : List Value) :
    (parseElements parse data count pos elements).Agrees
      (parseElements parse' (data ++ more) count pos elements) := by
  induction count generalizing pos elements with
  | zero => exact .refl _
  | succ count ih =>
    apply guard_agrees
    apply suffix_agrees hparse
    exact fun result => ih _ _

theorem parseEntries_agrees (data more : List Byte) (count : ℕ) (pos : ℤ)
    (entries : List (List Byte × Value)) :
    (parseEntries parse data count pos entries).Agrees
      (parseEntries parse' (data ++ more) count pos entries) := by
  induction count generalizing pos entries with
  | zero => exact .refl _
  | succ count ih =>
    apply guard_agrees
    apply suffix_agrees hparse
    intro key
    apply guard_agrees
    apply suffix_agrees hparse
    exact fun val => ih _ _

theorem parseAggregate_persists {kind : RESPType} {idx count : ℤ} :
    Persists (fun data => parseAggregate parse kind data idx count)
      (fun data => parseAggregate parse' kind data idx count) := by
  intro data more
  apply (Exec.Agrees.refl _).bind
  intro _ _
  apply (parseElements_agrees hparse data more _ _ _).bind
  exact fun _ _ => .refl _

theorem parseArray_persists : Persists (parseArray parse) (parseArray parse') := by
  intro data more
  apply (parseLength_persists data more).bind
  rintro ⟨idx, count⟩ _
  simp only
  split_ifs with hnull
  · exact .refl _
  · exact parseAggregate_persists hparse data more

theorem parseMap_persists : Persists (parseMap parse) (parseMap parse') := by
  intro data more
  apply (parseLength_persists data more).bind
  rintro ⟨_, _⟩ _
  apply (Exec.Agrees.refl _).bind
  intro _ _
  apply (parseEntries_agrees hparse data more _ _ _).bind
  exact fun _ _ => .refl _

theorem parseTyped_persists (parseFloat : List Byte → Option UInt64) (kind : RESPType) :
    Persists (parseTyped parseFloat parse kind) (parseTyped parseFloat parse' kind) := by
  cases kind with
  | simpleString => exact parseLine_persists .simpleString
  | error => exact parseLine_persists .error
  | bigNumber => exact parseLine_persists .bigNumber
  | integer => exact parseInteger_persists
  | double => exact parseDouble_persists parseFloat
  | null => exact parseNull_persists
  | boolean => exact parseBoolean_persists
  | bulkString => exact parseBulkString_persists
  | array => exact parseArray_persists hparse
  | map => exact parseMap_persists hparse
  | bulkError | verbatim =>
    intro data more
    apply (parseLength_persists data more).bind
    exact fun header _ => parseBlob_persists data more
  | set | push =>
    intro data more
    apply (parseLength_persists data more).bind
    exact fun header _ => parseAggregate_persists hparse data more

end Aggregates

/-! ## The parser as a framer -/

section Framer

variable (parseFloat : List Byte → Option UInt64)

theorem parseNested_persists {depth depth' : ℕ} (hdepth : depth ≤ depth') :
    Persists (parseNested parseFloat depth) (parseNested parseFloat depth') := by
  induction depth generalizing depth' with
  | zero => exact fun _ _ => agrees_err _ _
  | succ depth ih =>
    intro data more
    cases depth' with
    | zero => exact absurd hdepth (Nat.not_succ_le_zero depth)
    | succ =>
      cases data with
      | nil => exact agrees_err _ _
      | cons first rest =>
        rw [parseNested, cons_append, parseNested]
        cases hkind : RESPType.ofMarker first with
        | none => exact agrees_err _ _
        | some kind =>
          exact parseTyped_persists (ih (Nat.le_of_succ_le_succ hdepth)) parseFloat kind
            (first :: rest) more

theorem parseValue_persists : Persists (parseValue parseFloat) (parseValue parseFloat) :=
  fun data more => parseNested_persists parseFloat (by simp) data more

variable {buffer : List Byte} {value : Value} {next : Parser}

theorem Parser.parse_eq_ok_iff :
    (parse parseFloat { buffer := buffer }).outcome = .ok (value, next) ↔
      buffer ≠ [] ∧ ∃ raw consumed rest,
        (parseValue parseFloat buffer).outcome = .ok (raw, consumed) ∧
        (slice buffer consumed buffer.length : Exec ParseError _).outcome = .ok rest ∧
        value = { raw with size := consumed } ∧ next = { buffer := rest } := by
  rw [parse]
  split_ifs with hempty
  · exact iff_of_false (by simp) fun hparse => hparse.1 hempty
  · simp only [bind_outcome_eq_ok_iff, Prod.exists, ok_outcome, Outcome.ok.injEq, Prod.mk.injEq]
    constructor
    · rintro ⟨raw, consumed, hraw, rest, hrest, rfl, rfl⟩
      exact ⟨hempty, raw, consumed, rest, hraw, hrest, rfl, rfl⟩
    · rintro ⟨_, raw, consumed, rest, hraw, hrest, rfl, rfl⟩
      exact ⟨raw, consumed, hraw, rest, hrest, rfl, rfl⟩

theorem Parser.parse_append {parser : Parser}
    (hparse : (parser.parse parseFloat).outcome = .ok (value, next)) (more : List Byte) :
    ((parser.append more).parse parseFloat).outcome = .ok (value, next.append more) := by
  obtain ⟨buffer⟩ := parser
  obtain ⟨hempty, raw, consumed, rest, hraw, hrest, rfl, rfl⟩ :=
    (parse_eq_ok_iff parseFloat).1 hparse
  apply (parse_eq_ok_iff parseFloat).2
  exact ⟨by simp [hempty], raw, consumed, rest ++ more,
    parseValue_persists parseFloat buffer more _ hraw, slice_suffix_append hrest more, rfl, rfl⟩

/-- The first value of a buffer, if it takes up any room. -/
def nextValue (buffer : List Byte) : Option (Value × List Byte) :=
  match (Parser.parse parseFloat { buffer := buffer }).outcome with
  | .ok (value, next) =>
    if next.buffer.length < buffer.length then some (value, next.buffer) else none
  | _ => none

theorem nextValue_eq_some_iff {buffer rest : List Byte} {value : Value} :
    nextValue parseFloat buffer = some (value, rest) ↔
      (parse parseFloat { buffer := buffer }).outcome = .ok (value, { buffer := rest }) ∧
        rest.length < buffer.length := by
  rw [nextValue]
  split
  · rename_i other next hparse
    simp only [hparse, Option.ite_none_right_eq_some, Option.some.injEq, Prod.mk.injEq,
      Outcome.ok.injEq]
    constructor
    · rintro ⟨hlength, rfl, rfl⟩
      exact ⟨⟨rfl, rfl⟩, hlength⟩
    · rintro ⟨⟨rfl, rfl⟩, hlength⟩
      exact ⟨hlength, rfl, rfl⟩
  · rename_i hparse
    constructor
    · exact fun hnone => nomatch hnone
    · exact fun hvalue => absurd hvalue.1 (hparse _ _)

def respFramer : Framer Byte Value where
  next := nextValue parseFloat
  shrinks := fun hnext => ((nextValue_eq_some_iff parseFloat).1 hnext).2
  stable := by
    intro buffer rest value hnext more
    obtain ⟨hparse, hlength⟩ := (nextValue_eq_some_iff parseFloat).1 hnext
    apply (nextValue_eq_some_iff parseFloat).2
    exact ⟨Parser.parse_append parseFloat hparse more, by simpa using hlength⟩

variable {parseFloat}

/-- `Parse` in terms of the grammar. -/
theorem Parser.parse_eq_ok (hsize : buffer.length ≤ maxAlloc)
    (hparse : (parse parseFloat { buffer := buffer }).outcome = .ok (value, next)) :
    ∃ size, Frame parseFloat buffer size ∧ next.buffer = buffer.drop size := by
  obtain ⟨_, raw, consumed, _, hraw, hrest, _, rfl⟩ :=
    (parse_eq_ok_iff parseFloat).1 hparse
  obtain ⟨size, rfl, hframe⟩ := ((parseValue_spec buffer hsize).ok_iff consumed).1 ⟨raw, hraw⟩
  rw [slice_suffix hframe.bound.2] at hrest
  cases hrest
  exact ⟨size, hframe, rfl⟩

/-- In every buffer that fits the memory, the framer takes what `Parse` takes. -/
theorem next_eq_some_iff {rest : List Byte} (hsize : buffer.length ≤ maxAlloc) :
    (respFramer parseFloat).next buffer = some (value, rest) ↔
      (parse parseFloat { buffer := buffer }).outcome = .ok (value, { buffer := rest }) := by
  refine (nextValue_eq_some_iff parseFloat).trans (and_iff_left_of_imp ?_)
  intro hparse
  obtain ⟨_, hframe, hrest⟩ := parse_eq_ok hsize hparse
  obtain ⟨_, _⟩ := hframe.bound
  simp only at hrest
  rw [hrest, length_drop]
  omega

theorem Parser.exists_parse_of_frame {size : ℕ} (hsize : buffer.length ≤ maxAlloc)
    (hframe : Frame parseFloat buffer size) : ∃ value,
      (parse parseFloat { buffer := buffer }).outcome = .ok (value, ⟨buffer.drop size⟩) := by
  obtain ⟨raw, hraw⟩ := ((parseValue_spec buffer hsize).ok_iff size).2 ⟨_, rfl, hframe⟩
  have hempty : buffer ≠ [] := by
    rintro rfl
    exact not_frame_nil hframe
  refine ⟨_, (parse_eq_ok_iff parseFloat).2 ⟨hempty, raw, _, _, hraw, ?_, rfl, rfl⟩⟩
  rw [slice_suffix hframe.bound.2]
  rfl

/-- `Parse` takes exactly the values of the grammar. -/
theorem Parser.parse_iff_frame (hsize : buffer.length ≤ maxAlloc) :
    (∃ value, (parse parseFloat { buffer := buffer }).outcome = .ok (value, next)) ↔
      ∃ size, Frame parseFloat buffer size ∧ next = ⟨buffer.drop size⟩ := by
  constructor
  · rintro ⟨value, hparse⟩
    obtain ⟨size, hframe, hnext⟩ := parse_eq_ok hsize hparse
    exact ⟨size, hframe, congrArg Parser.mk hnext⟩
  · rintro ⟨size, hframe, rfl⟩
    exact exists_parse_of_frame hsize hframe

/-- `+OK` and the start of the next value. -/
theorem Parser.parse_iff_frame_simpleString :
    ∃ size, Frame (fun _ => none) [43, 79, 75, 13, 10, 43] size ∧
      (⟨[43]⟩ : Parser) = ⟨[43, 79, 75, 13, 10, 43].drop size⟩ :=
  (parse_iff_frame (by decide)).1 ⟨_, rfl⟩

/-- Every complete value of the grammar is a frame. -/
theorem reads_of_frame {data : List Byte} (hsize : data.length ≤ maxAlloc)
    (hframe : Frame parseFloat data data.length) :
    ∃ value, (respFramer parseFloat).Reads data value := by
  obtain ⟨value, hparse⟩ := exists_parse_of_frame hsize hframe
  rw [drop_length] at hparse
  exact ⟨value, (next_eq_some_iff hsize).2 hparse⟩

end Framer

/-! ## Chunks -/

section Chunks

variable (parseFloat : List Byte → Option UInt64)

/-- `Parse` until it returns no value.  A value is never empty, so the length of the buffer
bounds the rounds. -/
def Parser.parseAll : ℕ → Parser → Parser × List Value
  | 0, parser => (parser, [])
  | fuel + 1, parser =>
    match (parser.parse parseFloat).outcome with
    | .ok (value, next) => ((parseAll fuel next).1, value :: (parseAll fuel next).2)
    | _ => (parser, [])

/-- `Append` a chunk and take the values that are complete.  An error and a recovered panic
end the loop and leave the buffer to the next chunk. -/
def Parser.receive (parser : Parser) (chunk : List Byte) : Parser × List Value :=
  (parser.append chunk).parseAll parseFloat (parser.append chunk).buffer.length

/-- The loop takes the values that the framer finds. -/
theorem Parser.parseAll_eq (fuel : ℕ) (parser : Parser) (hfuel : parser.buffer.length ≤ fuel)
    (hsize : parser.buffer.length ≤ maxAlloc) :
    parser.parseAll parseFloat fuel =
      ({ buffer := ((respFramer parseFloat).drain parser.buffer).2 },
        ((respFramer parseFloat).drain parser.buffer).1) := by
  induction fuel generalizing parser with
  | zero =>
    obtain ⟨buffer⟩ := parser
    have hempty : buffer = [] := length_eq_zero_iff.1 (Nat.le_zero.1 hfuel)
    subst hempty
    rfl
  | succ fuel ih =>
    obtain ⟨buffer⟩ := parser
    dsimp only at hfuel hsize ⊢
    cases hnext : (respFramer parseFloat).next buffer with
    | none =>
      rw [Framer.drain_of_none _ hnext, parseAll]
      split
      · rename_i value next hparse
        rw [(next_eq_some_iff hsize).2 hparse] at hnext
        cases hnext
      · rfl
    | some pair =>
      obtain ⟨value, rest⟩ := pair
      have hrest := (respFramer parseFloat).shrinks hnext
      rw [Framer.drain_of_some _ hnext, parseAll, (next_eq_some_iff hsize).1 hnext]
      dsimp only
      rw [ih { buffer := rest } (by dsimp only; omega) (by dsimp only; omega)]

theorem Parser.feed_receive (chunks : List (List Byte)) (parser : Parser)
    (hsize : parser.buffer.length + chunks.flatten.length ≤ maxAlloc) :
    feed (receive parseFloat) parser chunks =
      ({ buffer := (feed (respFramer parseFloat).push parser.buffer chunks).1 },
        (feed (respFramer parseFloat).push parser.buffer chunks).2) := by
  induction chunks generalizing parser with
  | nil => rfl
  | cons chunk chunks ih =>
    rw [flatten_cons, length_append] at hsize
    have hlength : (parser.append chunk).buffer.length ≤ maxAlloc := by
      rw [append, length_append]
      omega
    have hpush := (respFramer parseFloat).length_push_le parser.buffer chunk
    have hchunk : parser.receive parseFloat chunk =
        ({ buffer := ((respFramer parseFloat).push parser.buffer chunk).1 },
          ((respFramer parseFloat).push parser.buffer chunk).2) :=
      parseAll_eq parseFloat _ _ le_rfl hlength
    rw [feed, feed, hchunk]
    rw [ih _ (by dsimp only; omega)]

/-- However the bytes are cut into chunks, a new parser returns the same values and is left with
the same buffer, on which `Parse` returns nothing more.  The bound is that of a Go slice. -/
theorem Parser.feed_receive_eq_of_flatten_eq (chunks others : List (List Byte))
    (hsame : chunks.flatten = others.flatten) (hsize : chunks.flatten.length ≤ maxAlloc) :
    feed (Parser.receive parseFloat) {} chunks = feed (Parser.receive parseFloat) {} others ∧
      ∀ value next, ((feed (Parser.receive parseFloat) {} chunks).1.parse parseFloat).outcome ≠
        .ok (value, next) := by
  have hdrain : ∀ pieces : List (List Byte), pieces.flatten = others.flatten →
      feed (receive parseFloat) {} pieces =
        ({ buffer := ((respFramer parseFloat).drain others.flatten).2 },
          ((respFramer parseFloat).drain others.flatten).1) := by
    intro pieces hpieces
    rw [feed_receive parseFloat pieces {} (by rw [hpieces, ← hsame]; simpa using hsize),
      Framer.feed_push _ (Framer.next_nil _), hpieces]
    rfl
  refine ⟨(hdrain chunks hsame).trans (hdrain others rfl).symm, fun value next hparse => ?_⟩
  have hlength := (respFramer parseFloat).length_drain_le others.flatten
  rw [hdrain chunks hsame] at hparse
  rw [← hsame] at hlength
  have hnext := (respFramer parseFloat).next_drain_snd others.flatten
  rw [(next_eq_some_iff (hsame ▸ hlength.trans hsize)).2 hparse] at hnext
  cases hnext

/-- A simple string that is cut inside its line end. -/
theorem Parser.feed_receive_eq_of_flatten_eq_cut :
    feed (Parser.receive fun _ => none) {} [[43, 79, 75, 13], [10, 43]] =
        feed (Parser.receive fun _ => none) {} [[43, 79, 75, 13, 10, 43]] ∧
      ∀ value next, ((feed (Parser.receive fun _ => none) {}
        [[43, 79, 75, 13], [10, 43]]).1.parse fun _ => none).outcome ≠ .ok (value, next) :=
  feed_receive_eq_of_flatten_eq (fun _ => none) [[43, 79, 75, 13], [10, 43]]
    [[43, 79, 75, 13, 10, 43]] rfl (by decide)

end Chunks

end Qtap.Redis
