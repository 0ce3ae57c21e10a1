import Qtap.Redis.Grammar

/-!
# When the parser panics

The parser agrees with the grammar: it returns a value exactly when a complete value
stands at the front of the buffer, and it runs into an out-of-range slice or a
negative or unallocatable `make` exactly when a reader of the buffer comes to a header
whose number cannot be honoured.  Both directions go by induction on the nesting
depth, with one lemma for the loops over the elements of an aggregate.
-/

namespace Qtap.Redis

open List Qtap.Core Exec

variable {parseFloat : List Byte → Option UInt64} {data : List Byte} {kind : RESPType}
  {idx : ℕ} {number : ℤ}

/-- What a call on `data` has to do, said through the grammar. -/
structure ParseSpec (parseFloat : List Byte → Option UInt64) (exec : Parsed)
    (data : List Byte) : Prop where
  ok_iff : ∀ consumed : ℤ, (∃ value, exec.outcome = .ok (value, consumed)) ↔
      ∃ size : ℕ, consumed = size ∧ Frame parseFloat data size
  faulty_iff : exec.Faulty ↔ MeetsBadHeader parseFloat data

/-! ## Reading the first line -/

theorem lineEnd_of_index (hidx : indexCRLF data = some idx) : lineEnd data = .ok (idx : ℤ) := by
  rw [lineEnd, hidx]

theorem lineEnd_of_none (hidx : indexCRLF data = none) : lineEnd data = .err .incomplete := by
  rw [lineEnd, hidx]

section

variable (hkind : kindOf data = some kind)

include hkind

theorem slice_headerText (hidx : indexCRLF data = some idx) :
    (slice data 1 idx : Exec ParseError (List Byte)) = .ok (headerText data idx) := by
  have hpos := indexCRLF_pos hkind hidx
  have hbound := indexCRLF_bound hidx
  have hslice : (slice data (1 : ℕ) idx : Exec ParseError (List Byte)) = _ :=
    slice_of_le (by omega) (by omega)
  simpa [headerText] using hslice

theorem parseLength_of_header
    (hheader : header data = some (idx, number)) : parseLength data = .ok ((idx : ℤ), number) := by
  obtain ⟨hidx, hnumber⟩ := header_eq_some_iff.1 hheader
  rw [parseLength, lineEnd_of_index hidx, bind_ok, slice_headerText hkind hidx, bind_ok, hnumber]

theorem parseLength_of_none (hheader : header data = none) :
    ∃ error, parseLength data = .err error := by
  cases hidx : indexCRLF data with
  | none => exact ⟨.incomplete, by rw [parseLength, lineEnd_of_none hidx, bind_err]⟩
  | some idx =>
    have hnumber : atoi (headerText data idx) = none := by
      simpa [header, hidx] using hheader
    refine ⟨.invalidFormat, ?_⟩
    rw [parseLength, lineEnd_of_index hidx, bind_ok, slice_headerText hkind hidx, bind_ok, hnumber]

end

theorem wrap64_line (hlength : data.length ≤ maxAlloc) (hbound : idx + 2 ≤ data.length) :
    wrap64 ((idx : ℤ) + 2) = ((idx + 2 : ℕ) : ℤ) := by
  have hsmall : idx + 2 < 2 ^ 63 := by
    rw [maxAlloc] at hlength
    omega
  rw [← wrap64_natCast hsmall]
  rfl

/-! ## Headers a reader meets -/

theorem meetsBadHeader_leaf_iff (hkind : kindOf data = some kind)
    (hleaf : kind.isAggregate = false) : MeetsBadHeader parseFloat data ↔ BadHeader data := by
  constructor
  · rintro ⟨_, hvisits, hbad⟩
    cases hvisits with
    | here => exact hbad
    | inside hkind' haggregate =>
      cases hkind.symm.trans hkind'
      cases hleaf.symm.trans haggregate
  · intro hbad
    exact ⟨data, .here, hbad⟩

theorem meetsBadHeader_number_iff (hkind : kindOf data = some kind)
    (hleaf : kind.isAggregate = false) (hheader : header data = some (idx, number)) :
    MeetsBadHeader parseFloat data ↔ BadNumber kind data.length idx number := by
  rw [meetsBadHeader_leaf_iff hkind hleaf, badHeader_iff hkind, hheader]
  simp

theorem not_meetsBadHeader_of_header_none (hheader : header data = none) :
    ¬ MeetsBadHeader parseFloat data := by
  rintro ⟨_, hvisits, hbad⟩
  cases hvisits with
  | here => simp [BadHeader, hheader] at hbad
  | inside _ _ hheader' => cases hheader.symm.trans hheader'

theorem meetsBadHeader_aggregate_iff (hkind : kindOf data = some kind)
    (haggregate : kind.isAggregate = true) (hheader : header data = some (idx, number)) :
    MeetsBadHeader parseFloat data ↔
      BadNumber kind data.length idx number ∨
        (HasRoom kind number ∧ ∃ before size, before < slots kind number ∧
          Frames parseFloat before (data.drop (idx + 2)) size ∧
          data.drop (idx + 2 + size) ≠ [] ∧
          MeetsBadHeader parseFloat (data.drop (idx + 2 + size))) := by
  constructor
  · rintro ⟨inner, hvisits, hbad⟩
    cases hvisits with
    | here =>
      rw [badHeader_iff hkind, hheader] at hbad
      obtain ⟨_, _, heq, hbad⟩ := hbad
      cases heq
      exact .inl hbad
    | inside hkind' _ hheader' hroom hbefore hframes hmore hinner =>
      cases hkind.symm.trans hkind'
      cases hheader.symm.trans hheader'
      exact .inr ⟨hroom, _, _, hbefore, hframes, hmore, inner, hinner, hbad⟩
  · intro hcases
    rcases hcases with hbad | ⟨hroom, before, size, hbefore, hframes, hmore, inner, hinner, hbad⟩
    · exact ⟨data, .here, (badHeader_iff hkind).2 ⟨idx, number, hheader, hbad⟩⟩
    · exact ⟨inner, .inside hkind haggregate hheader hroom hbefore hframes hmore hinner, hbad⟩

/-! ## The frames of one type -/

/-- What a frame of the given type looks like. -/
def FrameShape (parseFloat : List Byte → Option UInt64) (kind : RESPType)
    (data : List Byte) (size : ℕ) : Prop :=
  match kind with
  | .simpleString | .error | .bigNumber => ∃ idx, indexCRLF data = some idx ∧ size = idx + 2
  | .integer => ∃ idx number, header data = some (idx, number) ∧ size = idx + 2
  | .double => ∃ idx, indexCRLF data = some idx ∧
      (doubleBits parseFloat (headerText data idx)).isSome ∧ size = idx + 2
  | .null => (∃ rest, data = 95 :: 13 :: 10 :: rest) ∧ size = 3
  | .boolean => (∃ letter rest, (letter = 116 ∨ letter = 102) ∧
      data = 35 :: letter :: 13 :: 10 :: rest) ∧ size = 4
  | .bulkString | .bulkError | .verbatim => ∃ idx number, header data = some (idx, number) ∧
      ((number < 0 ∧ kind.hasNull = true ∧ size = idx + 2) ∨
        (0 ≤ number ∧ idx + 2 + number.toNat + 2 ≤ data.length ∧
          size = idx + 2 + number.toNat + 2))
  | .array | .map | .set | .push => ∃ idx count, header data = some (idx, count) ∧
      ((count < 0 ∧ kind.hasNull = true ∧ size = idx + 2) ∨
        (HasRoom kind count ∧ ∃ inner,
          Frames parseFloat (slots kind count) (data.drop (idx + 2)) inner ∧
            size = idx + 2 + inner))

variable {size pos count : ℕ} {exec : Parsed}

theorem Frame.shape (hframe : Frame parseFloat data size) :
    ∃ kind, kindOf data = some kind ∧ FrameShape parseFloat kind data size := by
  cases hframe with
  | line hkind hline hidx =>
    refine ⟨_, hkind, ?_⟩
    rename_i kind idx
    cases kind <;> first | exact ⟨idx, hidx, rfl⟩ | cases hline
  | integer hkind hheader => exact ⟨_, hkind, _, _, hheader, rfl⟩
  | double hkind hidx hbits => exact ⟨_, hkind, _, hidx, hbits, rfl⟩
  | null => exact ⟨.null, rfl, ⟨_, rfl⟩, rfl⟩
  | boolean hletter => exact ⟨.boolean, rfl, ⟨_, _, hletter, rfl⟩, rfl⟩
  | absent hkind hnull hheader hneg =>
    refine ⟨_, hkind, ?_⟩
    rename_i kind idx number
    cases kind <;> first
      | exact ⟨idx, number, hheader, .inl ⟨hneg, rfl, rfl⟩⟩
      | cases hnull
  | blob hkind hblob hheader hfits =>
    refine ⟨_, hkind, ?_⟩
    rename_i kind idx length
    cases kind <;> first
      | exact ⟨idx, length, hheader, .inr ⟨by omega, by simpa using hfits, by simp⟩⟩
      | cases hblob
  | aggregate hkind haggregate hheader hroom hinner =>
    refine ⟨_, hkind, ?_⟩
    rename_i kind idx inner count
    cases kind <;> first
      | exact ⟨idx, count, hheader, .inr ⟨hroom, inner, hinner, rfl⟩⟩
      | cases haggregate

theorem FrameShape.frame (hkind : kindOf data = some kind)
    (hshape : FrameShape parseFloat kind data size) : Frame parseFloat data size := by
  cases kind with
  | simpleString | error | bigNumber =>
    obtain ⟨idx, hidx, rfl⟩ := hshape
    exact .line hkind rfl hidx
  | integer =>
    obtain ⟨idx, number, hheader, rfl⟩ := hshape
    exact .integer hkind hheader
  | double =>
    obtain ⟨idx, hidx, hbits, rfl⟩ := hshape
    exact .double hkind hidx hbits
  | null =>
    obtain ⟨⟨rest, rfl⟩, rfl⟩ := hshape
    exact .null
  | boolean =>
    obtain ⟨⟨_, _, hletter, rfl⟩, rfl⟩ := hshape
    exact .boolean hletter
  | bulkString | bulkError | verbatim =>
    obtain ⟨idx, _, hheader, hcases⟩ := hshape
    rcases hcases with ⟨hneg, hnull, rfl⟩ | ⟨hnonneg, hfits, rfl⟩
    · exact .absent hkind hnull hheader hneg
    · rw [← Int.toNat_of_nonneg hnonneg] at hheader
      exact .blob hkind rfl hheader hfits
  | array | map | set | push =>
    obtain ⟨_, _, hheader, hcases⟩ := hshape
    rcases hcases with ⟨hneg, hnull, rfl⟩ | ⟨hroom, inner, hinner, rfl⟩
    · exact .absent hkind hnull hheader hneg
    · exact .aggregate hkind rfl hheader hroom hinner

theorem frame_iff_shape (hkind : kindOf data = some kind) :
    Frame parseFloat data size ↔ FrameShape parseFloat kind data size := by
  constructor
  · intro hframe
    obtain ⟨_, hkind', hshape⟩ := hframe.shape
    cases hkind.symm.trans hkind'
    exact hshape
  · exact FrameShape.frame hkind

theorem frameShape_blob_iff (hblob : kind.isBlob = true)
    (hheader : header data = some (idx, number)) :
    FrameShape parseFloat kind data size ↔
      (number < 0 ∧ kind.hasNull = true ∧ size = idx + 2) ∨
        (0 ≤ number ∧ idx + 2 + number.toNat + 2 ≤ data.length ∧
          size = idx + 2 + number.toNat + 2) := by
  cases kind with
  | bulkString | bulkError | verbatim => simp [FrameShape, hheader]
  | _ => cases hblob

theorem frameShape_aggregate_iff (haggregate : kind.isAggregate = true)
    (hheader : header data = some (idx, number)) :
    FrameShape parseFloat kind data size ↔
      (number < 0 ∧ kind.hasNull = true ∧ size = idx + 2) ∨
        (HasRoom kind number ∧ ∃ inner,
          Frames parseFloat (slots kind number) (data.drop (idx + 2)) inner ∧
            size = idx + 2 + inner) := by
  cases kind with
  | array | map | set | push => simp [FrameShape, hheader]
  | _ => cases haggregate

/-! ## Specifications by type -/

section

variable (hkind : kindOf data = some kind)

include hkind

theorem parseSpec_err (error : ParseError)
    (hexec : exec = .err error) (hshape : ∀ size, ¬ FrameShape parseFloat kind data size)
    (hmeets : ¬ MeetsBadHeader parseFloat data) : ParseSpec parseFloat exec data where
  ok_iff consumed := by simp [hexec, frame_iff_shape hkind, hshape]
  faulty_iff := by simp [hexec, hmeets]

theorem parseSpec_ok (value : Value) (size : ℕ) (hexec : exec = .ok (value, (size : ℤ)))
    (hshape : ∀ other, FrameShape parseFloat kind data other ↔ other = size)
    (hmeets : ¬ MeetsBadHeader parseFloat data) : ParseSpec parseFloat exec data where
  ok_iff consumed := by
    subst hexec
    simp only [ok_outcome, Outcome.ok.injEq, Prod.mk.injEq, exists_and_right,
      exists_eq', true_and, frame_iff_shape hkind, hshape, exists_eq_right]
    exact eq_comm
  faulty_iff := by simp [hexec, hmeets]

/-- A type that starts with a number fails without one, so it has to answer only for
the numbers it can read. -/
theorem parseLength_bind_spec {next : ℤ × ℤ → Parsed}
    (hlength : kind.isBlob = true ∨ kind.isAggregate = true ∨ kind = .integer)
    (hsome : ∀ {idx : ℕ} {number : ℤ}, header data = some (idx, number) →
      ParseSpec parseFloat (next (idx, number)) data) :
    ParseSpec parseFloat ((parseLength data).bind next) data := by
  cases hheader : header data with
  | none =>
    obtain ⟨error, herror⟩ := parseLength_of_none hkind hheader
    have hshape (size : ℕ) : ¬ FrameShape parseFloat kind data size := by
      cases kind <;> simp [FrameShape, hheader, RESPType.isBlob, RESPType.isAggregate] at hlength ⊢
    rw [herror]
    exact parseSpec_err hkind error rfl hshape (not_meetsBadHeader_of_header_none hheader)
  | some =>
    rw [parseLength_of_header hkind hheader]
    exact hsome hheader

/-! ## Types without a length -/

theorem not_meetsBadHeader_of_plain
    (hblob : kind.isBlob = false) (hleaf : kind.isAggregate = false) :
    ¬ MeetsBadHeader parseFloat data := by
  rw [meetsBadHeader_leaf_iff hkind hleaf, badHeader_iff hkind]
  rintro ⟨_, _, _, hbad⟩
  cases kind with
  | bulkString | bulkError | verbatim => cases hblob
  | array | map | set | push => cases hleaf
  | _ => exact hbad

theorem parseLine_spec (hlength : data.length ≤ maxAlloc)
    (hshape : ∀ size, FrameShape parseFloat kind data size ↔
      ∃ idx, indexCRLF data = some idx ∧ size = idx + 2)
    (hmeets : ¬ MeetsBadHeader parseFloat data) :
    ParseSpec parseFloat (parseLine kind data) data := by
  cases hidx : indexCRLF data with
  | none =>
    refine parseSpec_err hkind .incomplete ?_ (by simp [hshape, hidx]) hmeets
    rw [parseLine, lineEnd_of_none hidx, bind_err]
  | some idx =>
    refine parseSpec_ok hkind { type := kind, str := headerText data idx } (idx + 2) ?_
      (by simp [hshape, hidx]) hmeets
    rw [parseLine, lineEnd_of_index hidx, bind_ok, slice_headerText hkind hidx,
      bind_ok, wrap64_line hlength (indexCRLF_bound hidx)]

end

theorem parseInteger_spec (hkind : kindOf data = some .integer) (hlength : data.length ≤ maxAlloc) :
    ParseSpec parseFloat (parseInteger data) data := by
  apply parseLength_bind_spec hkind (by decide)
  intro idx number hheader
  refine parseSpec_ok hkind { type := .integer, int := number } (idx + 2) ?_
    (by simp [FrameShape, hheader]) (not_meetsBadHeader_of_plain hkind rfl rfl)
  simp only [wrap64_line hlength (header_bound hheader).1]

theorem parseDouble_spec (hkind : kindOf data = some .double) (hlength : data.length ≤ maxAlloc) :
    ParseSpec parseFloat (parseDouble parseFloat data) data := by
  have hmeets : ¬ MeetsBadHeader parseFloat data := not_meetsBadHeader_of_plain hkind rfl rfl
  cases hidx : indexCRLF data with
  | none =>
    refine parseSpec_err hkind .incomplete ?_ (by simp [FrameShape, hidx]) hmeets
    rw [parseDouble, lineEnd_of_none hidx, bind_err]
  | some idx =>
    rw [parseDouble, lineEnd_of_index hidx, bind_ok, slice_headerText hkind hidx,
      bind_ok, wrap64_line hlength (indexCRLF_bound hidx)]
    cases hbits : doubleBits parseFloat (headerText data idx) with
    | none => exact parseSpec_err hkind _ rfl (by simp [FrameShape, hidx, hbits]) hmeets
    | some => exact parseSpec_ok hkind _ _ rfl (by simp [FrameShape, hidx, hbits]) hmeets

theorem parseNull_spec (hkind : kindOf data = some .null) :
    ParseSpec parseFloat (parseNull data) data := by
  have hmeets : ¬ MeetsBadHeader parseFloat data := not_meetsBadHeader_of_plain hkind rfl rfl
  match data, hkind with
  | [first], hkind | [first, second], hkind =>
    exact parseSpec_err hkind .incomplete rfl (by simp [FrameShape]) hmeets
  | first :: second :: third :: rest, hkind =>
    have hfirst : first = 95 := RESPType.marker_of_ofMarker hkind
    rw [parseNull]
    split_ifs with hclosed
    · refine parseSpec_err hkind _ rfl ?_ hmeets
      rintro size ⟨⟨tail, heq⟩, _⟩
      cases heq
      exact hclosed.elim (fun h => h rfl) (fun h => h rfl)
    · push Not at hclosed
      exact parseSpec_ok hkind _ 3 rfl (by simp [FrameShape, hfirst, hclosed]) hmeets

theorem parseBoolean_spec (hkind : kindOf data = some .boolean) :
    ParseSpec parseFloat (parseBoolean data) data := by
  have hmeets : ¬ MeetsBadHeader parseFloat data := not_meetsBadHeader_of_plain hkind rfl rfl
  match data, hkind with
  | [first], hkind | [first, second], hkind | [first, second, third], hkind =>
    exact parseSpec_err hkind .incomplete rfl (by simp [FrameShape]) hmeets
  | first :: second :: third :: fourth :: rest, hkind =>
    have hfirst : first = 35 := RESPType.marker_of_ofMarker hkind
    rw [parseBoolean]
    split_ifs with hclosed htrue hfalse
    · refine parseSpec_err hkind _ rfl ?_ hmeets
      rintro size ⟨⟨letter, tail, _, heq⟩, _⟩
      cases heq
      exact hclosed.elim (fun h => h rfl) (fun h => h rfl)
    · push Not at hclosed
      exact parseSpec_ok hkind _ 4 rfl (by simp [FrameShape, hfirst, hclosed, htrue]) hmeets
    · push Not at hclosed
      exact parseSpec_ok hkind _ 4 rfl (by simp [FrameShape, hfirst, hclosed, hfalse]) hmeets
    · refine parseSpec_err hkind _ rfl ?_ hmeets
      rintro size ⟨⟨letter, tail, hletter, heq⟩, _⟩
      cases heq
      exact hletter.elim htrue hfalse

/-! ## Types with a length -/

section

variable (hsize : data.length ≤ maxAlloc)

include hsize

theorem parseBlob_of_bad
    (hheader : header data = some (idx, number)) (hbad : 2 ^ 63 ≤ (idx : ℤ) + number + 4 ∨
      (number < 0 ∧ (idx : ℤ) + number + 4 ≤ data.length)) :
    parseBlob kind data idx number = { outcome := .panic .sliceBounds } := by
  obtain ⟨_, _, _⟩ := header_bound hheader
  rw [maxAlloc] at hsize
  have hstart : wrap64 ((idx : ℤ) + 2) = (idx : ℤ) + 2 := wrap64_of_mem (by omega) (by omega)
  have hbounds : ∃ stop : ℤ, wrap64 ((idx : ℤ) + 2 + number) = stop ∧
      ¬ wrap64 (stop + 2) > data.length ∧
      ¬ (0 ≤ (idx : ℤ) + 2 ∧ (idx : ℤ) + 2 ≤ stop ∧ stop ≤ data.length) := by
    rcases hbad with hover | ⟨hneg, hshort⟩
    · by_cases hwrap : (idx : ℤ) + 2 + number < 2 ^ 63
      · refine ⟨_, wrap64_of_mem (by omega) hwrap, ?_, by omega⟩
        rw [wrap64_of_overflow (by omega) (by omega)]
        omega
      · refine ⟨_, wrap64_of_overflow (by omega) (by omega), ?_, by omega⟩
        rw [wrap64_of_mem (by omega) (by omega)]
        omega
    · refine ⟨_, wrap64_of_mem (by omega) (by omega), ?_, by omega⟩
      rw [wrap64_of_mem (by omega) (by omega)]
      omega
  obtain ⟨_, hstop, hcomplete, hrange⟩ := hbounds
  simp only [parseBlob, hstart, hstop]
  rw [if_neg hcomplete, slice, if_neg hrange]
  rfl

theorem parseBlob_of_fits {length : ℕ} (hfits : idx + 2 + length + 2 ≤ data.length) :
    parseBlob kind data idx length =
      .ok ({ type := kind, str := (data.drop (idx + 2)).take length },
        ((idx + 2 + length + 2 : ℕ) : ℤ)) := by
  have hstop : wrap64 (((idx + 2 : ℕ) : ℤ) + length) = ((idx + 2 + length : ℕ) : ℤ) := by
    rw [maxAlloc] at hsize
    rw [← wrap64_natCast (by omega : idx + 2 + length < 2 ^ 63)]
    rfl
  simp only [parseBlob, wrap64_line hsize (by omega : idx + 2 ≤ data.length), hstop,
    wrap64_line hsize hfits]
  rw [if_neg (by omega), slice_of_le (by omega) (by omega), bind_ok, Nat.add_sub_cancel_left]

omit hsize in
theorem parseBlob_of_short (hheader : header data = some (idx, number))
    (hshort : (data.length : ℤ) < idx + number + 4) (hfits : (idx : ℤ) + number + 4 < 2 ^ 63) :
    parseBlob kind data idx number = .err .incomplete := by
  obtain ⟨_, _, _⟩ := header_bound hheader
  have hstart : wrap64 ((idx : ℤ) + 2) = (idx : ℤ) + 2 := wrap64_of_mem (by omega) (by omega)
  have hstop : wrap64 ((idx : ℤ) + 2 + number) = (idx : ℤ) + 2 + number :=
    wrap64_of_mem (by omega) (by omega)
  have hend : wrap64 ((idx : ℤ) + 2 + number + 2) = (idx : ℤ) + 2 + number + 2 :=
    wrap64_of_mem (by omega) (by omega)
  simp only [parseBlob, hstart, hstop, hend]
  rw [if_pos (by omega)]

/-- A blob type meets the grammar where its null form does not apply. -/
theorem parseBlob_spec (hkind : kindOf data = some kind) (hblob : kind.isBlob = true)
    (hheader : header data = some (idx, number)) (hnull : kind.hasNull = true → 0 ≤ number) :
    ParseSpec parseFloat (parseBlob kind data idx number) data := by
  have hleaf : kind.isAggregate = false := by cases kind <;> first | rfl | cases hblob
  have hmeets : MeetsBadHeader parseFloat data ↔ 2 ^ 63 ≤ (idx : ℤ) + number + 4 ∨
      (number < 0 ∧ (idx : ℤ) + number + 4 ≤ data.length) := by
    rw [meetsBadHeader_number_iff hkind hleaf hheader]
    cases kind with
    | bulkString =>
      have := hnull rfl
      simp only [BadNumber]
      omega
    | bulkError | verbatim => rfl
    | _ => cases hblob
  have hshape : ∀ size, FrameShape parseFloat kind data size ↔
      0 ≤ number ∧ idx + 2 + number.toNat + 2 ≤ data.length ∧
        size = idx + 2 + number.toNat + 2 := by
    intro size
    rw [frameShape_blob_iff hblob hheader]
    refine or_iff_right fun habsent => ?_
    have := hnull habsent.2.1
    omega
  by_cases hdefect : 2 ^ 63 ≤ (idx : ℤ) + number + 4 ∨
      (number < 0 ∧ (idx : ℤ) + number + 4 ≤ data.length)
  · have hparse : parseBlob kind data idx number = _ := parseBlob_of_bad hsize hheader hdefect
    constructor
    · intro consumed
      have hnone : ∀ size, ¬ FrameShape parseFloat kind data size := by
        intro size
        rw [hshape]
        rw [maxAlloc] at hsize
        omega
      simp [hparse, frame_iff_shape hkind, hnone]
    · rw [hparse, hmeets]
      exact iff_of_true (.inl (Outcome.panics_panic _)) hdefect
  · by_cases hfits : (idx : ℤ) + number + 4 ≤ data.length
    · obtain ⟨_, rfl⟩ : ∃ natural : ℕ, number = natural := ⟨number.toNat, by omega⟩
      refine parseSpec_ok hkind _ _ (parseBlob_of_fits hsize (by omega)) (fun size => ?_)
        (hmeets.not.2 hdefect)
      rw [hshape]
      omega
    · refine parseSpec_err hkind .incomplete
        (parseBlob_of_short hheader (by omega) (by omega)) (fun size => ?_)
        (hmeets.not.2 hdefect)
      rw [hshape]
      omega

theorem parseBulkString_spec (hkind : kindOf data = some .bulkString) :
    ParseSpec parseFloat (parseBulkString data) data := by
  apply parseLength_bind_spec hkind (by decide)
  intro idx length hheader
  simp only
  split_ifs with hneg
  · obtain ⟨hidx, _, _⟩ := header_bound hheader
    rw [wrap64_line hsize hidx]
    refine parseSpec_ok hkind _ _ rfl (fun size => ?_) ?_
    · rw [frameShape_blob_iff rfl hheader]
      simp only [RESPType.hasNull, true_and]
      omega
    · rw [meetsBadHeader_number_iff hkind rfl hheader]
      rw [maxAlloc] at hsize
      simp only [BadNumber]
      omega
  · exact parseBlob_spec hsize hkind rfl hheader fun _ => not_lt.1 hneg

/-- Bulk errors and verbatim strings, which have no null form. -/
theorem parseBlob_bind_spec (hkind : kindOf data = some kind)
    (hlength : kind = .bulkError ∨ kind = .verbatim) :
    ParseSpec parseFloat
      ((parseLength data).bind fun (idx, length) => parseBlob kind data idx length) data := by
  apply parseLength_bind_spec hkind (by rcases hlength with rfl | rfl <;> decide)
  intro idx length hheader
  apply parseBlob_spec hsize hkind _ hheader
  · rcases hlength with rfl | rfl <;> nofun
  · rcases hlength with rfl | rfl <;> rfl

end

/-! ## The loops over nested values -/

/-- What the element loop does with `count` elements to go, from `pos` on. -/
structure ElementsSpec (parseFloat : List Byte → Option UInt64) (data : List Byte)
    (count pos : ℕ) (exec : Exec ParseError (List Value × ℤ)) : Prop where
  ok_iff : ∀ final : ℤ, (∃ values, exec.outcome = .ok (values, final)) ↔
      ∃ size : ℕ, final = ((pos + size : ℕ) : ℤ) ∧ Frames parseFloat count (data.drop pos) size
  faulty_iff : exec.Faulty ↔
    ∃ before size, before < count ∧ Frames parseFloat before (data.drop pos) size ∧
      data.drop (pos + size) ≠ [] ∧ MeetsBadHeader parseFloat (data.drop (pos + size))

theorem elementsSpec_zero (pos : ℕ) (elements : List Value) :
    ElementsSpec parseFloat data 0 pos (.ok (elements, (pos : ℤ))) := by
  constructor
  · intro final
    simp only [ok_outcome, Outcome.ok.injEq, Prod.mk.injEq, frames_zero_iff,
      exists_eq_right, Nat.add_zero, exists_and_right, exists_eq', true_and]
    exact eq_comm
  · simp

/-- The data ends before the next element. -/
theorem elementsSpec_end (hend : data.length ≤ pos) (count : ℕ) :
    ElementsSpec parseFloat data (count + 1) pos (.err .incomplete) := by
  have hempty : ∀ size, data.drop (pos + size) = [] := fun size =>
    drop_eq_nil_iff.2 (hend.trans (Nat.le_add_right _ _))
  constructor
  · intro final
    have hnone : data.drop pos = [] := hempty 0
    simp only [err_outcome, hnone, frames_succ_iff]
    simp [not_frame_nil]
  · refine iff_of_false (not_faulty_err _) ?_
    rintro ⟨_, size, -, -, hmore, -⟩
    exact hmore (hempty size)

/-- The position behind an element stays within the data and does not overflow. -/
theorem wrap64_element {first : ℕ} (hsize : data.length ≤ maxAlloc) (hbound : pos ≤ data.length)
    (hframe : Frame parseFloat (data.drop pos) first) :
    wrap64 ((pos : ℤ) + (first : ℤ)) = ((pos + first : ℕ) : ℤ) ∧ pos + first ≤ data.length := by
  have hfirst := hframe.bound
  rw [length_drop] at hfirst
  rw [maxAlloc] at hsize
  rw [← wrap64_natCast (by omega : pos + first < 2 ^ 63)]
  exact ⟨by push_cast; rfl, by omega⟩

/-- One element and then the others. -/
theorem ElementsSpec.cons {next : Value × ℤ → Exec ParseError (List Value × ℤ)}
    (hmore : data.drop pos ≠ []) (hfirst : ParseSpec parseFloat exec (data.drop pos))
    (hnext : ∀ elem (first : ℕ), Frame parseFloat (data.drop pos) first →
      ElementsSpec parseFloat data count (pos + first) (next (elem, first))) :
    ElementsSpec parseFloat data (count + 1) pos (exec.bind next) := by
  constructor
  · intro final
    simp only [bind_outcome_eq_ok_iff, Prod.exists, frames_succ_iff]
    constructor
    · rintro ⟨values, elem, consumed, hparsed, hrest⟩
      obtain ⟨first, rfl, hframe⟩ := (hfirst.ok_iff consumed).1 ⟨elem, hparsed⟩
      obtain ⟨size, rfl, hframes⟩ := ((hnext elem first hframe).ok_iff final).1 ⟨values, hrest⟩
      refine ⟨first + size, by rw [Nat.add_assoc], first, size, rfl, hframe, ?_⟩
      rw [drop_drop]
      exact hframes
    · rintro ⟨_, rfl, first, size, rfl, hframe, hframes⟩
      rw [drop_drop] at hframes
      obtain ⟨elem, hparsed⟩ := (hfirst.ok_iff first).2 ⟨first, rfl, hframe⟩
      obtain ⟨values, hvalues⟩ := ((hnext elem first hframe).ok_iff _).2 ⟨size, rfl, hframes⟩
      refine ⟨values, elem, first, hparsed, ?_⟩
      rw [hvalues, Nat.add_assoc]
  · rw [faulty_bind_iff, hfirst.faulty_iff]
    constructor
    · rintro (hmeets | ⟨⟨elem, consumed⟩, hparsed, hfault⟩)
      · exact ⟨0, 0, Nat.succ_pos _, .nil, hmore, hmeets⟩
      · obtain ⟨first, rfl, hframe⟩ := (hfirst.ok_iff consumed).1 ⟨elem, hparsed⟩
        obtain ⟨before, size, hbefore, hframes, hleft, hmeets⟩ :=
          (hnext elem first hframe).faulty_iff.1 hfault
        rw [Nat.add_assoc] at hleft hmeets
        refine ⟨before + 1, first + size, Nat.succ_lt_succ hbefore, .cons hframe ?_, hleft, hmeets⟩
        rw [drop_drop]
        exact hframes
    · rintro ⟨before, _, hbefore, hframes, hleft, hmeets⟩
      cases before with
      | zero =>
        rw [frames_zero_iff] at hframes
        subst hframes
        exact .inl hmeets
      | succ before =>
        obtain ⟨first, rest, rfl, hframe, hframes⟩ := frames_succ_iff.1 hframes
        rw [drop_drop] at hframes
        rw [← Nat.add_assoc] at hleft hmeets
        obtain ⟨elem, hparsed⟩ := (hfirst.ok_iff first).2 ⟨first, rfl, hframe⟩
        refine .inr ⟨(elem, first), hparsed, (hnext elem first hframe).faulty_iff.2 ?_⟩
        exact ⟨before, rest, Nat.lt_of_succ_lt_succ hbefore, hframes, hleft, hmeets⟩

/-- What the loop collects does not matter to its course. -/
theorem ElementsSpec.forget {exec : Exec ParseError (List Value × ℤ)}
    (hexec : ElementsSpec parseFloat data count pos exec) :
    ElementsSpec parseFloat data count pos (exec.bind fun done => .ok ([], done.2)) where
  ok_iff final := by
    rw [← hexec.ok_iff]
    simp [bind_outcome_eq_ok_iff]
  faulty_iff := by
    rw [← hexec.faulty_iff]
    simp [faulty_bind_iff]

/-- Room for the elements, and then a loop over them. -/
theorem aggregate_spec {A : Type} {room : Exec ParseError Unit} {loop : Exec ParseError (A × ℤ)}
    (build : A → Value) (hkind : kindOf data = some kind) (haggregate : kind.isAggregate = true)
    (hheader : header data = some (idx, number)) (hnull : kind.hasNull = true → 0 ≤ number)
    (hroom : room.outcome = .ok () ↔ HasRoom kind number)
    (hbad : room.Faulty ↔ BadNumber kind data.length idx number)
    (hloop : ElementsSpec parseFloat data (slots kind number) (idx + 2)
      (loop.bind fun done => .ok ([], done.2))) :
    ParseSpec parseFloat (room.bind fun _ => loop.bind fun done => .ok (build done.1, done.2))
      data := by
  obtain ⟨hok, hfaulty⟩ := hloop
  simp only [bind_outcome_eq_ok_iff, faulty_bind_iff, ok_outcome,
    Outcome.ok.injEq, Prod.mk.injEq, Prod.exists, not_faulty_ok, and_false, exists_false,
    or_false] at hok hfaulty
  constructor
  · intro consumed
    have hshape : ∀ size, FrameShape parseFloat kind data size ↔ HasRoom kind number ∧ ∃ inner,
        Frames parseFloat (slots kind number) (data.drop (idx + 2)) inner ∧
          size = idx + 2 + inner := by
      intro size
      rw [frameShape_aggregate_iff haggregate hheader]
      exact or_iff_right fun habsent => absurd habsent.1 (not_lt.2 (hnull habsent.2.1))
    simp only [frame_iff_shape hkind, hshape, bind_outcome_eq_ok_iff, ok_outcome,
      Outcome.ok.injEq, Prod.mk.injEq, Prod.exists, ← hroom]
    constructor
    · rintro ⟨_, _, hmade, values, final, hvalues, _, rfl⟩
      obtain ⟨inner, rfl, hframes⟩ := (hok final).1 ⟨[], values, final, hvalues, rfl, rfl⟩
      exact ⟨idx + 2 + inner, rfl, hmade, inner, hframes, rfl⟩
    · rintro ⟨_, rfl, hmade, inner, hframes, rfl⟩
      obtain ⟨_, values, _, hvalues, _, rfl⟩ := (hok _).2 ⟨inner, rfl, hframes⟩
      exact ⟨_, (), hmade, values, _, hvalues, rfl, rfl⟩
  · rw [meetsBadHeader_aggregate_iff hkind haggregate hheader, faulty_bind_iff, hbad]
    simp only [faulty_bind_iff, not_faulty_ok, and_false, exists_false, or_false, hfaulty, ← hroom]
    exact or_congr_right Unique.exists_iff

section Loops

variable {parseValue : List Byte → Parsed} (hsize : data.length ≤ maxAlloc)
  (hvalue : ∀ rest : List Byte, rest.length < data.length →
    ParseSpec parseFloat (parseValue rest) rest)

include hsize hvalue

/-- A round of a loop: the guarded call of `parseValue`, which the map loop makes twice. -/
theorem elementsSpec_round {exec : Exec ParseError (List Value × ℤ)}
    {next : Value × ℤ → Exec ParseError (List Value × ℤ)} (hpos : 0 < pos)
    (hbound : pos ≤ data.length) (hend : (pos : ℤ) ≥ data.length → exec = .err .incomplete)
    (hinside : ¬ (pos : ℤ) ≥ data.length → exec = (parseValue (data.drop pos)).bind next)
    (hnext : ∀ elem consumed (behind : ℕ), wrap64 (pos + consumed) = behind → 0 < behind →
      behind ≤ data.length → ElementsSpec parseFloat data count behind (next (elem, consumed))) :
    ElementsSpec parseFloat data (count + 1) pos exec := by
  by_cases hover : (pos : ℤ) ≥ data.length
  · rw [hend hover]
    exact elementsSpec_end (Int.ofNat_le.1 hover) count
  · have hroom : pos < data.length := Int.ofNat_lt.1 (not_le.1 hover)
    rw [hinside hover]
    refine ElementsSpec.cons ?_ (hvalue _ ?_) fun elem first hframe => ?_
    · exact fun hempty => absurd (drop_eq_nil_iff.1 hempty) (not_le.2 hroom)
    · rw [length_drop]
      exact Nat.sub_lt (hpos.trans hroom) hpos
    · obtain ⟨hwrap, hle⟩ := wrap64_element hsize hbound hframe
      exact hnext elem first (pos + first) hwrap (Nat.add_pos_left hpos _) hle

theorem parseElements_spec (count pos : ℕ) (elements : List Value) (hpos : 0 < pos)
    (hbound : pos ≤ data.length) :
    ElementsSpec parseFloat data count pos (parseElements parseValue data count pos elements) := by
  induction count generalizing pos elements with
  | zero => exact elementsSpec_zero pos elements
  | succ count ih =>
    apply elementsSpec_round hsize hvalue hpos hbound
    · intro hend
      rw [parseElements, if_pos hend]
    · intro hend
      rw [parseElements, if_neg hend, slice_suffix hbound, bind_ok]
    · intro elem consumed behind hwrap hbehind hle
      simp only [hwrap]
      exact ih behind (elements ++ [elem]) hbehind hle

/-- The map loop is an element loop over twice the count, apart from what it collects. -/
theorem parseEntries_spec (count pos : ℕ) (entries : List (List Byte × Value)) (hpos : 0 < pos)
    (hbound : pos ≤ data.length) :
    ElementsSpec parseFloat data (2 * count) pos
      ((parseEntries parseValue data count pos entries).bind fun done => .ok ([], done.2)) := by
  induction count generalizing pos entries with
  | zero => exact elementsSpec_zero pos []
  | succ count ih =>
    apply elementsSpec_round hsize hvalue hpos hbound
    · intro hend
      rw [parseEntries, if_pos hend, bind_err]
    · intro hend
      rw [parseEntries, if_neg hend, slice_suffix hbound, bind_ok, bind_assoc]
    · intro key consumed behind hwrap hbehind hle
      simp only [hwrap]
      apply elementsSpec_round hsize hvalue hbehind hle
      · intro hend
        rw [if_pos hend, bind_err]
      · intro hend
        rw [if_neg hend, slice_suffix hle, bind_ok, bind_assoc]
      · intro val consumed' behind' hwrap' hbehind' hle'
        simp only [hwrap']
        exact ih behind' (mapSet entries key.str val) hbehind' hle'

/-! ## Aggregates -/

theorem parseAggregate_spec (hkind : kindOf data = some kind)
    (haggregate : kind = .array ∨ kind = .set ∨ kind = .push)
    (hheader : header data = some (idx, number)) (hnull : kind.hasNull = true → 0 ≤ number) :
    ParseSpec parseFloat (parseAggregate parseValue kind data idx number) data := by
  have hidx := (header_bound hheader).1
  have hroom : HasRoom kind number ↔ 0 ≤ number ∧ number * valueSize ≤ maxAlloc := by
    rcases haggregate with rfl | rfl | rfl <;> simp [HasRoom]
  have hslots : slots kind number = number.toNat := by
    rcases haggregate with rfl | rfl | rfl <;> rfl
  rw [parseAggregate, wrap64_line hsize hidx]
  refine aggregate_spec (fun elements => { type := kind, array := elements }) hkind ?_ hheader
    hnull ?_ ?_ ?_
  · rcases haggregate with rfl | rfl | rfl <;> rfl
  · rw [hroom, makeSlice_outcome_eq_ok_iff]
  · rw [faulty_makeSlice_iff]
    rcases haggregate with rfl | rfl | rfl
    · have := hnull rfl
      simp only [BadNumber]
      omega
    · simp only [BadNumber]
      omega
    · simp only [BadNumber]
      omega
  · rw [hslots]
    exact (parseElements_spec hsize hvalue _ _ [] (by omega) hidx).forget

theorem parseMap_spec (hkind : kindOf data = some .map) :
    ParseSpec parseFloat (parseMap parseValue data) data := by
  apply parseLength_bind_spec hkind (by decide)
  intro idx count hheader
  have hidx := (header_bound hheader).1
  simp only [wrap64_line hsize hidx]
  refine aggregate_spec (fun entries => { type := .map, map := entries }) hkind rfl hheader
    nofun ?_ faulty_makeMap_iff ?_
  · exact iff_of_true rfl (.inl rfl)
  · exact parseEntries_spec hsize hvalue _ _ [] (by omega) hidx

theorem parseArray_spec (hkind : kindOf data = some .array) :
    ParseSpec parseFloat (parseArray parseValue data) data := by
  apply parseLength_bind_spec hkind (by decide)
  intro idx count hheader
  simp only
  split_ifs with hneg
  · have hroom : ¬ HasRoom .array count := by
      simp only [HasRoom, reduceCtorEq, false_or]
      omega
    rw [wrap64_line hsize (header_bound hheader).1]
    refine parseSpec_ok hkind _ _ rfl (fun size => ?_) ?_
    · rw [frameShape_aggregate_iff rfl hheader]
      simp [hroom, hneg, RESPType.hasNull]
    · rw [meetsBadHeader_aggregate_iff hkind rfl hheader]
      simp only [hroom, false_and, or_false, BadNumber, valueSize, maxAlloc]
      omega
  · exact parseAggregate_spec hsize hvalue hkind (.inl rfl) hheader fun _ => not_lt.1 hneg

/-- Sets and pushes, which have no null form. -/
theorem parseAggregate_bind_spec (hkind : kindOf data = some kind)
    (haggregate : kind = .set ∨ kind = .push) :
    ParseSpec parseFloat ((parseLength data).bind fun (idx, count) =>
        parseAggregate parseValue kind data idx count) data := by
  apply parseLength_bind_spec hkind (by rcases haggregate with rfl | rfl <;> decide)
  intro idx count hheader
  apply parseAggregate_spec hsize hvalue hkind (.inr haggregate) hheader
  rcases haggregate with rfl | rfl <;> nofun

theorem parseTyped_spec (hkind : kindOf data = some kind) :
    ParseSpec parseFloat (parseTyped parseFloat parseValue kind data) data := by
  cases kind with
  | simpleString | error | bigNumber =>
    exact parseLine_spec hkind hsize (fun _ => Iff.rfl) (not_meetsBadHeader_of_plain hkind rfl rfl)
  | integer => exact parseInteger_spec hkind hsize
  | bulkString => exact parseBulkString_spec hsize hkind
  | array => exact parseArray_spec hsize hvalue hkind
  | null => exact parseNull_spec hkind
  | boolean => exact parseBoolean_spec hkind
  | double => exact parseDouble_spec hkind hsize
  | bulkError => exact parseBlob_bind_spec hsize hkind (.inl rfl)
  | verbatim => exact parseBlob_bind_spec hsize hkind (.inr rfl)
  | map => exact parseMap_spec hsize hvalue hkind
  | set => exact parseAggregate_bind_spec hsize hvalue hkind (.inl rfl)
  | push => exact parseAggregate_bind_spec hsize hvalue hkind (.inr rfl)

end Loops

/-- Without a type there is neither a frame nor a header to meet. -/
theorem parseSpec_of_kindOf_none (error : ParseError) (hexec : exec = .err error)
    (hkind : kindOf data = none) : ParseSpec parseFloat exec data := by
  have hframe : ∀ size, ¬ Frame parseFloat data size := fun size hframe =>
    let ⟨_, hkind', _⟩ := hframe.shape
    nomatch hkind.symm.trans hkind'
  have hmeets : ¬ MeetsBadHeader parseFloat data := by
    rintro ⟨_, hvisits, hbad⟩
    cases hvisits with
    | here => simp [BadHeader, hkind] at hbad
    | inside hkind' => cases hkind.symm.trans hkind'
  exact ⟨fun consumed => by simp [hexec, hframe], by simp [hexec, hmeets]⟩

theorem parseNested_spec (depth : ℕ) (data : List Byte) (hdepth : data.length ≤ depth)
    (hsize : data.length ≤ maxAlloc) :
    ParseSpec parseFloat (parseNested parseFloat depth data) data := by
  induction depth generalizing data with
  | zero =>
    have hempty : data = [] := length_eq_zero_iff.1 (Nat.le_zero.1 hdepth)
    subst hempty
    exact parseSpec_of_kindOf_none .incomplete rfl rfl
  | succ depth ih =>
    cases data with
    | nil => exact parseSpec_of_kindOf_none .incomplete rfl rfl
    | cons first =>
      cases hkind : RESPType.ofMarker first with
      | none =>
        refine parseSpec_of_kindOf_none .invalidFormat ?_ hkind
        rw [parseNested, hkind]
      | some =>
        rw [parseNested, hkind]
        refine parseTyped_spec hsize (fun inner hinner => ?_) hkind
        exact ih inner (by omega) (by omega)

/-- The parser returns a value exactly when one is complete, and is faulty exactly when
a reader of the bytes comes to a header that cannot be honoured. -/
theorem parseValue_spec (data : List Byte) (hsize : data.length ≤ maxAlloc) :
    ParseSpec parseFloat (parseValue parseFloat data) data :=
  parseNested_spec data.length data le_rfl hsize

/-! ## Whole runs of a parser -/

/-- `Parse` adds nothing to the faults of `parseValue`: what was consumed is in range. -/
theorem Parser.faulty_parse_iff (parser : Parser) (hsize : parser.buffer.length ≤ maxAlloc) :
    (parser.parse parseFloat).Faulty ↔ MeetsBadHeader parseFloat parser.buffer := by
  have hspec : ParseSpec parseFloat _ parser.buffer := parseValue_spec parser.buffer hsize
  by_cases hempty : parser.buffer = []
  · rw [Parser.parse, ← hspec.faulty_iff, hempty]
    exact iff_of_false (not_faulty_err _) (not_faulty_err _)
  · rw [Parser.parse, if_neg hempty, faulty_bind_iff, hspec.faulty_iff]
    refine or_iff_left ?_
    rintro ⟨⟨value, consumed⟩, hvalue, hfault⟩
    obtain ⟨_, rfl, hframe⟩ := (hspec.ok_iff consumed).1 ⟨value, hvalue⟩
    simp only [slice_suffix hframe.bound.2, bind_ok, not_faulty_ok] at hfault

/-- The calls that a stream makes on its parser. -/
inductive ParserCall where
  | append (data : List Byte)
  | parse
  deriving DecidableEq, Repr

section Runs

variable (parseFloat)

/-- The parsers on which `Parse` is called in a run, each as it is before the call. -/
def Parser.parsePoints (parser : Parser) : List ParserCall → List Parser
  | [] => []
  | .append data :: calls => (parser.append data).parsePoints calls
  | .parse :: calls => parser :: (parser.afterParse parseFloat).parsePoints calls

end Runs

def appendedLength : List ParserCall → ℕ
  | [] => 0
  | .append data :: calls => data.length + appendedLength calls
  | .parse :: calls => appendedLength calls

theorem Parser.length_afterParse_le (parser : Parser) :
    (parser.afterParse parseFloat).buffer.length ≤ parser.buffer.length := by
  rw [Parser.afterParse]
  split
  · rename_i value next hparse
    rw [Parser.parse] at hparse
    split_ifs at hparse with hempty
    · cases hparse
    · simp only [bind_outcome_eq_ok_iff, Prod.exists, ok_outcome, Outcome.ok.injEq,
        Prod.mk.injEq] at hparse
      obtain ⟨_, consumed, _, rest, hrest, _, rfl⟩ := hparse
      rw [slice] at hrest
      split_ifs at hrest with hrange
      cases hrest
      simp only [length_take, length_drop]
      omega
  · exact le_rfl

theorem Parser.length_parsePoints_le (parser : Parser) (calls : List ParserCall)
    (point : Parser) (hpoint : point ∈ parser.parsePoints parseFloat calls) :
    point.buffer.length ≤ parser.buffer.length + appendedLength calls := by
  induction calls generalizing parser with
  | nil => cases hpoint
  | cons call calls ih =>
    cases call with
    | append data =>
      have := ih (parser.append data) hpoint
      simp only [Parser.append, length_append] at this
      rw [appendedLength]
      omega
    | parse =>
      rw [appendedLength]
      rcases mem_cons.1 hpoint with rfl | hpoint
      · omega
      · have := ih (parser.afterParse parseFloat) hpoint
        have : (parser.afterParse parseFloat).buffer.length ≤ parser.buffer.length :=
          parser.length_afterParse_le
        omega

/-- In every run of a new parser, all `Parse` calls stay in range exactly when no reader
of a buffer that `Parse` is called on comes to a header that cannot be honoured.  The
bound on the appended bytes is that of a Go slice. -/
theorem parse_calls_safe_iff (parseFloat : List Byte → Option UInt64)
    (calls : List ParserCall) (hbound : appendedLength calls ≤ maxAlloc) :
    (∀ point ∈ ({} : Parser).parsePoints parseFloat calls, ¬ (point.parse parseFloat).Faulty) ↔
      ∀ point ∈ ({} : Parser).parsePoints parseFloat calls,
        ¬ MeetsBadHeader parseFloat point.buffer := by
  refine forall_congr' fun point => forall_congr' fun hpoint => not_congr ?_
  have hlength := ({} : Parser).length_parsePoints_le calls point hpoint
  apply Parser.faulty_parse_iff
  simp only [length_nil] at hlength
  omega

/-- A set of minus one elements: nothing is wrong before `make` sees the count. -/
theorem parse_calls_safe_iff_negative_set :
    appendedLength [.append [126, 45, 49, 13, 10], .parse] ≤ maxAlloc ∧
      ((∀ point ∈ ({} : Parser).parsePoints (fun _ => none)
          [.append [126, 45, 49, 13, 10], .parse], ¬ (point.parse fun _ => none).Faulty) ↔
        ∀ point ∈ ({} : Parser).parsePoints (fun _ => none) [.append [126, 45, 49, 13, 10], .parse],
          ¬ MeetsBadHeader (fun _ => none) point.buffer) :=
  ⟨by decide, parse_calls_safe_iff (fun _ => none) _ (by decide)⟩

/-- The bulk error `!-2` takes `Parse` into a slice expression whose end lies before its
start. -/
theorem parse_panics_on_negative_bulk_error :
    ¬ ∀ (parseFloat : List Byte → Option UInt64) (calls : List ParserCall),
      appendedLength calls ≤ maxAlloc →
        ∀ point ∈ ({} : Parser).parsePoints parseFloat calls,
          ¬ (point.parse parseFloat).Faulty := by
  intro hsafe
  apply hsafe (fun _ => none) [.append [33, 45, 50, 13, 10], .parse] (by decide)
    { buffer := [33, 45, 50, 13, 10] } (mem_singleton.2 rfl)
  exact .inl ⟨.sliceBounds, rfl⟩

end Qtap.Redis
