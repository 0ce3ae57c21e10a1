import Qtap.Redis.Incremental

/-!
# Values on the wire

`Encodes value bytes` says how RESP spells a value.  Numbers may be spelled in any way the number
parser reads, and the elements of an aggregate are as many as a Go slice can hold.  The parser
reads every value back from its bytes, with whatever follows them left in the buffer.
-/

namespace Qtap.Redis

open List Qtap.Core Exec

def crlf : List Byte := [13, 10]

inductive Encodes : Value → List Byte → Prop where
  | line {kind : RESPType} {text : List Byte} (hkind : kind.isLine = true)
      (htext : indexCRLF text = none) :
      Encodes { type := kind, str := text } (kind.marker :: text ++ crlf)
  | integer {number : ℤ} {digits : List Byte} (hdigits : atoi digits = some number) :
      Encodes { type := .integer, int := number } (RESPType.integer.marker :: (digits ++ crlf))
  | null : Encodes { type := .null, isNull := true } [95, 13, 10]
  | boolean (flag : Bool) :
      Encodes { type := .boolean, bool := flag } [35, if flag then 116 else 102, 13, 10]
  | absent {kind : RESPType} {number : ℤ} {digits : List Byte} (hkind : kind.hasNull = true)
      (hdigits : atoi digits = some number) (hneg : number < 0) :
      Encodes { type := kind, isNull := true } (kind.marker :: (digits ++ crlf))
  | blob {kind : RESPType} {text digits : List Byte} (hkind : kind.isBlob = true)
      (hdigits : atoi digits = some (text.length : ℤ)) :
      Encodes { type := kind, str := text } (kind.marker :: (digits ++ crlf) ++ (text ++ crlf))
  | list {kind : RESPType} {pieces : List (Value × List Byte)} {digits : List Byte}
      (hkind : kind = .array ∨ kind = .set ∨ kind = .push)
      (hdigits : atoi digits = some (pieces.length : ℤ))
      (hroom : pieces.length * valueSize ≤ maxAlloc)
      (hpieces : ∀ piece ∈ pieces, Encodes piece.1 piece.2) :
      Encodes { type := kind, array := pieces.map Prod.fst }
        (kind.marker :: (digits ++ crlf) ++ pieces.flatMap Prod.snd)
  -- The text of the value in front is the key of the entry.
  | map {pieces : List ((Value × List Byte) × Value × List Byte)} {digits : List Byte}
      (hdigits : atoi digits = some (pieces.length : ℤ))
      (hnodup : (pieces.map fun piece => piece.1.1.str).Nodup)
      (hkeys : ∀ piece ∈ pieces, Encodes piece.1.1 piece.1.2)
      (hvalues : ∀ piece ∈ pieces, Encodes piece.2.1 piece.2.2) :
      Encodes { type := .map, map := pieces.map fun piece => (piece.1.1.str, piece.2.1) }
        (RESPType.map.marker :: (digits ++ crlf) ++
          pieces.flatMap fun piece => piece.1.2 ++ piece.2.2)

/-! ## First lines -/

variable {text digits : List Byte} {number : ℤ}

/-- The first line end is the one behind a text without line ends. -/
theorem indexCRLF_line (htext : indexCRLF text = none) (rest : List Byte) :
    indexCRLF (text ++ crlf ++ rest) = some text.length := by
  induction text with
  | nil => rfl
  | cons first text ih =>
    rw [indexCRLF] at htext
    split_ifs at htext with hline
    rw [cons_append, cons_append, indexCRLF, ih (Option.map_eq_none_iff.1 htext)]
    refine if_neg fun hfirst => hline ⟨hfirst.1, ?_⟩
    cases text with
    | nil => cases hfirst.2
    | cons => exact hfirst.2

theorem indexCRLF_cons {first : Byte} (hfirst : first ≠ 13) (htext : indexCRLF text = none) :
    indexCRLF (first :: text) = none := by
  rw [indexCRLF, if_neg fun hline => hfirst hline.1, htext]
  rfl

theorem indexCRLF_digits {acc value : ℕ} (hvalue : digitsValue acc text = some value) :
    indexCRLF text = none := by
  induction text generalizing acc with
  | nil => rfl
  | cons first rest ih =>
    rw [digitsValue] at hvalue
    split at hvalue
    · rename_i digit hdigit
      refine indexCRLF_cons ?_ (ih hvalue)
      rintro rfl
      cases hdigit
    · cases hvalue

/-- A numeral has no line end in it. -/
theorem indexCRLF_numeral (hnumber : atoi text = some number) : indexCRLF text = none := by
  rw [atoi, parseInt] at hnumber
  split_ifs at hnumber with hempty
  obtain ⟨_, hmagnitude, _⟩ := Option.bind_eq_some_iff.1 hnumber
  have hdigits := indexCRLF_digits hmagnitude
  cases text with
  | nil => rfl
  | cons =>
    rw [splitSign] at hdigits
    split_ifs at hdigits with hplus hminus
    · exact indexCRLF_cons (by rw [hplus]; decide) hdigits
    · exact indexCRLF_cons (by rw [hminus]; decide) hdigits
    · exact hdigits

theorem kindOf_marker (kind : RESPType) (rest : List Byte) :
    kindOf (kind.marker :: rest) = some kind := by
  rw [kindOf_cons, RESPType.ofMarker_marker]

/-- The header of a value that starts with its marker and a number. -/
theorem parseLength_line (kind : RESPType) (hdigits : atoi digits = some number)
    (rest : List Byte) :
    parseLength (kind.marker :: (digits ++ crlf) ++ rest) =
      .ok (((digits.length + 1 : ℕ) : ℤ), number) := by
  apply parseLength_of_header (kindOf_marker kind _)
  apply header_eq_some_iff.2
  constructor
  · exact indexCRLF_line (indexCRLF_cons kind.marker_ne_cr (indexCRLF_numeral hdigits)) rest
  · have htext : headerText (kind.marker :: (digits ++ crlf) ++ rest) (digits.length + 1) =
        digits := by simp [headerText]
    rw [← hdigits]
    exact congrArg atoi htext

/-! ## Reading a value back -/

/-- The parser reads all of the bytes as this value. -/
def ReadsAs (parse : List Byte → Parsed) (value : Value) (bytes : List Byte) : Prop :=
  bytes ≠ [] ∧ (parse bytes).outcome = .ok (value, (bytes.length : ℤ))

section Loops

variable {parse : List Byte → Parsed} {value : Value} {before bytes after : List Byte}

theorem ReadsAs.inside (hvalue : ReadsAs parse value bytes) :
    ¬ (before.length : ℤ) ≥ (before ++ (bytes ++ after)).length := by
  have hpos := length_pos_iff.2 hvalue.1
  simp only [length_append]
  omega

/-- The suffix that starts with the bytes. -/
theorem slice_behind :
    (slice (before ++ (bytes ++ after)) before.length (before ++ (bytes ++ after)).length :
      Exec ParseError (List Byte)) = .ok (bytes ++ after) := by
  rw [slice_suffix (by simp), drop_left]

/-- The position behind the bytes. -/
theorem wrap64_behind (hsize : (before ++ (bytes ++ after)).length ≤ maxAlloc) :
    wrap64 ((before.length : ℤ) + bytes.length) = ((before ++ bytes).length : ℤ) := by
  rw [← append_assoc, length_append] at hsize
  have hsmall : (before ++ bytes).length < 2 ^ 63 := by
    rw [maxAlloc] at hsize
    omega
  rw [← wrap64_natCast hsmall, length_append, Int.natCast_add]

variable (hparse : Persists parse parse)

include hparse

theorem ReadsAs.append (hvalue : ReadsAs parse value bytes) (after : List Byte) :
    (parse (bytes ++ after)).outcome = .ok (value, (bytes.length : ℤ)) :=
  hparse bytes after _ hvalue.2

theorem parseElements_pieces (pieces : List (Value × List Byte))
    (hpieces : ∀ piece ∈ pieces, ReadsAs parse piece.1 piece.2) (before : List Byte)
    (elements : List Value) (hsize : (before ++ pieces.flatMap Prod.snd).length ≤ maxAlloc) :
    (parseElements parse (before ++ pieces.flatMap Prod.snd) pieces.length before.length
        elements).outcome =
      .ok (elements ++ pieces.map Prod.fst, ((before ++ pieces.flatMap Prod.snd).length : ℤ)) := by
  induction pieces generalizing before elements with
  | nil => simp [parseElements]
  | cons piece pieces ih =>
    obtain ⟨hpiece, hrest⟩ := forall_mem_cons.1 hpieces
    rw [flatMap_cons] at hsize ⊢
    rw [length_cons, parseElements, if_neg hpiece.inside, slice_behind, bind_ok,
      bind_outcome_of_ok (hpiece.append hparse _)]
    dsimp only
    rw [wrap64_behind hsize]
    rw [← append_assoc] at hsize ⊢
    rw [ih hrest _ _ hsize, append_assoc, map_cons, singleton_append]

omit hparse in
/-- A new key goes to the end. -/
theorem mapSet_of_notMem {entries : List (List Byte × Value)} {key : List Byte}
    (hkey : key ∉ entries.map Prod.fst) (value : Value) :
    mapSet entries key value = entries ++ [(key, value)] := by
  rw [mapSet, filter_eq_self.2]
  intro entry hentry
  exact decide_eq_true fun heq => hkey (heq ▸ mem_map_of_mem hentry)

theorem parseEntries_pieces (pieces : List ((Value × List Byte) × Value × List Byte))
    (hkeys : ∀ piece ∈ pieces, ReadsAs parse piece.1.1 piece.1.2)
    (hvalues : ∀ piece ∈ pieces, ReadsAs parse piece.2.1 piece.2.2) (before : List Byte)
    (entries : List (List Byte × Value))
    (hnodup : (entries.map Prod.fst ++ pieces.map fun piece => piece.1.1.str).Nodup)
    (hsize : (before ++ pieces.flatMap fun piece => piece.1.2 ++ piece.2.2).length ≤ maxAlloc) :
    (parseEntries parse (before ++ pieces.flatMap fun piece => piece.1.2 ++ piece.2.2)
        pieces.length before.length entries).outcome =
      .ok (entries ++ pieces.map fun piece => (piece.1.1.str, piece.2.1),
        ((before ++ pieces.flatMap fun piece => piece.1.2 ++ piece.2.2).length : ℤ)) := by
  induction pieces generalizing before entries with
  | nil => simp [parseEntries]
  | cons piece pieces ih =>
    obtain ⟨hkey, hkeys⟩ := forall_mem_cons.1 hkeys
    obtain ⟨hvalue, hvalues⟩ := forall_mem_cons.1 hvalues
    rw [map_cons, append_cons] at hnodup
    have hnew : piece.1.1.str ∉ entries.map Prod.fst := fun hmem =>
      (nodup_append.1 (nodup_append.1 hnodup).1).2.2 _ hmem _ (by simp) rfl
    rw [flatMap_cons, append_assoc] at hsize ⊢
    rw [length_cons, parseEntries, if_neg hkey.inside, slice_behind, bind_ok]
    refine bind_outcome_eq_ok_iff.2 ⟨_, hkey.append hparse _, ?_⟩
    dsimp only
    rw [wrap64_behind hsize]
    rw [← append_assoc] at hsize ⊢
    rw [if_neg hvalue.inside, slice_behind, bind_ok]
    refine bind_outcome_eq_ok_iff.2 ⟨_, hvalue.append hparse _, ?_⟩
    rw [wrap64_behind hsize, mapSet_of_notMem hnew]
    rw [← append_assoc] at hsize ⊢
    rw [ih hkeys hvalues _ _ (by simpa using hnodup) hsize, append_assoc, map_cons,
      singleton_append]

end Loops

section Reading

variable {kind : RESPType} {value : Value} {bytes : List Byte}

theorem parseLine_outcome (htext : indexCRLF text = none)
    (hsize : (kind.marker :: text ++ crlf).length ≤ maxAlloc) :
    (parseLine kind (kind.marker :: text ++ crlf)).outcome =
      .ok ({ type := kind, str := text }, ((kind.marker :: text ++ crlf).length : ℤ)) := by
  have hkind : kindOf (kind.marker :: text ++ crlf) = some kind := kindOf_marker kind _
  have hidx := indexCRLF_line (indexCRLF_cons kind.marker_ne_cr htext) []
  rw [append_nil] at hidx
  rw [parseLine, lineEnd_of_index hidx, bind_ok, slice_headerText hkind hidx,
    wrap64_line hsize (indexCRLF_bound hidx), headerText]
  simp [crlf]
  ring

theorem length_line (kind : RESPType) (digits : List Byte) :
    digits.length + 1 + 2 = (kind.marker :: (digits ++ crlf)).length := by
  simp [crlf]

theorem parseBlob_outcome
    (hsize : (kind.marker :: (digits ++ crlf) ++ (text ++ crlf)).length ≤ maxAlloc) :
    (parseBlob kind (kind.marker :: (digits ++ crlf) ++ (text ++ crlf))
        ((digits.length + 1 : ℕ) : ℤ) text.length).outcome =
      .ok ({ type := kind, str := text },
        ((kind.marker :: (digits ++ crlf) ++ (text ++ crlf)).length : ℤ)) := by
  have hend : digits.length + 1 + 2 + text.length + 2 =
      (kind.marker :: (digits ++ crlf) ++ (text ++ crlf)).length := by
    simp [crlf]
    omega
  rw [parseBlob_of_fits hsize hend.le, hend, length_line kind, drop_left, take_left]
  rfl

theorem wrap64_header {body : List Byte}
    (hsize : (kind.marker :: (digits ++ crlf) ++ body).length ≤ maxAlloc) :
    wrap64 (((digits.length + 1 : ℕ) : ℤ) + 2) =
      ((kind.marker :: (digits ++ crlf)).length : ℤ) := by
  rw [wrap64_line hsize (by rw [length_line kind, length_append]; omega), length_line kind]

/-- A value that is the number on its first line. -/
theorem parseLength_bind_outcome {next : ℤ × ℤ → Parsed} (value : Value)
    (hdigits : atoi digits = some number)
    (hsize : (kind.marker :: (digits ++ crlf)).length ≤ maxAlloc)
    (hnext : ∀ idx, next (idx, number) = .ok (value, wrap64 (idx + 2))) :
    ((parseLength (kind.marker :: (digits ++ crlf))).bind next).outcome =
      .ok (value, ((kind.marker :: (digits ++ crlf)).length : ℤ)) := by
  have hlength := parseLength_line kind hdigits []
  rw [← append_nil (kind.marker :: (digits ++ crlf))] at hsize
  rw [append_nil] at hlength
  rw [hlength, bind_ok, hnext, wrap64_header hsize]
  rfl

theorem parseAggregate_outcome {parse : List Byte → Parsed} (hparse : Persists parse parse)
    {pieces : List (Value × List Byte)} (hroom : pieces.length * valueSize ≤ maxAlloc)
    (hsize : (kind.marker :: (digits ++ crlf) ++ pieces.flatMap Prod.snd).length ≤ maxAlloc)
    (hpieces : ∀ piece ∈ pieces, ReadsAs parse piece.1 piece.2) :
    (parseAggregate parse kind (kind.marker :: (digits ++ crlf) ++ pieces.flatMap Prod.snd)
        ((digits.length + 1 : ℕ) : ℤ) pieces.length).outcome =
      .ok ({ type := kind, array := pieces.map Prod.fst },
        ((kind.marker :: (digits ++ crlf) ++ pieces.flatMap Prod.snd).length : ℤ)) := by
  have hmake : (makeSlice valueSize (pieces.length : ℤ) : Exec ParseError Unit).outcome = .ok () :=
    makeSlice_outcome_eq_ok_iff.2 ⟨Int.natCast_nonneg _, by exact_mod_cast hroom⟩
  rw [parseAggregate, bind_outcome_of_ok hmake, Int.toNat_natCast, wrap64_header hsize,
    bind_outcome_of_ok (parseElements_pieces hparse pieces hpieces _ [] hsize)]
  rfl

/-- A nested value is shorter than the value around it. -/
theorem length_piece_lt {line piece : List Byte} {pieces : List (List Byte)}
    (hpiece : piece ∈ pieces) (hline : line ≠ []) :
    piece.length < (line ++ pieces.flatten).length := by
  have hle := (sublist_flatten_of_mem hpiece).length_le
  have hpos := length_pos_iff.2 hline
  rw [length_append]
  omega

/-- A map with its keys and values. -/
def mapBytes (digits : List Byte) (pieces : List ((Value × List Byte) × Value × List Byte)) :
    List Byte :=
  RESPType.map.marker :: (digits ++ crlf) ++ pieces.flatMap fun piece => piece.1.2 ++ piece.2.2

/-- The keys and values need only be read inside the map. -/
theorem parseMap_outcome {parse : List Byte → Parsed} (hparse : Persists parse parse)
    {pieces : List ((Value × List Byte) × Value × List Byte)}
    (hdigits : atoi digits = some (pieces.length : ℤ))
    (hnodup : (pieces.map fun piece => piece.1.1.str).Nodup)
    (hsize : (mapBytes digits pieces).length ≤ maxAlloc)
    (hpieces : ∀ piece ∈ pieces,
      (piece.1.2.length < (mapBytes digits pieces).length → ReadsAs parse piece.1.1 piece.1.2) ∧
      (piece.2.2.length < (mapBytes digits pieces).length → ReadsAs parse piece.2.1 piece.2.2)) :
    (parseMap parse (mapBytes digits pieces)).outcome =
      .ok ({ type := .map, map := pieces.map fun piece => (piece.1.1.str, piece.2.1) },
        ((mapBytes digits pieces).length : ℤ)) := by
  have hshort : ∀ piece ∈ pieces,
      piece.1.2.length + piece.2.2.length < (mapBytes digits pieces).length := by
    intro piece hpiece
    rw [← length_append]
    exact length_piece_lt (mem_map.2 ⟨piece, hpiece, rfl⟩) (cons_ne_nil _ _)
  have hentries := parseEntries_pieces hparse pieces (fun piece hpiece => (hpieces piece hpiece).1
      ((Nat.le_add_right _ _).trans_lt (hshort piece hpiece)))
    (fun piece hpiece => (hpieces piece hpiece).2
      ((Nat.le_add_left _ _).trans_lt (hshort piece hpiece)))
    _ [] (by simpa using hnodup) hsize
  rw [mapBytes] at hsize ⊢
  rw [parseMap, parseLength_line .map hdigits, bind_ok]
  rw [bind_outcome_of_ok (makeMap_outcome _), Int.toNat_natCast, wrap64_header hsize,
    bind_outcome_of_ok hentries]
  rfl

theorem Encodes.kindOf_eq (hvalue : Encodes value bytes) : kindOf bytes = some value.type := by
  cases hvalue with
  | null | boolean => rfl
  | _ => exact kindOf_marker _ _

theorem Encodes.ne_nil (hvalue : Encodes value bytes) : bytes ≠ [] := by
  rintro rfl
  cases hvalue.kindOf_eq

variable (parseFloat : List Byte → Option UInt64)

theorem Encodes.parseTyped {parse : List Byte → Parsed} (hparse : Persists parse parse)
    (hvalue : Encodes value bytes) (hsize : bytes.length ≤ maxAlloc)
    (hinner : ∀ inner piece, Encodes inner piece → piece.length < bytes.length →
      ReadsAs parse inner piece) :
    (parseTyped parseFloat parse value.type bytes).outcome = .ok (value, (bytes.length : ℤ)) := by
  have hnonneg : ∀ length : ℕ, ¬ (length : ℤ) < 0 := fun length =>
    Int.not_lt.2 (Int.natCast_nonneg length)
  cases hvalue with
  | @line kind text hkind htext =>
    cases kind with
    | simpleString | error | bigNumber => exact parseLine_outcome htext hsize
    | _ => cases hkind
  | integer hdigits => exact parseLength_bind_outcome _ hdigits hsize fun _ => rfl
  | null => rfl
  | boolean flag => cases flag <;> rfl
  | @absent kind number digits hkind hdigits hneg =>
    cases kind with
    | bulkString | array =>
      exact parseLength_bind_outcome _ hdigits hsize fun _ => if_pos hneg
    | _ => cases hkind
  | @blob kind text digits hkind hdigits =>
    have hlength := parseLength_line kind hdigits (text ++ crlf)
    cases kind with
    | bulkString =>
      rw [Redis.parseTyped, parseBulkString, hlength, bind_ok]
      exact (congrArg Exec.outcome (if_neg (hnonneg _))).trans (parseBlob_outcome hsize)
    | bulkError =>
      rw [Redis.parseTyped, parseBulkError, hlength, bind_ok]
      exact parseBlob_outcome hsize
    | verbatim =>
      rw [Redis.parseTyped, parseVerbatim, hlength, bind_ok]
      exact parseBlob_outcome hsize
    | _ => cases hkind
  | @list kind pieces digits hkind hdigits hroom hpieces =>
    have hlength := parseLength_line kind hdigits (pieces.flatMap Prod.snd)
    have hread : ∀ piece ∈ pieces, ReadsAs parse piece.1 piece.2 := fun piece hpiece =>
      hinner _ _ (hpieces piece hpiece)
        (length_piece_lt (mem_map_of_mem hpiece) (cons_ne_nil _ _))
    have hlist := parseAggregate_outcome hparse hroom hsize hread
    rcases hkind with rfl | rfl | rfl
    · rw [Redis.parseTyped, parseArray, hlength, bind_ok]
      exact (congrArg Exec.outcome (if_neg (hnonneg _))).trans hlist
    · rw [Redis.parseTyped, parseSet, hlength]
      exact hlist
    · rw [Redis.parseTyped, parsePush, hlength]
      exact hlist
  | @map pieces digits hdigits hnodup hkeys hvalues =>
    exact parseMap_outcome hparse hdigits hnodup hsize fun piece hpiece =>
      ⟨hinner _ _ (hkeys piece hpiece), hinner _ _ (hvalues piece hpiece)⟩

theorem Encodes.parseNested (hvalue : Encodes value bytes) {depth : ℕ}
    (hdepth : bytes.length ≤ depth) (hsize : bytes.length ≤ maxAlloc) :
    ReadsAs (parseNested parseFloat depth) value bytes := by
  induction depth generalizing value bytes with
  | zero => exact absurd (length_eq_zero_iff.1 (Nat.le_zero.1 hdepth)) hvalue.ne_nil
  | succ depth ih =>
    have htyped := hvalue.parseTyped parseFloat
      (parseNested_persists parseFloat (Nat.le_refl depth))
      hsize fun inner piece hinner hpiece => ih hinner (by omega) (by omega)
    refine ⟨hvalue.ne_nil, ?_⟩
    have hkind := hvalue.kindOf_eq
    cases bytes with
    | nil => cases hkind
    | cons =>
      rw [kindOf_cons] at hkind
      rw [Redis.parseNested, hkind]
      exact htyped

theorem ReadsAs.parse (hreads : ReadsAs (parseValue parseFloat) value bytes) (rest : List Byte) :
    (Parser.parse parseFloat { buffer := bytes ++ rest }).outcome =
      .ok ({ value with size := bytes.length }, { buffer := rest }) := by
  apply (Parser.parse_eq_ok_iff parseFloat).2
  refine ⟨by simp [hreads.1], value, bytes.length, rest, ?_, ?_, rfl, rfl⟩
  · exact parseValue_persists parseFloat bytes rest _ hreads.2
  · rw [slice_suffix (by simp), drop_left]
    rfl

/-- `Parse` reads every value but a double back from its bytes and leaves what follows them.  The
bound is that of a Go slice. -/
theorem Parser.parse_of_encodes {value : Value} {bytes : List Byte}
    (hvalue : Encodes value bytes) (hsize : bytes.length ≤ maxAlloc) (rest : List Byte) :
    (Parser.parse parseFloat { buffer := bytes ++ rest }).outcome =
      .ok ({ value with size := bytes.length }, { buffer := rest }) := by
  exact (hvalue.parseNested parseFloat le_rfl hsize).parse parseFloat rest

/-- A map with null under the simple string `a`, and the first byte of another value. -/
theorem Parser.parse_of_encodes_map :
    (Parser.parse (fun _ => none)
        { buffer := [37, 49, 13, 10, 43, 97, 13, 10, 95, 13, 10] ++ [43] }).outcome =
      .ok ({ type := .map, map := [([97], { type := .null, isNull := true })], size := 11 },
        { buffer := [43] }) := by
  have hkey : Encodes { type := .simpleString, str := [97] } [43, 97, 13, 10] := .line rfl rfl
  have hmap := @Encodes.map [((_, _), _, _)] [49] (by decide) (nodup_singleton _)
    (forall_mem_singleton.2 hkey) (forall_mem_singleton.2 .null)
  exact Parser.parse_of_encodes (fun _ => none) hmap (by decide) [43]

end Reading

/-! ## Room for the elements -/

variable {parseFloat : List Byte → Option UInt64} {data : List Byte} {kind : RESPType}

/-- Every value takes a byte. -/
theorem Frames.count_le {count size : ℕ} (hframes : Frames parseFloat count data size) :
    count ≤ size := by
  induction count generalizing data size with
  | zero => exact Nat.zero_le size
  | succ count ih =>
    obtain ⟨first, rest, rfl, hfirst, hrest⟩ := frames_succ_iff.1 hframes
    have hpositive := hfirst.bound.1
    have hcount := ih hrest
    omega

theorem head?_makes_bind {A B : Type} (outcome : Outcome ParseError A) (size : ℤ)
    (next : A → Exec ParseError B) :
    (Exec.bind ⟨outcome, [size]⟩ next).makes.head? = some size := by
  cases outcome <;> rfl

/-- The first `make` of a call is its own, for the count on its first line. -/
theorem head?_makes_parseTyped (parse : List Byte → Parsed) (hkind : kindOf data = some kind)
    (haggregate : kind.isAggregate = true) {idx : ℕ} {number : ℤ}
    (hheader : header data = some (idx, number)) :
    ∀ count ∈ (parseTyped parseFloat parse kind data).makes.head?, count = number := by
  have hlength := parseLength_of_header hkind hheader
  intro count hcount
  cases kind with
  | array =>
    rw [parseTyped, parseArray, hlength, bind_ok] at hcount
    dsimp only at hcount
    split_ifs at hcount
    · cases hcount
    · exact Option.some.inj (hcount.symm.trans (head?_makes_bind _ _ _))
  | set | push | map =>
    simp only [parseTyped, parseSet, parsePush, parseMap, hlength, bind_ok] at hcount
    exact Option.some.inj (hcount.symm.trans (head?_makes_bind _ _ _))
  | _ => cases haggregate

/-- A map of two keys with null under each. -/
def twoKeys (first second : Value × List Byte) :
    List ((Value × List Byte) × Value × List Byte) :=
  [(first, { type := .null, isNull := true }, [95, 13, 10]),
    (second, { type := .null, isNull := true }, [95, 13, 10])]

end Qtap.Redis
