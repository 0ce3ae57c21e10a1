import Qtap.Http1.System

/-!
# Heads in a byte stream

What the goroutines make of their byte streams, independently of the events that the
bytes come in.  A head as HTTP writes it, non-empty lines and an empty one, is read up to
its last byte exactly when it is at most 32 KiB long.
-/

namespace Qtap.Http1

open List Qtap.Core Qtap.Connection Qtap.Http1.System

/-! ## Reading heads off a stream -/

variable {reader next : HeadReader} {first rest bytes : List Byte}

namespace HeadReader

/-- Read until a head is complete or refused; the bytes behind it are left. -/
def scan : HeadReader → List Byte → HeadResult × List Byte
  | reader, [] => (.more reader, [])
  | reader, byte :: bytes =>
    match reader.read byte with
    | .more next => scan next bytes
    | result => (result, bytes)

variable {byte : Byte}

theorem scan_cons_more (hread : reader.read byte = .more next) (bytes : List Byte) :
    reader.scan (byte :: bytes) = next.scan bytes := by
  rw [scan, hread]

theorem scan_cons_done (hread : ∀ next, reader.read byte ≠ .more next) (bytes : List Byte) :
    reader.scan (byte :: bytes) = (reader.read byte, bytes) := by
  rw [scan]
  cases hresult : reader.read byte with
  | more next => exact absurd hresult (hread next)
  | complete => rfl
  | failed => rfl

theorem scan_singleton (reader : HeadReader) (byte : Byte) :
    reader.scan [byte] = (reader.read byte, []) := by
  cases hread : reader.read byte with
  | more =>
    rw [scan_cons_more hread]
    rfl
  | complete headers | failed silent => rw [scan_cons_done (by rw [hread]; nofun), hread]

theorem scan_append (reader : HeadReader) (first second : List Byte) :
    reader.scan (first ++ second) =
      match reader.scan first with
      | (.more next, _) => next.scan second
      | (result, rest) => (result, rest ++ second) := by
  induction first generalizing reader with
  | nil => rfl
  | cons byte bytes ih =>
    rw [cons_append, scan, scan]
    cases reader.read byte with
    | more next => exact ih next
    | _ => rfl

theorem scan_append_more (hscan : reader.scan first = (.more next, rest)) (second : List Byte) :
    reader.scan (first ++ second) = next.scan second := by
  rw [scan_append, hscan]

theorem scan_append_done {result : HeadResult} (hscan : reader.scan first = (result, rest))
    (hdone : ∀ next, result ≠ .more next) (second : List Byte) :
    reader.scan (first ++ second) = (result, rest ++ second) := by
  rw [scan_append, hscan]
  cases result with
  | more next => exact absurd rfl (hdone next)
  | _ => rfl

end HeadReader

/-! ## Where a head ends -/

def crlf : List Byte := [carriageReturn, lineFeed]

def isNewline (byte : Byte) : Bool := byte == carriageReturn || byte == lineFeed

/-- The text ends with an empty line, of either kind. -/
def EndsHead (text : List Byte) : Prop :=
  ∃ ending ∈ [crlf ++ crlf, [lineFeed, lineFeed]], ending <:+ text

instance : DecidablePred EndsHead := fun _ => List.decidableBEx _ _

/-- An empty line does not reach back over another byte. -/
theorem suffix_of_suffix_append {ending front back : List Byte}
    (hending : ending ∈ [crlf ++ crlf, [lineFeed, lineFeed]]) (hsuffix : ending <:+ front ++ back)
    (hother : ∀ part, part ≠ [] → part <:+ front → ∃ byte ∈ part ++ back, isNewline byte = false) :
    ending <:+ back := by
  have hnewlines : ∀ ending ∈ [crlf ++ crlf, [lineFeed, lineFeed]], ∀ byte ∈ ending,
      isNewline byte = true := by simp [crlf, isNewline]
  obtain ⟨before, hbefore⟩ := hsuffix
  rcases append_eq_append_iff.1 hbefore with ⟨part, hfront, hpart⟩ | ⟨skip, -, hback⟩
  · rcases eq_or_ne part [] with rfl | hne
    · exact hpart ▸ suffix_refl _
    · obtain ⟨byte, hbyte, hnewline⟩ := hother part hne ⟨before, hfront.symm⟩
      cases (hnewlines ending hending byte (hpart ▸ hbyte)).symm.trans hnewline
  · exact ⟨skip, hback.symm⟩

/-- The first head of a stream behind the given text, with the bytes behind it. -/
def firstHead (text : List Byte) : List Byte → Option (List Byte × List Byte)
  | [] => if EndsHead text then some (text, []) else none
  | byte :: bytes =>
    if EndsHead text then some (text, byte :: bytes) else firstHead (text ++ [byte]) bytes

theorem firstHead_of_endsHead {text : List Byte} (htext : EndsHead text) (bytes : List Byte) :
    firstHead text bytes = some (text, bytes) := by
  cases bytes <;> exact if_pos htext

theorem length_lt_of_firstHead {text head rest : List Byte} (htext : ¬ EndsHead text)
    (hfirst : firstHead text bytes = some (head, rest)) : rest.length < bytes.length := by
  induction bytes generalizing text with
  | nil =>
    rw [firstHead, if_neg htext] at hfirst
    cases hfirst
  | cons byte bytes ih =>
    rw [firstHead, if_neg htext] at hfirst
    by_cases hends : EndsHead (text ++ [byte])
    · rw [firstHead_of_endsHead hends] at hfirst
      cases hfirst
      exact Nat.lt_succ_self _
    · exact (ih hends hfirst).trans (Nat.lt_succ_self _)

namespace HeadReader

/-- The reader behind a text, with room for `room` more bytes. -/
def behind (text : List Byte) (room : ℕ) : HeadReader where
  headers := text
  lastFour := (replicate 4 0 ++ text).drop text.length
  lastTwo := (replicate 2 0 ++ text).drop text.length
  headerStarted := !text.isEmpty
  remaining := room

theorem push_behind (text : List Byte) (room : ℕ) (byte : Byte) :
    (behind text (room + 1)).push byte = behind (text ++ [byte]) room := by
  have hslide (front : List Byte) : (front ++ text).drop text.length ++ [byte] =
      (front ++ (text ++ [byte])).drop text.length := by
    rw [← append_assoc]
    exact (drop_append_of_le_length (by simp)).symm
  simpa [push, behind] using ⟨hslide [0, 0, 0], hslide [0]⟩

theorem atBoundary_behind_iff (text : List Byte) (room : ℕ) :
    (behind text room).atBoundary = true ↔ EndsHead text := by
  have hwindow (ending : List Byte) (hending : ending ∈ [crlf ++ crlf, [lineFeed, lineFeed]]) :
      (replicate ending.length 0 ++ text).drop text.length = ending ↔ ending <:+ text := by
    have hdrop := @suffix_iff_eq_drop _ ending (replicate ending.length 0 ++ text)
    rw [length_append, length_replicate, Nat.add_sub_cancel_left] at hdrop
    rw [eq_comm, ← hdrop]
    refine ⟨fun hsuffix => suffix_of_suffix_append hending hsuffix fun part hne hpart => ?_,
      fun hsuffix => hsuffix.trans (suffix_append _ _)⟩
    have hhead := head_mem hne
    refine ⟨part.head hne, mem_append_left _ hhead, ?_⟩
    rw [eq_of_mem_replicate (hpart.subset hhead)]
    rfl
  have hends : EndsHead text ↔ crlf ++ crlf <:+ text ∨ [lineFeed, lineFeed] <:+ text := by
    simp [EndsHead]
  rw [hends, ← hwindow _ (by simp), ← hwindow [lineFeed, lineFeed] (by simp), atBoundary,
    Bool.or_eq_true, beq_iff_eq, beq_iff_eq]
  rfl

/-- What reading the bytes comes to, where `found` is the first head with the bytes behind it. -/
structure Course (bytes : List Byte) (room : ℕ) (found : Option (List Byte × List Byte))
    (out : HeadResult × List Byte) : Prop where
  complete : ∀ head rest, found = some (head, rest) → bytes.length ≤ room + rest.length →
    out = (.complete head, rest)
  failed : (∀ head rest, found = some (head, rest) → room + rest.length < bytes.length) →
    ((∃ silent, out.1 = .failed silent) ∨ (∃ reader, out = (.more reader, []))) ∧
      ∃ part, bytes = part ++ out.2 ∧ part.length ≤ room

variable {room : ℕ} {found : Option (List Byte × List Byte)} {out : HeadResult × List Byte}

theorem Course.cons (hcourse : Course bytes room found out) (byte : Byte) :
    Course (byte :: bytes) (room + 1) found out where
  complete := fun head rest hfound hroom =>
    hcourse.complete head rest hfound (by rw [length_cons] at hroom; omega)
  failed := by
    intro hlong
    obtain ⟨hopen, part, hbytes, hroom⟩ := hcourse.failed fun head rest hfound => by
      have := hlong head rest hfound
      rw [length_cons] at this
      omega
    exact ⟨hopen, byte :: part, congrArg (byte :: ·) hbytes, Nat.succ_le_succ hroom⟩

/-- The limit is reached without a head. -/
theorem course_limit {silent : Bool}
    (hfound : ∀ head rest, found = some (head, rest) → rest.length < bytes.length) :
    Course bytes 0 found (.failed silent, bytes) where
  complete := fun head rest hhead hroom => absurd (hfound head rest hhead) (by omega)
  failed := fun _ => ⟨.inl ⟨silent, rfl⟩, [], rfl, le_rfl⟩

theorem scan_behind (bytes text : List Byte) (room : ℕ) (htext : ¬ EndsHead text)
    (hstart : text = [] → ∀ byte ∈ bytes.head?, isNewline byte = false) :
    Course bytes (room + 1) (firstHead text bytes) ((behind text (room + 1)).scan bytes) := by
  induction bytes generalizing text room with
  | nil =>
    rw [firstHead, if_neg htext]
    exact ⟨nofun, fun _ => ⟨.inr ⟨_, rfl⟩, [], rfl, Nat.zero_le _⟩⟩
  | cons byte bytes ih =>
    have hread : (behind text (room + 1)).read byte =
        if (behind (text ++ [byte]) room).atBoundary then .complete (text ++ [byte])
        else (behind (text ++ [byte]) room).readOn := by
      have hskips : (behind text (room + 1)).skips byte = false := by
        cases text with
        | nil => exact hstart rfl byte rfl
        | cons => rfl
      rw [read, hskips, if_neg Bool.false_ne_true, push_behind]
      rfl
    rw [firstHead, if_neg htext]
    by_cases hends : EndsHead (text ++ [byte])
    · rw [if_pos ((atBoundary_behind_iff _ _).2 hends)] at hread
      rw [scan_cons_done (by rw [hread]; nofun), hread, firstHead_of_endsHead hends]
      refine Course.cons ⟨?_, fun hlong => ?_⟩ byte
      · rintro _ _ ⟨⟩ -
        rfl
      · exact absurd (hlong _ _ rfl) (by omega)
    rw [if_neg (mt (atBoundary_behind_iff _ _).1 hends)] at hread
    cases room with
    | zero =>
      have hread : (behind text 1).read byte = .failed (text ++ [byte]).isEmpty := hread
      rw [scan_cons_done (by rw [hread]; nofun), hread]
      exact (course_limit fun _ _ => length_lt_of_firstHead hends).cons byte
    | succ room =>
      rw [scan_cons_more hread]
      exact (ih (text ++ [byte]) room hends (by simp)).cons byte

theorem read_newline {byte : Byte} (hnewline : isNewline byte = true) (room : ℕ) :
    (behind [] (room + 1)).read byte = (behind [] room).readOn :=
  if_pos hnewline

/-- Empty lines in front of a head are passed over. -/
theorem scan_fresh (bytes : List Byte) (room : ℕ) :
    Course bytes (room + 1) (firstHead [] (bytes.dropWhile isNewline))
      ((behind [] (room + 1)).scan bytes) := by
  have hnil : ¬ EndsHead [] := by decide
  induction bytes generalizing room with
  | nil => exact scan_behind [] [] room hnil nofun
  | cons byte bytes ih =>
    cases hnewline : isNewline byte with
    | false =>
      rw [dropWhile_cons_of_neg (by simp [hnewline])]
      exact scan_behind (byte :: bytes) [] room hnil (by simp [hnewline])
    | true =>
      rw [dropWhile_cons_of_pos hnewline]
      have hread := read_newline hnewline room
      cases room with
      | zero =>
        have hread : (behind [] 1).read byte = .failed true := hread
        rw [scan_cons_done (by rw [hread]; nofun), hread]
        exact (course_limit fun head rest hfound => (length_lt_of_firstHead hnil hfound).trans_le
          (dropWhile_sublist _).length_le).cons byte
      | succ room =>
        rw [scan_cons_more hread]
        exact (ih room).cons byte

end HeadReader

/-! ## Reading a head off a pipe -/

/-- The writes to a pipe that is closed behind them, and what `readHeaders` leaves of them.  A
complete head goes to `parseHeaderBytes`. -/
def readHeaders : HeadReader → List (List Byte) → HeadResult × List (List Byte)
  | reader, [] => (reader.atEnd, [])
  | reader, data :: writes =>
    match reader.scan data with
    | (.more next, _) => readHeaders next writes
    | (result, rest) => (result, rest :: writes)

/-- The end of the input ends an unfinished head. -/
def HeadResult.closed : HeadResult → HeadResult
  | .more reader => reader.atEnd
  | result => result

theorem readHeaders_eq_scan (reader : HeadReader) (writes : List (List Byte)) :
    (readHeaders reader writes).1 = (reader.scan writes.flatten).1.closed ∧
      (readHeaders reader writes).2.flatten = (reader.scan writes.flatten).2 := by
  induction writes generalizing reader with
  | nil => exact ⟨rfl, rfl⟩
  | cons data writes ih =>
    rw [flatten_cons, HeadReader.scan_append, readHeaders]
    obtain ⟨result, rest⟩ := reader.scan data
    cases result with
    | more next => exact ih next
    | _ => exact ⟨rfl, rfl⟩

/-- Whatever the writes, the reading passes over the empty lines in front and stops behind the first
head, if that lies within the limit, and fails within the limit otherwise. -/
theorem readHeaders_stops_behind_head (writes : List (List Byte)) :
    (∀ head rest, firstHead [] (writes.flatten.dropWhile isNewline) = some (head, rest) →
        writes.flatten.length ≤ maxHeaderSize + rest.length →
        (readHeaders {} writes).1 = .complete head ∧ (readHeaders {} writes).2.flatten = rest) ∧
      ((∀ head rest, firstHead [] (writes.flatten.dropWhile isNewline) = some (head, rest) →
          maxHeaderSize + rest.length < writes.flatten.length) →
        (∃ silent, (readHeaders {} writes).1 = .failed silent) ∧
          ∃ part, writes.flatten = part ++ (readHeaders {} writes).2.flatten ∧
            part.length ≤ maxHeaderSize) ∧
      ∀ other : List (List Byte), other.flatten = writes.flatten →
        (readHeaders {} other).1 = (readHeaders {} writes).1 ∧
          (readHeaders {} other).2.flatten = (readHeaders {} writes).2.flatten := by
  have hcourse := HeadReader.scan_fresh writes.flatten (maxHeaderSize - 1)
  obtain ⟨hresult, hleft⟩ := readHeaders_eq_scan {} writes
  rw [hresult, hleft]
  refine ⟨fun head rest hfound hfits => ?_, fun hlong => ?_, fun other hother => ?_⟩
  · have hscan : ({} : HeadReader).scan writes.flatten = _ :=
      hcourse.complete head rest hfound hfits
    rw [hscan]
    exact ⟨rfl, rfl⟩
  · obtain ⟨⟨silent, hfailed⟩ | ⟨reader, hmore⟩, hpart⟩ := hcourse.failed hlong
    · exact ⟨⟨silent, congrArg HeadResult.closed hfailed⟩, hpart⟩
    · exact ⟨⟨_, congrArg (fun out => out.1.closed) hmore⟩, hpart⟩
  · rw [← hother]
    exact readHeaders_eq_scan {} other

/-! ## Heads as HTTP writes them -/

def IsLine (line : List Byte) : Prop :=
  line ≠ [] ∧ ∀ byte ∈ line, byte ≠ carriageReturn ∧ byte ≠ lineFeed

def encodeHead (lines : List (List Byte)) : List Byte := (lines.map (· ++ crlf)).flatten ++ crlf

/-- A start line and field lines, closed by an empty line. -/
def IsHead (head : List Byte) : Prop :=
  ∃ lines, lines ≠ [] ∧ (∀ line ∈ lines, IsLine line) ∧ head = encodeHead lines

theorem IsLine.isNewline_eq_false {line : List Byte} (hline : IsLine line) {byte : Byte}
    (hbyte : byte ∈ line) : isNewline byte = false := by
  obtain ⟨hreturn, hfeed⟩ := hline.2 byte hbyte
  simp [isNewline, hreturn, hfeed]

/-- An empty line does not reach back into another line. -/
theorem IsLine.endsHead {text line back : List Byte} (hline : IsLine line)
    (hends : EndsHead (text ++ line ++ back)) : EndsHead back := by
  obtain ⟨ending, hending, hsuffix⟩ := hends
  refine ⟨ending, hending, suffix_of_suffix_append hending hsuffix fun part hne hpart => ?_⟩
  refine ⟨part.getLast hne, mem_append_left _ (getLast_mem hne), hline.isNewline_eq_false ?_⟩
  rw [hpart.getLast hne, getLast_append_of_ne_nil _ hline.1]
  exact getLast_mem hline.1

theorem firstHead_append {text piece : List Byte} (rest : List Byte)
    (hpiece : ∀ part, part <+: piece → part ≠ piece → ¬ EndsHead (text ++ part)) :
    firstHead text (piece ++ rest) = firstHead (text ++ piece) rest := by
  induction piece generalizing text with
  | nil => rw [append_nil, nil_append]
  | cons byte piece ih =>
    have htext : ¬ EndsHead text := by simpa using hpiece [] nil_prefix nofun
    rw [cons_append, firstHead, if_neg htext, ih, ← append_cons]
    intro part hpart hne
    rw [← append_cons]
    exact hpiece _ (cons_prefix_cons.2 ⟨rfl, hpart⟩) (ne_of_apply_ne tail hne)

theorem firstHead_line {text line : List Byte} (hline : IsLine line) (htext : ¬ EndsHead text)
    (back : List Byte) :
    firstHead text (line ++ crlf ++ back) = firstHead (text ++ (line ++ crlf)) back := by
  refine firstHead_append back fun part hpart hne hends => ?_
  rw [crlf, append_cons] at hpart hne
  rcases prefix_concat_iff.1 hpart with hwhole | hpart
  · exact hne hwhole
  rcases prefix_concat_iff.1 hpart with rfl | hinside
  · rw [← append_assoc] at hends
    exact absurd (hline.endsHead hends) (by decide)
  rcases eq_or_ne part [] with rfl | hpart
  · exact htext (append_nil text ▸ hends)
  · have hpiece : IsLine part := ⟨hpart, fun byte hbyte => hline.2 byte (hinside.subset hbyte)⟩
    rw [← append_nil (text ++ part)] at hends
    exact absurd (hpiece.endsHead hends) (by decide)

theorem firstHead_encodeHead {lines : List (List Byte)} (hlines : ∀ line ∈ lines, IsLine line)
    (hne : lines ≠ []) {text : List Byte} (htext : ¬ EndsHead text) (rest : List Byte) :
    firstHead text (encodeHead lines ++ rest) = some (text ++ encodeHead lines, rest) := by
  induction lines generalizing text with
  | nil => exact absurd rfl hne
  | cons line lines ih =>
    rw [forall_mem_cons] at hlines
    have hopen : ¬ EndsHead (text ++ (line ++ crlf)) := by
      rw [← append_assoc]
      exact fun hends => absurd (hlines.1.endsHead hends) (by decide)
    have hcons : encodeHead (line :: lines) = line ++ crlf ++ encodeHead lines := by
      simp [encodeHead]
    rw [hcons, append_assoc, firstHead_line hlines.1 htext, ← append_assoc text (line ++ crlf)]
    cases lines with
    | nil =>
      have hinits : ∀ part ∈ crlf.inits, part ≠ crlf → ¬ EndsHead (crlf ++ part) := by decide
      have hends : EndsHead (text ++ (line ++ crlf) ++ crlf) :=
        ⟨crlf ++ crlf, by simp, text ++ line, by simp⟩
      refine (firstHead_append rest fun part hpart hne hends => ?_).trans
        (firstHead_of_endsHead hends rest)
      rw [← append_assoc, append_assoc _ crlf] at hends
      exact hinits part ((mem_inits _ _).2 hpart) hne (hlines.1.endsHead hends)
    | cons next lines => exact ih hlines.2 nofun hopen

theorem IsHead.firstHead {head : List Byte} (hhead : IsHead head) (rest : List Byte) :
    firstHead [] ((head ++ rest).dropWhile isNewline) = some (head, rest) := by
  obtain ⟨lines, hne, hlines, rfl⟩ := hhead
  have hstart : (encodeHead lines ++ rest).dropWhile isNewline = encodeHead lines ++ rest := by
    obtain ⟨line, lines, rfl⟩ := exists_cons_of_ne_nil hne
    have hline := hlines line mem_cons_self
    obtain ⟨byte, line, rfl⟩ := exists_cons_of_ne_nil hline.1
    exact dropWhile_cons_of_neg (by simp [hline.isNewline_eq_false mem_cons_self])
  rw [hstart, firstHead_encodeHead hlines hne (by decide), nil_append]

namespace HeadReader

variable {head : List Byte}

/-- A head within the limit is read to its end. -/
theorem scan_head (hhead : IsHead head) (hfits : head.length ≤ maxHeaderSize) (rest : List Byte) :
    ({} : HeadReader).scan (head ++ rest) = (.complete head, rest) := by
  apply (scan_fresh (head ++ rest) (maxHeaderSize - 1)).complete head rest (hhead.firstHead rest)
  rw [length_append]
  exact Nat.add_le_add_right hfits rest.length

/-- A longer head is refused. -/
theorem scan_long_head (hhead : IsHead head) (hlong : maxHeaderSize < head.length)
    (rest : List Byte) :
    ∃ silent left, ({} : HeadReader).scan (head ++ rest) = (.failed silent, left) := by
  obtain ⟨hopen, part, hbytes, hpart⟩ := (scan_fresh (head ++ rest) (maxHeaderSize - 1)).failed (by
    intro other left hfound
    cases (hhead.firstHead rest).symm.trans hfound
    rw [length_append]
    exact Nat.add_lt_add_right hlong rest.length)
  rcases hopen with ⟨silent, hfailed⟩ | ⟨reader, hmore⟩
  · exact ⟨silent, _, Prod.ext hfailed rfl⟩
  · have hlength := congrArg length hbytes
    rw [hmore, length_append, append_nil] at hlength
    have : part.length ≤ maxHeaderSize := hpart
    omega

end HeadReader

/-! ## The final response of a stream -/

variable {env : Env}

/-- An interim response that the goroutine reads past. -/
def isSkipped (response : Response) : Bool :=
  isInterim response && decide (response.statusCode ≠ 101)

/-- Where the response goroutine gets to on a stream: in a head, at a refused one, or at
the first one that is not read past. -/
def responseScan (env : Env) : HeadReader → List Byte → ResponseControl env × List Byte
  | reader, [] => (.head reader, [])
  | reader, byte :: bytes =>
    match headResponse env (reader.read byte) with
    | .head next => responseScan env next bytes
    | .parsed response =>
      if isSkipped response then responseScan env {} bytes else (.parsed response, bytes)
    | control => (control, bytes)

/-- The control after one byte of a head. -/
def afterByte (control : ResponseControl env) : ResponseControl env :=
  match control with
  | .parsed response => if isSkipped response then .head {} else .parsed response
  | control => control

theorem responseScan_cons (reader : HeadReader) (byte : Byte) (bytes : List Byte) :
    responseScan env reader (byte :: bytes) =
      match afterByte (headResponse env (reader.read byte)) with
      | .head next => responseScan env next bytes
      | control => (control, bytes) := by
  rw [responseScan]
  cases headResponse env (reader.read byte) with
  | parsed response =>
    unfold afterByte
    by_cases hskipped : isSkipped response = true
    · simp only [if_pos hskipped]
    · simp only [if_neg hskipped]
  | _ => rfl

theorem responseScan_append (reader : HeadReader) (first second : List Byte) :
    responseScan env reader (first ++ second) =
      match responseScan env reader first with
      | (.head next, _) => responseScan env next second
      | (control, rest) => (control, rest ++ second) := by
  induction first generalizing reader with
  | nil => rfl
  | cons byte bytes ih =>
    rw [cons_append, responseScan_cons, responseScan_cons]
    cases afterByte (headResponse env (reader.read byte)) with
    | head next => exact ih next
    | _ => rfl

theorem responseScan_append_head (hscan : responseScan env reader first = (.head next, rest))
    (second : List Byte) :
    responseScan env reader (first ++ second) = responseScan env next second := by
  rw [responseScan_append, hscan]

theorem responseScan_append_done {control : ResponseControl env}
    (hscan : responseScan env reader first = (control, rest)) (hdone : ∀ next, control ≠ .head next)
    (second : List Byte) :
    responseScan env reader (first ++ second) = (control, rest ++ second) := by
  rw [responseScan_append, hscan]
  cases control with
  | head next => exact absurd rfl (hdone next)
  | _ => rfl

/-- The response stream after the head that starts it. -/
theorem responseScan_of_scan {result : HeadResult} (hscan : reader.scan bytes = (result, rest))
    (hdone : ∀ next, result ≠ .more next) :
    responseScan env reader bytes =
      match afterByte (headResponse env result) with
      | .head next => responseScan env next rest
      | control => (control, rest) := by
  induction bytes generalizing reader with
  | nil =>
    cases hscan
    exact absurd rfl (hdone reader)
  | cons byte bytes ih =>
    rw [responseScan_cons]
    cases hread : reader.read byte with
    | more =>
      rw [HeadReader.scan_cons_more hread] at hscan
      exact ih hscan
    | complete headers | failed silent =>
      rw [HeadReader.scan_cons_done (by rw [hread]; nofun), hread] at hscan
      cases hscan
      rfl

end Qtap.Http1
