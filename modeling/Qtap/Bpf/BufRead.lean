import Qtap.Bpf.Contents
import Qtap.Bpf.Detect

/-!
# Ranges of scattered buffers

`buf_read` finds the entry in which a range starts and reads all of the range from there.
The read is right exactly when the range ends in that entry, or when the memory behind the
entry happens to go on like the next entries do.  The capture of a TLS hello reads its
record this way, after a mask that clears one bit of the size.
-/

namespace Qtap.Bpf

open Nat List Qtap.Core

/-! ## Reading a range -/

/-- The bytes behind the entry where a range starts are the rest of the range.  An entry
that begins with the range counts, also when it is empty. -/
def Unbroken (memory : Memory) (size : ℕ) : List (ℕ × List Byte) → ℕ → Prop
  | [], _ => True
  | (base, content) :: rest, offset =>
    if offset = 0 ∨ offset < content.length then
      Holds memory (base + content.length) ((contents rest).take (size - (content.length - offset)))
    else Unbroken memory size rest (offset - content.length)

instance decidableUnbroken (memory : Memory) (size : ℕ) :
    (entries : List (ℕ × List Byte)) → (offset : ℕ) →
      Decidable (Unbroken memory size entries offset)
  | [], _ => inferInstanceAs (Decidable True)
  | (base, content) :: rest, offset =>
    have := decidableUnbroken memory size rest (offset - content.length)
    inferInstanceAs (Decidable (if offset = 0 ∨ offset < content.length then
      Holds memory (base + content.length) ((contents rest).take (size - (content.length - offset)))
    else Unbroken memory size rest (offset - content.length)))

theorem unbroken_zero (memory : Memory) (entries : List (ℕ × List Byte)) (offset : ℕ) :
    Unbroken memory 0 entries offset := by
  induction entries generalizing offset with
  | nil => trivial
  | cons entry rest ih =>
    rw [Unbroken]
    split
    next => rw [Nat.zero_sub]; exact holds_nil _ _
    next => exact ih _

variable {memory : Memory} {info : BufInfo} {entries : List (ℕ × List Byte)} {size : ℕ}

/-- A read that starts `skip` bytes into an entry. -/
theorem probeReadUser_entry_iff {base skip : ℕ} {content after : List Byte}
    (hholds : Holds memory base content)
    (hskip : skip ≤ content.length) (hsize : skip + size ≤ (content ++ after).length) :
    probeReadUser memory size (base + skip) = some (((content ++ after).drop skip).take size) ↔
      Holds memory (base + content.length) (after.take (size - (content.length - skip))) := by
  have hrange : ((content ++ after).drop skip).take size =
      (content.drop skip).take size ++ after.take (size - (content.length - skip)) := by
    rw [drop_append_of_le_length hskip, take_append, length_drop]
  have hlength : (((content ++ after).drop skip).take size).length = size := by
    rw [length_take, length_drop]
    omega
  have hread : probeReadUser memory size (base + skip) =
        some (((content ++ after).drop skip).take size) ↔
      Holds memory (base + skip) (((content ++ after).drop skip).take size) := by
    rw [Holds, hlength]
  have hfront : Holds memory (base + skip) ((content.drop skip).take size) :=
    (hholds.drop hskip).take size
  rw [hread, hrange, holds_append, and_iff_right hfront]
  by_cases hinside : size ≤ content.length - skip
  · rw [Nat.sub_eq_zero_of_le hinside]
    exact iff_of_true (holds_nil _ _) (holds_nil _ _)
  · rw [length_take, length_drop, Nat.min_eq_right (by omega), Nat.add_assoc,
      Nat.add_sub_cancel' hskip]

/-- The loop from an entry on, with `skipped` bytes before it. -/
theorem bufReadIovec_eq_some_iff {offset : ℕ} (hsize : 0 < size) (rounds : ℕ) :
    ∀ (entries : List (ℕ × List Byte)) (i skipped : ℕ), entries.length ≤ rounds →
      HoldsIovecs memory (info.buf + 16 * i) entries → skipped ≤ offset →
      offset - skipped + size ≤ (contents entries).length →
      (bufReadIovec memory info size offset rounds i skipped =
          some (((contents entries).drop (offset - skipped)).take size) ↔
        Unbroken memory size entries (offset - skipped)) := by
  induction rounds with
  | zero =>
    intro entries i skipped hrounds _ _ hrange
    rw [length_eq_zero_iff.mp (le_zero.mp hrounds)] at hrange
    exact absurd hrange (by rw [contents_nil, length_nil]; omega)
  | succ rounds ih =>
    intro entries i skipped hrounds hholds hskipped hrange
    cases entries with
    | nil => exact absurd hrange (by rw [contents_nil, length_nil]; omega)
    | cons entry rest =>
      rcases entry with ⟨base, content⟩
      rcases hholds with ⟨hentry, hcontent, hrest⟩
      simp only [bufReadIovec, hentry, Unbroken]
      by_cases hskip : skipped < offset ∧ content.length ≤ offset - skipped
      · have hpast : ¬ (offset - skipped = 0 ∨ offset - skipped < content.length) := by
          omega
        have hdrop : (contents ((base, content) :: rest)).drop (offset - skipped) =
            (contents rest).drop (offset - skipped - content.length) := by
          rw [contents_cons, drop_append, drop_eq_nil_of_le hskip.2, nil_append]
        rw [if_pos hskip, if_neg hpast, hdrop, Nat.sub_sub]
        apply ih rest (i + 1)
        · exact Nat.le_of_succ_le_succ hrounds
        · exact hrest
        · omega
        · rw [contents_cons, length_append] at hrange
          omega
      · have hhere : offset - skipped = 0 ∨ offset - skipped < content.length := by
          omega
        have haddress : (if skipped < offset then offset - skipped else 0) = offset - skipped := by
          split <;> omega
        rw [if_neg hskip, if_pos hhere, haddress]
        apply probeReadUser_entry_iff hcontent
        · omega
        · exact hrange

theorem getD_nil_eq_iff {found : Option (List Byte)} {content : List Byte}
    (hcontent : content ≠ []) : found.getD [] = content ↔ found = some content := by
  cases found with
  | none => exact iff_of_false (fun heq => hcontent heq.symm) nofun
  | some => exact Option.some_inj.symm

/-- For every range of one to four entries, `buf_read` returns the bytes of the range if
and only if memory goes on like the entries do behind the one where the range starts. -/
theorem bufRead_range_iff (memory : Memory) (info : BufInfo) (entries : List (ℕ × List Byte))
    (size offset : ℕ) (hholds : HoldsIovecs memory info.buf entries)
    (hcount : info.iovcnt = entries.length) (hsome : 1 ≤ entries.length)
    (hlimit : entries.length ≤ bufChunkLimit) (hrange : offset + size ≤ (contents entries).length) :
    (bufRead memory size info offset).getD [] = ((contents entries).drop offset).take size ↔
      Unbroken memory size entries offset := by
  by_cases hsize : size = 0
  · rw [hsize]
    exact iff_of_true rfl (unbroken_zero _ _ _)
  · have hrounds : min bufChunkLimit info.iovcnt = entries.length := by
      rw [hcount, Nat.min_eq_right hlimit]
    have hread := @bufReadIovec_eq_some_iff memory info size offset (Nat.pos_of_ne_zero hsize)
      entries.length entries 0 0 le_rfl hholds (Nat.zero_le _) hrange
    rw [Nat.sub_zero] at hread
    have hbytes : ((contents entries).drop offset).take size ≠ [] := by
      apply ne_nil_of_length_pos
      rw [length_take, length_drop]
      omega
    rw [bufRead, if_neg hsize, if_neg (by omega), hrounds, ← hread]
    exact getD_nil_eq_iff hbytes

/-- Two entries, `GE` and `T /`, and a range over both: what comes back are the two bytes
of the first entry and the three zeros behind it. -/
theorem bufRead_scattered :
    HoldsIovecs scattered 8 scatteredEntries ∧
      (bufRead scattered 5 ⟨8, 2⟩ 0).getD [] = [0x47, 0x45, 0, 0, 0] ∧
      ((contents scatteredEntries).drop 0).take 5 = [0x47, 0x45, 0x54, 0x20, 0x2f] := by
  decide

/-- A range that ends in the entry where it starts. -/
theorem bufRead_range_scattered :
    (bufRead scattered 2 ⟨8, 2⟩ 3).getD [] = ((contents scatteredEntries).drop 3).take 2 :=
  (bufRead_range_iff scattered ⟨8, 2⟩ scatteredEntries 2 3 holdsIovecs_scattered rfl
    (by decide) (by decide) (by decide)).mpr (by decide)

/-! ## The first bytes of a buffer -/

/-- The user data behind a buffer: one string or, with a positive count, the entries of an
iovec. -/
inductive BufInfo.Provides (memory : Memory) (info : BufInfo) : List (ℕ × List Byte) → Prop
  | buffer (content : List Byte) (hcount : info.iovcnt = 0)
      (hholds : Holds memory info.buf content) : Provides memory info [(info.buf, content)]
  | iovecs (entries : List (ℕ × List Byte)) (hsome : entries ≠ [])
      (hcount : info.iovcnt = entries.length)
      (hholds : HoldsIovecs memory info.buf entries) : Provides memory info entries

theorem length_of_bufRead {content : List Byte}
    (hread : bufRead memory size info 0 = some content) : content.length = size := by
  rw [bufRead] at hread
  split at hread
  · cases hread
  · split at hread
    · exact length_of_probeReadUser hread
    · generalize min bufChunkLimit info.iovcnt = rounds at hread
      cases rounds with
      | zero => cases hread
      | succ =>
        simp only [bufReadIovec, not_lt_zero, false_and, if_false] at hread
        split at hread
        · cases hread
        · exact length_of_probeReadUser hread

/-- At the start of a buffer the first entry is read, however many follow. -/
theorem bufRead_start_iff (hprovides : info.Provides memory entries) (hsize : 0 < size)
    (hlength : size ≤ (contents entries).length) :
    bufRead memory size info 0 = some ((contents entries).take size) ↔
      Unbroken memory size entries 0 := by
  rw [bufRead, if_neg hsize.ne']
  cases hprovides with
  | buffer content hcount hholds =>
    have hread := @probeReadUser_entry_iff memory size info.buf 0 content [] hholds
      (zero_le _) (by simpa using hlength)
    simp only [hcount, if_true, Unbroken, true_or]
    exact hread
  | iovecs _ hsome hcount hholds =>
    cases entries with
    | nil => exact absurd rfl hsome
    | cons entry rest =>
      rcases entry with ⟨base, content⟩
      rcases hholds with ⟨hentry, hcontent, -⟩
      have hrounds : min bufChunkLimit info.iovcnt = min (bufChunkLimit - 1) rest.length + 1 := by
        rw [hcount]
        exact (Nat.add_min_add_right 3 rest.length 1)
      have hread := @probeReadUser_entry_iff memory size base 0 content (contents rest)
        hcontent (Nat.zero_le _) (by simpa using hlength)
      rw [if_neg (by rw [hcount]; exact Nat.succ_ne_zero _), hrounds]
      simp only [bufReadIovec, Nat.mul_zero, Nat.add_zero, hentry, Nat.not_lt_zero, false_and,
        if_false, Unbroken, true_or, if_true]
      exact hread

theorem Unbroken.mono {less : ℕ} (hunbroken : Unbroken memory size entries 0)
    (hless : less ≤ size) :
    Unbroken memory less entries 0 := by
  cases entries with
  | nil => trivial
  | cons entry =>
    have htake := hunbroken.take (less - (entry.2.length - 0))
    rw [take_take, min_eq_left (by omega)] at htake
    exact htake

/-! ## Capture of a hello -/

inductive HelloKind where
  | client
  | server
  deriving DecidableEq, Repr

/-- The type of the handshake message. -/
def HelloKind.helloType : HelloKind → Byte
  | .client => 1
  | .server => 2

def HelloKind.capture : HelloKind → Memory → BufInfo → ℕ → Option (List Byte)
  | .client => captureTlsClientHello
  | .server => captureTlsServerHello

/-- A TLS record that begins with a hello. -/
structure HelloRecord where
  kind : HelloKind
  minor : Byte
  body : List Byte
  version : 1 ≤ minor.toNat
  short : body.length + 1 < 2 ^ 16

/-- Content type, version, length and the handshake message. -/
def HelloRecord.bytes (record : HelloRecord) : List Byte :=
  [0x16, 0x03, record.minor] ++ beBytes 2 (record.body.length + 1) ++
    record.kind.helloType :: record.body

theorem HelloRecord.length_bytes (record : HelloRecord) :
    record.bytes.length = 5 + (record.body.length + 1) := by
  simp only [HelloRecord.bytes, length_append, length_beBytes, length_cons, length_nil]

theorem HelloKind.capture_eq (kind : HelloKind) :
    kind.capture = captureTlsHello kind.helloType.toNat := by
  cases kind <;> rfl

/-- The mask keeps every bit of a size but bit 11. -/
theorem and_mask_eq_self_iff (hsize : size ≤ maxMsgSize) :
    size &&& (maxMsgSize - 1) = size ↔ size.testBit 11 = false := by
  have hmask : ∀ i < 15, i ≠ 11 → (maxMsgSize - 1).testBit i = true := by decide
  constructor
  · intro hself
    rw [← hself, testBit_and]
    exact Bool.and_false _
  · intro hclear
    apply eq_of_testBit_eq
    intro i
    rw [testBit_and]
    by_cases hset : size.testBit i = true
    · have hlow : i < 15 := by
        by_contra hhigh
        have hlt : size < 2 ^ i :=
          (hsize.trans_lt (by decide : maxMsgSize < 2 ^ 15)).trans_le
            (Nat.pow_le_pow_right (by decide) (Nat.le_of_not_lt hhigh))
        rw [Nat.testBit_lt_two_pow hlt] at hset
        exact Bool.noConfusion hset
      have hother : i ≠ 11 := by
        intro heq
        rw [heq, hclear] at hset
        exact Bool.noConfusion hset
      rw [hmask i hlow hother, Bool.and_true]
    · rw [Bool.not_eq_true] at hset
      rw [hset, Bool.false_and]

/-- The six bytes that the capture looks at. -/
theorem HelloRecord.take_bytes (record : HelloRecord) :
    record.bytes.take 6 = [0x16, 0x03, record.minor] ++ beBytes 2 (record.body.length + 1) ++
        [record.kind.helloType] := by
  rw [HelloRecord.bytes, take_append, take_of_length_le]
  · simp
  · simp

/-- Once the header is read right, all that is left is the read of the record. -/
theorem capture_of_header {count : ℕ} (record : HelloRecord) (hbuf : info.buf ≠ 0)
    (hleast : 52 ≤ count) (hheader : bufRead memory 6 info 0 = some (record.bytes.take 6))
    (hcount : record.bytes.length ≤ count) (hmax : record.bytes.length ≤ maxMsgSize) :
    record.kind.capture memory info count =
      bufRead memory (record.bytes.length &&& (maxMsgSize - 1)) info 0 := by
  have hlength : beValue (beBytes 2 (record.body.length + 1)) = record.body.length + 1 :=
    beValue_beBytes 2 _ record.short
  have hpeek : peek memory info count 52 6 = some (record.bytes.take 6) := by
    rw [peek, if_neg (not_or.mpr ⟨not_lt.mpr hleast, hbuf⟩), hheader]
  obtain ⟨high, low, hpair⟩ :=
    length_eq_two.mp (length_beBytes)
  rw [record.take_bytes, hpair] at hpeek
  rw [hpair] at hlength
  rw [record.length_bytes] at hcount hmax ⊢
  have hfits : ¬ (5 + (record.body.length + 1) > count ∨
      5 + (record.body.length + 1) > maxMsgSize) :=
    not_or.mpr ⟨not_lt.mpr hcount, not_lt.mpr hmax⟩
  have hrecord : octet [0x16, 0x03, record.minor, high, low, record.kind.helloType] 0 = 0x16 ∧
      octet [0x16, 0x03, record.minor, high, low, record.kind.helloType] 1 = 0x03 ∧
      1 ≤ octet [0x16, 0x03, record.minor, high, low, record.kind.helloType] 2 :=
    ⟨rfl, rfl, record.version⟩
  have htype : octet [0x16, 0x03, record.minor, high, low, record.kind.helloType] 5 =
      record.kind.helloType.toNat := rfl
  have htotal : beValue ((List.drop 3
      [0x16, 0x03, record.minor, high, low, record.kind.helloType]).take 2) =
      record.body.length + 1 := hlength
  rw [HelloKind.capture_eq, captureTlsHello, hpeek]
  simp only [cons_append, nil_append]
  rw [if_pos hrecord, if_neg (not_not.mpr htype), htotal, if_neg hfits]

theorem bufRead_start_of_append (hprovides : info.Provides memory entries)
    {front back : List Byte} (hfront : 0 < front.length)
    (hcontents : contents entries = front ++ back) :
    bufRead memory front.length info 0 = some front ↔
      Unbroken memory front.length entries 0 := by
  have hlength : front.length ≤ (contents entries).length := by
    rw [hcontents, length_append]
    exact le_add_right _ _
  have hread := bufRead_start_iff hprovides hfront hlength
  rw [hcontents, take_left] at hread
  exact hread

theorem HelloRecord.length_take_bytes (record : HelloRecord) :
    (record.bytes.take 6).length = 6 := by
  rw [length_take_of_le]
  rw [record.length_bytes]
  omega

/-- A record that is unbroken in memory has its header read right. -/
theorem bufRead_header {record : HelloRecord} {rest : List Byte}
    (hprovides : info.Provides memory entries) (hcontents : contents entries = record.bytes ++ rest)
    (hunbroken : Unbroken memory record.bytes.length entries 0) :
    bufRead memory 6 info 0 = some (record.bytes.take 6) := by
  have hsix := record.length_take_bytes
  have hsplit : contents entries = record.bytes.take 6 ++ (record.bytes.drop 6 ++ rest) := by
    rw [← append_assoc, take_append_drop, hcontents]
  have hread := bufRead_start_of_append hprovides (by rw [hsix]; exact succ_pos 5) hsplit
  apply hread.mpr
  apply hunbroken.mono
  rw [record.length_bytes]
  omega

/-- A capture is a read of some size from a buffer that has the least size. -/
theorem exists_of_capture {count : ℕ} {kind : HelloKind} {hello : List Byte}
    (hcapture : kind.capture memory info count = some hello) :
    52 ≤ count ∧ ∃ size, bufRead memory size info 0 = some hello := by
  rw [HelloKind.capture_eq, captureTlsHello] at hcapture
  cases hpeek : peek memory info count 52 6 with
  | none =>
    rw [hpeek] at hcapture
    cases hcapture
  | some =>
    rw [hpeek] at hcapture
    constructor
    · by_contra hless
      rw [peek, if_pos (.inl (Nat.lt_of_not_le hless))] at hpeek
      cases hpeek
    · dsimp only at hcapture
      split at hcapture
      · split at hcapture
        · cases hcapture
        · split at hcapture
          · cases hcapture
          · exact ⟨_, hcapture⟩
      · cases hcapture

/-- For every buffer that starts with a hello record inside the count and inside a message,
the capture has the bytes of the record if and only if the buffer has the least size, the
mask keeps the size of the record and the record is unbroken in memory. -/
theorem capture_hello_iff (memory : Memory) (info : BufInfo) (entries : List (ℕ × List Byte))
    (count : ℕ) (record : HelloRecord) (rest : List Byte) (hbuf : info.buf ≠ 0)
    (hprovides : info.Provides memory entries) (hcontents : contents entries = record.bytes ++ rest)
    (hcount : record.bytes.length ≤ count) (hmax : record.bytes.length ≤ maxMsgSize) :
    record.kind.capture memory info count = some record.bytes ↔
      52 ≤ count ∧ record.bytes.length.testBit 11 = false ∧
        Unbroken memory record.bytes.length entries 0 := by
  have hpositive : 0 < record.bytes.length := by
    rw [record.length_bytes]
    omega
  have hwhole := bufRead_start_of_append hprovides hpositive hcontents
  constructor
  · intro hcapture
    obtain ⟨hleast, _, hread⟩ := exists_of_capture hcapture
    have hunbroken : Unbroken memory record.bytes.length entries 0 := by
      rw [← length_of_bufRead hread] at hread
      exact hwhole.mp hread
    rw [capture_of_header record hbuf hleast (bufRead_header hprovides hcontents hunbroken)
      hcount hmax] at hcapture
    exact ⟨hleast, (and_mask_eq_self_iff hmax).mp (length_of_bufRead hcapture).symm, hunbroken⟩
  · rintro ⟨hleast, hclear, hunbroken⟩
    rw [capture_of_header record hbuf hleast (bufRead_header hprovides hcontents hunbroken)
      hcount hmax, (and_mask_eq_self_iff hmax).mpr hclear]
    exact hwhole.mpr hunbroken

/-- A client hello with a body of zeros. -/
def zeroHello (size : ℕ) (hsize : size + 1 < 2 ^ 16) : HelloRecord where
  kind := .client
  minor := 1
  body := List.replicate size 0
  version := by decide
  short := by rw [length_replicate]; exact hsize

theorem provides_imageAt (record : HelloRecord) :
    BufInfo.Provides (imageAt 8 record.bytes) ⟨8, 0⟩ [(8, record.bytes)] :=
  .buffer record.bytes rfl (holds_imageAt 8 record.bytes)

/-- A record of 2100 bytes in one buffer: the mask leaves a size of 52, and 52 bytes are
captured. -/
theorem capture_cut_hello :
    (zeroHello 2094 (by decide)).bytes.length = 2100 ∧
      captureTlsClientHello (imageAt 8 (zeroHello 2094 (by decide)).bytes) ⟨8, 0⟩ 2100 =
        some ((zeroHello 2094 (by decide)).bytes.take 52) := by
  have hlength : (zeroHello 2094 (by decide)).bytes.length = 2100 := by
    rw [HelloRecord.length_bytes, zeroHello, length_replicate]
  generalize hrecord : zeroHello 2094 (by decide) = record at hlength ⊢
  have hkind : record.kind = .client := by rw [← hrecord]; rfl
  have hmask : 2100 &&& (maxMsgSize - 1) = 52 := by decide
  have hunbroken (size : ℕ) : Unbroken (imageAt 8 record.bytes) size [(8, record.bytes)] 0 := by
    rw [Unbroken, contents_nil, take_nil]
    exact holds_nil _ _
  have hcontents : contents [(8, record.bytes)] = record.bytes ++ [] := rfl
  have hheader := bufRead_header (provides_imageAt record) hcontents (hunbroken _)
  have hcapture := capture_of_header record (by decide : (8 : ℕ) ≠ 0)
    (by decide : 52 ≤ 2100) hheader hlength.le (hlength.trans_le (by decide))
  have hread := (bufRead_start_iff (provides_imageAt record) (by decide : 0 < 52)
    (by rw [hcontents, append_nil, hlength]; decide)).mpr (hunbroken 52)
  rw [hcontents, append_nil] at hread
  rw [hkind, hlength, hmask, hread] at hcapture
  exact ⟨hlength, hcapture⟩

/-- A record of 52 bytes. -/
theorem capture_hello_whole :
    captureTlsClientHello (imageAt 8 (zeroHello 46 (by decide)).bytes) ⟨8, 0⟩ 52 =
      some (zeroHello 46 (by decide)).bytes :=
  (capture_hello_iff _ ⟨8, 0⟩ [(8, (zeroHello 46 (by decide)).bytes)] 52
    (zeroHello 46 (by decide)) [] (by decide) (provides_imageAt _) (by decide) (by decide)
    (by decide)).mpr (by decide)

end Qtap.Bpf
