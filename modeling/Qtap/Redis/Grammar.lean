import Qtap.Redis.Parser

/-!
# RESP as a grammar

What a RESP value is, stated over the bytes alone.  `Frame data size` says that a
complete value occupies the first `size` bytes of `data`.  `Visits data inner` says
that a left-to-right reader of `data` comes to a nested value that starts at the
suffix `inner`.  `BadHeader` collects the headers whose number no reader can honour.
-/

namespace Qtap.Redis

open Qtap.Core

namespace RESPType

def isLine : RESPType → Bool
  | simpleString | error | bigNumber => true
  | _ => false

def isBlob : RESPType → Bool
  | bulkString | bulkError | verbatim => true
  | _ => false

def isAggregate : RESPType → Bool
  | array | map | set | push => true
  | _ => false

/-- The RESP2 types that spell null with a negative number. -/
def hasNull : RESPType → Bool
  | bulkString | array => true
  | _ => false

end RESPType

def kindOf (data : List Byte) : Option RESPType := data.head?.bind RESPType.ofMarker

/-- The text between the marker and the end of the first line. -/
def headerText (data : List Byte) (idx : ℕ) : List Byte := (data.drop 1).take (idx - 1)

/-- The end of the first line and the number on it. -/
def header (data : List Byte) : Option (ℕ × ℤ) :=
  (indexCRLF data).bind fun idx => (atoi (headerText data idx)).map fun number => (idx, number)

/-- How many values follow the header of an aggregate. -/
def slots : RESPType → ℤ → ℕ
  | .map, count => 2 * count.toNat
  | _, count => count.toNat

/-- A map is never given room in advance; the other aggregates need it. -/
def HasRoom (kind : RESPType) (count : ℤ) : Prop :=
  kind = .map ∨ (0 ≤ count ∧ count * valueSize ≤ maxAlloc)

instance (kind : RESPType) (count : ℤ) : Decidable (HasRoom kind count) := by
  unfold HasRoom
  infer_instance

/-- The numbers that no reader can honour, by type: a length whose end does not fit
64 bits, a negative length without null form, a negative or unallocatable count. -/
def BadNumber (kind : RESPType) (length : ℕ) (idx : ℕ) (number : ℤ) : Prop :=
  match kind with
  | .bulkString => 2 ^ 63 ≤ (idx : ℤ) + number + 4
  | .bulkError | .verbatim =>
    2 ^ 63 ≤ (idx : ℤ) + number + 4 ∨ (number < 0 ∧ (idx : ℤ) + number + 4 ≤ length)
  | .array => maxAlloc < number * valueSize
  | .set | .push => number < 0 ∨ maxAlloc < number * valueSize
  | .map => number < 0
  | _ => False

instance (kind : RESPType) (length idx : ℕ) (number : ℤ) :
    Decidable (BadNumber kind length idx number) := by
  unfold BadNumber
  cases kind <;> infer_instance

def BadHeader (data : List Byte) : Prop :=
  ∃ kind ∈ kindOf data, ∃ head ∈ header data, BadNumber kind data.length head.1 head.2

instance (data : List Byte) : Decidable (BadHeader data) := by
  unfold BadHeader
  infer_instance

section Frames

variable (parseFloat : List Byte → Option UInt64)

mutual

inductive Frame : List Byte → ℕ → Prop where
  | line {data : List Byte} {kind : RESPType} {idx : ℕ}
      (hkind : kindOf data = some kind) (hline : kind.isLine = true)
      (hidx : indexCRLF data = some idx) : Frame data (idx + 2)
  | integer {data : List Byte} {idx : ℕ} {number : ℤ}
      (hkind : kindOf data = some .integer) (hheader : header data = some (idx, number)) :
      Frame data (idx + 2)
  | double {data : List Byte} {idx : ℕ}
      (hkind : kindOf data = some .double) (hidx : indexCRLF data = some idx)
      (hbits : (doubleBits parseFloat (headerText data idx)).isSome) : Frame data (idx + 2)
  | null {rest : List Byte} : Frame (95 :: 13 :: 10 :: rest) 3
  | boolean {letter : Byte} {rest : List Byte} (hletter : letter = 116 ∨ letter = 102) :
      Frame (35 :: letter :: 13 :: 10 :: rest) 4
  | absent {data : List Byte} {kind : RESPType} {idx : ℕ} {number : ℤ}
      (hkind : kindOf data = some kind) (hnull : kind.hasNull = true)
      (hheader : header data = some (idx, number)) (hneg : number < 0) :
      Frame data (idx + 2)
  | blob {data : List Byte} {kind : RESPType} {idx length : ℕ}
      (hkind : kindOf data = some kind) (hblob : kind.isBlob = true)
      (hheader : header data = some (idx, (length : ℤ)))
      (hfits : idx + 2 + length + 2 ≤ data.length) : Frame data (idx + 2 + length + 2)
  | aggregate {data : List Byte} {kind : RESPType} {idx size : ℕ} {count : ℤ}
      (hkind : kindOf data = some kind) (haggregate : kind.isAggregate = true)
      (hheader : header data = some (idx, count)) (hroom : HasRoom kind count)
      (hinner : Frames (slots kind count) (data.drop (idx + 2)) size) :
      Frame data (idx + 2 + size)

/-- `Frames count data size`: `count` complete values occupy the first `size` bytes. -/
inductive Frames : ℕ → List Byte → ℕ → Prop where
  | nil {data : List Byte} : Frames 0 data 0
  | cons {data : List Byte} {count first rest : ℕ}
      (hfirst : Frame data first) (hrest : Frames count (data.drop first) rest) :
      Frames (count + 1) data (first + rest)

end

inductive Visits : List Byte → List Byte → Prop where
  | here {data : List Byte} : Visits data data
  | inside {data inner : List Byte} {kind : RESPType} {idx before size : ℕ} {count : ℤ}
      (hkind : kindOf data = some kind) (haggregate : kind.isAggregate = true)
      (hheader : header data = some (idx, count)) (hroom : HasRoom kind count)
      (hbefore : before < slots kind count)
      (hframes : Frames parseFloat before (data.drop (idx + 2)) size)
      (hmore : data.drop (idx + 2 + size) ≠ [])
      (hinner : Visits (data.drop (idx + 2 + size)) inner) : Visits data inner

/-- A reader of `data` comes to a header it cannot honour. -/
def MeetsBadHeader (data : List Byte) : Prop :=
  ∃ inner, Visits parseFloat data inner ∧ BadHeader inner

end Frames

/-! ## First lines -/

variable {data : List Byte} {idx : ℕ}

theorem indexCRLF_bound (hidx : indexCRLF data = some idx) : idx + 2 ≤ data.length := by
  induction data generalizing idx with
  | nil => simp [indexCRLF] at hidx
  | cons first rest ih =>
    unfold indexCRLF at hidx
    split_ifs at hidx with hfirst
    · cases hidx
      cases rest with
      | nil => simp at hfirst
      | cons => simp
    · obtain ⟨_, hinner, rfl⟩ := Option.map_eq_some_iff.1 hidx
      have := ih hinner
      simp only [List.length_cons]
      omega

theorem kindOf_cons {first : Byte} {rest : List Byte} :
    kindOf (first :: rest) = RESPType.ofMarker first := rfl

/-- The line of a value cannot end before its marker. -/
theorem indexCRLF_pos {kind : RESPType} (hkind : kindOf data = some kind)
    (hidx : indexCRLF data = some idx) : 0 < idx := by
  cases data with
  | nil => cases hkind
  | cons first =>
    have hmarker : first = kind.marker := RESPType.marker_of_ofMarker hkind
    unfold indexCRLF at hidx
    split_ifs at hidx with hfirst
    · exact absurd (hmarker ▸ hfirst.1) kind.marker_ne_cr
    · obtain ⟨_, _, rfl⟩ := Option.map_eq_some_iff.1 hidx
      omega

theorem header_eq_some_iff {number : ℤ} :
    header data = some (idx, number) ↔
      indexCRLF data = some idx ∧ atoi (headerText data idx) = some number := by
  simp only [header, Option.bind_eq_some_iff, Option.map_eq_some_iff, Prod.mk.injEq]
  constructor
  · rintro ⟨_, hidx, _, hvalue, rfl, rfl⟩
    exact ⟨hidx, hvalue⟩
  · rintro ⟨hidx, hvalue⟩
    exact ⟨idx, hidx, number, hvalue, rfl, rfl⟩

theorem header_bound {number : ℤ} (hheader : header data = some (idx, number)) :
    idx + 2 ≤ data.length ∧ -2 ^ 63 ≤ number ∧ number < 2 ^ 63 := by
  obtain ⟨hidx, hnumber⟩ := header_eq_some_iff.1 hheader
  exact ⟨indexCRLF_bound hidx, parseInt_mem hnumber⟩

theorem badHeader_iff {kind : RESPType} (hkind : kindOf data = some kind) :
    BadHeader data ↔
      ∃ idx number, header data = some (idx, number) ∧
        BadNumber kind data.length idx number := by
  simp [BadHeader, hkind]

/-! ## Sizes of frames -/

section Sizes

variable {parseFloat : List Byte → Option UInt64}

mutual

theorem Frame.bound {data : List Byte} {size : ℕ} :
    Frame parseFloat data size → 0 < size ∧ size ≤ data.length
  | .line _ _ hidx => by
    have := indexCRLF_bound hidx
    omega
  | .integer _ hheader => by
    have := header_bound hheader
    omega
  | .double _ hidx _ => by
    have := indexCRLF_bound hidx
    omega
  | .null => by simp
  | .boolean _ => by simp
  | .absent _ _ hheader _ => by
    have := header_bound hheader
    omega
  | .blob _ _ _ hfits => by omega
  | .aggregate _ _ hheader _ hinner => by
    have := header_bound hheader
    have := hinner.bound
    simp only [List.length_drop] at this
    omega

theorem Frames.bound {count : ℕ} {data : List Byte} {size : ℕ} :
    Frames parseFloat count data size → size ≤ data.length
  | .nil => by simp
  | .cons hfirst hrest => by
    have := hfirst.bound
    have := hrest.bound
    simp only [List.length_drop] at this
    omega

end

variable {size : ℕ}

theorem not_frame_nil : ¬ Frame parseFloat [] size := by
  intro hframe
  have := hframe.bound
  simp only [List.length_nil] at this
  omega

theorem frames_zero_iff : Frames parseFloat 0 data size ↔ size = 0 := by
  constructor
  · intro hframes
    cases hframes
    rfl
  · rintro rfl
    exact .nil

theorem frames_succ_iff {count : ℕ} :
    Frames parseFloat (count + 1) data size ↔
      ∃ first rest, size = first + rest ∧ Frame parseFloat data first ∧
        Frames parseFloat count (data.drop first) rest := by
  constructor
  · intro hframes
    cases hframes with
    | cons hfirst hrest => exact ⟨_, _, rfl, hfirst, hrest⟩
  · rintro ⟨_, _, rfl, hfirst, hrest⟩
    exact .cons hfirst hrest

end Sizes

end Qtap.Redis
