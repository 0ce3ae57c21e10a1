import Mathlib.Data.Nat.Bitwise
import Qtap.Core.Outcome

/-!
# The search for the build information of a Go binary

The linker leaves a blob that starts with a magic at a multiple of 16 bytes.  `getBuildInfoBlob`
looks for the magic, and where it finds one off such a multiple it means to go on at the next
multiple.  The mask clears only the bit of value 16: in an even block of 16 bytes this goes back
to the byte in front of the magic, where the search then stays for ever, and in an odd one it goes
on 15 bytes behind the magic, from where the offsets are counted anew.  `readData` reads from the
segment of an address, whose bounds it computes in 64 bits.
-/

namespace Qtap.Tls.BuildInfo

open List Qtap.Core

/-- `"\xff Go buildinf:"`. -/
def buildInfoMagic : List Byte := [0xff, 32, 71, 111, 32, 98, 117, 105, 108, 100, 105, 110, 102, 58]

def buildInfoAlign : ℕ := 16

def buildInfoSize : ℕ := 32

/-- `bytes.Index` of the magic. -/
def index (data : List Byte) : Option ℕ :=
  (range data.length).find? fun i => buildInfoMagic.isPrefixOf (data.drop i)

/-- The operator `&^` of Go: the bits of `x` that `y` does not have. -/
def andNot (x y : ℕ) : ℕ := x - (x &&& y)

/-- One turn of the loop: the result, with `none` for `ErrNotGoExecutable`, or the data that the
next turn searches. -/
def turn (data : List Byte) : Option (List Byte) ⊕ List Byte :=
  match index data with
  | none => .inl none
  | some i =>
    if data.length - i < buildInfoSize then .inl none
    else if i % buildInfoAlign = 0 then .inl (some (data.drop i))
    else .inr (data.drop (andNot (i + buildInfoAlign - 1) buildInfoAlign))

/-- The loop of `getBuildInfoBlob`; `none` while it has not returned. -/
def search : ℕ → List Byte → Option (Option (List Byte))
  | 0, _ => none
  | turns + 1, data => (turn data).elim some (search turns)

/-- The suffix at the first multiple of 16 with the magic and 32 bytes. -/
def blob (data : List Byte) : Option (List Byte) :=
  ((range data.length).find? fun i => i % buildInfoAlign = 0 &&
    buildInfoMagic.isPrefixOf (data.drop i) && buildInfoSize ≤ data.length - i).map data.drop

/-- The places of the magic let the search get to its target: each one in front of it is in an odd
block, counted from 15 bytes behind the one before. -/
inductive Clear (target : Option (List Byte)) : List Byte → Prop
  | missing {data : List Byte}
      (hshort : ∀ i, index data = some i → data.length - i < buildInfoSize)
      (htarget : target = none) : Clear target data
  | aligned {data : List Byte} {i : ℕ} (hindex : index data = some i)
      (hlong : buildInfoSize ≤ data.length - i) (haligned : i % buildInfoAlign = 0)
      (htarget : target = some (data.drop i)) : Clear target data
  | passed {data : List Byte} {i : ℕ} (hindex : index data = some i)
      (hlong : buildInfoSize ≤ data.length - i) (hbetween : i % buildInfoAlign ≠ 0)
      (hodd : i / buildInfoAlign % 2 = 1) (hrest : Clear target (data.drop (i + 15))) :
      Clear target data

theorem index_eq_some_iff {data : List Byte} {i : ℕ} :
    index data = some i ↔ buildInfoMagic <+: data.drop i ∧ i < data.length ∧
      ∀ j < i, ¬ buildInfoMagic <+: data.drop j := by
  simp [index, find?_range_eq_some, ← isPrefixOf_iff_prefix]

variable {data : List Byte} {i : ℕ}

/-- The mask clears one bit: the search goes on behind a magic in an odd block, and in front of
one in an even block. -/
theorem andNot_align (hbetween : i % 16 ≠ 0) :
    andNot (i + 15) 16 = if i / 16 % 2 = 1 then i + 15 else i - 1 := by
  have hmask : 16 &&& (i + 15) = 16 * ((i + 15).testBit 4).toNat := Nat.two_pow_and (i + 15) 4
  rw [andNot, Nat.and_comm, hmask, Nat.testBit_eq_decide_div_mod_eq]
  split_ifs with hodd
  · rw [decide_eq_false (by omega)]
    rfl
  · rw [decide_eq_true (by omega), Bool.toNat_true]
    omega

variable (hindex : index data = some i)

include hindex

/-- From the byte in front of the first magic, the magic is at the second byte. -/
theorem index_drop_pred (hpos : 0 < i) : index (data.drop (i - 1)) = some 1 := by
  obtain ⟨hmagic, hlength, hfirst⟩ := index_eq_some_iff.1 hindex
  refine index_eq_some_iff.2 ⟨?_, ?_, ?_⟩
  · rw [drop_drop, Nat.sub_add_cancel hpos]
    exact hmagic
  · rw [length_drop]
    omega
  · intro j hj
    rw [Nat.lt_one_iff.1 hj, drop_zero]
    exact hfirst (i - 1) (Nat.sub_lt hpos Nat.one_pos)

variable (hlong : buildInfoSize ≤ data.length - i)

include hlong

theorem turn_between (hbetween : i % buildInfoAlign ≠ 0) :
    turn data = .inr (data.drop (if i / buildInfoAlign % 2 = 1 then i + 15 else i - 1)) := by
  rw [turn, hindex]
  dsimp only
  rw [if_neg (Nat.not_lt.2 hlong), if_neg hbetween]
  exact congrArg (fun next => Sum.inr (data.drop next)) (andNot_align hbetween)

theorem turn_aligned (haligned : i % buildInfoAlign = 0) :
    turn data = .inl (some (data.drop i)) := by
  rw [turn, hindex]
  dsimp only
  rw [if_neg (Nat.not_lt.2 hlong), if_pos haligned]

/-- A magic at the second byte holds the search for ever. -/
theorem search_of_one (hone : i = 1) (turns : ℕ) : search turns data = none := by
  induction turns with
  | zero => rfl
  | succ turns ih =>
    subst hone
    rw [search, turn_between hindex hlong (by decide)]
    exact ih

omit hindex hlong

theorem turn_missing (hshort : ∀ i, index data = some i → data.length - i < buildInfoSize) :
    turn data = .inl none := by
  rw [turn]
  split
  · rfl
  next i hindex => exact if_pos (hshort i hindex)

theorem clear_of_search {target : Option (List Byte)} {turns : ℕ}
    (hsearch : search turns data = some target) : Clear target data := by
  induction turns generalizing data with
  | zero => cases hsearch
  | succ turns ih =>
    rw [search] at hsearch
    by_cases hshort : ∀ i, index data = some i → data.length - i < buildInfoSize
    · rw [turn_missing hshort] at hsearch
      exact .missing hshort (Option.some.inj hsearch).symm
    simp only [not_forall, Nat.not_lt] at hshort
    obtain ⟨i, hindex, hlong⟩ := hshort
    by_cases haligned : i % buildInfoAlign = 0
    · rw [turn_aligned hindex hlong haligned] at hsearch
      exact .aligned hindex hlong haligned (Option.some.inj hsearch).symm
    rw [turn_between hindex hlong haligned] at hsearch
    split_ifs at hsearch with hodd
    · exact .passed hindex hlong haligned hodd (ih hsearch)
    · have hpos : 0 < i := Nat.pos_of_ne_zero fun hzero => haligned (by rw [hzero, Nat.zero_mod])
      have hlonger : buildInfoSize ≤ (data.drop (i - 1)).length - 1 := by
        rw [length_drop]
        omega
      have hstays := search_of_one (index_drop_pred hindex hpos) hlonger rfl turns
      cases hstays.symm.trans hsearch

theorem Clear.exists_search {target : Option (List Byte)} (hclear : Clear target data) :
    ∃ turns, search turns data = some target := by
  induction hclear with
  | missing hshort htarget =>
    refine ⟨1, ?_⟩
    rw [search, turn_missing hshort, htarget]
    rfl
  | aligned hindex hlong haligned htarget =>
    refine ⟨1, ?_⟩
    rw [search, turn_aligned hindex hlong haligned, htarget]
    rfl
  | passed hindex hlong hbetween hodd _ ih =>
    obtain ⟨turns, hsearch⟩ := ih
    refine ⟨turns + 1, ?_⟩
    rw [search, turn_between hindex hlong hbetween, if_pos hodd]
    exact hsearch

/-- A program header and the bytes that the file has for it. -/
structure Prog where
  vaddr : UInt64
  filesz : UInt64
  content : List Byte

/-- `io.SectionReader.ReadAt`, which fails unless it fills the buffer. -/
def Prog.readAt (prog : Prog) (off n : ℕ) : Option (List Byte) :=
  if off < 2 ^ 63 ∧ off < prog.filesz.toNat ∧
      off + n ≤ min prog.filesz.toNat prog.content.length then
    some ((prog.content.drop off).take n)
  else none

/-- The segment that `readData` reads from. -/
def segmentOf (progs : List Prog) (addr : UInt64) : Option Prog :=
  progs.find? fun prog => prog.vaddr ≤ addr ∧ addr ≤ prog.vaddr + prog.filesz - 1

/-- The length of the buffer. -/
def Prog.room (prog : Prog) (addr size : UInt64) : UInt64 :=
  min (prog.vaddr + prog.filesz - addr) size

def readData (progs : List Prog) (addr size : UInt64) : Option (List Byte) :=
  (segmentOf progs addr).bind fun prog =>
    prog.readAt (addr - prog.vaddr).toNat (prog.room addr size).toNat

/-- The segment covers the address, as numbers without a bound. -/
def Prog.Covers (prog : Prog) (addr : UInt64) : Prop :=
  prog.vaddr.toNat ≤ addr.toNat ∧ addr.toNat < prog.vaddr.toNat + prog.filesz.toNat

theorem covers_or_empty {progs : List Prog} {addr : UInt64} {prog : Prog}
    (hsegment : segmentOf progs addr = some prog) :
    prog.Covers addr ∨ prog.vaddr.toNat = 0 ∧ prog.filesz.toNat = 0 := by
  have hfound := find?_some hsegment
  simp only [decide_eq_true_eq, UInt64.le_iff_toNat_le, UInt64.toNat_sub, UInt64.toNat_add]
    at hfound
  have := prog.vaddr.toNat_lt
  have := prog.filesz.toNat_lt
  rw [Prog.Covers]
  simp at hfound
  omega

theorem toNat_room (prog : Prog) (addr size : UInt64) :
    (prog.room addr size).toNat = min ((2 ^ 64 - addr.toNat +
      (prog.vaddr.toNat + prog.filesz.toNat) % 2 ^ 64) % 2 ^ 64) size.toNat := by
  change (if _ ≤ _ then _ else _ : UInt64).toNat = _
  rw [← UInt64.toNat_add, ← UInt64.toNat_sub, min_def, apply_ite UInt64.toNat]
  rfl

/-- What is read lies in the segment, and the buffer is as long as the segment and the size
allow unless the segment is an empty one at address zero. -/
theorem readData_within_iff (progs : List Prog) (addr size : UInt64) (prog : Prog)
    (hsegment : segmentOf progs addr = some prog) :
    ((readData progs addr size).isSome → prog.Covers addr) ∧
      ((prog.room addr size).toNat ≤ prog.filesz.toNat ∧ ((prog.room addr size).toNat : ℤ) =
        min (prog.vaddr.toNat + prog.filesz.toNat - addr.toNat : ℤ) size.toNat ↔
      ¬ (prog.vaddr = 0 ∧ prog.filesz = 0 ∧ addr ≠ 0)) := by
  have hroom := toNat_room prog addr size
  have haddr := addr.toNat_lt
  simp only [← UInt64.toNat_inj, UInt64.toNat_zero, ne_eq]
  rcases covers_or_empty hsegment with hcovers | hempty
  · refine ⟨fun _ => hcovers, ?_⟩
    obtain ⟨hlow, hhigh⟩ := hcovers
    have := prog.filesz.toNat_lt
    have := prog.vaddr.toNat_lt
    omega
  · constructor
    · intro hread
      rw [readData, hsegment, Option.bind_some, Prog.readAt, if_neg (by omega)] at hread
      cases hread
    · omega

theorem readData_within_iff_header :
    (Prog.room ⟨0x400000, 2, [127, 69]⟩ 0x400001 8).toNat ≤ 2 :=
  ((readData_within_iff [⟨0x400000, 2, [127, 69]⟩] 0x400001 8 _ rfl).2.2 (by decide)).1

/-- An empty segment at address zero, and room for a hundred bytes of it. -/
theorem empty_segment_allocates :
    segmentOf [⟨0, 0, []⟩] 5 = some ⟨0, 0, []⟩ ∧ (Prog.room ⟨0, 0, []⟩ 5 100).toNat = 100 :=
  ⟨rfl, rfl⟩

end Qtap.Tls.BuildInfo
