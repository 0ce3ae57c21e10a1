import Qtap.Bpf.Types

/-!
# Contents of user buffers

What it means that the memory of the traced process holds a string of bytes, and that an
array of `struct iovec` describes a list of such strings.  Reads of held strings are cut
and joined here once; the loops over buffers use these facts and not the memory itself.
-/

namespace Qtap.Bpf

open Option List Qtap.Core

/-- The bytes at `address` are readable and equal to `content`. -/
def Holds (memory : Memory) (address : ℕ) (content : List Byte) : Prop :=
  probeReadUser memory content.length address = some content

instance (memory : Memory) (address : ℕ) (content : List Byte) :
    Decidable (Holds memory address content) :=
  inferInstanceAs (Decidable (probeReadUser memory content.length address = some content))

theorem probeReadUser_add (memory : Memory) (first second address : ℕ) :
    probeReadUser memory (first + second) address =
      (probeReadUser memory first address).bind fun front =>
        (probeReadUser memory second (address + first)).bind fun back =>
          some (front ++ back) := by
  simp only [probeReadUser, range_add, mapM_append, mapM_map, Nat.add_assoc]
  rfl

variable {memory : Memory} {address : ℕ} {content : List Byte}

theorem length_of_probeReadUser {size : ℕ}
    (hread : probeReadUser memory size address = some content) : content.length = size := by
  induction size generalizing content with
  | zero => cases hread; rfl
  | succ size ih =>
    rw [probeReadUser_add] at hread
    obtain ⟨_, hfront, hrest⟩ := bind_eq_some_iff.mp hread
    obtain ⟨back, hback, happend⟩ := bind_eq_some_iff.mp hrest
    cases happend
    have hlength : back.length = 1 := by
      obtain ⟨_, -, hbyte⟩ := bind_eq_some_iff.mp hback
      cases hbyte
      rfl
    rw [length_append, ih hfront, hlength]

@[simp]
theorem holds_nil (memory : Memory) (address : ℕ) : Holds memory address [] := rfl

theorem holds_append (memory : Memory) (address : ℕ) (front back : List Byte) :
    Holds memory address (front ++ back) ↔
      Holds memory address front ∧ Holds memory (address + front.length) back := by
  simp only [Holds, length_append, probeReadUser_add]
  constructor
  · intro hread
    obtain ⟨_, hfirst, hrest⟩ := bind_eq_some_iff.mp hread
    obtain ⟨_, hsecond, happend⟩ := bind_eq_some_iff.mp hrest
    obtain ⟨rfl, rfl⟩ :=
      append_inj (some.inj happend) (length_of_probeReadUser hfirst)
    exact ⟨hfirst, hsecond⟩
  · rintro ⟨hfront, hback⟩
    rw [hfront, bind_some, hback, bind_some]

theorem Holds.take (hholds : Holds memory address content) (count : ℕ) :
    Holds memory address (content.take count) := by
  rw [← take_append_drop count content] at hholds
  exact ((holds_append _ _ _ _).mp hholds).1

theorem Holds.drop (hholds : Holds memory address content) {count : ℕ}
    (hcount : count ≤ content.length) : Holds memory (address + count) (content.drop count) := by
  rw [← take_append_drop count content, holds_append, length_take_of_le hcount] at hholds
  exact hholds.2

theorem holds_of_forall :
    ∀ address : ℕ, (∀ i (hi : i < content.length), memory (address + i) = some content[i]) →
      Holds memory address content := by
  induction content with
  | nil => exact fun address _ => holds_nil memory address
  | cons byte rest ih =>
    intro address hbytes
    have hfirst : memory (address + 0) = some byte := hbytes 0 (Nat.succ_pos _)
    apply (holds_append memory address [byte] rest).mpr
    constructor
    · simp only [Holds, probeReadUser, length_singleton, range_one, mapM_cons, mapM_nil, hfirst]
      rfl
    · apply ih
      intro i hi
      rw [length_singleton, Nat.add_assoc, Nat.add_comm 1]
      exact hbytes (i + 1) (Nat.succ_lt_succ hi)

/-- A memory of one string. -/
def imageAt (address : ℕ) (content : List Byte) : Memory := fun other => content[other - address]?

theorem holds_imageAt (address : ℕ) (content : List Byte) :
    Holds (imageAt address content) address content := by
  apply holds_of_forall
  intro i hi
  rw [imageAt, Nat.add_sub_cancel_left]
  exact List.getElem?_eq_getElem hi

/-- An array of `struct iovec` at `address`: each entry with its base and its content. -/
def HoldsIovecs (memory : Memory) : ℕ → List (ℕ × List Byte) → Prop
  | _, [] => True
  | address, (base, content) :: rest =>
    readIovec memory address = some (base, content.length) ∧ Holds memory base content ∧
      HoldsIovecs memory (address + 16) rest

instance decidableHoldsIovecs (memory : Memory) :
    (address : ℕ) → (entries : List (ℕ × List Byte)) →
      Decidable (HoldsIovecs memory address entries)
  | _, [] => inferInstanceAs (Decidable True)
  | address, (base, content) :: rest =>
    have := decidableHoldsIovecs memory (address + 16) rest
    inferInstanceAs (Decidable (readIovec memory address = some (base, content.length) ∧
      Holds memory base content ∧ HoldsIovecs memory (address + 16) rest))

/-- The bytes that a list of entries stands for. -/
def contents (entries : List (ℕ × List Byte)) : List Byte := entries.flatMap Prod.snd

@[simp]
theorem contents_nil : contents [] = [] := rfl

@[simp]
theorem contents_cons (base : ℕ) (content : List Byte) (rest : List (ℕ × List Byte)) :
    contents ((base, content) :: rest) = content ++ contents rest := rfl

/-- An array of two entries at address 8: `GE` at address 48 and `T /` at address 56, with
zeros between them. -/
def scattered : Memory := fun address =>
  (List.replicate 8 0 ++ leBytes 8 48 ++ leBytes 8 2 ++ leBytes 8 56 ++ leBytes 8 3 ++
    List.replicate 8 0 ++ [0x47, 0x45, 0, 0, 0, 0, 0, 0] ++ [0x54, 0x20, 0x2f])[address]?

def scatteredEntries : List (ℕ × List Byte) := [(48, [0x47, 0x45]), (56, [0x54, 0x20, 0x2f])]

theorem holdsIovecs_scattered : HoldsIovecs scattered 8 scatteredEntries := by
  decide

end Qtap.Bpf
