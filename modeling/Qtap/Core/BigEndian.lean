import Qtap.Core.LittleEndian

/-!
# Big-endian integers

The byte strings of `binary.BigEndian`, and the conversion of an unsigned number to the
signed one with the same bits.
-/

namespace Qtap.Core

def beValue (bytes : List Byte) : ℕ := leValue bytes.reverse

def beBytes (width value : ℕ) : List Byte := (leBytes width value).reverse

@[simp]
theorem length_beBytes {width value : ℕ} : (beBytes width value).length = width := by
  rw [beBytes, List.length_reverse, length_leBytes]

theorem beValue_beBytes (width value : ℕ) (hvalue : value < 256 ^ width) :
    beValue (beBytes width value) = value := by
  rw [beValue, beBytes, List.reverse_reverse, leValue_leBytes width value hvalue]

/-- The two's-complement reading of an unsigned number of `bits` bits. -/
def signed (bits value : ℕ) : ℤ := if value < 2 ^ (bits - 1) then value else value - 2 ^ bits

/-- The unsigned number with the bits of a signed one. -/
def unsigned (bits : ℕ) (value : ℤ) : ℕ := (value % 2 ^ bits).toNat

theorem unsigned_lt (bits : ℕ) (value : ℤ) : unsigned bits value < 2 ^ bits := by
  have hpos : (0 : ℤ) < 2 ^ bits := by positivity
  have hlow := Int.emod_nonneg value hpos.ne'
  have hhigh := Int.emod_lt_of_pos value hpos
  rw [unsigned]
  zify
  rwa [Int.toNat_of_nonneg hlow]

theorem signed_unsigned {bits : ℕ} (hbits : 0 < bits) {value : ℤ} (hlow : -2 ^ (bits - 1) ≤ value)
    (hhigh : value < 2 ^ (bits - 1)) : signed bits (unsigned bits value) = value := by
  obtain ⟨bits, rfl⟩ := Nat.exists_eq_succ_of_ne_zero hbits.ne'
  rw [Nat.succ_sub_one] at hlow hhigh
  rw [signed, unsigned, Nat.succ_sub_one]
  by_cases hsign : 0 ≤ value
  · have hmod : value % 2 ^ (bits + 1) = value := Int.emod_eq_of_lt hsign (by omega)
    rw [hmod, if_pos (by zify; rwa [Int.toNat_of_nonneg hsign]), Int.toNat_of_nonneg hsign]
  · have hmod : value % 2 ^ (bits + 1) = value + 2 ^ (bits + 1) := by
      rw [← Int.add_emod_right]
      exact Int.emod_eq_of_lt (by omega) (by omega)
    have hpositive : 0 ≤ value + 2 ^ (bits + 1) := by omega
    rw [hmod, if_neg (by zify; rw [Int.toNat_of_nonneg hpositive]; omega),
      Int.toNat_of_nonneg hpositive, add_sub_cancel_right]

end Qtap.Core
