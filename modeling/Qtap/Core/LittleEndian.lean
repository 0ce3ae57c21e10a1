import Qtap.Core.Outcome

/-!
# Little-endian integers

The byte strings of `binary.LittleEndian` and of shifts such as `byte(length >> 8)`,
for any width.
-/

namespace Qtap.Core

def leValue : List Byte → ℕ
  | [] => 0
  | first :: rest => first.toNat + 256 * leValue rest

def leBytes : ℕ → ℕ → List Byte
  | 0, _ => []
  | width + 1, value => UInt8.ofNat value :: leBytes width (value / 256)

@[simp]
theorem length_leBytes (width value : ℕ) : (leBytes width value).length = width := by
  induction width generalizing value with
  | zero => rfl
  | succ width ih => simp [leBytes, ih]

theorem leValue_leBytes (width value : ℕ) (hvalue : value < 256 ^ width) :
    leValue (leBytes width value) = value := by
  induction width generalizing value with
  | zero =>
    rw [Nat.pow_zero, Nat.lt_one_iff] at hvalue
    rw [hvalue]
    rfl
  | succ width ih =>
    have hrest : value / 256 < 256 ^ width := by
      rw [Nat.div_lt_iff_lt_mul (by norm_num)]
      exact hvalue
    rw [leBytes, leValue, ih _ hrest]
    exact Nat.mod_add_div value 256

end Qtap.Core
