import Qtap.Core.Outcome

/-!
# Variable-length integers

Base-128 integers, lowest group first, every byte but the last with its high bit set.
`decodeVarint` reads at most the given number of groups and keeps 32 bits, as a reader
with a `uint32` accumulator does.  Signed numbers are folded into unsigned ones so that
small magnitudes stay short.
-/

namespace Qtap.Core

def encodeVarint (value : ℕ) : List Byte :=
  if value < 128 then [UInt8.ofNat value]
  else UInt8.ofNat (value % 128 + 128) :: encodeVarint (value / 128)
termination_by value
decreasing_by omega

/-- The value of the groups from position `index` on, or'ed into `acc`, and how many bytes
the number takes in all. -/
def decodeGroups : ℕ → ℕ → ℕ → List Byte → Option (ℕ × ℕ)
  | 0, _, _, _ => none
  | _ + 1, _, _, [] => none
  | groups + 1, index, acc, byte :: rest =>
    let acc := acc ||| ((byte.toNat &&& 0x7f) <<< (7 * index)) % 2 ^ 32
    if byte.toNat &&& 0x80 = 0 then some (acc, index + 1)
    else decodeGroups groups (index + 1) acc rest

/-- A number of at most five groups, with the number of bytes it takes. -/
def decodeVarint (bytes : List Byte) : Option (ℕ × ℕ) := decodeGroups 5 0 0 bytes

theorem encodeVarint_of_lt {value : ℕ} (hvalue : value < 128) :
    encodeVarint value = [UInt8.ofNat value] := by
  rw [encodeVarint, if_pos hvalue]

theorem encodeVarint_of_ge {value : ℕ} (hvalue : 128 ≤ value) :
    encodeVarint value = UInt8.ofNat (value % 128 + 128) :: encodeVarint (value / 128) := by
  rw [encodeVarint, if_neg (Nat.not_lt.2 hvalue)]

theorem encodeVarint_ne_nil (value : ℕ) : encodeVarint value ≠ [] := by
  rw [encodeVarint]
  split_ifs <;> exact List.cons_ne_nil _ _

theorem length_encodeVarint_le (groups value : ℕ) (hvalue : value < 2 ^ (7 * (groups + 1))) :
    (encodeVarint value).length ≤ groups + 1 := by
  induction groups generalizing value with
  | zero => rw [encodeVarint_of_lt (by simpa using hvalue), List.length_singleton]
  | succ groups ih =>
    by_cases hsmall : value < 128
    · rw [encodeVarint_of_lt hsmall, List.length_singleton]
      omega
    · rw [encodeVarint_of_ge (Nat.not_lt.1 hsmall)]
      apply Nat.succ_le_succ
      apply ih
      rw [Nat.div_lt_iff_lt_mul (by norm_num)]
      exact hvalue.trans_eq (by rw [Nat.mul_succ 7 (groups + 1), Nat.pow_add])

theorem and_low (byte : ℕ) : byte &&& 0x7f = byte % 128 := Nat.and_two_pow_sub_one_eq_mod byte 7

theorem and_high {byte : ℕ} (hbyte : byte < 256) : byte &&& 0x80 = 0 ↔ byte < 128 := by
  have hall : ∀ byte < 256, byte &&& 0x80 = 0 ↔ byte < 128 := by decide +kernel
  exact hall byte hbyte

/-- A group or'ed in above the ones read so far adds up. -/
theorem or_group {acc group index : ℕ} (hacc : acc < 2 ^ (7 * index)) :
    acc ||| group <<< (7 * index) = acc + group * 2 ^ (7 * index) := by
  rw [Nat.or_comm, Nat.shiftLeft_eq, Nat.mul_comm, ← Nat.two_pow_add_eq_or_of_lt hacc, Nat.add_comm]

/-- One step of the decoder, on a group that stays within 32 bits. -/
theorem decodeGroups_cons (groups index acc : ℕ) (byte : Byte) (rest : List Byte)
    (hacc : acc < 2 ^ (7 * index)) (hfits : byte.toNat % 128 * 2 ^ (7 * index) < 2 ^ 32) :
    decodeGroups (groups + 1) index acc (byte :: rest) =
      if byte.toNat < 128 then some (acc + byte.toNat % 128 * 2 ^ (7 * index), index + 1)
      else decodeGroups groups (index + 1) (acc + byte.toNat % 128 * 2 ^ (7 * index)) rest := by
  have hgroup : acc ||| (byte.toNat % 128) <<< (7 * index) % 2 ^ 32 =
      acc + byte.toNat % 128 * 2 ^ (7 * index) := by
    rw [Nat.mod_eq_of_lt (by rwa [Nat.shiftLeft_eq]), or_group hacc]
  simp only [decodeGroups, and_low, and_high byte.toNat_lt, hgroup]

theorem decodeGroups_of_lt {groups index acc : ℕ} {value : ℕ} {rest : List Byte}
    (hsmall : value < 128) (hacc : acc < 2 ^ (7 * index))
    (hfits : acc + value * 2 ^ (7 * index) < 2 ^ 32) :
    decodeGroups (groups + 1) index acc (encodeVarint value ++ rest) =
      some (acc + value * 2 ^ (7 * index), index + (encodeVarint value).length) := by
  have hbyte : (UInt8.ofNat value).toNat = value := by
    rw [UInt8.toNat_ofNat', Nat.mod_eq_of_lt (by omega)]
  have hlow : value % 128 = value := Nat.mod_eq_of_lt hsmall
  rw [encodeVarint_of_lt hsmall, List.singleton_append,
    decodeGroups_cons _ _ _ _ _ hacc (by rw [hbyte, hlow]; omega), hbyte, if_pos hsmall, hlow,
    List.length_singleton]

theorem decodeGroups_encodeVarint (groups index acc value : ℕ) (rest : List Byte)
    (hgroups : value < 2 ^ (7 * (groups + 1))) (hacc : acc < 2 ^ (7 * index))
    (hfits : acc + value * 2 ^ (7 * index) < 2 ^ 32) :
    decodeGroups (groups + 1) index acc (encodeVarint value ++ rest) =
      some (acc + value * 2 ^ (7 * index), index + (encodeVarint value).length) := by
  induction groups generalizing index acc value with
  | zero => exact decodeGroups_of_lt (by simpa using hgroups) hacc hfits
  | succ groups ih =>
    by_cases hsmall : value < 128
    · exact decodeGroups_of_lt hsmall hacc hfits
    · have hlarge := Nat.not_lt.1 hsmall
      have hbyte : (UInt8.ofNat (value % 128 + 128)).toNat = value % 128 + 128 := by
        rw [UInt8.toNat_ofNat', Nat.mod_eq_of_lt (by omega)]
      have hlow : (value % 128 + 128) % 128 = value % 128 := by omega
      have hpower : 2 ^ (7 * (index + 1)) = 128 * 2 ^ (7 * index) := by
        rw [Nat.mul_add, Nat.pow_add, Nat.mul_comm]
      have hsplit : value * 2 ^ (7 * index) =
          value % 128 * 2 ^ (7 * index) + value / 128 * 2 ^ (7 * (index + 1)) := by
        rw [hpower, ← Nat.mul_assoc, ← Nat.add_mul, Nat.mod_add_div']
      have hacc' : acc + value % 128 * 2 ^ (7 * index) < 2 ^ (7 * (index + 1)) := by
        have hgroup : value % 128 * 2 ^ (7 * index) ≤ 127 * 2 ^ (7 * index) :=
          Nat.mul_le_mul_right _ (Nat.le_of_lt_succ (Nat.mod_lt value (by norm_num)))
        omega
      have hnext := ih (index + 1) (acc + value % 128 * 2 ^ (7 * index)) (value / 128) (by
          rw [Nat.div_lt_iff_lt_mul (by norm_num)]
          exact hgroups.trans_eq (by rw [Nat.mul_succ 7 (groups + 1), Nat.pow_add]))
        hacc' (by rw [Nat.add_assoc, ← hsplit]; exact hfits)
      rw [encodeVarint_of_ge hlarge, List.cons_append,
        decodeGroups_cons _ _ _ _ _ hacc (by rw [hbyte, hlow]; omega), hbyte, hlow,
        if_neg (by omega), hnext, List.length_cons, Nat.add_assoc, ← hsplit]
      congr 2
      omega

theorem decodeVarint_encodeVarint {value : ℕ} (hvalue : value < 2 ^ 32) (rest : List Byte) :
    decodeVarint (encodeVarint value ++ rest) = some (value, (encodeVarint value).length) := by
  have hdecode := decodeGroups_encodeVarint 4 0 0 value rest (hvalue.trans (by norm_num))
    (by norm_num) (by simpa using hvalue)
  simpa [decodeVarint] using hdecode

/-! ## Signed numbers -/

/-- Zigzag: `0, -1, 1, -2, ..` become `0, 1, 2, 3, ..`. -/
def zigzag (value : ℤ) : ℕ := if 0 ≤ value then 2 * value.toNat else 2 * (-value).toNat - 1

def encodeSigned (value : ℤ) : List Byte := encodeVarint (zigzag value)

/-- The number behind a zigzag code of 32 bits. -/
def unzigzag (code : ℕ) : ℤ := if code % 2 = 0 then (code / 2 : ℕ) else -((code / 2 : ℕ) : ℤ) - 1

theorem unzigzag_zigzag (value : ℤ) : unzigzag (zigzag value) = value := by
  rw [zigzag]
  split_ifs with hsign
  · rw [unzigzag]
    omega
  · rw [unzigzag]
    omega

theorem zigzag_lt {value : ℤ} (hlow : -2 ^ 31 ≤ value) (hhigh : value < 2 ^ 31) :
    zigzag value < 2 ^ 32 := by
  rw [zigzag]
  split_ifs with hsign <;> omega

theorem length_encodeSigned_le {value : ℤ} (hlow : -2 ^ 31 ≤ value) (hhigh : value < 2 ^ 31) :
    (encodeSigned value).length ≤ 5 :=
  length_encodeVarint_le 4 _ ((zigzag_lt hlow hhigh).trans (by norm_num))

end Qtap.Core
