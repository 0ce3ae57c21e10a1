import Qtap.Core.Outcome

/-!
# Positions in a message

A reader that keeps an offset into a message is described by what stands from that offset
on.  `At data offset rest` says that the offset is inside the data and that the data goes
on with `rest` from there; reading a piece moves the offset behind it.
-/

namespace Qtap.Core

open List

variable {E : Type*}

variable {A : Type*} {pos : ℕ} {data piece rest : List Byte}

theorem drop_add_length {data piece rest : List A} (hdata : data.drop pos = piece ++ rest) :
    data.drop (pos + piece.length) = rest := by
  rw [← drop_drop, hdata, drop_left]

theorem drop_succ {data rest : List A} {first : A} (hdata : data.drop pos = first :: rest) :
    data.drop (pos + 1) = rest := by
  rw [← drop_drop, hdata, drop_one, tail_cons]

theorem pos_add_length_le {data piece rest : List A} (hdata : data.drop pos = piece ++ rest)
    (hpiece : piece ≠ []) : pos + piece.length ≤ data.length := by
  have hlength := congrArg List.length hdata
  have hpositive := length_pos_of_ne_nil hpiece
  rw [length_drop, length_append] at hlength
  omega

theorem slice_at {low : ℕ} (high : ℕ) (hdata : data.drop low = piece ++ rest)
    (hhigh : high = low + piece.length) (hpos : high ≤ data.length) :
    (slice data low high : Exec E (List Byte)) = .ok piece := by
  rw [slice_of_le (by omega) hpos, hdata, hhigh, Nat.add_sub_cancel_left, take_left]

/-- Pieces that are not empty are no more than the bytes they take. -/
theorem length_le_flatMap (encode : A → List Byte) (hencode : ∀ x, encode x ≠ [])
    (pieces : List A) : pieces.length ≤ (pieces.flatMap encode).length := by
  induction pieces with
  | nil => exact le_rfl
  | cons piece =>
    have hpositive := length_pos_of_ne_nil (hencode piece)
    rw [length_cons, flatMap_cons, length_append]
    omega

/-- From `offset` on the data goes on with `rest`. -/
structure At {A : Type*} (data : List A) (offset : ℕ) (rest : List A) : Prop where
  le : offset ≤ data.length
  drop : data.drop offset = rest

namespace At

variable {A : Type*} {data piece rest : List A} {offset : ℕ}

theorem start (data : List A) : At data 0 data := ⟨Nat.zero_le _, drop_zero⟩

theorem length_eq (hat : At data offset rest) : offset + rest.length = data.length := by
  rw [← hat.drop, length_drop, Nat.add_sub_cancel' hat.le]

theorem fits (hat : At data offset (piece ++ rest)) : offset + piece.length ≤ data.length := by
  have hlength := hat.length_eq
  rw [length_append] at hlength
  omega

theorem advance (hat : At data offset (piece ++ rest)) : At data (offset + piece.length) rest :=
  ⟨hat.fits, drop_add_length hat.drop⟩

theorem getElem (first : A) (hat : At data offset (first :: rest)) :
    data[offset]? = some first := by
  rw [← List.head?_drop, hat.drop, List.head?_cons]

end At

theorem At.slice {offset : ℕ} (hat : At data offset (piece ++ rest)) :
    (slice data offset (offset + piece.length : ℕ) : Exec E (List Byte)) = .ok piece :=
  slice_at _ hat.drop rfl hat.fits

/-- The first bytes of a piece, no more than are wanted. -/
theorem At.slice_take {offset : ℕ} (hat : At data offset (piece ++ rest)) (limit : ℕ) :
    (Core.slice data offset (offset + min piece.length limit : ℕ) : Exec E (List Byte)) =
      .ok (piece.take limit) := by
  have hsplit : At data offset (piece.take limit ++ (piece.drop limit ++ rest)) := by
    rwa [← append_assoc, take_append_drop]
  have hslice := hsplit.slice (E := E)
  rwa [length_take, min_comm] at hslice

end Qtap.Core
