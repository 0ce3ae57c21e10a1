import Mathlib.Tactic

/-!
# Reliable streams

One direction of a connection: what was written arrives in order and is never lost, and
the writer may end the stream.  The stream keeps all that was written and how much of it
the reader has taken, so what has arrived and what is on its way are two parts of it.
-/

namespace Qtap.Core

open List

variable {B : Type*}

structure Conduit (B : Type*) where
  written : List B
  taken : ℕ
  ended : Bool
  taken_le : taken ≤ written.length

namespace Conduit

def empty : Conduit B := ⟨[], 0, false, le_rfl⟩

/-- What the reader has taken. -/
def received (conduit : Conduit B) : List B := conduit.written.take conduit.taken

/-- What is on its way. -/
def pending (conduit : Conduit B) : List B := conduit.written.drop conduit.taken

theorem received_append_pending (conduit : Conduit B) :
    conduit.received ++ conduit.pending = conduit.written :=
  take_append_drop _ _

/-- Write to the stream; nothing can be written after its end. -/
def write (conduit : Conduit B) (chunk : List B) : Conduit B :=
  if conduit.ended then conduit
  else
    { conduit with
      written := conduit.written ++ chunk
      taken_le := by
        rw [length_append]
        exact conduit.taken_le.trans (Nat.le_add_right _ _) }

/-- End the stream. -/
def finish (conduit : Conduit B) : Conduit B := { conduit with ended := true }

/-- Take `count` of the elements on their way, at least one. -/
def read (conduit : Conduit B) (count : ℕ) : Option (List B × Conduit B) :=
  if h : 0 < count ∧ count ≤ conduit.pending.length then
    some (conduit.pending.take count,
      { conduit with
        taken := conduit.taken + count
        taken_le := by
          have hpending := h.2
          rw [pending, length_drop] at hpending
          have htaken := conduit.taken_le
          omega })
  else none

/-- Everything was taken and nothing will follow. -/
def atEnd (conduit : Conduit B) : Bool := conduit.ended && conduit.pending.isEmpty

/-- A reader has nothing to take and the end was not reached. -/
def dry (conduit : Conduit B) : Bool := conduit.pending.isEmpty && !conduit.ended

variable {conduit : Conduit B}

theorem dry_eq_true_iff : conduit.dry = true ↔ conduit.pending = [] ∧ conduit.ended = false := by
  rw [dry, Bool.and_eq_true, List.isEmpty_iff, Bool.not_eq_true']

theorem atEnd_of_dry (hdry : conduit.dry = true) : conduit.atEnd = false := by
  rw [atEnd, (dry_eq_true_iff.1 hdry).2, Bool.false_and]

@[simp]
theorem written_empty : (empty : Conduit B).written = [] := rfl

@[simp]
theorem written_write (conduit : Conduit B) (chunk : List B) :
    (conduit.write chunk).written =
      if conduit.ended then conduit.written else conduit.written ++ chunk := by
  rw [write]
  split <;> rfl

@[simp]
theorem ended_write (conduit : Conduit B) (chunk : List B) :
    (conduit.write chunk).ended = conduit.ended := by
  rw [write]
  split <;> rfl

@[simp]
theorem taken_write (conduit : Conduit B) (chunk : List B) :
    (conduit.write chunk).taken = conduit.taken := by
  rw [write]
  split <;> rfl

@[simp]
theorem received_write (conduit : Conduit B) (chunk : List B) :
    (conduit.write chunk).received = conduit.received := by
  rw [write]
  split
  · rfl
  · exact take_append_of_le_length conduit.taken_le

theorem pending_write_ne_nil {chunk : List B} (hopen : conduit.ended = false)
    (hchunk : chunk ≠ []) :
    (conduit.write chunk).pending ≠ [] := by
  rw [write, if_neg (ne_true_of_eq_false hopen), pending, drop_append_of_le_length conduit.taken_le]
  exact append_ne_nil_of_right_ne_nil _ hchunk

theorem length_pending_write_le (conduit : Conduit B) (chunk : List B) :
    (conduit.write chunk).pending.length ≤ conduit.pending.length + chunk.length := by
  rw [write]
  split
  · exact Nat.le_add_right _ _
  · apply le_of_eq
    rw [pending, drop_append_of_le_length conduit.taken_le, length_append]
    rfl

/-- A read moves elements from those on their way to those received. -/
theorem read_eq_some {next : Conduit B} {count : ℕ} {chunk : List B}
    (hread : conduit.read count = some (chunk, next)) :
    next.written = conduit.written ∧ next.ended = conduit.ended ∧
      next.received = conduit.received ++ chunk ∧ conduit.pending = chunk ++ next.pending ∧
      chunk ≠ [] := by
  rw [read] at hread
  split at hread
  next h =>
    obtain ⟨rfl, rfl⟩ := Prod.mk.inj (Option.some.inj hread)
    refine ⟨rfl, rfl, take_add, ?_, ?_⟩
    · rw [pending, pending, ← drop_drop, take_append_drop]
    · intro hempty
      have hlength := congrArg List.length hempty
      rw [length_take, Nat.min_eq_left h.2] at hlength
      exact h.1.ne' hlength
  next => cases hread

theorem read_one (hpending : conduit.pending ≠ []) :
    ∃ chunk next, conduit.read 1 = some (chunk, next) := by
  rw [read, dif_pos ⟨one_pos, length_pos_of_ne_nil hpending⟩]
  exact ⟨_, _, rfl⟩

theorem read_of_pending_nil (hpending : conduit.pending = []) (count : ℕ) :
    conduit.read count = none := by
  apply dif_neg
  rw [hpending]
  exact fun hcount => absurd hcount.1 (Nat.not_lt.2 hcount.2)

theorem received_eq_written_iff (conduit : Conduit B) :
    conduit.received = conduit.written ↔ conduit.pending = [] := by
  constructor
  · intro hall
    have hparts := conduit.received_append_pending
    rw [hall] at hparts
    exact append_right_eq_self.1 hparts
  · intro hnone
    rw [← conduit.received_append_pending, hnone, append_nil]

end Conduit

end Qtap.Core
