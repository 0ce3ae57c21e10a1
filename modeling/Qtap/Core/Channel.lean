import Mathlib.Tactic

/-!
# Buffered channels

A channel holds at most as many values as its capacity and may be closed once.  Sending on a closed
channel and closing it again is a panic; what was sent before can still be received.
-/

namespace Qtap.Core

variable {α : Type*} {capacity : ℕ}

structure Channel (α : Type*) (capacity : ℕ) where
  buffer : List α
  closed : Bool
  bounded : buffer.length ≤ capacity

namespace Channel

def empty : Channel α capacity := ⟨[], false, Nat.zero_le _⟩

/-- How a send ends: done, blocked by a full buffer, or a panic. -/
inductive Sent (α : Type*) (capacity : ℕ) where
  | done (channel : Channel α capacity)
  | blocked
  | panic

/-- How a receive ends: with a value, blocked by an empty buffer, or with the end of the
channel. -/
inductive Received (α : Type*) (capacity : ℕ) where
  | value (value : α) (channel : Channel α capacity)
  | blocked
  | ended

def send (channel : Channel α capacity) (value : α) : Sent α capacity :=
  if channel.closed then .panic
  else if hroom : channel.buffer.length < capacity then
    .done ⟨channel.buffer ++ [value], false, by
      rw [List.length_append, List.length_singleton]
      exact hroom⟩
  else .blocked

def receive : Channel α capacity → Received α capacity
  | ⟨[], false, _⟩ => .blocked
  | ⟨[], true, _⟩ => .ended
  | ⟨value :: buffer, closed, hbounded⟩ =>
    .value value ⟨buffer, closed, (Nat.le_succ _).trans hbounded⟩

/-- Closing; `none` when the channel is closed already. -/
def close (channel : Channel α capacity) : Option (Channel α capacity) :=
  if channel.closed then none else some { channel with closed := true }

variable {channel next : Channel α capacity} {value : α}

theorem send_eq_done (hsend : channel.send value = .done next) :
    channel.closed = false ∧ next.closed = false ∧ next.buffer = channel.buffer ++ [value] := by
  rw [send] at hsend
  split at hsend
  · cases hsend
  next hopen =>
    split at hsend
    · cases hsend
      exact ⟨Bool.eq_false_of_not_eq_true hopen, rfl, rfl⟩
    · cases hsend

theorem send_eq_panic : channel.send value = .panic ↔ channel.closed = true := by
  rw [send]
  split
  next hclosed => exact iff_of_true rfl hclosed
  next hopen =>
    refine iff_of_false ?_ hopen
    split <;> nofun

theorem receive_eq_value (hreceive : channel.receive = .value value next) :
    channel.buffer = value :: next.buffer ∧ next.closed = channel.closed := by
  obtain ⟨buffer, closed, _⟩ := channel
  cases buffer with
  | nil => cases closed <;> cases hreceive
  | cons =>
    cases hreceive
    exact ⟨rfl, rfl⟩

theorem receive_eq_ended (hreceive : channel.receive = .ended) :
    channel.buffer = [] ∧ channel.closed = true := by
  obtain ⟨buffer, closed, _⟩ := channel
  cases buffer with
  | nil =>
    cases closed with
    | false => cases hreceive
    | true => exact ⟨rfl, rfl⟩
  | cons => cases hreceive

theorem exists_receive {buffer : List α} (hbuffer : channel.buffer = value :: buffer) :
    ∃ rest, channel.receive = .value value rest ∧ rest.buffer = buffer := by
  obtain ⟨_, _, _⟩ := channel
  subst hbuffer
  exact ⟨_, rfl, rfl⟩

theorem close_eq_some (hclose : channel.close = some next) :
    channel.closed = false ∧ next.closed = true ∧ next.buffer = channel.buffer := by
  rw [close] at hclose
  split at hclose
  · cases hclose
  next hopen =>
    cases hclose
    exact ⟨Bool.eq_false_of_not_eq_true hopen, rfl, rfl⟩

theorem close_eq_none : channel.close = none ↔ channel.closed = true := by
  rw [close]
  split
  next hclosed => exact iff_of_true rfl hclosed
  next hopen => exact iff_of_false nofun hopen

end Channel

end Qtap.Core
