import Mathlib.Tactic

/-!
# Incremental framing

A stream processor appends what arrives to a buffer and takes complete frames off its
front until the rest is incomplete.  A `Framer` carries the two facts that make the
result independent of how the bytes were cut: a frame is recognised no later than its
last byte, and bytes behind it do not change it.
-/

namespace Qtap.Core

open List

structure Framer (A : Type*) (F : Type*) where
  next : List A → Option (F × List A)
  shrinks : ∀ {buffer rest frame}, next buffer = some (frame, rest) →
    rest.length < buffer.length
  stable : ∀ {buffer rest frame}, next buffer = some (frame, rest) →
    ∀ more, next (buffer ++ more) = some (frame, rest ++ more)

namespace Framer

variable {A F S : Type*} (framer : Framer A F)

/-- Take frames off the buffer, at most `fuel` of them. -/
def drainAtMost : ℕ → List A → List F × List A
  | 0, buffer => ([], buffer)
  | fuel + 1, buffer =>
    match framer.next buffer with
    | none => ([], buffer)
    | some (frame, rest) =>
      (frame :: (drainAtMost fuel rest).1, (drainAtMost fuel rest).2)

/-- All complete frames of the buffer and the incomplete rest. -/
def drain (buffer : List A) : List F × List A := framer.drainAtMost buffer.length buffer

theorem next_nil : framer.next [] = none := by
  cases hnext : framer.next [] with
  | none => rfl
  | some => exact absurd (framer.shrinks hnext) (by simp)

theorem drainAtMost_eq (fuel : ℕ) (buffer : List A) (hfuel : buffer.length ≤ fuel) :
    framer.drainAtMost fuel buffer = framer.drain buffer := by
  induction fuel using Nat.strong_induction_on generalizing buffer with
  | _ fuel ih =>
    cases buffer with
    | nil =>
      cases fuel with
      | zero => rfl
      | succ => simp [drain, drainAtMost, framer.next_nil]
    | cons first tail =>
      obtain ⟨fuel, rfl⟩ := Nat.exists_eq_succ_of_ne_zero
        (show fuel ≠ 0 by simp only [length_cons] at hfuel; omega)
      simp only [drain, length_cons, drainAtMost]
      cases hnext : framer.next (first :: tail) with
      | none => rfl
      | some pair =>
        obtain ⟨_, rest⟩ := pair
        have hrest := framer.shrinks hnext
        simp only [length_cons] at hrest hfuel
        have hleft := ih fuel (by omega) rest (by omega)
        have hright := ih tail.length (by omega) rest (by omega)
        simp only [hleft, hright]

variable {buffer piece missing : List A} {frame : F}

theorem drain_of_none (hnext : framer.next buffer = none) : framer.drain buffer = ([], buffer) := by
  cases buffer with
  | nil => rfl
  | cons => simp [drain, drainAtMost, hnext]

theorem drain_of_some {rest : List A} (hnext : framer.next buffer = some (frame, rest)) :
    framer.drain buffer = (frame :: (framer.drain rest).1, (framer.drain rest).2) := by
  have hrest := framer.shrinks hnext
  cases buffer with
  | nil => simp at hrest
  | cons first tail =>
    simp only [length_cons] at hrest
    have hdrain := framer.drainAtMost_eq tail.length rest (by omega)
    simp only [drain, length_cons, drainAtMost, hnext]
    rw [hdrain]
    rfl

/-- Induction on the frames that a buffer holds. -/
@[elab_as_elim]
theorem drain_induction {motive : List A → Prop} (buffer : List A)
    (hnone : ∀ buffer, framer.next buffer = none → motive buffer)
    (hsome : ∀ buffer frame rest, framer.next buffer = some (frame, rest) →
      motive rest → motive buffer) : motive buffer := by
  induction hlength : buffer.length using Nat.strong_induction_on generalizing buffer with
  | _ length ih =>
    cases hnext : framer.next buffer with
    | none => exact hnone buffer hnext
    | some pair =>
      obtain ⟨frame, rest⟩ := pair
      have hrest := framer.shrinks hnext
      exact hsome buffer frame rest hnext (ih rest.length (by omega) rest rfl)

theorem next_drain_snd (buffer : List A) : framer.next (framer.drain buffer).2 = none := by
  induction buffer using framer.drain_induction with
  | hnone buffer hnext => rw [framer.drain_of_none hnext, hnext]
  | hsome buffer frame rest hnext ih => rw [framer.drain_of_some hnext, ih]

theorem length_drain_le (buffer : List A) : (framer.drain buffer).2.length ≤ buffer.length := by
  induction buffer using framer.drain_induction with
  | hnone buffer hnext => rw [framer.drain_of_none hnext]
  | hsome buffer frame rest hnext ih =>
    rw [framer.drain_of_some hnext]
    exact ih.trans (framer.shrinks hnext).le

/-- Draining is independent of where the input is cut. -/
theorem drain_append (buffer more : List A) :
    framer.drain (buffer ++ more) =
      ((framer.drain buffer).1 ++ (framer.drain ((framer.drain buffer).2 ++ more)).1,
        (framer.drain ((framer.drain buffer).2 ++ more)).2) := by
  induction buffer using framer.drain_induction with
  | hnone buffer hnext => rw [framer.drain_of_none hnext, nil_append]
  | hsome buffer frame rest hnext ih =>
    rw [framer.drain_of_some hnext, framer.drain_of_some (framer.stable hnext more), ih]
    rfl

/-! ## Loops over the frames of a buffer -/

/-- The loop of a stream processor: take a frame, handle it, until the rest of the
buffer is incomplete. -/
def pump (handle : F → S → S) : ℕ → List A → S → List A × S
  | 0, buffer, state => (buffer, state)
  | fuel + 1, buffer, state =>
    match framer.next buffer with
    | none => (buffer, state)
    | some (frame, rest) => pump handle fuel rest (handle frame state)

theorem pump_eq (handle : F → S → S) (fuel : ℕ) (buffer : List A) (state : S)
    (hfuel : buffer.length ≤ fuel) :
    framer.pump handle fuel buffer state = ((framer.drain buffer).2,
        (framer.drain buffer).1.foldl (fun state frame => handle frame state) state) := by
  induction fuel generalizing buffer state with
  | zero =>
    have hempty : buffer = [] := length_eq_zero_iff.1 (Nat.le_zero.1 hfuel)
    subst hempty
    rfl
  | succ fuel ih =>
    cases hnext : framer.next buffer with
    | none =>
      rw [framer.drain_of_none hnext]
      simp [pump, hnext]
    | some pair =>
      obtain ⟨frame, rest⟩ := pair
      have hrest := framer.shrinks hnext
      rw [framer.drain_of_some hnext]
      simp only [pump, hnext, foldl_cons]
      exact ih rest (handle frame state) (by omega)

/-! ## Streams of frames -/

/-- The elements are exactly one frame. -/
def Reads (piece : List A) (frame : F) : Prop := framer.next piece = some (frame, [])

/-- How many of the pieces lie in the first `received` elements of their stream. -/
def completed : List (List A) → ℕ → ℕ
  | [], _ => 0
  | piece :: pieces, received =>
    if piece.length ≤ received then completed pieces (received - piece.length) + 1 else 0

theorem completed_le_length (pieces : List (List A)) (received : ℕ) :
    completed pieces received ≤ pieces.length := by
  induction pieces generalizing received with
  | nil => exact le_rfl
  | cons piece pieces ih =>
    rw [completed]
    split_ifs with hcomplete
    · exact Nat.succ_le_succ (ih _)
    · exact Nat.zero_le _

variable {framer}

section

variable (hreads : framer.Reads piece frame)

include hreads

theorem Reads.next_append (more : List A) : framer.next (piece ++ more) = some (frame, more) :=
  framer.stable hreads more

/-- A strict prefix of a frame is incomplete. -/
theorem Reads.next_isPrefix (hmissing : missing ≠ [])
    (hpiece : buffer ++ missing = piece) : framer.next buffer = none := by
  cases hnext : framer.next buffer with
  | none => rfl
  | some pair =>
    have hstable := framer.stable hnext missing
    rw [hpiece, hreads] at hstable
    simp only [Option.some.injEq, Prod.mk.injEq] at hstable
    exact absurd (append_eq_nil_iff.1 hstable.2.symm).2 hmissing

end

theorem drain_append_of_reads {pieces : List (List A × F)}
    (hreads : ∀ piece ∈ pieces, framer.Reads piece.1 piece.2) (more : List A) :
    framer.drain (pieces.flatMap Prod.fst ++ more) =
      (pieces.map Prod.snd ++ (framer.drain more).1, (framer.drain more).2) := by
  induction pieces with
  | nil => simp
  | cons piece pieces ih =>
    have hpieces := ih (forall_mem_cons.1 hreads).2
    have hnext := (hreads piece mem_cons_self).next_append (pieces.flatMap Prod.fst ++ more)
    rw [flatMap_cons, append_assoc, framer.drain_of_some hnext, hpieces]
    rfl

/-- Draining the first elements of a stream of frames yields the frames that they
complete and keeps the elements of the one that they only start. -/
theorem drain_of_reads {pieces : List (List A × F)}
    (hreads : ∀ piece ∈ pieces, framer.Reads piece.1 piece.2)
    (hstream : buffer ++ missing = pieces.flatMap Prod.fst) :
    (framer.drain buffer).1 =
        (pieces.map Prod.snd).take (completed (pieces.map Prod.fst) buffer.length) ∧
      (framer.drain buffer).2 ++ missing =
        (pieces.drop (completed (pieces.map Prod.fst) buffer.length)).flatMap Prod.fst := by
  induction pieces generalizing buffer with
  | nil =>
    rw [flatMap_nil, append_eq_nil_iff] at hstream
    rw [hstream.1, hstream.2]
    exact ⟨rfl, rfl⟩
  | cons piece pieces ih =>
    have hpiece := hreads piece mem_cons_self
    rw [flatMap_cons] at hstream
    by_cases hcomplete : piece.1.length ≤ buffer.length
    · obtain ⟨tail, rfl⟩ : piece.1 <+: buffer :=
        prefix_of_prefix_length_le (prefix_append _ _) ⟨missing, hstream⟩ hcomplete
      rw [append_assoc, append_cancel_left_eq] at hstream
      obtain ⟨hfirst, hrest⟩ :=
        ih (forall_mem_cons.1 hreads).2 hstream
      have hcount : completed ((piece :: pieces).map Prod.fst) (piece.1 ++ tail).length =
          completed (pieces.map Prod.fst) tail.length + 1 := by
        rw [map_cons, completed, if_pos hcomplete, length_append, Nat.add_sub_cancel_left]
      rw [framer.drain_of_some (hpiece.next_append tail), hcount]
      exact ⟨congrArg (piece.2 :: ·) hfirst, hrest⟩
    · obtain ⟨suffix, hsuffix⟩ : buffer <+: piece.1 :=
        prefix_of_prefix_length_le ⟨missing, hstream⟩ (prefix_append _ _)
          (Nat.le_of_not_le hcomplete)
      have hmissing : suffix ≠ [] := by
        rintro rfl
        rw [append_nil] at hsuffix
        exact hcomplete (le_of_eq (congrArg List.length hsuffix.symm))
      have hcount : completed ((piece :: pieces).map Prod.fst) buffer.length = 0 := by
        rw [map_cons, completed, if_neg hcomplete]
      rw [framer.drain_of_none (hpiece.next_isPrefix hmissing hsuffix), hcount]
      exact ⟨rfl, hstream⟩

/-! ## Encoders -/

/-- `encode` writes frames that the framer reads back, whatever follows them. -/
def Encodes (framer : Framer A F) (encode : F → List A) (valid : F → Prop) : Prop :=
  ∀ frame, valid frame → ∀ more, framer.next (encode frame ++ more) = some (frame, more)

variable {encode : F → List A} {valid : F → Prop}

section

variable (hencodes : framer.Encodes encode valid) (hvalid : valid frame)

include hencodes hvalid

theorem Encodes.reads : framer.Reads (encode frame) frame := by
  have hnext := hencodes frame hvalid []
  rwa [append_nil] at hnext

/-- A strict prefix of an encoded frame is incomplete. -/
theorem Encodes.next_isPrefix
    (hmissing : missing ≠ []) (hencode : buffer ++ missing = encode frame) :
    framer.next buffer = none :=
  (hencodes.reads hvalid).next_isPrefix hmissing hencode

end

/-- Frames beside their encodings. -/
def encoded (encode : F → List A) (frames : List F) : List (List A × F) :=
  frames.map fun frame => (encode frame, frame)

theorem flatMap_encoded (frames : List F) :
    (encoded encode frames).flatMap Prod.fst = frames.flatMap encode := by
  rw [encoded, flatMap_map]

theorem map_snd_encoded (frames : List F) : (encoded encode frames).map Prod.snd = frames := by
  rw [encoded, map_map]
  exact map_id frames

theorem Encodes.reads_encoded (hencodes : framer.Encodes encode valid) {frames : List F}
    (hvalid : ∀ frame ∈ frames, valid frame) :
    ∀ piece ∈ encoded encode frames, framer.Reads piece.1 piece.2 :=
  forall_mem_map.2 fun frame hframe => hencodes.reads (hvalid frame hframe)

section

variable (hencodes : framer.Encodes encode valid) (frames : List F)
  (hvalid : ∀ frame ∈ frames, valid frame)

include hencodes hvalid

theorem Encodes.drain_append (more : List A) :
    framer.drain (frames.flatMap encode ++ more) =
      (frames ++ (framer.drain more).1, (framer.drain more).2) := by
  have hdrain := drain_append_of_reads (hencodes.reads_encoded hvalid) more
  rwa [flatMap_encoded, map_snd_encoded] at hdrain

/-- Draining a whole stream of encoded frames yields the frames. -/
theorem Encodes.drain_flatMap :
    framer.drain (frames.flatMap encode) = (frames, []) := by
  have hdrain := hencodes.drain_append frames hvalid []
  simpa [framer.drain_of_none framer.next_nil] using hdrain

end

end Framer

end Qtap.Core
