import Qtap.Core.Conduit

/-!
# Programs at the ends of streams

A program sends, ends its stream, waits to receive or stops; what it does next depends on
what it has received.  The opening of a program is what it does before it has received
anything: it is the same whatever the other end does.
-/

namespace Qtap.Core

variable {B : Type*}

/-- What a program does next; it receives some elements, or the end of the stream. -/
inductive Act (B : Type*) (S : Type*) where
  | send (chunk : List B) (next : S)
  | finish (next : S)
  | receive (next : Option (List B) → S)
  | stop

structure Program (B : Type*) where
  State : Type
  start : State
  act : State → Act B State

namespace Program

variable {program : Program B} {state next : program.State} {input output : Conduit B}

/-- One action on the streams from and to the other end. -/
def advance (program : Program B) (state : program.State) (input output : Conduit B) (count : ℕ) :
    Option (program.State × Conduit B × Conduit B) :=
  match program.act state with
  | .send chunk next => if output.ended then none else some (next, input, output.write chunk)
  | .finish next => some (next, input, output.finish)
  | .receive next =>
    if input.atEnd then some (next none, input, output)
    else (input.read count).map fun taken => (next (some taken.1), taken.2, output)
  | .stop => none

def IsReceiving (program : Program B) (state : program.State) : Prop :=
  ∃ next, program.act state = .receive next

/-- The program wants to receive and there is nothing to receive. -/
def Waits (program : Program B) (state : program.State) (input : Conduit B) : Prop :=
  program.IsReceiving state ∧ input.dry = true

/-- The program has sent `sent` and has received nothing. -/
inductive Opening (program : Program B) : program.State → List B → Prop where
  | start : Opening program program.start []
  | send {state next : program.State} {sent chunk : List B} :
      Opening program state sent → program.act state = .send chunk next →
      Opening program next (sent ++ chunk)

/-- A program that receives nothing stays in its opening until it ends its stream. -/
theorem Opening.advance {count : ℕ} {after : program.State × Conduit B × Conduit B}
    (hopening : output.ended = true ∨ Opening program state output.written)
    (hinput : input.dry = true) (hafter : program.advance state input output count = some after) :
    after.2.1 = input ∧ after.2.2.taken = output.taken ∧
      (∃ chunk, after.2.2.written = output.written ++ chunk) ∧
      (after.2.2.ended = true ∨ Opening program after.1 after.2.2.written) := by
  rw [Program.advance] at hafter
  cases hact : program.act state with
  | send chunk =>
    rw [hact] at hafter
    simp only [Option.ite_none_left_eq_some, Bool.not_eq_true, Option.some.injEq] at hafter
    obtain ⟨hopen, rfl⟩ := hafter
    have hwritten : (output.write chunk).written = output.written ++ chunk := by
      rw [Conduit.written_write, hopen, if_neg Bool.false_ne_true]
    have hsent := hopening.resolve_left (ne_true_of_eq_false hopen)
    refine ⟨rfl, Conduit.taken_write _ _, ⟨chunk, hwritten⟩, .inr ?_⟩
    rw [hwritten]
    exact hsent.send hact
  | finish =>
    rw [hact] at hafter
    cases hafter
    exact ⟨rfl, rfl, ⟨[], (List.append_nil _).symm⟩, .inl rfl⟩
  | receive =>
    rw [hact] at hafter
    simp only [Conduit.atEnd_of_dry hinput, Bool.false_eq_true, if_false,
      Conduit.read_of_pending_nil (Conduit.dry_eq_true_iff.1 hinput).1, Option.map_none] at hafter
    cases hafter
  | stop =>
    rw [hact] at hafter
    cases hafter

end Program

/-! ## Two programs, directly connected -/

section Direct

variable {K : Type*} [DecidableEq K] {other : K → K} {programs : K → Program B}

/-- The programs and the stream that each of them writes. -/
structure Direct (programs : K → Program B) where
  program : ∀ key, (programs key).State
  stream : K → Conduit B

namespace Direct

def initial (programs : K → Program B) : Direct programs where
  program := fun key => (programs key).start
  stream := fun _ => Conduit.empty

/-- One action of the program `key`, whose peer is `other key`. -/
def step (other : K → K) (state : Direct programs) (action : K × ℕ) : Option (Direct programs) :=
  ((programs action.1).advance (state.program action.1) (state.stream (other action.1))
    (state.stream action.1) action.2).map fun after =>
      { program := Function.update state.program action.1 after.1
        stream := Function.update (Function.update state.stream (other action.1) after.2.1)
          action.1 after.2.2 }

/-- Everybody waits to receive, and nothing is on its way. -/
def Stuck (other : K → K) (state : Direct programs) : Prop :=
  ∀ key, (programs key).Waits (state.program key) (state.stream (other key))

end Direct

end Direct

end Qtap.Core
