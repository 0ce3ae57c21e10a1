import Qtap.Connection.Types
import Qtap.Core.Conduit
import Qtap.Core.Transition

/-!
# The relay of the forwarder

Once both connections of a forwarded connection stand, `handleConnection` starts one
`proxy` goroutine for each direction and waits for the first of them to report.  Each
goroutine runs `io.Copy`: it reads some bytes from its source and hands them to the
`multiWriter`, which writes them to the destination and, when it tees, reports them as a
data event.  After the first report the deferred calls close the connection to the server
and then the one to the client.  The endpoints send, end their stream and receive at any
time; they never abort.
-/

namespace Qtap

namespace Connection.Side

def other : Side → Side
  | client => server
  | server => client

@[simp]
theorem other_other (side : Side) : side.other.other = side := by
  cases side <;> rfl

@[simp]
theorem other_ne (side : Side) : side.other ≠ side := by
  cases side <;> decide

@[simp]
theorem ne_other (side : Side) : side ≠ side.other := (other_ne side).symm

theorem eq_or_eq_other (side given : Side) : given = side ∨ given = side.other := by
  cases side <;> cases given <;> decide

end Connection.Side

namespace Egress

open Option Function Qtap.Core Qtap.Connection

variable {B : Type*}

/-- Where a `proxy` goroutine stands. -/
inductive Copier (B : Type*) where
  | reading
  | writing (chunk : List B)
  | returned
  deriving DecidableEq, Repr

/-- What was read and not yet written. -/
def Copier.chunk : Copier B → List B
  | writing chunk => chunk
  | _ => []

@[simp]
theorem Copier.chunk_reading : (reading : Copier B).chunk = [] := rfl

@[simp]
theorem Copier.chunk_writing (chunk : List B) : (writing chunk).chunk = chunk := rfl

/-- Where `handleConnection` stands: it waits for `errChan`, or runs its deferred calls. -/
inductive Handler where
  | waiting
  | closeUpstream
  | closeDownstream
  | returned
  deriving DecidableEq, Repr

/-- How many steps the handler has left. -/
def Handler.rank : Handler → ℕ
  | waiting => 3
  | closeUpstream => 2
  | closeDownstream => 1
  | returned => 0

/-- The two connections, each with a stream from its endpoint and one to it; the copier of a
side reads from that side; `results` counts what is in `errChan`. -/
structure State (B : Type*) where
  inbound : Side → Conduit B
  outbound : Side → Conduit B
  opened : Side → Bool
  copiers : Side → Copier B
  results : ℕ
  handler : Handler
  events : List (Side × List B)

/-- What an endpoint decides to do. -/
inductive Move (B : Type*) where
  | send (side : Side) (chunk : List B)
  | finish (side : Side)
  deriving DecidableEq, Repr

/-- What the forwarder does, and what arrives. -/
inductive Work where
  | receive (side : Side) (count : ℕ)
  | read (side : Side) (count : ℕ)
  | stop (side : Side)
  | write (side : Side)
  | await
  | close
  deriving DecidableEq, Repr

namespace State

def initial : State B where
  inbound := fun _ => Conduit.empty
  outbound := fun _ => Conduit.empty
  opened := fun _ => true
  copiers := fun _ => .reading
  results := 0
  handler := .waiting
  events := []

def move (state : State B) : Move B → Option (State B)
  | .send side chunk =>
    if (state.inbound side).ended then none
    else some { state with
      inbound := Function.update state.inbound side ((state.inbound side).write chunk) }
  | .finish side =>
    if (state.inbound side).ended then none
    else some { state with
      inbound := Function.update state.inbound side (state.inbound side).finish }

def receive (state : State B) (side : Side) (count : ℕ) : Option (State B) :=
  ((state.outbound side).read count).map fun taken =>
    { state with outbound := Function.update state.outbound side taken.2 }

/-- A read of `io.Copy` that returns bytes. -/
def read (state : State B) (side : Side) (count : ℕ) : Option (State B) :=
  match state.copiers side with
  | .reading =>
    if state.opened side then
      ((state.inbound side).read count).map fun taken =>
        { state with
          inbound := Function.update state.inbound side taken.2
          copiers := Function.update state.copiers side (.writing taken.1) }
    else none
  | _ => none

/-- The goroutine sends its result on `errChan`, which has room for both. -/
def report (state : State B) (side : Side) : State B :=
  { state with
    copiers := Function.update state.copiers side .returned
    results := state.results + 1 }

/-- A read of `io.Copy` that ends it: at the end of the stream, or on a closed connection. -/
def stop (state : State B) (side : Side) : Option (State B) :=
  match state.copiers side with
  | .reading =>
    if state.opened side = false ∨ (state.inbound side).atEnd = true then
      some (state.report side)
    else none
  | _ => none

/-- `multiWriter.Write`: write, then tee.  A write to a closed connection ends the copy. -/
def write (tees : Bool) (state : State B) (side : Side) : Option (State B) :=
  match state.copiers side with
  | .writing chunk =>
    if state.opened side.other then
      some { state with
        outbound :=
          Function.update state.outbound side.other ((state.outbound side.other).write chunk)
        copiers := Function.update state.copiers side .reading
        events := if tees then state.events ++ [(side, chunk)] else state.events }
    else some (state.report side)
  | _ => none

def await (state : State B) : Option (State B) :=
  if state.handler = .waiting ∧ 0 < state.results then
    some { state with results := state.results - 1, handler := .closeUpstream }
  else none

/-- The endpoint still gets what was written before; the forwarder reads no more. -/
def closeConn (state : State B) (side : Side) : State B :=
  { state with
    outbound := Function.update state.outbound side (state.outbound side).finish
    opened := Function.update state.opened side false }

/-- The deferred calls of `handleConnection`. -/
def close (state : State B) : Option (State B) :=
  match state.handler with
  | .closeUpstream => some { state.closeConn .server with handler := .closeDownstream }
  | .closeDownstream => some { state.closeConn .client with handler := .returned }
  | _ => none

def work (tees : Bool) (state : State B) : Work → Option (State B)
  | .receive side count => state.receive side count
  | .read side count => state.read side count
  | .stop side => state.stop side
  | .write side => state.write tees side
  | .await => state.await
  | .close => state.close

/-- One step of the endpoints, the forwarder and the network. -/
def step (tees : Bool) (state : State B) : Move B ⊕ Work → Option (State B)
  | .inl move => state.move move
  | .inr work => state.work tees work

/-! ## What each step does -/

section Inversion

variable {state next : State B} {side : Side} {tees : Bool}

theorem read_eq_some {count : ℕ} (hnext : state.read side count = some next) :
    state.copiers side = .reading ∧ state.opened side = true ∧ ∃ chunk inbound,
      (state.inbound side).read count = some (chunk, inbound) ∧
      next = { state with
        inbound := update state.inbound side inbound
        copiers := update state.copiers side (.writing chunk) } := by
  rw [read] at hnext
  cases hcopier : state.copiers side with
  | reading =>
    simp only [hcopier] at hnext
    cases hopened : state.opened side with
    | false => simp [hopened] at hnext
    | true =>
      rw [hopened, if_pos rfl, map_eq_some_iff] at hnext
      obtain ⟨⟨chunk, inbound⟩, hread, rfl⟩ := hnext
      exact ⟨rfl, rfl, chunk, inbound, hread, rfl⟩
  | _ => simp [hcopier] at hnext

theorem stop_eq_some (hnext : state.stop side = some next) :
    state.copiers side = .reading ∧
      (state.opened side = false ∨ (state.inbound side).atEnd = true) ∧
      next = state.report side := by
  rw [stop] at hnext
  cases hcopier : state.copiers side with
  | reading =>
    simp only [hcopier, ite_none_right_eq_some, some.injEq] at hnext
    exact ⟨rfl, hnext.1, hnext.2.symm⟩
  | _ => simp [hcopier] at hnext

theorem write_eq_some (hnext : state.write tees side = some next) :
    ∃ chunk, state.copiers side = .writing chunk ∧
      ((state.opened side.other = true ∧ next = { state with
          outbound :=
            update state.outbound side.other ((state.outbound side.other).write chunk)
          copiers := update state.copiers side .reading
          events := if tees then state.events ++ [(side, chunk)] else state.events }) ∨
        (state.opened side.other = false ∧ next = state.report side)) := by
  rw [write] at hnext
  cases hcopier : state.copiers side with
  | writing chunk =>
    simp only [hcopier] at hnext
    cases hopened : state.opened side.other with
    | true =>
      rw [hopened] at hnext
      exact ⟨chunk, rfl, .inl ⟨rfl, (some.inj hnext).symm⟩⟩
    | false =>
      rw [hopened] at hnext
      exact ⟨chunk, rfl, .inr ⟨rfl, (some.inj hnext).symm⟩⟩
  | _ => simp [hcopier] at hnext

theorem close_eq_some (hnext : state.close = some next) :
    ∃ side handler, state.handler ≠ .waiting ∧ handler ≠ .waiting ∧
      handler.rank < state.handler.rank ∧
      next = { state.closeConn side with handler := handler } := by
  rw [close] at hnext
  cases hhandler : state.handler with
  | closeUpstream =>
    simp only [hhandler] at hnext
    exact ⟨.server, .closeDownstream, nofun, nofun, by decide, (some.inj hnext).symm⟩
  | closeDownstream =>
    simp only [hhandler] at hnext
    exact ⟨.client, .returned, nofun, nofun, by decide, (some.inj hnext).symm⟩
  | _ => simp [hhandler] at hnext

end Inversion

end State

end Egress

end Qtap
