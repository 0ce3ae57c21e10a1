import Mathlib.Tactic

/-!
# The upstream connection of a forwarded one

What `handleConnection` dials and closes, for every way its steps can come out.  Both paths dial
and look up alike.  The close is deferred behind them, so a return in between leaves the upstream
connection open.  Failures that are only logged play no part.
-/

namespace Qtap.Egress

inductive Handshake where
  | completed
  | failed
  | timedOut
  deriving DecidableEq, Repr

/-- How the steps of `handleConnection` come out, in the order of the source. -/
structure Steps where
  originalDstAddr : Bool
  isDestinationSelf : Bool
  detectTLS : Option Bool
  tlsTerminationSafe : Bool
  detectClientHello : Bool
  dial : Bool
  getRawFd : Bool
  getRawConnectionCookie : Bool
  handshake : Handshake

inductive Upstream where
  | dialed
  | closed
  deriving DecidableEq, Repr

namespace Steps

/-- What happens to the upstream connection until `handleConnection` returns. -/
def handleConnection (steps : Steps) : List Upstream :=
  if !steps.originalDstAddr then []
  else if steps.isDestinationSelf then []
  else
    match steps.detectTLS with
    | none => []
    | some isTLS =>
      if isTLS && !steps.detectClientHello then []
      else if !steps.dial then []
      else if !steps.getRawFd then [.dialed]
      else if !steps.getRawConnectionCookie then [.dialed]
      else if isTLS && steps.tlsTerminationSafe then
        match steps.handshake with
        | .completed => [.dialed, .closed]
        | .failed | .timedOut => [.dialed]
      else [.dialed, .closed]

/-- The way to the dial is free, and the dial succeeds. -/
def Dials (steps : Steps) : Prop :=
  steps.originalDstAddr = true ∧ steps.isDestinationSelf = false ∧ steps.detectTLS ≠ none ∧
    (steps.detectTLS = some true → steps.detectClientHello = true) ∧ steps.dial = true

/-- The lookups behind the dial succeed, and so does the handshake where there is one. -/
def Smooth (steps : Steps) : Prop :=
  steps.getRawFd = true ∧ steps.getRawConnectionCookie = true ∧
    (steps.detectTLS = some true → steps.tlsTerminationSafe = true → steps.handshake = .completed)

/-- An upstream connection that was dialed is closed exactly when nothing behind the dial fails. -/
theorem upstream_closed_iff (steps : Steps) :
    (.dialed ∈ steps.handleConnection → .closed ∈ steps.handleConnection) ↔
      (steps.Dials → steps.Smooth) := by
  rw [handleConnection, Dials, Smooth]
  cases steps.detectTLS with
  | none => simp
  | some isTLS =>
    cases isTLS with
    | false => split_ifs <;> simp_all
    | true =>
      simp only [Bool.true_and, true_implies]
      split_ifs <;> cases steps.handshake <;> simp_all

/-- The handshake with the client times out: the upstream connection stays open. -/
theorem upstream_left_open :
    handleConnection ⟨true, false, some true, true, true, true, true, true, .timedOut⟩ =
      [.dialed] :=
  rfl

end Steps

end Qtap.Egress
