import Qtap.Core.Outcome

/-!
# Connections and their data events

What a stream processor sees of its connection: the side the process under
observation is on and the bytes of each event with their direction.
-/

namespace Qtap.Connection

open Qtap.Core

/-- The role of the observed process; `unknown` stands for every other number. -/
inductive Source where
  | unknown
  | client
  | server
  deriving DecidableEq, Repr

inductive Direction where
  | ingress
  | egress
  deriving DecidableEq, Repr

/-- The two ends of the connection, whichever of them is observed. -/
inductive Side where
  | client
  | server
  deriving DecidableEq, Repr

structure DataEvent where
  direction : Direction
  data : List Byte
  deriving DecidableEq, Repr

end Qtap.Connection
