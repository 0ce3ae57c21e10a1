import Qtap.Core.Endpoint
import Qtap.Egress.L7Detect
import Qtap.Egress.Relay

/-!
# The forwarder between a client and a server

`handleConnection` from the first look at the client's bytes to the relay.  It decides
whether the connection is TLS; if so it waits for the whole ClientHello, and where TLS may
be terminated it dials the server, shakes hands with the client and detects the protocol
of what the client sends inside TLS.  Otherwise it detects the protocol, unless the
connection is TLS, and dials.  Then it relays.  A call of `Peek` that blocks is a step that
is not enabled.

The client and the server are programs on application bytes.  A TLS client sends its
ClientHello before its program starts; the records of an established session are as
transparent as plain bytes.  A TLS handshake with the forwarder starts the client's
program, and so does the one with the server, once its bytes are relayed.
-/

namespace Qtap.Egress

open Qtap.Core Qtap.Connection Qtap.L7Detect

inductive Transport where
  | plain
  | tls (clientHello : List Byte)

def Transport.hello : Transport → List Byte
  | plain => []
  | tls clientHello => clientHello

/-- What a forwarded connection brings along. -/
structure Setting where
  transport : Transport
  tlsTerminationSafe : Bool
  connEvents : Bool
  Hello : Type
  parseClientHello : List Byte → Option Hello

/-- Where `handleConnection` stands. -/
inductive Phase where
  | detectTLS
  | clientHello
  | dialTLS
  | handshake
  | detectInner
  | detectProtocol
  | dial
  | relaying
  | returned
  deriving DecidableEq, Repr

/-- The programs, which of them have started, the connections and the handler. -/
structure World (programs : Side → Program Byte) where
  program : ∀ side, (programs side).State
  started : Side → Bool
  phase : Phase
  isTLS : Bool
  protocol : Protocol
  relay : State Byte

namespace World

variable {programs : Side → Program Byte}

def initial (programs : Side → Program Byte) (setting : Setting) : World programs where
  program := fun side => (programs side).start
  started := fun side =>
    match side, setting.transport with
    | .client, .plain => true
    | _, _ => false
  phase := .detectTLS
  isTLS := false
  protocol := .unknown
  relay := State.initial

/-- What `fc` peeks at: nothing of it was read before the relay or the handshake. -/
def outer (setting : Setting) (world : World programs) : Peeker where
  buffered := setting.transport.hello ++ (world.relay.inbound .client).pending
  ended := (world.relay.inbound .client).ended

/-- What the buffered TLS connection peeks at. -/
def inner (world : World programs) : Peeker where
  buffered := (world.relay.inbound .client).pending
  ended := (world.relay.inbound .client).ended

/-- The handler returns before the relay: only the client's connection has a deferred close
by then. -/
def giveUp (world : World programs) : World programs :=
  { world with phase := .returned, relay := world.relay.closeConn .client }

/-- The handshake with the client succeeds only with a TLS client. -/
def shakeHands (setting : Setting) (world : World programs) (succeeds : Bool) : World programs :=
  match setting.transport, succeeds with
  | .tls _, true =>
    { world with phase := .detectInner, started := Function.update world.started .client true }
  | _, _ => world.giveUp

/-- The handler goes on to dial the server or gives up, as the outcome may be. -/
def handle (setting : Setting) (world : World programs) (succeeds : Bool) :
    Option (World programs) :=
  match world.phase with
  | .detectTLS =>
    (detectTLS (world.outer setting)).map fun
      | .error _ => world.giveUp
      | .ok true => { world with phase := .clientHello, isTLS := true }
      | .ok false => { world with phase := .detectProtocol }
  | .clientHello =>
    (detectClientHello setting.parseClientHello (world.outer setting)).map fun
      | .error _ => world.giveUp
      | .ok _ => { world with phase := if setting.tlsTerminationSafe then .dialTLS else .dial }
  | .dialTLS =>
    if succeeds then
      some { world with
        phase := .handshake, started := Function.update world.started .server true }
    else some world.giveUp
  | .handshake => some (world.shakeHands setting succeeds)
  | .detectInner =>
    (L7Detect.detectProtocol world.inner).map fun protocol =>
      { world with phase := .relaying, protocol := protocol }
  | .detectProtocol =>
    (L7Detect.detectProtocol (world.outer setting)).map fun protocol =>
      { world with phase := .dial, protocol := protocol }
  | .dial =>
    if succeeds then some { world with phase := .relaying, started := fun _ => true }
    else some world.giveUp
  | _ => none

/-- Data events are written where the bytes are readable and the protocol is HTTP. -/
def tees (setting : Setting) (world : World programs) : Bool :=
  setting.connEvents && ((world.isTLS && setting.tlsTerminationSafe) || !world.isTLS) &&
    decide (world.protocol = .http1 ∨ world.protocol = .http2)

/-- One action of a program that has started. -/
def run (world : World programs) (side : Side) (count : ℕ) : Option (World programs) :=
  if world.started side then
    ((programs side).advance (world.program side) (world.relay.outbound side)
      (world.relay.inbound side) count).map fun after =>
        { world with
          program := Function.update world.program side after.1
          relay := { world.relay with
            outbound := Function.update world.relay.outbound side after.2.1
            inbound := Function.update world.relay.inbound side after.2.2 } }
  else none

/-- The steps of the relay other than the arrival of bytes at the programs. -/
def forward (setting : Setting) (world : World programs) : Work → Option (World programs)
  | .receive _ _ => none
  | work =>
    if world.phase = .relaying then
      (world.relay.work (world.tees setting) work).map fun relay => { world with relay := relay }
    else none

inductive Action where
  | run (side : Side) (count : ℕ)
  | handle (succeeds : Bool)
  | forward (work : Work)

def step (setting : Setting) (world : World programs) : Action → Option (World programs)
  | .run side count => world.run side count
  | .handle succeeds => world.handle setting succeeds
  | .forward work => world.forward setting work

/-! ## Deadlock -/

/-- A program that has not started waits for its connection or its handshake. -/
def Waits (world : World programs) (side : Side) : Prop :=
  world.started side = true →
    (programs side).Waits (world.program side) (world.relay.outbound side)

/-- The handler waits for more bytes of the client. -/
def Blocked (setting : Setting) (world : World programs) : Prop :=
  match world.phase with
  | .detectTLS => L7Detect.detectTLS (world.outer setting) = none
  | .clientHello => detectClientHello setting.parseClientHello (world.outer setting) = none
  | .detectInner => L7Detect.detectProtocol world.inner = none
  | .detectProtocol => L7Detect.detectProtocol (world.outer setting) = none
  | _ => False

/-- Both ends wait to receive while the forwarder waits for the client. -/
def Wedged (setting : Setting) (world : World programs) : Prop :=
  (∀ side, world.Waits side) ∧ world.Blocked setting

end World

end Qtap.Egress
