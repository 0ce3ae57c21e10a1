import Qtap.Connection.Types

/-!
# The domain of a connection

The domain is set by TLS hellos, host headers, the hostname and original destination events, and by
`Domain`, which takes it from the DNS record or else falls back to an address.  It may be replaced
as long as it is an address, which a flag beside it tells.
-/

namespace Qtap.Connection

open Qtap.Core

/-- The libraries and `isValidDomain`: an address as a text is an address for `ParseIP`. -/
structure Net (A : Type*) where
  trimSpace : String → String
  splitHostPort : String → Option (String × String)
  parseIP : String → Bool
  isValidDomain : String → Bool
  equalFold : String → String → Bool
  string : A → String
  parseIP_string : ∀ address, parseIP (string address) = true

structure OpenEvent (A : Type*) where
  source : Source
  remote : Option A
  «local» : Option A

/-- The part of `Connection` that its domain depends on; `none` is an address without bytes. -/
structure Named (A : Type*) where
  openEvent : OpenEvent A
  dnsRecord : Option String
  originalDestination : Option (Option A) := none
  domain : String := ""
  domainIsIP : Bool := false

/-- What sets the domain, and the calls of `Domain`.  An HTTP session compares the host with the
domain it was started with. -/
inductive DomainEvent (A : Type*) where
  | hostname (name : String)
  | originalDestination (address : Option A)
  | tlsClientHello (sni : String)
  | httpHost (host sessionDomain : String)
  | domain

variable {A : Type*} (net : Net A)

/-- `qnet.IPString`. -/
def Net.ipString (address : Option A) : String := address.elim "" net.string

/-- `parseHostString`, without the port, which `SetDomain` does not read. -/
def Net.parseHostString (input : String) : String × Bool :=
  let trimmed := net.trimSpace input
  let host := ((net.splitHostPort trimmed).map Prod.fst).getD trimmed
  if net.parseIP host then (host, true) else if net.isValidDomain host then (host, false)
  else ("", false)

namespace Named

def setDomain (conn : Named A) (input : String) : Named A :=
  if input = "" ∨ conn.domainIsIP = false ∧ conn.domain ≠ "" then conn
  else
    let parsed := net.parseHostString input
    if parsed.1 = "" ∨ parsed.2 = true ∧ conn.domainIsIP = false ∨
        net.equalFold parsed.1 conn.domain = true then conn
    else { conn with domain := parsed.1, domainIsIP := parsed.2 }

/-- The address that `Domain` falls back to. -/
def fallback (conn : Named A) : Option A :=
  conn.originalDestination.getD
    (match conn.openEvent.source with
    | .client => conn.openEvent.remote
    | .server => conn.openEvent.local
    | .unknown => none)

/-- The connection after a call of `Domain`, which returns the domain it then has. -/
def askDomain (conn : Named A) : Named A :=
  if conn.domain ≠ "" ∧ conn.domainIsIP = false then conn
  else
    let looked := match conn.dnsRecord with
      | some name => { conn with domain := name, domainIsIP := false }
      | none => conn
    if looked.domain = "" then
      { looked with domain := net.ipString conn.fallback, domainIsIP := true }
    else looked

def step (conn : Named A) : DomainEvent A → Named A
  | .hostname name => conn.setDomain net name
  | .originalDestination address =>
    { conn with originalDestination := some address }.setDomain net (net.ipString address)
  | .tlsClientHello sni => conn.setDomain net sni
  | .httpHost host sessionDomain => if host = sessionDomain then conn else conn.setDomain net host
  | .domain => conn.askDomain net

def run (events : List (DomainEvent A)) (conn : Named A) : Named A := events.foldl (step net) conn

/-- The domain is a name, not an address. -/
def HasName (conn : Named A) : Prop := conn.domain ≠ "" ∧ net.parseIP conn.domain = false

/-- Only an address is marked as one. -/
def Marked (conn : Named A) : Prop :=
  conn.domainIsIP = true → conn.domain = "" ∨ net.parseIP conn.domain = true

variable {net} {conn : Named A}

section

variable (hmarked : conn.Marked net)

include hmarked

theorem Marked.not_isIP (hname : conn.HasName net) :
    conn.domainIsIP = false := by
  rw [← Bool.not_eq_true]
  intro hip
  rcases hmarked hip with hempty | haddress
  · exact hname.1 hempty
  · exact Bool.false_ne_true (hname.2.symm.trans haddress)

theorem Marked.setDomain (input : String) :
    (conn.setDomain net input).Marked net := by
  unfold Named.setDomain
  dsimp only
  split_ifs
  · exact hmarked
  · exact hmarked
  · intro hip
    unfold Net.parseHostString at hip ⊢
    dsimp only at hip ⊢
    split_ifs at hip ⊢ with haddress
    exact .inr haddress

theorem Marked.askDomain : (conn.askDomain net).Marked net := by
  unfold Named.askDomain
  dsimp only
  split_ifs
  · exact hmarked
  · intro _
    cases conn.fallback with
    | none => exact .inl rfl
    | some address => exact .inr (net.parseIP_string address)
  · cases hrecord : conn.dnsRecord with
    | none => exact hmarked
    | some name => exact fun hip => absurd hip Bool.false_ne_true

theorem Marked.step (event : DomainEvent A) :
    (conn.step net event).Marked net := by
  cases event with
  | hostname name => exact hmarked.setDomain name
  | originalDestination address =>
    have hmoved : Marked net { conn with originalDestination := some address } := hmarked
    exact hmoved.setDomain _
  | tlsClientHello sni => exact hmarked.setDomain sni
  | httpHost host sessionDomain =>
    rw [Named.step]
    split_ifs
    · exact hmarked
    · exact hmarked.setDomain host
  | domain => exact hmarked.askDomain

theorem Marked.run (events : List (DomainEvent A)) :
    (conn.run net events).Marked net := by
  induction events generalizing conn with
  | nil => exact hmarked
  | cons event rest ih => exact ih (hmarked.step event)

end

/-- A domain that is not marked as an address is settled. -/
def Settled (conn : Named A) : Prop := conn.domainIsIP = false ∧ conn.domain ≠ ""

variable (net)

theorem Settled.setDomain (hsettled : conn.Settled) (input : String) :
    conn.setDomain net input = conn := if_pos (.inr hsettled)

theorem Settled.step (hsettled : conn.Settled) (event : DomainEvent A) :
    (conn.step net event).Settled ∧ (conn.step net event).domain = conn.domain := by
  cases event with
  | hostname _ | tlsClientHello _ =>
    simp [Named.step, hsettled.setDomain, hsettled]
  | originalDestination address =>
    have hmoved : Settled { conn with originalDestination := some address } := hsettled
    rw [Named.step, hmoved.setDomain]
    exact ⟨hmoved, rfl⟩
  | httpHost host sessionDomain =>
    simp [Named.step, hsettled.setDomain, hsettled]
  | domain =>
    rw [Named.step, Named.askDomain, if_pos hsettled.symm]
    exact ⟨hsettled, rfl⟩

theorem Settled.run (hsettled : conn.Settled) (events : List (DomainEvent A)) :
    (conn.run net events).domain = conn.domain := by
  induction events generalizing conn with
  | nil => rfl
  | cons event rest ih =>
    obtain ⟨hstill, hsame⟩ := hsettled.step net event
    exact (ih hstill).trans hsame

end Named

end Qtap.Connection
