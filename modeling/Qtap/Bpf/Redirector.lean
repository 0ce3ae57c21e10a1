import Qtap.Bpf.Socket

/-!
# The redirector

The programs of `redirector.bpf.c`: connections of a forwarded process are sent to the
proxy instead, which asks for the original destination of a connection it has accepted.
Words and ports are the values that a little-endian machine loads; addresses and ports
are in network byte order in memory.
-/

namespace Qtap.Bpf.Redirector

open Qtap.Core

abbrev Word := BitVec 32
abbrev Port := BitVec 16

/-- `__u32 addr[4]`. -/
structure Address where
  w0 : Word
  w1 : Word
  w2 : Word
  w3 : Word
  deriving DecidableEq, Repr

def Address.zero : Address := ⟨0, 0, 0, 0⟩

/-- An IPv4 address where there is room for both. -/
def Address.ofIpv4 (ip : Word) : Address := ⟨ip, 0, 0, 0⟩

/-- The IPv4-mapped form of an address. -/
def Address.mapped (ip : Word) : Address := ⟨0, 0, 0xffff0000, ip⟩

def isIpv4Mapped (addr : Address) : Bool := addr.w0 = 0 && addr.w1 = 0 && addr.w2 = 0xffff0000

def Address.bytes (addr : Address) : List Byte :=
  [addr.w0, addr.w1, addr.w2, addr.w3].flatMap fun word => leBytes 4 word.toNat

/-- `__bpf_htons`. -/
def htons (port : Port) : Port := port.extractLsb' 0 8 ++ port.extractLsb' 8 8

structure AddrPortKey where
  addr : Address
  port : Port
  deriving DecidableEq, Repr

/-- The fields of `struct rdr_socket` that are set. -/
structure RdrSocket where
  dstAddr : Address
  dstPort : Port
  deriving DecidableEq, Repr

structure MgmtAddrs where
  ipv4 : Word
  ipv6 : Address
  port : Word
  deriving DecidableEq, Repr

structure Maps where
  mapPorts : AddrPortKey → Option ℕ
  mapSocks : ℕ → Option RdrSocket

/-! ## Connect -/

def ipprotoTcp : ℕ := 6

/-- `struct bpf_sock_addr`, as far as it is used. -/
structure SockAddr where
  userFamily : ℕ
  protocol : ℕ
  userIp4 : Word
  userIp6 : Address
  userPort : Word
  deriving DecidableEq, Repr

/-- What the programs read besides their argument. -/
structure Setting where
  env : Env
  pid : ℕ
  mgmtAddrs : Option MgmtAddrs

def isManagementAddress (mgmtAddrs : Option MgmtAddrs) (family : ℕ) (addr : Address) (port : Port) :
    Bool :=
  match mgmtAddrs with
  | none => false
  | some addrs =>
    if port.setWidth 32 ≠ addrs.port then false
    else if family = afInet then addr.w0 = addrs.ipv4
    else if family = afInet6 then
      if isIpv4Mapped addr then addr.w3 = addrs.ipv4 else addr = addrs.ipv6
    else false

/-- The checks that the two connect programs share. -/
def redirects (setting : Setting) (family : ℕ) (addr : Address) (port : Port) : Bool :=
  let netAddr : NetAddr :=
    { saFamily := family, addr := addr.bytes, port := (htons port).toNat }
  setting.pid ≠ setting.env.qpid && isForwarded setting.env setting.pid && !isLocalIp netAddr &&
    !isManagementAddress setting.mgmtAddrs family addr port &&
      match setting.env.direction with
      | .egressExternal => !isPrivateIp netAddr
      | .egressInternal => isPrivateIp netAddr
      | _ => true

def storeDestination (maps : Maps) (cookie : ℕ) (addr : Address) (port : Word) : Maps :=
  { maps with
    mapSocks := Function.update maps.mapSocks cookie (some ⟨addr, port.setWidth 16⟩) }

def cgConnect4 (setting : Setting) (cookie : ℕ) (maps : Maps) (ctx : SockAddr) :
    Maps × SockAddr :=
  if ctx.userFamily ≠ afInet ∨ ctx.protocol ≠ ipprotoTcp then (maps, ctx)
  else if !redirects setting ctx.userFamily (.ofIpv4 ctx.userIp4) (ctx.userPort.setWidth 16) then
    (maps, ctx)
  else
    let maps := storeDestination maps cookie (.ofIpv4 ctx.userIp4) ctx.userPort
    match setting.mgmtAddrs with
    | none => (maps, ctx)
    | some addrs => (maps, { ctx with userIp4 := addrs.ipv4, userPort := addrs.port })

def cgConnect6 (setting : Setting) (cookie : ℕ) (maps : Maps) (ctx : SockAddr) :
    Maps × SockAddr :=
  if ctx.protocol ≠ ipprotoTcp ∨ ctx.userFamily ≠ afInet6 then (maps, ctx)
  else if !redirects setting ctx.userFamily ctx.userIp6 (ctx.userPort.setWidth 16) then (maps, ctx)
  else
    let maps := storeDestination maps cookie ctx.userIp6 ctx.userPort
    match setting.mgmtAddrs with
    | none => (maps, ctx)
    | some addrs =>
      let proxyIp := if isIpv4Mapped ctx.userIp6 then .mapped addrs.ipv4 else addrs.ipv6
      (maps, { ctx with userIp6 := proxyIp, userPort := addrs.port })

/-! ## Established connections -/

/-- `struct bpf_sock_ops`, as far as it is used; the local port is in host byte order. -/
structure SockOps where
  established : Bool
  family : ℕ
  localIp4 : Word
  localIp6 : Address
  localPort : Word
  deriving DecidableEq, Repr

def sockOpsKey (ctx : SockOps) : AddrPortKey where
  addr :=
    if ctx.family = afInet then .ofIpv4 ctx.localIp4
    else if isIpv4Mapped ctx.localIp6 then .ofIpv4 ctx.localIp6.w3
    else ctx.localIp6
  port := htons (ctx.localPort.setWidth 16)

def cgSockOps (cookie : ℕ) (maps : Maps) (ctx : SockOps) : Maps :=
  if ctx.family ≠ afInet ∧ ctx.family ≠ afInet6 then maps
  else if ctx.established then
    match maps.mapSocks cookie with
    | none => maps
    | some _ =>
      { maps with mapPorts := Function.update maps.mapPorts (sockOpsKey ctx) (some cookie) }
  else maps

/-! ## Questions of the proxy -/

inductive OptName where
  | originalDst
  | mark
  | cookie
  | other
  deriving DecidableEq, Repr

/-- `struct bpf_sock`, as far as it is used; the peer of the accepted connection. -/
structure Sk where
  family : ℕ
  protocol : ℕ
  dstIp4 : Word
  dstIp6 : Address
  dstPort : Port
  deriving DecidableEq, Repr

inductive OptValue where
  | cookie (cookie : ℕ)
  | mark (tlsOk : Bool)
  | sockaddrIn (addr : Word) (port : Port)
  | sockaddrIn6 (addr : Address) (port : Port)
  deriving DecidableEq, Repr

def sockOptKey (sk : Sk) : AddrPortKey :=
  let key : AddrPortKey := ⟨.zero, sk.dstPort⟩
  let key :=
    if sk.family = afInet then { key with addr := { key.addr with w0 := sk.dstIp4 } } else key
  if sk.family = afInet6 then
    -- the key is looked at before the address of the peer is copied to it
    if isIpv4Mapped key.addr then { key with addr := .ofIpv4 key.addr.w3 }
    else { key with addr := sk.dstIp6 }
  else key

/-- The process of a connection and whether it accepts TLS termination. -/
structure Processes where
  addrPortToPidMap : AddrPortKey → Option ℕ
  tlsOk : ℕ → Option Bool

/-- The value for a buffer of `room` bytes; nothing where the kernel's own result stands. -/
def cgSockOpt (processes : Processes) (maps : Maps) (optname : OptName) (sk : Sk) (room : ℕ) :
    Option OptValue :=
  if optname = .other then none
  else if sk.family ≠ afInet ∧ sk.family ≠ afInet6 then none
  else if sk.protocol ≠ ipprotoTcp then none
  else
    let key := sockOptKey sk
    (maps.mapPorts key).bind fun cookie =>
      (maps.mapSocks cookie).bind fun sock =>
        match optname with
        | .cookie => if room < 8 then none else some (.cookie cookie)
        | .mark =>
          if room < 4 then none
          else ((processes.addrPortToPidMap key).bind processes.tlsOk).map OptValue.mark
        | .originalDst =>
          if sk.family = afInet then
            if room < 16 then none
            else if isIpv4Mapped sock.dstAddr then some (.sockaddrIn sock.dstAddr.w3 sock.dstPort)
            else some (.sockaddrIn sock.dstAddr.w0 sock.dstPort)
          else if room < 28 then none
          else some (.sockaddrIn6 sock.dstAddr sock.dstPort)
        | .other => none

end Qtap.Bpf.Redirector
