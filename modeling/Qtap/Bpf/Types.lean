import Qtap.Bpf.Memory

/-!
# Connections and events of the socket programs

The state that the BPF programs share in their maps, the events they submit to user
space, and what a program reads from maps that other programs and user space write.
Ports stand for the number in network byte order.
-/

namespace Qtap.Bpf

open Qtap.Core

inductive Protocol where
  | unknown
  | http1
  | http2
  | dns
  | mongodb
  | redis
  | mysql
  | kafka
  deriving DecidableEq, Repr

inductive Direction where
  | ingress
  | egress
  | egressInternal
  | egressExternal
  | all
  deriving DecidableEq, Repr, Inhabited

inductive ConnectionType where
  | client
  | server
  deriving DecidableEq, Repr

def afInet : ℕ := 2
def afInet6 : ℕ := 10

structure NetAddr where
  saFamily : ℕ
  /-- Sixteen bytes, the first four for IPv4. -/
  addr : List Byte
  port : ℕ
  deriving DecidableEq, Repr, Inhabited

/-- A thread, which `pid_tgid` stands for. -/
structure Thread where
  pid : ℕ
  tid : ℕ
  deriving DecidableEq, Repr

/-- The key of the connection map. -/
structure PidFd where
  pid : ℕ
  fd : ℤ
  deriving DecidableEq, Repr

structure ConnPidId where
  pid : ℕ
  tgid : ℕ
  fd : ℤ
  function : ConnectionType
  tsid : ℕ
  deriving DecidableEq, Repr

structure ConnInfo where
  connPidId : ConnPidId
  cookie : ℕ := 0
  addr : NetAddr
  wrBytes : ℤ := 0
  rdBytes : ℤ := 0
  isOpen : Bool := false
  isSsl : Bool := false
  protocol : Protocol := .unknown
  ignore : Bool := false
  tlsUpgradePending : Bool := false
  deriving DecidableEq, Repr

inductive Event where
  | opened (connPidId : ConnPidId) (cookie : ℕ) (remote : NetAddr) (isRedirected : Bool)
  | closed (connPidId : ConnPidId) (cookie : ℕ) (wrBytes rdBytes : ℤ)
  | data (connPidId : ConnPidId) (cookie : ℕ) (direction : Direction) (pos : ℤ) (msg : List Byte)
  | proto (connPidId : ConnPidId) (cookie : ℕ) (protocol : Protocol) (isSsl : Bool)
  | tlsClientHello (cookie : ℕ) (hello : List Byte)
  | tlsServerHello (cookie : ℕ) (hello : List Byte)
  deriving DecidableEq, Repr

/-- What the process of a hook is to be done with. -/
inductive Strategy where
  | observe
  | ignore
  | audit
  | forward
  | proxy
  deriving DecidableEq, Repr

structure ProcessMeta where
  strategy : Strategy
  skipData : Bool
  skipDns : Bool
  skipTls : Bool
  skipHttp : Bool
  deriving DecidableEq, Repr

/-- A socket of the kernel, as far as the programs read it. -/
structure Sock where
  cookie : ℕ
  family : ℕ
  dport : ℕ
  daddr : List Byte
  v6daddr : List Byte

/-- What a hook finds when it runs: the memory of the process and the maps that are
written elsewhere. -/
structure Env where
  memory : Memory
  processMeta : ℕ → Option ProcessMeta
  /-- The process of qtap itself. -/
  qpid : ℕ
  ignoreLoopback : Bool
  direction : Direction
  streamHttp : Bool
  streamRedis : Bool
  streamMysql : Bool
  streamKafka : Bool
  /-- The socket that the map of file descriptors holds. -/
  pidFdToSock : PidFd → Option Sock
  isManagementAddress : NetAddr → Bool
  /-- What reserved ring-buffer memory holds where the event has its remote address. -/
  staleRemote : NetAddr
  now : ℕ
  deriving Inhabited

structure SocketCtx where
  id : PidFd
  tgid : ℕ
  deriving DecidableEq, Repr

structure DataArgs where
  buf : ℕ
  iovcnt : ℤ
  deriving DecidableEq, Repr

def DataArgs.bufInfo (args : DataArgs) : BufInfo where
  buf := args.buf
  iovcnt := asSize args.iovcnt

end Qtap.Bpf
