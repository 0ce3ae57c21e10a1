import Qtap.Bpf.Detect

/-!
# The socket programs

The functions of `socket.bpf.c` that work on the record of a connection.  Each takes the
record as it is in the map and returns it as it is left there, with the events submitted
on the way.  Reservations in the ring buffer succeed.
-/

namespace Qtap.Bpf

open Qtap.Core

/-! ## Filters and settings -/

def skipData (env : Env) (pid : ℕ) : Bool :=
  pid = env.qpid || (env.processMeta pid).any ProcessMeta.skipData

def skipDns (env : Env) (pid : ℕ) : Bool := (env.processMeta pid).any ProcessMeta.skipDns

def skipTls (env : Env) (pid : ℕ) : Bool := (env.processMeta pid).any ProcessMeta.skipTls

def skipHttp (env : Env) (pid : ℕ) : Bool := (env.processMeta pid).any ProcessMeta.skipHttp

def skipAll (env : Env) (pid : ℕ) : Bool :=
  ((env.processMeta pid).any fun info => info.skipDns && info.skipTls && info.skipHttp) &&
    skipData env pid

def hasStrategy (env : Env) (pid : ℕ) (strategy : Strategy) : Bool :=
  (env.processMeta pid).any fun info => info.strategy = strategy

/-- The connection of a forwarded process is not looked into. -/
def isForwarded (env : Env) (pid : ℕ) : Bool :=
  hasStrategy env pid .forward || hasStrategy env pid .proxy

def shouldStream (env : Env) : Protocol → Bool
  | .http1 => env.streamHttp
  | .http2 => env.streamHttp
  | .redis => env.streamRedis
  | .mysql => env.streamMysql
  | .kafka => env.streamKafka
  | _ => false

/-! ## Open and protocol events -/

/-- The remote address of a socket. -/
def Sock.remote (sock : Sock) : NetAddr where
  saFamily := sock.family
  addr :=
    if sock.family = afInet then sock.daddr ++ List.replicate 12 0
    else if sock.family = afInet6 then sock.v6daddr
    else List.replicate 16 0
  port := sock.dport

/-- The reasons for which a connection with this remote address is not reported. -/
def ignoredRemote (env : Env) (ctx : SocketCtx) (conn : ConnInfo) (remote : NetAddr) : Bool :=
  (isLocalIp remote && env.ignoreLoopback) ||
  (conn.connPidId.function = .server && !(env.direction = .ingress || env.direction = .all)) ||
  (conn.connPidId.function = .client && (env.direction = .ingress ||
      (isPrivateIp remote && env.direction = .egressExternal && !env.isManagementAddress remote) ||
      (!isPrivateIp remote && env.direction = .egressInternal))) ||
  (conn.connPidId.function = .client && isDns conn) ||
  skipAll env ctx.id.pid

def submitOpenEvent (env : Env) (ctx : SocketCtx) (conn : ConnInfo) : ConnInfo × List Event :=
  if conn.isOpen then (conn, [])
  else if hasStrategy env ctx.id.pid .ignore then ({ conn with ignore := true }, [])
  else
    let sock := env.pidFdToSock ctx.id
    let conn := { conn with cookie := (sock.map Sock.cookie).getD conn.cookie }
    let remote := (sock.map Sock.remote).getD env.staleRemote
    let remote := if remote.saFamily = 0 then conn.addr else remote
    let conn := { conn with ignore := conn.ignore || ignoredRemote env ctx conn remote }
    if conn.ignore ∨ conn.cookie = 0 then (conn, [])
    else
      ({ conn with isOpen := true },
        [.opened conn.connPidId conn.cookie remote (env.isManagementAddress remote)])

def submitProtoEvent (conn : ConnInfo) : List Event :=
  if conn.protocol = .unknown then []
  else [.proto conn.connPidId conn.cookie conn.protocol conn.isSsl]

/-! ## Connect and accept -/

/-- The address that the system call was given. -/
def readSockaddr (memory : Memory) (address : ℕ) : NetAddr :=
  let family := leValue ((probeReadUser memory 2 address).getD [0, 0])
  let port := beValue ((probeReadUser memory 2 (address + 2)).getD [0, 0])
  if family = afInet then
    { saFamily := family
      addr := (probeReadUser memory 4 (address + 4)).getD [0, 0, 0, 0] ++ List.replicate 12 0
      port := port }
  else if family = afInet6 then
    { saFamily := family
      addr := (probeReadUser memory 16 (address + 8)).getD (List.replicate 16 0)
      port := port }
  else { saFamily := family, addr := List.replicate 16 0, port := 0 }

/-- The record that `process_syscall_addr` puts into the map. -/
def newConnInfo (env : Env) (ctx : SocketCtx) (address : ℕ) (function : ConnectionType) :
    ConnInfo where
  connPidId :=
    { pid := ctx.id.pid, tgid := ctx.tgid, fd := ctx.id.fd, function := function, tsid := env.now }
  addr := readSockaddr env.memory address

/-! ## Data -/

def chunkLimit : ℕ := 4
def loopLimit : ℕ := 64

def submitBufferChunk (memory : Memory) (buf bufSize : ℕ) : List (List Byte) :=
  let amountCopied := min bufSize maxMsgSize
  match probeReadUser memory amountCopied buf with
  | none => []
  | some msg => if amountCopied > 0 then [msg] else []

/-- The loop of `submit_buffer`: the chunks, each with the bytes sent before it. -/
def submitChunks (memory : Memory) (buf size : ℕ) : ℕ → ℕ → ℤ → List (ℤ × List Byte)
  | 0, _, _ => []
  | rounds + 1, i, bytesSent =>
    let bytesRemaining := asInt (size - bytesSent)
    let currentSize :=
      if bytesRemaining > maxMsgSize ∧ i ≠ chunkLimit - 1 then maxMsgSize
      else asSize bytesRemaining
    let chunks := submitBufferChunk memory (asSize (buf + bytesSent)) currentSize
    let sent := asInt (bytesSent + currentSize)
    chunks.map (fun msg => (bytesSent, msg)) ++
      if size = asSize sent then [] else submitChunks memory buf size rounds (i + 1) sent

def submitBuffer (memory : Memory) (direction : Direction) (buf size : ℕ) (conn : ConnInfo) :
    List Event :=
  let start :=
    match direction with
    | .egress => conn.wrBytes
    | .ingress => conn.rdBytes
    -- no caller passes another direction
    | _ => 0
  (submitChunks memory buf size chunkLimit 0 0).map fun (sent, msg) =>
    .data conn.connPidId conn.cookie direction (start + sent) msg

/-- The loop over the entries of an iovec. -/
def submitIovecs (memory : Memory) (direction : Direction) (args : DataArgs) (bytes : ℕ)
    (conn : ConnInfo) : ℕ → ℕ → ℕ → List Event
  | 0, _, _ => []
  | rounds + 1, i, bytesSent =>
    if (i : ℤ) < args.iovcnt ∧ bytesSent < bytes then
      -- an entry that cannot be read is left zero
      let (base, length) := (readIovec memory (args.buf + 16 * i)).getD (0, 0)
      let bytesRemaining := asInt (bytes - bytesSent)
      let iovSize := min length (asSize bytesRemaining)
      submitBuffer memory direction base iovSize conn ++
        submitIovecs memory direction args bytes conn rounds (i + 1) (bytesSent + iovSize)
    else []

def submitData (memory : Memory) (direction : Direction) (args : DataArgs) (bytes : ℕ)
    (conn : ConnInfo) : List Event :=
  if args.iovcnt > 0 then submitIovecs memory direction args bytes conn loopLimit 0 0
  else submitBuffer memory direction args.buf bytes conn

def updateBandwidthTracking (conn : ConnInfo) (direction : Direction) (bytes : ℕ) : ConnInfo :=
  match direction with
  | .egress => { conn with wrBytes := conn.wrBytes + bytes }
  | .ingress => { conn with rdBytes := conn.rdBytes + bytes }
  | _ => conn

/-- One call of a data hook. -/
structure DataCall where
  ctx : SocketCtx
  direction : Direction
  args : DataArgs
  bytes : ℕ
  /-- Called from a TLS library and not from a system call. -/
  ssl : Bool
  deriving DecidableEq, Repr

/-- What `process_data` knows after protocol detection. -/
structure Findings where
  wasUnknown : Bool
  tlsJustUpgraded : Bool
  deriving DecidableEq, Repr

/-- `process_data` up to the protocol detection and the filters.  Nothing more happens
where there are no findings. -/
def beginData (env : Env) (call : DataCall) (conn : ConnInfo) : ConnInfo × Option Findings :=
  if !conn.isOpen then
    -- the open event is not submitted yet, but the first bytes may tell the protocol
    if conn.protocol = .unknown then
      (detectProtocol env.memory call.args.bufInfo call.bytes conn, none)
    else (conn, none)
  else
    let conn := if call.ssl then conn else updateBandwidthTracking conn call.direction call.bytes
    if conn.ignore then (conn, none)
    else if hasStrategy env call.ctx.id.pid .ignore then ({ conn with ignore := true }, none)
    else if isForwarded env call.ctx.id.pid then (conn, none)
    else
      let tlsJustUpgraded := call.ssl && !conn.isSsl && conn.protocol ≠ .unknown
      let conn := { conn with isSsl := conn.isSsl || call.ssl }
      if !call.ssl && conn.isSsl then (conn, none)
      else
        let wasUnknown : Bool := conn.protocol = .unknown
        let conn :=
          if wasUnknown then detectProtocol env.memory call.args.bufInfo call.bytes conn else conn
        let skip :=
          skipData env call.ctx.id.pid ||
          (conn.protocol = .dns && skipDns env call.ctx.id.pid) ||
          (conn.isSsl && skipTls env call.ctx.id.pid) ||
          (!conn.isSsl && skipHttp env call.ctx.id.pid)
        if skip then ({ conn with ignore := true }, none)
        else (conn, some { wasUnknown := wasUnknown, tlsJustUpgraded := tlsJustUpgraded })

/-- The protocol events of `process_data`. -/
def announce (findings : Findings) (conn : ConnInfo) : List Event :=
  (if findings.wasUnknown then submitProtoEvent conn else []) ++
    if findings.tlsJustUpgraded then submitProtoEvent conn else []

/-- The rest of `process_data`. -/
def finishData (env : Env) (call : DataCall) (findings : Findings) (conn : ConnInfo) :
    ConnInfo × List Event :=
  if conn.protocol = .unknown then (conn, announce findings conn)
  else if (conn.connPidId.function = .client ∧ conn.protocol = .dns) ∨
      shouldStream env conn.protocol then
    (conn, announce findings conn ++ submitData env.memory call.direction call.args call.bytes conn)
  else ({ conn with ignore := true }, announce findings conn)

/-- Null buffers and empty transfers are no data. -/
def hasData (args : DataArgs) (bytes : ℕ) : Bool := args.buf ≠ 0 && 0 < bytes

/-! ## First bytes of a connection -/

/-- `init_conn` on the record of the connection. -/
def initConn (env : Env) (ctx : SocketCtx) (direction : Direction) (args : DataArgs) (bytes : ℕ)
    (conn : ConnInfo) : ConnInfo × List Event :=
  if hasStrategy env ctx.id.pid .ignore then ({ conn with ignore := true }, [])
  else
    let (conn, opened) :=
      if conn.cookie = 0 ∧ (env.pidFdToSock ctx.id).any (fun sock => 0 < sock.cookie) then
        submitOpenEvent env ctx conn
      else (conn, [])
    let isNewConnection :=
      (direction = .ingress && conn.rdBytes = 0) || (direction = .egress && conn.wrBytes = 0)
    if isNewConnection || (conn.tlsUpgradePending && !conn.isSsl) then
      let conn := detectTls env.memory args.bufInfo bytes conn
      let upgraded := conn.isSsl && conn.tlsUpgradePending
      let conn := { conn with tlsUpgradePending := conn.tlsUpgradePending && !upgraded }
      let protos := if upgraded then submitProtoEvent conn else []
      if !conn.isSsl || isForwarded env ctx.id.pid then (conn, opened ++ protos)
      else
        let clientHello := (captureTlsClientHello env.memory args.bufInfo bytes).map
          (Event.tlsClientHello conn.cookie)
        let serverHello := (captureTlsServerHello env.memory args.bufInfo bytes).map
          (Event.tlsServerHello conn.cookie)
        (conn, opened ++ protos ++ clientHello.toList ++ serverHello.toList)
    else (conn, opened)

/-! ## Close -/

/-- The close event of a connection that was reported. -/
def submitCloseEvent (conn : ConnInfo) : List Event :=
  if conn.isOpen then [.closed conn.connPidId conn.cookie conn.wrBytes conn.rdBytes] else []

end Qtap.Bpf
