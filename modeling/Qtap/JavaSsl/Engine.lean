import Qtap.Connection.Types
import Qtap.Core.Table
import Qtap.Egress.L7Detect

/-!
# Correlation of SSLEngine sessions with sockets

`SslEngineManager` reads events of a Java process: plaintext and ciphertext of a session
from uprobes, ciphertext of a socket from system calls, closed sockets.  A session and a
socket whose ciphertext begins with the same bytes are correlated, and from then on the
plaintext of the session is written as data of the socket.

The hash of the first sixteen bytes comes from a library and is a parameter.  The maps that
are shared with the kernel hold 1024 entries; a `Put` into a full one is refused and only
logged.
-/

namespace Qtap.JavaSsl

open Qtap.Core Qtap.Connection

inductive CorrelationSource where
  | uprobe
  | syscall
  deriving DecidableEq, Repr

structure Correlation where
  pid : UInt32
  sessionId : UInt64
  cookie : UInt64
  fd : Int32
  deriving DecidableEq, Repr

structure PendingMessage where
  direction : Direction
  msg : List Byte
  deriving DecidableEq, Repr

structure PidMeta where
  sessionIds : List UInt64
  pidFds : List UInt64
  deriving DecidableEq, Repr

/-- What is sent to the connection manager. -/
inductive Output where
  | protocol (cookie : UInt64) (protocol : L7Detect.Protocol) (isTLS : Bool)
  | data (cookie : UInt64) (direction : Direction) (data : List Byte)
  deriving DecidableEq, Repr

/-- The session on whose behalf something is written belongs to the history. -/
structure Write where
  sessionId : UInt64
  output : Output
  deriving DecidableEq, Repr

/-- The size of the maps in the kernel. -/
def maxEntries : ℕ := 1024

/-- `Put` of a key; a new one is refused when the map is full. -/
def putKey {K : Type*} [DecidableEq K] (keys : Finset K) (key : K) : Finset K :=
  if key ∈ keys ∨ keys.card < maxEntries then insert key keys else keys

structure Engine where
  streamProtocols : L7Detect.Protocol → Bool
  activeCorrelations : UInt64 → Option Correlation
  pendingCorrelations : UInt64 → Option Correlation
  pendingCorrelationsBySource : UInt64 → Option (List UInt64)
  pendingMessages : UInt64 → Option (List PendingMessage)
  pidFdSessionIdMap : UInt64 → Option UInt64
  pidMeta : UInt32 → Option PidMeta
  sessionIgnoreMap : Finset UInt64
  uprobeCorrelatedMap : Finset UInt64
  syscallCorrelatedMap : Finset (UInt32 × Int32)

/-- The events of the ring buffer, the end of a process and the expiration of a pending
correlation. -/
inductive Event where
  | plaintext (pid : UInt32) (sessionId : UInt64) (direction : Direction) (msg : List Byte)
  | encrypted (pid : UInt32) (sessionId : UInt64) (direction : Direction) (msg : List Byte)
  | correlate (pid : UInt32) (fd : Int32) (cookie : UInt64) (direction : Direction)
      (msg : List Byte)
  | socketClosed (pid : UInt32) (fd : Int32)
  | processStopped (pid : UInt32)
  | expired (hash : UInt64)
  deriving DecidableEq, Repr

def generatePidFdKey (pid : UInt32) (fd : Int32) : UInt64 :=
  pid.toUInt64 <<< 32 ||| fd.toUInt32.toUInt64

def extractPidFdFromKey (key : UInt64) : UInt32 × Int32 :=
  ((key >>> 32).toUInt32, key.toUInt32.toInt32)

def generatePrefixHash (sum64 : List Byte → UInt64) (data : List Byte) : UInt64 :=
  sum64 (data.take 16)

namespace Engine

/-- `NewSslEngineManager` with the protocols of the configuration. -/
def new (streamProtocols : L7Detect.Protocol → Bool) : Engine where
  streamProtocols := streamProtocols
  activeCorrelations := fun _ => none
  pendingCorrelations := fun _ => none
  pendingCorrelationsBySource := fun _ => none
  pendingMessages := fun _ => none
  pidFdSessionIdMap := fun _ => none
  pidMeta := fun _ => none
  sessionIgnoreMap := ∅
  uprobeCorrelatedMap := ∅
  syscallCorrelatedMap := ∅

/-! ## Bookkeeping by process -/

def getPidMeta (engine : Engine) (pid : UInt32) : PidMeta := (engine.pidMeta pid).getD ⟨[], []⟩

def setPidMeta (engine : Engine) (pid : UInt32) (found : PidMeta) : Engine :=
  { engine with pidMeta := Function.update engine.pidMeta pid (some found) }

def addSessionIdToPidMeta (engine : Engine) (pid : UInt32) (sessionId : UInt64) : Engine :=
  let found := engine.getPidMeta pid
  if sessionId ∈ found.sessionIds then engine
  else engine.setPidMeta pid { found with sessionIds := found.sessionIds ++ [sessionId] }

def removeSessionIdFromPidMeta (engine : Engine) (pid : UInt32) (sessionId : UInt64) : Engine :=
  let found := engine.getPidMeta pid
  if sessionId ∈ found.sessionIds then
    engine.setPidMeta pid { found with sessionIds := found.sessionIds.filter (· ≠ sessionId) }
  else engine

def addPidFdToPidMeta (engine : Engine) (pid : UInt32) (fd : Int32) : Engine :=
  let found := engine.getPidMeta pid
  let key := generatePidFdKey pid fd
  if key ∈ found.pidFds then engine
  else engine.setPidMeta pid { found with pidFds := found.pidFds ++ [key] }

def removePidFdFromPidMeta (engine : Engine) (pid : UInt32) (fd : Int32) : Engine :=
  let found := engine.getPidMeta pid
  let key := generatePidFdKey pid fd
  if key ∈ found.pidFds then
    engine.setPidMeta pid { found with pidFds := found.pidFds.filter (· ≠ key) }
  else engine

def removePendingCorrelationsBySource (engine : Engine) (key : UInt64) : Engine :=
  match engine.pendingCorrelationsBySource key with
  | some hashes =>
    { engine with
      pendingCorrelations := deleteAll engine.pendingCorrelations hashes
      pendingCorrelationsBySource := Function.update engine.pendingCorrelationsBySource key none }
  | none => engine

def clearSessionIgnored (engine : Engine) (sessionId : UInt64) : Engine :=
  { engine with sessionIgnoreMap := engine.sessionIgnoreMap.erase sessionId }

def clearUprobeCorrelated (engine : Engine) (sessionId : UInt64) : Engine :=
  { engine with uprobeCorrelatedMap := engine.uprobeCorrelatedMap.erase sessionId }

def clearSyscallCorrelated (engine : Engine) (pid : UInt32) (fd : Int32) : Engine :=
  { engine with syscallCorrelatedMap := engine.syscallCorrelatedMap.erase (pid, fd) }

def deleteActiveCorrelation (engine : Engine) (sessionId : UInt64) : Engine :=
  { engine with activeCorrelations := Function.update engine.activeCorrelations sessionId none }

def deletePendingMessages (engine : Engine) (sessionId : UInt64) : Engine :=
  { engine with pendingMessages := Function.update engine.pendingMessages sessionId none }

def deletePidFdSessionId (engine : Engine) (key : UInt64) : Engine :=
  { engine with pidFdSessionIdMap := Function.update engine.pidFdSessionIdMap key none }

/-! ## Cleanup -/

def processSocketClosed (engine : Engine) (pid : UInt32) (fd : Int32) : Engine :=
  match engine.pidFdSessionIdMap (generatePidFdKey pid fd) with
  | none => engine
  | some sessionId =>
    engine.deletePidFdSessionId (generatePidFdKey pid fd)
      |>.deleteActiveCorrelation sessionId
      |>.removePendingCorrelationsBySource sessionId
      |>.removePendingCorrelationsBySource (generatePidFdKey pid fd)
      |>.deletePendingMessages sessionId
      |>.removePidFdFromPidMeta pid fd
      |>.removeSessionIdFromPidMeta pid sessionId
      |>.clearSessionIgnored sessionId
      |>.clearUprobeCorrelated sessionId
      |>.clearSyscallCorrelated pid fd

/-- The body of the loop over the sessions in `cleanAllFromPid`. -/
def cleanSession (engine : Engine) (sessionId : UInt64) : Engine :=
  engine.deleteActiveCorrelation sessionId
    |>.removePendingCorrelationsBySource sessionId
    |>.deletePendingMessages sessionId
    |>.clearSessionIgnored sessionId
    |>.clearUprobeCorrelated sessionId

/-- The body of the loop over the sockets. -/
def cleanPidFd (engine : Engine) (pidFd : UInt64) : Engine :=
  engine.removePendingCorrelationsBySource pidFd
    |>.deletePidFdSessionId pidFd
    |>.clearSyscallCorrelated (extractPidFdFromKey pidFd).1 (extractPidFdFromKey pidFd).2

def cleanAllFromPid (engine : Engine) (pid : UInt32) : Engine :=
  match engine.pidMeta pid with
  | none => engine
  | some found =>
    let cleaned := found.pidFds.foldl cleanPidFd (found.sessionIds.foldl cleanSession engine)
    { cleaned with pidMeta := Function.update cleaned.pidMeta pid none }

def expirePendingCorrelation (engine : Engine) (hash : UInt64) (correlation : Correlation) :
    Engine :=
  let byPidFd :=
    if correlation.pid ≠ 0 ∧ correlation.fd ≠ -1 then
      engine.removePendingCorrelationsBySource (generatePidFdKey correlation.pid correlation.fd)
    else engine
  let bySession :=
    if correlation.sessionId ≠ 0 then
      (byPidFd.removePendingCorrelationsBySource correlation.sessionId).deletePendingMessages
        correlation.sessionId
    else byPidFd
  { bySession with
    pendingCorrelations := Function.update bySession.pendingCorrelations hash none }

/-! ## Correlation -/

def processPlaintextData (engine : Engine) (sessionId : UInt64) (direction : Direction)
    (msg : List Byte) : Engine × List Write :=
  match engine.activeCorrelations sessionId with
  | some correlation =>
    if sessionId ∈ engine.sessionIgnoreMap then (engine, [])
    else (engine, [⟨sessionId, .data correlation.cookie direction msg⟩])
  | none =>
    ({ engine with
      pendingMessages := Function.update engine.pendingMessages sessionId
        (some ((engine.pendingMessages sessionId).getD [] ++ [⟨direction, msg⟩])) }, [])

/-- The pending half completes the incoming one. -/
def converge (source : CorrelationSource) (pending correlation : Correlation) : Correlation :=
  match source with
  | .uprobe => { correlation with fd := pending.fd, cookie := pending.cookie }
  | .syscall => { correlation with sessionId := pending.sessionId }

/-- The correlation becomes active and what was pending for it is removed. -/
def activate (engine : Engine) (hash : UInt64) (correlation : Correlation) : Engine :=
  let key := generatePidFdKey correlation.pid correlation.fd
  let stored :=
    { engine with
      uprobeCorrelatedMap := putKey engine.uprobeCorrelatedMap correlation.sessionId
      syscallCorrelatedMap :=
        putKey engine.syscallCorrelatedMap (correlation.pid, correlation.fd)
      activeCorrelations :=
        Function.update engine.activeCorrelations correlation.sessionId (some correlation)
      pidFdSessionIdMap :=
        Function.update engine.pidFdSessionIdMap key (some correlation.sessionId) }
  let removed := (stored.removePendingCorrelationsBySource
    correlation.sessionId).removePendingCorrelationsBySource key
  { removed with pendingCorrelations := Function.update removed.pendingCorrelations hash none }

/-- The message is all that the reader under the peeker has. -/
def detect (msg : List Byte) : L7Detect.Protocol :=
  (L7Detect.detectProtocol ⟨msg, true⟩).getD .unknown

/-- The plaintext that waited for the correlation. -/
def flush (engine : Engine) (correlation : Correlation) : Engine × List Write :=
  match engine.pendingMessages correlation.sessionId with
  | some (first :: rest) =>
    if engine.streamProtocols (detect first.msg) then
      (engine.deletePendingMessages correlation.sessionId,
        ⟨correlation.sessionId, .protocol correlation.cookie (detect first.msg) true⟩ ::
          (first :: rest).map fun message =>
            ⟨correlation.sessionId, .data correlation.cookie message.direction message.msg⟩)
    else
      ({ engine with
          sessionIgnoreMap :=
            putKey engine.sessionIgnoreMap correlation.sessionId }.deletePendingMessages
        correlation.sessionId, [])
  | _ => (engine, [])

/-- The key under which the pending correlations of a source are listed. -/
def sourceKey (source : CorrelationSource) (correlation : Correlation) : UInt64 :=
  match source with
  | .uprobe => correlation.sessionId
  | .syscall => generatePidFdKey correlation.pid correlation.fd

/-- No half is pending under the hash: this one waits. -/
def await (engine : Engine) (source : CorrelationSource) (hash : UInt64)
    (correlation : Correlation) : Engine :=
  let key := sourceKey source correlation
  { engine with
    pendingCorrelations := Function.update engine.pendingCorrelations hash (some correlation)
    pendingCorrelationsBySource := Function.update engine.pendingCorrelationsBySource key
      (some ((engine.pendingCorrelationsBySource key).getD [] ++ [hash])) }

def addToPidMeta (engine : Engine) (source : CorrelationSource) (correlation : Correlation) :
    Engine :=
  match source with
  | .uprobe => engine.addSessionIdToPidMeta correlation.pid correlation.sessionId
  | .syscall => engine.addPidFdToPidMeta correlation.pid correlation.fd

def processCorrelation (engine : Engine) (source : CorrelationSource) (hash : UInt64)
    (correlation : Correlation) : Engine × List Write :=
  match engine.pendingCorrelations hash with
  | some pending =>
    let converged := converge source pending correlation
    let flushed := (engine.activate hash converged).flush converged
    (flushed.1.addToPidMeta source converged, flushed.2)
  | none => ((engine.await source hash correlation).addToPidMeta source correlation, [])

section Hash

variable (sum64 : List Byte → UInt64)

def processEncryptedData (engine : Engine) (pid : UInt32) (sessionId : UInt64)
    (msg : List Byte) : Engine × List Write :=
  if msg.length < 16 then (engine, [])
  else if (engine.activeCorrelations sessionId).isSome then (engine, [])
  else engine.processCorrelation .uprobe (generatePrefixHash sum64 msg) ⟨pid, sessionId, 0, -1⟩

def processCorrelationData (engine : Engine) (pid : UInt32) (fd : Int32) (cookie : UInt64)
    (msg : List Byte) : Engine × List Write :=
  if msg.length < 16 then (engine, [])
  else if (pid, fd) ∈ engine.syscallCorrelatedMap then (engine, [])
  else engine.processCorrelation .syscall (generatePrefixHash sum64 msg) ⟨pid, 0, cookie, fd⟩

def handle (engine : Engine) : Event → Engine × List Write
  | .plaintext _ sessionId direction msg => engine.processPlaintextData sessionId direction msg
  | .encrypted pid sessionId _ msg => engine.processEncryptedData sum64 pid sessionId msg
  | .correlate pid fd cookie _ msg => engine.processCorrelationData sum64 pid fd cookie msg
  | .socketClosed pid fd => (engine.processSocketClosed pid fd, [])
  | .processStopped pid => (engine.cleanAllFromPid pid, [])
  | .expired hash =>
    match engine.pendingCorrelations hash with
    | some correlation => (engine.expirePendingCorrelation hash correlation, [])
    | none => (engine, [])

end Hash

end Engine

end Qtap.JavaSsl
