import Qtap.Core.Transition
import Qtap.Bpf.Socket

/-!
# The OpenSSL programs

The probes of `openssl.bpf.c` see plaintext but no file descriptor.  They ask the system
call layer for the descriptor used inside the call and remember it for the SSL object.
Objects are known by their address alone.
-/

namespace Qtap.Bpf.OpenSsl

open Qtap.Core

inductive Operation where
  | read
  | write
  deriving DecidableEq, Repr

def Operation.direction : Operation → Direction
  | .read => .ingress
  | .write => .egress

/-- `SSL_read` and `SSL_write`, or `SSL_read_ex` and `SSL_write_ex`. -/
inductive Variant where
  | plain
  | ex
  deriving DecidableEq, Repr

structure SslArgs where
  buf : ℕ
  ssl : ℕ
  exBytes : ℕ
  deriving DecidableEq, Repr

structure Maps where
  uprobeFdRequests : Thread → Option ℤ
  sslToFdMap : ℕ → Option ℤ
  /-- `active_ssl_read_args_map` and `active_ssl_write_args_map`. -/
  activeSslArgs : Operation → Thread → Option SslArgs

namespace Maps

/-! ## File descriptors -/

def requestFdFromSyscall (maps : Maps) (thread : Thread) : Maps :=
  { maps with uprobeFdRequests := Function.update maps.uprobeFdRequests thread (some 0) }

def respondToFdRequest (maps : Maps) (thread : Thread) (fd : ℤ) : Maps :=
  match maps.uprobeFdRequests thread with
  | none => maps
  | some _ =>
    { maps with uprobeFdRequests := Function.update maps.uprobeFdRequests thread (some fd) }

def getFdFromSyscall (maps : Maps) (thread : Thread) : Maps × ℤ :=
  match maps.uprobeFdRequests thread with
  | none => (maps, 0)
  | some fd =>
    ({ maps with uprobeFdRequests := Function.update maps.uprobeFdRequests thread none }, fd)

def getFdFromCache (maps : Maps) (ssl : ℕ) : ℤ := (maps.sslToFdMap ssl).getD 0

/-- The Node helper is asked first; it answers with 0 where it knows nothing. -/
def getFd (maps : Maps) (nodeFd : ℤ) (thread : Thread) (ssl : ℕ) : Maps × ℤ :=
  if nodeFd > 0 then (maps, nodeFd)
  else
    let (maps, fd) := maps.getFdFromSyscall thread
    if fd > 0 then (maps, fd)
    else
      let fd := maps.getFdFromCache ssl
      if fd > 0 then (maps, fd) else (maps, 0)

/-! ## Probes -/

def setArgs (maps : Maps) (operation : Operation) (thread : Thread) (args : Option SslArgs) :
    Maps :=
  { maps with
    activeSslArgs := Function.update maps.activeSslArgs operation
      (Function.update (maps.activeSslArgs operation) thread args) }

/-- The probe at the return of `SSL_new` tells the Node helper only, which ignores it. -/
def retSslNew (maps : Maps) (_ssl : ℕ) : Maps := maps

/-- The probe at the entry of `SSL_free` takes the pointer from the register of return
values. -/
def entrySslFree (maps : Maps) (returnRegister : ℕ) : Maps :=
  { maps with sslToFdMap := Function.update maps.sslToFdMap returnRegister none }

def entrySslSetFd (maps : Maps) (ssl : ℕ) (fd : ℤ) : Maps :=
  if fd ≥ 3 then { maps with sslToFdMap := Function.update maps.sslToFdMap ssl (some fd) } else maps

/-- The probes at the entry of the four functions. -/
def entry (maps : Maps) (operation : Operation) (thread : Thread) (args : SslArgs) : Maps :=
  (maps.requestFdFromSyscall thread).setArgs operation thread (some args)

/-- What the probes at the return of the four functions do with the number of bytes:
attribute them to a file descriptor, remember it and pass the data on. -/
def process (maps : Maps) (operation : Operation) (thread : Thread) (nodeFd : ℤ) (args : SslArgs)
    (bytes : ℤ) : Maps × Option DataCall :=
  if bytes > 0 then
    let (maps, fd) := maps.getFd nodeFd thread args.ssl
    if fd < 3 then (maps.setArgs operation thread none, none)
    else
      ({ maps with sslToFdMap := Function.update maps.sslToFdMap args.ssl (some fd) }.setArgs
          operation thread none,
        some
          { ctx := { id := { pid := thread.pid, fd := fd }, tgid := thread.tid }
            direction := operation.direction
            args := { buf := args.buf, iovcnt := 0 }
            bytes := bytes.toNat
            ssl := true })
  else (maps.setArgs operation thread none, none)

/-- `SSL_read` and `SSL_write` return the number of bytes. -/
def retSsl (maps : Maps) (operation : Operation) (thread : Thread) (nodeFd returned : ℤ) :
    Maps × Option DataCall :=
  match maps.activeSslArgs operation thread with
  | none => (maps, none)
  | some args => maps.process operation thread nodeFd args returned

/-- The number of bytes that the caller of the `ex` variants is told. -/
def exBytes (memory : Memory) (args : SslArgs) : ℕ :=
  if args.exBytes ≠ 0 then ((probeReadUser memory 8 args.exBytes).map leValue).getD 0 else 0

def retSslWriteEx (maps : Maps) (memory : Memory) (thread : Thread) (nodeFd : ℤ) :
    Maps × Option DataCall :=
  match maps.activeSslArgs .write thread with
  | none => (maps, none)
  | some args => maps.process .write thread nodeFd args (exBytes memory args)

/-- Only this one looks at the returned value, and leaves the arguments where they are. -/
def retSslReadEx (maps : Maps) (memory : Memory) (thread : Thread) (nodeFd returned : ℤ) :
    Maps × Option DataCall :=
  if returned < 1 then (maps, none)
  else
    match maps.activeSslArgs .read thread with
    | none => (maps, none)
    | some args => maps.process .read thread nodeFd args (exBytes memory args)

def ret (maps : Maps) (memory : Memory) (operation : Operation) (variant : Variant)
    (thread : Thread) (nodeFd returned : ℤ) : Maps × Option DataCall :=
  match variant, operation with
  | .plain, operation => maps.retSsl operation thread nodeFd returned
  | .ex, .read => maps.retSslReadEx memory thread nodeFd returned
  | .ex, .write => maps.retSslWriteEx memory thread nodeFd

end Maps

/-! ## Processes -/

structure Object where
  pid : ℕ
  ssl : ℕ
  deriving DecidableEq, Repr

/-- A call that has not returned yet. -/
structure Call where
  operation : Operation
  variant : Variant
  ssl : ℕ
  deriving DecidableEq, Repr

/-- Plaintext that is passed on, with the file descriptors of its object at that time. -/
structure Attribution where
  data : DataCall
  object : Object
  own : List ℤ
  deriving DecidableEq, Repr

/-- The maps, and what the processes have really done. -/
structure State where
  maps : Maps
  alive : Object → Bool
  /-- The file descriptors that were set for the object, or used in a system call inside
  a call on it, since its creation. -/
  own : Object → List ℤ
  /-- The calls that a thread is in, the innermost first. -/
  calls : Thread → List Call
  log : List Attribution

def State.initial : State where
  maps :=
    { uprobeFdRequests := fun _ => none
      sslToFdMap := fun _ => none
      activeSslArgs := fun _ _ => none }
  alive := fun _ => false
  own := fun _ => []
  calls := fun _ => []
  log := []

inductive Action where
  | new (object : Object)
  | setFd (object : Object) (fd : ℤ)
  | enter (thread : Thread) (call : Call) (buf exBytes : ℕ)
  /-- A system call on a file descriptor; one that transfers nothing may not respond. -/
  | syscall (thread : Thread) (fd : ℤ) (responds : Bool)
  | leave (thread : Thread) (memory : Memory) (nodeFd returned : ℤ)
  | free (object : Object) (returnRegister : ℕ)
  /-- Entries of the two LRU maps may be evicted. -/
  | evictFd (ssl : ℕ)
  | evictRequest (thread : Thread)

namespace State

/-- A thread uses a file descriptor inside all the calls it is in. -/
def use (state : State) (thread : Thread) (fd : ℤ) : Object → List ℤ := fun object =>
  if object.pid = thread.pid ∧ ∃ call ∈ state.calls thread, call.ssl = object.ssl then
    fd :: state.own object
  else state.own object

/-- The innermost call returns. -/
def ret (state : State) (thread : Thread) (call : Call) (outer : List Call) (memory : Memory)
    (nodeFd returned : ℤ) : State :=
  let object : Object := ⟨thread.pid, call.ssl⟩
  let (maps, data) :=
    state.maps.ret memory call.operation call.variant thread nodeFd returned
  { state with
    maps := maps
    calls := Function.update state.calls thread outer
    log := state.log ++ (data.map fun data => ⟨data, object, state.own object⟩).toList }

def step (state : State) : Action → Option State
  | .new object =>
    if state.alive object then none
    else some
      { state with
        maps := state.maps.retSslNew object.ssl
        alive := Function.update state.alive object true
        own := Function.update state.own object [] }
  | .setFd object fd =>
    if state.alive object then some
      { state with
        maps := state.maps.entrySslSetFd object.ssl fd
        own := Function.update state.own object (fd :: state.own object) }
    else none
  | .enter thread call buf exBytes =>
    if state.alive ⟨thread.pid, call.ssl⟩ then some
      { state with
        maps := state.maps.entry call.operation thread ⟨buf, call.ssl, exBytes⟩
        calls := Function.update state.calls thread (call :: state.calls thread) }
    else none
  | .syscall thread fd responds =>
    some
      { state with
        maps := if responds then state.maps.respondToFdRequest thread fd else state.maps
        own := state.use thread fd }
  | .leave thread memory nodeFd returned =>
    match state.calls thread with
    | [] => none
    | call :: outer => some (state.ret thread call outer memory nodeFd returned)
  | .free object returnRegister =>
    if state.alive object then some
      { state with
        maps := state.maps.entrySslFree returnRegister
        alive := Function.update state.alive object false }
    else none
  | .evictFd ssl =>
    some { state with
      maps := { state.maps with
        sslToFdMap := Function.update state.maps.sslToFdMap ssl none } }
  | .evictRequest thread =>
    some { state with
      maps := { state.maps with
        uprobeFdRequests := Function.update state.maps.uprobeFdRequests thread none } }

end State

end Qtap.Bpf.OpenSsl
