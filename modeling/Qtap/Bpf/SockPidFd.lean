import Qtap.Bpf.Run

/-!
# Sockets by file descriptor

The programs of `sock_pid_fd.bpf.c` follow a socket from its file to the file descriptor
it is installed at and clean up when the file is released.  The kernel releases a file
when the last reference goes, which may be long after the descriptor was closed and used
again.  Every use of a descriptor is a tenancy; the entries of the maps are modelled with
the tenancy they were made for, which the programs do not see.
-/

namespace Qtap.Bpf.SockPidFd

open Qtap.Core

/-- An entry of a map, with the tenancy it was made for. -/
structure Owned (V : Type) where
  value : V
  owner : ℕ

/-- An entry of the table of file descriptors. -/
structure Slot where
  file : ℕ
  tenancy : ℕ

structure State where
  kernel : Kernel
  /-- The tenancy for which each record of a connection was made. -/
  connOwner : List ℕ
  activeFileToSockMap : ℕ → Option ℕ
  pidFdToSockMap : PidFd → Option (Owned ℕ)
  activeFileToPidFdMap : ℕ → Option (Owned PidFd)
  /-- The entries of `active_fd_args_map` for close calls that have not returned. -/
  activeFdArgsMap : Thread → Option (Owned PidFd)
  activeCloseArgsMap : PidFd → Bool
  /-- The files that exist, and how many descriptors refer to each. -/
  files : List ℕ
  references : ℕ → ℕ
  fdTable : PidFd → Option Slot
  tenancies : ℕ

def State.initial : State where
  kernel := Kernel.initial
  connOwner := []
  activeFileToSockMap := fun _ => none
  pidFdToSockMap := fun _ => none
  activeFileToPidFdMap := fun _ => none
  activeFdArgsMap := fun _ => none
  activeCloseArgsMap := fun _ => false
  files := []
  references := fun _ => 0
  fdTable := fun _ => none
  tenancies := 0

inductive Action where
  /-- `sock_alloc_file`, with the probes at its entry and return. -/
  | allocFile (file sock : ℕ)
  /-- `fd_install`, for a new file or one that has a descriptor already. -/
  | fdInstall (id : PidFd) (file : ℕ)
  /-- A connection is made on the socket at the descriptor. -/
  | connect (env : Env) (ctx : SocketCtx) (address : ℕ) (function : ConnectionType)
  /-- Another socket program runs. -/
  | hook (action : Bpf.Action)
  /-- A close call begins and gives the descriptor up. -/
  | enterClose (thread : Thread) (fd : ℤ)
  /-- A close call returns. -/
  | exitClose (thread : Thread)
  /-- A descriptor is given up without a close call. -/
  | dropFd (id : PidFd)
  /-- `__fput`, which releases a file nobody refers to. -/
  | fput (thread : Thread) (file : ℕ)

namespace State

/-! ## Programs -/

def trackFdInstallEntry (state : State) (id : PidFd) (file tenancy : ℕ) : State :=
  match state.activeFileToSockMap file with
  | none => state
  | some sock =>
    { state with
      pidFdToSockMap := Function.update state.pidFdToSockMap id (some ⟨sock, tenancy⟩)
      activeFileToPidFdMap := Function.update state.activeFileToPidFdMap file (some ⟨id, tenancy⟩)
      activeFileToSockMap := Function.update state.activeFileToSockMap file none }

/-- `process_close` where the socket layer still has the connection. -/
def closeKnown (kernel : Kernel) (ctx : SocketCtx) : Kernel :=
  match kernel.connInfoMap ctx.id with
  | none => kernel
  | some _ => kernel.processClose ctx

def cleanupPidFdFileEntries (state : State) (thread : Thread) (file : ℕ) : State :=
  match state.activeFileToPidFdMap file with
  | none => state
  | some key =>
    { state with
      kernel := closeKnown state.kernel ⟨key.value, thread.tid⟩
      activeFileToPidFdMap := Function.update state.activeFileToPidFdMap file none
      pidFdToSockMap := Function.update state.pidFdToSockMap key.value none }

def syscallProbeRetClose (state : State) (thread : Thread) : State :=
  match state.activeFdArgsMap thread with
  | none => state
  | some id =>
    let state :=
      { state with activeFdArgsMap := Function.update state.activeFdArgsMap thread none }
    if state.activeCloseArgsMap id.value then
      { state with
        activeCloseArgsMap := Function.update state.activeCloseArgsMap id.value false
        kernel := state.kernel.processClose ⟨id.value, thread.tid⟩ }
    else state

/-! ## Steps -/

/-- A descriptor no longer refers to its file. -/
def giveUp (state : State) (id : PidFd) (slot : Slot) : State :=
  { state with
    fdTable := Function.update state.fdTable id none
    references := Function.update state.references slot.file (state.references slot.file - 1) }

def step (state : State) : Action → Option State
  | .allocFile file sock =>
    if file ∈ state.files then none
    else some
      { state with
        activeFileToSockMap := Function.update state.activeFileToSockMap file (some sock)
        files := file :: state.files }
  | .fdInstall id file =>
    if file ∈ state.files ∧ (state.fdTable id).isNone then some
      ({ state with
        fdTable := Function.update state.fdTable id (some ⟨file, state.tenancies⟩)
        references := Function.update state.references file (state.references file + 1)
        tenancies := state.tenancies + 1 }.trackFdInstallEntry id file state.tenancies)
    else none
  | .connect env ctx address function =>
    (state.fdTable ctx.id).map fun slot =>
      { state with
        kernel := state.kernel.processSyscallAddr env ctx address function
        connOwner := state.connOwner ++ [slot.tenancy] }
  | .hook action =>
    match action with
    | .connect _ _ _ _ => none
    | .close _ => none
    | action => (state.kernel.step action).map fun kernel => { state with kernel := kernel }
  | .enterClose thread fd =>
    match state.fdTable ⟨thread.pid, fd⟩, state.activeFdArgsMap thread with
    | some slot, none =>
      some (giveUp { state with
        activeFdArgsMap := Function.update state.activeFdArgsMap thread
          (some ⟨⟨thread.pid, fd⟩, slot.tenancy⟩)
        activeCloseArgsMap := Function.update state.activeCloseArgsMap ⟨thread.pid, fd⟩ true }
        ⟨thread.pid, fd⟩ slot)
    | _, _ => none
  | .exitClose thread => some (state.syscallProbeRetClose thread)
  | .dropFd id => (state.fdTable id).map fun slot => state.giveUp id slot
  | .fput thread file =>
    if file ∈ state.files ∧ state.references file = 0 then some
      { state.cleanupPidFdFileEntries thread file with files := state.files.erase file }
    else none

end State

end Qtap.Bpf.SockPidFd
