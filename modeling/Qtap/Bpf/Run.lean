import Qtap.Core.Transition
import Qtap.Core.Trace
import Qtap.Bpf.Socket

/-!
# Runs of the socket programs

Hooks run on any CPU and share the connection map.  A hook keeps a pointer to the record
it has looked up; an entry that is replaced or deleted meanwhile leaves the old record to
those who hold a pointer to it.  Two hooks are split where another CPU may come between:
`process_syscall_addr` after it has put the record into the map, and `process_data` after
the protocol detection.
-/

namespace Qtap.Bpf

open Qtap.Core

/-- A hook that has begun. -/
inductive Task where
  | opening (ctx : SocketCtx)
  | submitting (call : DataCall) (ref : ℕ) (findings : Findings)
  deriving DecidableEq, Repr

/-- An event with the protocol recorded for its connection when it was submitted. -/
structure Entry where
  event : Event
  recorded : Protocol
  deriving DecidableEq, Repr

structure Kernel where
  /-- The map, with the number of the record for each file descriptor. -/
  connInfoMap : PidFd → Option ℕ
  records : List ConnInfo
  tasks : List Task
  log : List Entry

def Kernel.initial : Kernel where
  connInfoMap := fun _ => none
  records := []
  tasks := []
  log := []

inductive Action where
  /-- `process_syscall_addr` puts a record into the map. -/
  | connect (env : Env) (ctx : SocketCtx) (address : ℕ) (function : ConnectionType)
  /-- A hook that has begun goes on to its end. -/
  | resume (env : Env) (index : ℕ)
  | init (env : Env) (ctx : SocketCtx) (direction : Direction) (args : DataArgs) (bytes : ℕ)
  /-- `process_data` up to the protocol detection. -/
  | data (env : Env) (call : DataCall)
  | close (ctx : SocketCtx)

namespace Kernel

/-- A program works on a record through its pointer. -/
def update (kernel : Kernel) (ref : ℕ) (program : ConnInfo → ConnInfo × List Event) : Kernel :=
  match kernel.records[ref]? with
  | none => kernel
  | some conn =>
    { kernel with
      records := kernel.records.set ref (program conn).1
      log := kernel.log ++ (program conn).2.map fun event => ⟨event, (program conn).1.protocol⟩ }

/-- A program looks up the record of a connection and works on it. -/
def lookup (kernel : Kernel) (id : PidFd) (program : ConnInfo → ConnInfo × List Event) : Kernel :=
  match kernel.connInfoMap id with
  | none => kernel
  | some ref => kernel.update ref program

def processSyscallAddr (kernel : Kernel) (env : Env) (ctx : SocketCtx) (address : ℕ)
    (function : ConnectionType) : Kernel :=
  { kernel with
    connInfoMap := Function.update kernel.connInfoMap ctx.id (some kernel.records.length)
    records := kernel.records ++ [newConnInfo env ctx address function]
    tasks := kernel.tasks ++ [.opening ctx] }

def resume (kernel : Kernel) (env : Env) (task : Task) : Kernel :=
  match task with
  | .opening ctx => kernel.lookup ctx.id (submitOpenEvent env ctx)
  | .submitting call ref findings => kernel.update ref (finishData env call findings)

def processData (kernel : Kernel) (env : Env) (call : DataCall) : Kernel :=
  if hasData call.args call.bytes then
    match kernel.connInfoMap call.ctx.id with
    | none => kernel
    | some ref =>
      match kernel.records[ref]? with
      | none => kernel
      | some conn =>
        { kernel with
          records := kernel.records.set ref (beginData env call conn).1
          tasks := kernel.tasks ++
            ((beginData env call conn).2.map (Task.submitting call ref)).toList }
  else kernel

def processClose (kernel : Kernel) (ctx : SocketCtx) : Kernel :=
  { kernel.lookup ctx.id (fun conn => (conn, submitCloseEvent conn)) with
    connInfoMap := Function.update kernel.connInfoMap ctx.id none }

def step (kernel : Kernel) : Action → Option Kernel
  | .connect env ctx address function => some (kernel.processSyscallAddr env ctx address function)
  | .resume env index =>
    (kernel.tasks[index]?).map fun task =>
      { kernel with tasks := kernel.tasks.eraseIdx index }.resume env task
  | .init env ctx direction args bytes =>
    some (if hasData args bytes then
      kernel.lookup ctx.id (initConn env ctx direction args bytes) else kernel)
  | .data env call => some (kernel.processData env call)
  | .close ctx => some (kernel.processClose ctx)

end Kernel

end Qtap.Bpf
