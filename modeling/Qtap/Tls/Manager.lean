import Qtap.Tls.Coordinator

/-!
# The handlers of process events in the TLS manager

`ProcessStarted`, `ProcessReplaced` and `ProcessStopped` run in goroutines of their own.
Each is cut here where another handler can come between: at the lock regions of the
coordinator, at each access to `procAttachments`, and around the calls of the scanner and
of a closer.  The closers that `Attach` returned are numbered; which of them had their
`Close` called and which processes stopped belongs to the history.
-/

namespace Qtap.Tls

open Qtap.Core

/-- A process; later processes may have the same PID. -/
structure Process where
  pid : ℕ
  incarnation : ℕ
  deriving DecidableEq, Repr

/-- `procAttachment`; the process it was made for belongs to the history. -/
structure ProcAttachment where
  proc : Process
  closer : Option ℕ
  deriving DecidableEq, Repr

/-- The functions that `scanAndAttachProcess` runs under its token. -/
inductive Task where
  | attach
  | store (closer : Option ℕ)
  deriving DecidableEq, Repr

/-- How such a function ended. -/
inductive Result where
  | failed
  | attached (closer : Option ℕ)
  | stored
  deriving DecidableEq, Repr

/-- What is left of a task whose token is stale: `Execute` returns nil and `closer` keeps its
value. -/
def Task.skipped : Task → Result
  | .attach => .attached none
  | .store _ => .stored

/-- Where a call of `Execute` stands. -/
inductive Execution where
  | entering (task : Task)
  | superseding (task : Task) (old : ℕ)
  | waiting (task : Task) (old : ℕ)
  | running (task : Task) (op : ℕ)
  | finishing (op : ℕ) (result : Result)
  | leaving (op : ℕ) (result : Result)
  | returning (op : ℕ) (result : Result)
  deriving DecidableEq, Repr

/-- Where a handler stands.  A detach on behalf of `ProcessReplaced` carries the token for
the scan that follows. -/
inductive Stage where
  | checking (token : OpToken ℕ)
  | loading (token : Option (OpToken ℕ))
  | closing (token : Option (OpToken ℕ)) (found : ProcAttachment)
  | deleting (token : Option (OpToken ℕ))
  | scanning (token : OpToken ℕ)
  | executing (token : OpToken ℕ) (execution : Execution)
  deriving DecidableEq, Repr

structure Handler where
  proc : Process
  stage : Stage
  deriving DecidableEq, Repr

inductive Kind where
  | started
  | replaced
  | stopped
  deriving DecidableEq, Repr

/-- What the process, the scanner or a closer answers. -/
inductive Answer where
  | ok
  | nothing
  | failed
  deriving DecidableEq, Repr

structure Manager where
  procCoordinator : Coordinator ℕ
  procAttachments : ℕ → Option ProcAttachment
  handlers : ℕ → Option Handler
  closers : ℕ
  closed : ℕ → Bool
  stopped : Process → Bool

namespace Manager

inductive Action where
  | call (handler : ℕ) (kind : Kind) (proc : Process) (exe : String)
  | advance (handler : ℕ) (answer : Answer)
  deriving DecidableEq, Repr

/-- `newTlsManager`. -/
def initial : Manager where
  procCoordinator := .empty
  procAttachments := fun _ => none
  handlers := fun _ => none
  closers := 0
  closed := fun _ => false
  stopped := fun _ => false

def setStage (manager : Manager) (handler : ℕ) (proc : Process) (stage : Stage) : Manager :=
  { manager with handlers := Function.update manager.handlers handler (some ⟨proc, stage⟩) }

def exit (manager : Manager) (handler : ℕ) : Manager :=
  { manager with handlers := Function.update manager.handlers handler none }

def coordinate (manager : Manager) (coordinator : Coordinator ℕ) : Manager :=
  { manager with procCoordinator := coordinator }

/-- `closer.Close()`. -/
def close (manager : Manager) (closer : ℕ) : Manager :=
  { manager with closed := Function.update manager.closed closer true }

def store (manager : Manager) (pid : ℕ) (attachment : Option ProcAttachment) : Manager :=
  { manager with procAttachments := Function.update manager.procAttachments pid attachment }

/-- After `detachProcess`: `ProcessStopped` returns, `ProcessReplaced` scans. -/
def detached (manager : Manager) (handler : ℕ) (proc : Process) :
    Option (OpToken ℕ) → Manager
  | none => manager.exit handler
  | some token => manager.setStage handler proc (.scanning token)

/-- After `Execute` with the error of its function. -/
def executed (manager : Manager) (handler : ℕ) (proc : Process) (token : OpToken ℕ) :
    Result → Manager
  | .attached closer =>
    manager.setStage handler proc (.executing token (.entering (.store closer)))
  | .stored => manager.exit handler
  | .failed => manager.exit handler

/-- After a lock region of `Execute` that may begin the operation. -/
def proceed (manager : Manager) (handler : ℕ) (proc : Process) (token : OpToken ℕ) (task : Task) :
    Coordinator.Entry → Manager
  | .stale => manager.executed handler proc token task.skipped
  | .blocked old => manager.setStage handler proc (.executing token (.superseding task old))
  | .begun op => manager.setStage handler proc (.executing token (.running task op))

/-- The function under the token. -/
def perform (manager : Manager) (proc : Process) (answer : Answer) : Task → Manager × Result
  | .attach =>
    match answer with
    | .ok => ({ manager with closers := manager.closers + 1 }, .attached (some manager.closers))
    | .nothing => (manager, .attached none)
    | .failed => (manager, .failed)
  | .store closer => (manager.store proc.pid (some ⟨proc, closer⟩), .stored)

/-- `opToken.Execute`. -/
def execute (manager : Manager) (handler : ℕ) (proc : Process) (token : OpToken ℕ)
    (answer : Answer) : Execution → Option Manager
  | .entering task =>
    let entry := manager.procCoordinator.enter token
    some ((manager.coordinate entry.1).proceed handler proc token task entry.2)
  | .superseding task old =>
    some ((manager.coordinate (manager.procCoordinator.cancel old)).setStage handler proc
      (.executing token (.waiting task old)))
  | .waiting task old =>
    if manager.procCoordinator.done old then
      let entry := manager.procCoordinator.reenter token
      some ((manager.coordinate entry.1).proceed handler proc token task entry.2)
    else none
  | .running task op =>
    let performed := manager.perform proc answer task
    some (performed.1.setStage handler proc (.executing token (.finishing op performed.2)))
  | .finishing op result =>
    some ((manager.coordinate (manager.procCoordinator.finish op)).setStage handler proc
      (.executing token (.leaving op result)))
  | .leaving op result =>
    some ((manager.coordinate (manager.procCoordinator.leave token.key op)).setStage handler proc
      (.executing token (.returning op result)))
  | .returning op result =>
    -- the cause of a cancelled context is `ErrOpSuperseded`, whatever the function returned
    some (if manager.procCoordinator.cancelled op then manager.exit handler
      else manager.executed handler proc token result)

/-- The next step of a handler. -/
def advance (manager : Manager) (handler : ℕ) (proc : Process) (answer : Answer) :
    Stage → Option Manager
  | .checking token =>
    -- `Exited`, the strategy and `IsFiltered`
    some (if answer = .ok then manager.setStage handler proc (.scanning token)
      else manager.exit handler)
  | .loading token =>
    some (match manager.procAttachments proc.pid with
      | none => manager.detached handler proc token
      | some found => manager.setStage handler proc (.closing token found))
  | .closing token found =>
    some (match found.closer with
      | none => manager.setStage handler proc (.deleting token)
      | some closer =>
        if answer = .ok then (manager.close closer).setStage handler proc (.deleting token)
        else (manager.close closer).exit handler)
  | .deleting token => some ((manager.store proc.pid none).detached handler proc token)
  | .scanning token =>
    some (if answer = .ok then
        manager.setStage handler proc (.executing token (.entering .attach))
      else manager.exit handler)
  | .executing token execution => manager.execute handler proc token answer execution

/-- The token that `Start` returns. -/
def nextToken (manager : Manager) (handler pid : ℕ) : OpToken ℕ :=
  ⟨pid, manager.procCoordinator.version pid + 1, handler⟩

def halt (manager : Manager) (proc : Process) : Manager :=
  { manager with stopped := Function.update manager.stopped proc true }

/-- A handler up to its `Start` or `Cleanup`; a process without an executable is none. -/
def begin (manager : Manager) (handler : ℕ) (proc : Process) (exe : String) : Kind → Manager
  | .started =>
    if exe = "" then manager
    else (manager.coordinate (manager.procCoordinator.start proc.pid)).setStage handler proc
      (.checking (manager.nextToken handler proc.pid))
  | .replaced =>
    if exe = "" then manager
    else (manager.coordinate (manager.procCoordinator.start proc.pid)).setStage handler proc
      (.loading (some (manager.nextToken handler proc.pid)))
  | .stopped =>
    if exe = "" then manager.halt proc
    else ((manager.halt proc).coordinate
      (manager.procCoordinator.cleanup proc.pid true)).setStage handler proc (.loading none)

def step (manager : Manager) : Action → Option Manager
  | .call handler kind proc exe =>
    if manager.handlers handler = none then some (manager.begin handler proc exe kind) else none
  | .advance handler answer =>
    match manager.handlers handler with
    | some info => manager.advance handler info.proc answer info.stage
    | none => none

section Inversion

variable {manager next : Manager} {handler : ℕ}

theorem call_eq_some {kind : Kind} {proc : Process} {exe : String}
    (hnext : manager.step (.call handler kind proc exe) = some next) :
    manager.handlers handler = none ∧ next = manager.begin handler proc exe kind := by
  rw [step, Option.ite_none_right_eq_some] at hnext
  exact ⟨hnext.1, (Option.some.inj hnext.2).symm⟩

theorem advance_eq_some {answer : Answer}
    (hnext : manager.step (.advance handler answer) = some next) :
    ∃ info, manager.handlers handler = some info ∧
      manager.advance handler info.proc answer info.stage = some next := by
  simp only [step] at hnext
  split at hnext
  next info hinfo => exact ⟨info, hinfo, hnext⟩
  next => cases hnext

end Inversion

end Manager

end Qtap.Tls
