import Qtap.Core.Channel
import Qtap.Core.Transition

/-!
# The command queue of a plugin connection

Callers put their commands into a bounded queue, a worker goroutine executes them one after the
other, and `Teardown` closes the queue, waits for the worker and destroys the plugin instances.
When the context of the connection is cancelled the worker goes on only until a deadline.

A send in `enqueue` does not look whether the queue is closed.  Up to there the commands are
executed in the order in which they were accepted, and before the instances are destroyed unless
the deadline has stopped the worker.
-/

namespace Qtap.Plugins.Commands

open List Qtap.Core

variable {C I : Type*}

def commandQueueSize : ℕ := 8192

inductive Worker (C : Type*) where
  | selecting (draining : Bool)
  | executing (draining : Bool) (cmd : C)
  /-- The worker has returned, at the end of the queue or at the deadline. -/
  | returned (deadline : Bool)
  deriving DecidableEq, Repr

/-- How far the function of `shutdownOnce` has come. -/
inductive Shutdown (I : Type*) where
  | fresh
  | closing
  | awaiting
  | destroying (instances : List I)
  | done
  deriving DecidableEq, Repr

structure State (C I : Type*) where
  stack : List I
  cancelled : Bool
  commandQueue : Channel C commandQueueSize
  worker : Worker C
  shutdown : Shutdown I
  accepted : List C
  rejected : List C
  executed : List C
  destroyed : List I
  panicked : Bool

inductive Action (C : Type*) where
  | enqueue (cmd : C)
  | teardown
  | cancel
  /-- The worker finds its queue ready, or else its context or deadline. -/
  | receive
  | expire
  | execute
  /-- The next step of the function of `shutdownOnce`. -/
  | shutdown
  deriving DecidableEq, Repr

namespace State

def enqueue (state : State C I) (cmd : C) : State C I :=
  match state.commandQueue.send cmd with
  | .done commandQueue =>
    { state with commandQueue := commandQueue, accepted := state.accepted ++ [cmd] }
  | .blocked => { state with rejected := state.rejected ++ [cmd] }
  | .panic => { state with panicked := true }

/-- Only the first call runs the function; the others wait for it to return. -/
def teardown (state : State C I) : State C I :=
  match state.shutdown with
  | .fresh => { state with shutdown := .closing }
  | _ => state

def receive (state : State C I) : Option (State C I) :=
  match state.worker with
  | .selecting draining =>
    match state.commandQueue.receive with
    | .value cmd commandQueue =>
      some { state with commandQueue := commandQueue, worker := .executing draining cmd }
    | .ended => some { state with worker := .returned false }
    | .blocked => none
  | _ => none

def expire (state : State C I) : Option (State C I) :=
  match state.worker with
  | .selecting false =>
    if state.cancelled then some { state with worker := .selecting true } else none
  | .selecting true => some { state with worker := .returned true }
  | _ => none

/-- An error of the command is only logged. -/
def execute (state : State C I) : Option (State C I) :=
  match state.worker with
  | .executing draining cmd =>
    some { state with worker := .selecting draining, executed := state.executed ++ [cmd] }
  | _ => none

def runShutdown (state : State C I) : Option (State C I) :=
  match state.shutdown with
  | .closing =>
    match state.commandQueue.close with
    | some commandQueue => some { state with commandQueue := commandQueue, shutdown := .awaiting }
    | none => some { state with panicked := true }
  | .awaiting =>
    match state.worker with
    | .returned _ => some { state with shutdown := .destroying state.stack }
    | _ => none
  | .destroying (plugin :: instances) =>
    some { state with
      shutdown := .destroying instances, destroyed := state.destroyed ++ [plugin] }
  | .destroying [] => some { state with shutdown := .done }
  | _ => none

def initial (stack : List I) : State C I where
  stack := stack
  cancelled := false
  commandQueue := .empty
  worker := .selecting false
  shutdown := .fresh
  accepted := []
  rejected := []
  executed := []
  destroyed := []
  panicked := false

end State

def perform (state : State C I) : Action C → Option (State C I)
  | .enqueue cmd => some (state.enqueue cmd)
  | .teardown => some state.teardown
  | .cancel => some { state with cancelled := true }
  | .receive => state.receive
  | .expire => state.expire
  | .execute => state.execute
  | .shutdown => state.runShutdown

/-- A panic ends the program. -/
def step (state : State C I) (action : Action C) : Option (State C I) :=
  if state.panicked then none else perform state action

theorem step_eq_perform {state : State C I} {action : Action C} (hsound : state.panicked = false) :
    step state action = perform state action := by
  rw [step, hsound]
  rfl

/-- No command is sent on the queue once it is closed. -/
def Open (state : State C I) : Action C → Prop
  | .enqueue _ => state.commandQueue.closed = false
  | _ => True

/-- Steps of the worker that work off the queue. -/
def Action.OfWorker (action : Action C) : Prop := action = .receive ∨ action = .execute

/-! ## Custody of the commands -/

def Worker.inHand : Worker C → List C
  | .selecting _ => []
  | .executing _ cmd => [cmd]
  | .returned _ => []

/-- What holds of the queue, the worker and the instances at each point of the shutdown. -/
def Staged (state : State C I) : Shutdown I → Prop
  | .fresh | .closing => state.commandQueue.closed = false ∧ state.destroyed = []
  | .awaiting => state.commandQueue.closed = true ∧ state.destroyed = []
  | .destroying instances => state.commandQueue.closed = true ∧
      (∃ deadline, state.worker = .returned deadline) ∧ state.destroyed ++ instances = state.stack
  | .done => state.commandQueue.closed = true ∧
      (∃ deadline, state.worker = .returned deadline) ∧ state.destroyed = state.stack

structure Kept (state : State C I) : Prop where
  sound : state.panicked = false
  custody : state.accepted = state.executed ++ state.worker.inHand ++ state.commandQueue.buffer
  drained : state.worker = .returned false →
    state.commandQueue.buffer = [] ∧ state.commandQueue.closed = true
  staged : Staged state state.shutdown

theorem kept_initial (stack : List I) : Kept (State.initial stack : State C I) :=
  ⟨rfl, rfl, nofun, rfl, rfl⟩

/-- A stage does not depend on the commands. -/
theorem Staged.congr {state next : State C I} {shutdown : Shutdown I}
    (hstaged : Staged state shutdown)
    (hworker : ∀ deadline, state.worker = .returned deadline → next.worker = .returned deadline :=
      by exact fun _ => id)
    (hclosed : next.commandQueue.closed = state.commandQueue.closed := by rfl)
    (hdestroyed : next.destroyed = state.destroyed := by rfl)
    (hstack : next.stack = state.stack := by rfl) : Staged next shutdown := by
  cases shutdown with
  | fresh | closing | awaiting => exact ⟨hclosed.trans hstaged.1, hdestroyed.trans hstaged.2⟩
  | destroying instances | done =>
    obtain ⟨hbefore, ⟨deadline, hreturned⟩, hinstances⟩ := hstaged
    refine ⟨hclosed.trans hbefore, ⟨deadline, hworker deadline hreturned⟩, ?_⟩
    rw [hdestroyed, hstack, hinstances]

namespace Kept

variable {state next : State C I} (hkept : Kept state)

include hkept

theorem enqueue {cmd : C} (hopen : state.commandQueue.closed = false) :
    Kept (state.enqueue cmd) := by
  rw [State.enqueue]
  split
  next hsend =>
    obtain ⟨-, hstill, hbuffer⟩ := Channel.send_eq_done hsend
    refine ⟨hkept.sound, ?_, fun hreturned => ?_, ?_⟩
    · rw [hkept.custody, hbuffer, append_assoc]
    · exact absurd (hkept.drained hreturned).2 (by rw [hopen]; nofun)
    · exact hkept.staged.congr (fun _ => id) (hstill.trans hopen.symm)
  · exact ⟨hkept.sound, hkept.custody, hkept.drained, hkept.staged.congr⟩
  next hsend =>
    rw [Channel.send_eq_panic, hopen] at hsend
    cases hsend

theorem teardown : Kept state.teardown := by
  rw [State.teardown]
  split
  next hfresh =>
    have hstaged := hkept.staged
    rw [hfresh] at hstaged
    exact ⟨hkept.sound, hkept.custody, hkept.drained, hstaged⟩
  · exact hkept

theorem cancel : Kept { state with cancelled := true } :=
  ⟨hkept.sound, hkept.custody, hkept.drained, hkept.staged.congr⟩

theorem receive (hnext : state.receive = some next) : Kept next := by
  rw [State.receive] at hnext
  split at hnext
  next hworker =>
    have hcustody := hkept.custody
    rw [hworker] at hcustody
    have hrunning : ∀ deadline, state.worker ≠ .returned deadline := by
      rw [hworker]
      nofun
    split at hnext
    next hreceive =>
      obtain ⟨hbuffer, hclosed⟩ := Channel.receive_eq_value hreceive
      cases hnext
      refine ⟨hkept.sound, ?_, nofun, hkept.staged.congr ?_ hclosed⟩
      · rw [hcustody, hbuffer]
        simp [Worker.inHand]
      · exact fun deadline hreturned => absurd hreturned (hrunning deadline)
    next hreceive =>
      cases hnext
      refine ⟨hkept.sound, hcustody, fun _ => Channel.receive_eq_ended hreceive,
        hkept.staged.congr ?_⟩
      exact fun deadline hreturned => absurd hreturned (hrunning deadline)
    · cases hnext
  · cases hnext

theorem expire (hnext : state.expire = some next) : Kept next := by
  rw [State.expire] at hnext
  have hcustody := hkept.custody
  split at hnext
  next hworker =>
    rw [hworker] at hcustody
    split at hnext <;> cases hnext
    refine ⟨hkept.sound, hcustody, nofun, hkept.staged.congr ?_⟩
    rw [hworker]
    nofun
  next hworker =>
    rw [hworker] at hcustody
    cases hnext
    refine ⟨hkept.sound, hcustody, nofun, hkept.staged.congr ?_⟩
    rw [hworker]
    nofun
  · cases hnext

theorem execute (hnext : state.execute = some next) : Kept next := by
  rw [State.execute] at hnext
  split at hnext
  next hworker =>
    have hcustody := hkept.custody
    rw [hworker] at hcustody
    cases hnext
    refine ⟨hkept.sound, ?_, nofun, hkept.staged.congr ?_⟩
    · rw [hcustody]
      simp [Worker.inHand]
    · rw [hworker]
      nofun
  · cases hnext

theorem runShutdown (hnext : state.runShutdown = some next) : Kept next := by
  have hstaged := hkept.staged
  rw [State.runShutdown] at hnext
  split at hnext
  next hclosing =>
    rw [hclosing] at hstaged
    split at hnext
    next hclose =>
      obtain ⟨-, hclosed, hbuffer⟩ := Channel.close_eq_some hclose
      cases hnext
      refine ⟨hkept.sound, ?_, fun hreturned => ?_, hclosed, hstaged.2⟩
      · rw [hkept.custody, hbuffer]
      · exact ⟨hbuffer.trans (hkept.drained hreturned).1, hclosed⟩
    next hclose =>
      rw [Channel.close_eq_none, hstaged.1] at hclose
      cases hclose
  next hawaiting =>
    rw [hawaiting] at hstaged
    split at hnext
    next deadline hworker =>
      cases hnext
      refine ⟨hkept.sound, hkept.custody, hkept.drained, hstaged.1, ⟨deadline, hworker⟩, ?_⟩
      rw [hstaged.2, nil_append]
    · cases hnext
  next hdestroying =>
    rw [hdestroying] at hstaged
    cases hnext
    refine ⟨hkept.sound, hkept.custody, hkept.drained, hstaged.1, hstaged.2.1, ?_⟩
    rw [append_assoc]
    exact hstaged.2.2
  next hdestroying =>
    rw [hdestroying] at hstaged
    cases hnext
    refine ⟨hkept.sound, hkept.custody, hkept.drained, hstaged.1, hstaged.2.1, ?_⟩
    exact (append_nil _).symm.trans hstaged.2.2
  · cases hnext

theorem step {action : Action C} (hopen : Open state action)
    (hnext : Commands.step state action = some next) : Kept next := by
  rw [step_eq_perform hkept.sound] at hnext
  cases action with
  | enqueue =>
    cases hnext
    exact hkept.enqueue hopen
  | teardown =>
    cases hnext
    exact hkept.teardown
  | cancel =>
    cases hnext
    exact hkept.cancel
  | receive => exact hkept.receive hnext
  | expire => exact hkept.expire hnext
  | execute => exact hkept.execute hnext
  | shutdown => exact hkept.runShutdown hnext

/-! ## What follows for the commands -/

theorem executed_isPrefix : state.executed <+: state.accepted := by
  rw [hkept.custody, append_assoc]
  exact prefix_append _ _

theorem executed_eq_of_drained (hworker : state.worker = .returned false) :
    state.executed = state.accepted := by
  rw [hkept.custody, hworker, (hkept.drained hworker).1, Worker.inHand, append_nil, append_nil]

/-- The instances are destroyed after the worker has returned. -/
theorem executed_of_destroyed (hdestroyed : state.destroyed ≠ []) :
    state.executed = state.accepted ∨ state.worker = .returned true := by
  have hreturned : ∃ deadline, state.worker = .returned deadline := by
    have hstaged := hkept.staged
    cases hshutdown : state.shutdown with
    | fresh | closing | awaiting =>
      rw [hshutdown] at hstaged
      exact absurd hstaged.2 hdestroyed
    | destroying instances | done =>
      rw [hshutdown] at hstaged
      exact hstaged.2.1
  obtain ⟨deadline, hworker⟩ := hreturned
  cases deadline with
  | false => exact .inl (hkept.executed_eq_of_drained hworker)
  | true => exact .inr hworker

/-- An open queue takes a command or answers with an error. -/
theorem exists_enqueue (hopen : state.commandQueue.closed = false) (cmd : C) :
    ∃ next, Commands.step state (.enqueue cmd) = some next ∧ next.panicked = false ∧
      (next.accepted = state.accepted ++ [cmd] ∧ next.rejected = state.rejected ∨
        next.accepted = state.accepted ∧ next.rejected = state.rejected ++ [cmd]) := by
  refine ⟨state.enqueue cmd, step_eq_perform hkept.sound, (hkept.enqueue hopen).sound, ?_⟩
  rw [State.enqueue]
  split
  · exact .inl ⟨rfl, rfl⟩
  · exact .inr ⟨rfl, rfl⟩
  next hsend =>
    rw [Channel.send_eq_panic, hopen] at hsend
    cases hsend

end Kept

/-! ## Working off the queue -/

section Progress

variable {state : State C I}

/-- A worker that waits for commands executes what is in the queue. -/
theorem exists_execute {draining : Bool} (hsound : state.panicked = false)
    (hworker : state.worker = .selecting draining) :
    ∃ actions after, (∀ action ∈ actions, action.OfWorker) ∧
      runActions step state actions = some after ∧
      after.executed = state.executed ++ state.commandQueue.buffer := by
  induction hbuffer : state.commandQueue.buffer generalizing state with
  | nil => exact ⟨[], state, nofun, rfl, (append_nil _).symm⟩
  | cons cmd buffer ih =>
    obtain ⟨commandQueue, hreceive, hrest⟩ := Channel.exists_receive hbuffer
    have htaken : step state .receive =
        some { state with commandQueue := commandQueue, worker := .executing draining cmd } := by
      rw [step_eq_perform hsound, perform, State.receive]
      simp only [hworker, hreceive]
    have hexecuted : step
        { state with commandQueue := commandQueue, worker := .executing draining cmd } .execute =
        some { state with
          commandQueue := commandQueue
          worker := .selecting draining
          executed := state.executed ++ [cmd] } :=
      step_eq_perform hsound
    obtain ⟨actions, after, hactions, hrun, hafter⟩ := @ih { state with
          commandQueue := commandQueue
          worker := .selecting draining
          executed := state.executed ++ [cmd] } hsound rfl hrest
    refine ⟨.receive :: .execute :: actions, after, ?_, ?_, ?_⟩
    · exact forall_mem_cons.2 ⟨.inl rfl, forall_mem_cons.2 ⟨.inr rfl, hactions⟩⟩
    · exact runActions.cons_eq_some_iff.2 ⟨_, htaken,
        runActions.cons_eq_some_iff.2 ⟨_, hexecuted, hrun⟩⟩
    · rw [hafter, append_assoc, singleton_append]

/-- A worker that the deadline has not stopped executes all that was accepted. -/
theorem Kept.exists_execute (hkept : Kept state) (hworker : state.worker ≠ .returned true) :
    ∃ (actions : List (Action C)) (after : State C I), (∀ action ∈ actions, action.OfWorker) ∧
      runActions Commands.step state actions = some after ∧
      after.executed = state.accepted := by
  cases hphase : state.worker with
  | selecting =>
    obtain ⟨actions, after, hactions, hrun, hafter⟩ :=
      Commands.exists_execute hkept.sound hphase
    refine ⟨actions, after, hactions, hrun, ?_⟩
    rw [hafter, hkept.custody, hphase, Worker.inHand, append_nil]
  | executing draining cmd =>
    have hexecuted : Commands.step state .execute = some { state with
        worker := .selecting draining, executed := state.executed ++ [cmd] } := by
      rw [step_eq_perform hkept.sound, perform, State.execute, hphase]
    obtain ⟨actions, after, hactions, hrun, hafter⟩ := @Commands.exists_execute C I
      { state with worker := .selecting draining, executed := state.executed ++ [cmd] }
      draining hkept.sound rfl
    refine ⟨.execute :: actions, after, forall_mem_cons.2 ⟨.inr rfl, hactions⟩,
      runActions.cons_eq_some_iff.2 ⟨_, hexecuted, hrun⟩, ?_⟩
    rw [hafter, hkept.custody, hphase, Worker.inHand]
  | returned deadline =>
    cases deadline with
    | false => exact ⟨[], state, nofun, rfl, hkept.executed_eq_of_drained hphase⟩
    | true => exact absurd hphase hworker

end Progress

variable {state : State C I}

/-- Two commands, two calls of `Teardown` while the second is in the queue, and two instances. -/
def busyTeardown : List (Action ℕ) :=
  [.enqueue 1, .receive, .enqueue 2, .teardown, .teardown, .execute, .shutdown, .receive, .execute,
    .receive, .shutdown, .shutdown, .shutdown, .shutdown]

end Qtap.Plugins.Commands
