import Qtap.Core.Ledger
import Qtap.Mysql.Correlation

/-!
# Ownership of the plugin connections

A plugin connection belongs to its command: while the command waits for a response it is in the
queue, and while its result set is collected it is the active one.  Every path on which a command
leaves these two places tears its connection down, except one: `Close` does not look at the active
command.
-/

namespace Qtap.Mysql

open Correlation List Qtap.Core Qtap.Connection

/-- The plugin connections that were created, in order. -/
def created (outputs : List Output) : List ℕ :=
  outputs.filterMap fun
    | .command conn _ _ => some conn
    | _ => none

/-- The plugin connections that were torn down, in order. -/
def tornDown (outputs : List Output) : List ℕ :=
  outputs.filterMap fun
    | .teardown conn => some conn
    | _ => none

@[simp]
theorem created_append (first second : List Output) :
    created (first ++ second) = created first ++ created second :=
  filterMap_append

@[simp]
theorem tornDown_append (first second : List Output) :
    tornDown (first ++ second) = tornDown first ++ tornDown second :=
  filterMap_append

section Outputs

variable (pending : PendingCommand)

@[simp]
theorem created_report (response : Response) (writeBytes : ℕ) :
    created (report pending response writeBytes) = [] := by
  rw [report]
  split <;> rfl

@[simp]
theorem tornDown_report (response : Response) (writeBytes : ℕ) :
    tornDown (report pending response writeBytes) = pending.pluginConn.toList := by
  rw [report]
  split <;> rename_i hconn <;> rw [hconn] <;> rfl

@[simp]
theorem created_teardown : created (teardown pending) = [] := by
  rw [teardown]
  split <;> rfl

@[simp]
theorem tornDown_teardown : tornDown (teardown pending) = pending.pluginConn.toList := by
  rw [teardown]
  split <;> rename_i hconn <;> rw [hconn] <;> rfl

@[simp]
theorem created_commandOutputs (packet : Packet) :
    created (commandOutputs pending packet) = pending.pluginConn.toList := by
  rw [commandOutputs]
  split <;> rename_i hconn <;> rw [hconn] <;> rfl

@[simp]
theorem tornDown_commandOutputs (packet : Packet) :
    tornDown (commandOutputs pending packet) = [] := by
  rw [commandOutputs]
  split <;> rfl

end Outputs

/-- The connections of the commands. -/
def connections (commands : List PendingCommand) : List ℕ :=
  commands.flatMap fun pending => pending.pluginConn.toList

@[simp]
theorem connections_nil : connections [] = [] := rfl

@[simp]
theorem connections_cons (pending : PendingCommand) (commands : List PendingCommand) :
    connections (pending :: commands) = pending.pluginConn.toList ++ connections commands :=
  flatMap_cons

@[simp]
theorem connections_append (first second : List PendingCommand) :
    connections (first ++ second) = connections first ++ connections second :=
  flatMap_append

theorem tornDown_flatMap_teardown (commands : List PendingCommand) :
    tornDown (commands.flatMap teardown) = connections commands :=
  filterMap_flatMap.trans (congrArg commands.flatMap (funext tornDown_teardown))

theorem created_flatMap_teardown (commands : List PendingCommand) :
    created (commands.flatMap teardown) = [] :=
  filterMap_flatMap.trans (flatMap_eq_nil_iff.2 fun pending _ => created_teardown pending)

/-! ## No response is lost in a panic -/

/-- A response is parsed or refused: the command that was taken from the queue for it is not
dropped on the way. -/
theorem not_panics_parseResponse (packet : Packet) : ¬ (parseResponse packet).outcome.Panics := by
  have hreturns : ∀ {A B : Type} {exec : Read A} {next : A → B} {post : A → Prop},
      exec.Returns post → ¬ (exec.bind fun value => Exec.ok (next value)).outcome.Panics := by
    rintro A B exec next post ⟨value, hvalue, -⟩
    have hbind : (exec.bind fun value => Exec.ok (next value)).outcome = .ok (next value) :=
      Exec.bind_outcome_eq_ok_iff.2 ⟨value, hvalue, rfl⟩
    rw [hbind]
    exact Outcome.not_panics_ok _
  rw [parseResponse]
  split
  · exact Outcome.not_panics_err _
  next first rest hpayload =>
    dsimp only
    split_ifs with hok herr heof hshort hlocal
    · exact hreturns (returns_parseOKPacket first rest (.inl hok))
    · rw [herr]
      rcases rest with _ | ⟨codeLow, _ | ⟨codeHigh, text⟩⟩
      · exact Outcome.not_panics_err _
      · exact Outcome.not_panics_err _
      · exact hreturns (returns_parseERRPacket codeLow codeHigh text)
    · exact Outcome.not_panics_ok _
    · exact hreturns (returns_parseOKPacket first rest (.inr heof))
    · exact Outcome.not_panics_ok _
    · rcases readLengthEncodedInt_course (first :: rest) with ⟨_, herror⟩ | hcount
      · rw [herror]
        exact Outcome.not_panics_err _
      · exact hreturns hcount

/-! ## The ledger of the connections -/

namespace Correlation

/-- The connections that the stream still holds. -/
def held (state : Correlation) : List ℕ :=
  connections (state.active.toList.map ActiveResultSet.command) ++ connections state.pendingCommands

structure Accounted (state : Correlation) : Prop where
  ledger : Balanced (created state.outputs) (tornDown state.outputs) state.held
  fresh : ∀ conn ∈ created state.outputs, conn < state.requested

theorem openPlugin_eq_some {env : Env} {requested conn : ℕ} {cmd : Byte}
    (hconn : openPlugin env requested cmd = some conn) :
    conn = requested ∧ requestedAfter env requested cmd = requested + 1 := by
  rw [openPlugin] at hconn
  rw [requestedAfter]
  split at hconn
  · cases hconn
  next hmanager =>
    split at hconn
    next huses =>
      obtain ⟨huses, -⟩ := Bool.and_eq_true_iff.1 huses
      cases hconn
      rw [hmanager, huses]
      exact ⟨rfl, rfl⟩
    · cases hconn

namespace Accounted

variable {state : Correlation} (haccounted : state.Accounted)

include haccounted

/-- A step that leaves the requests alone and releases what it tears down. -/
theorem advance {next : Correlation} {outputs : List Output}
    (houtputs : next.outputs = state.outputs ++ outputs) (hcreated : created outputs = [])
    (hrequested : next.requested = state.requested)
    (hheld : state.held.Perm (tornDown outputs ++ next.held)) : next.Accounted := by
  constructor
  · rw [houtputs, created_append, tornDown_append, hcreated, append_nil]
    exact haccounted.ledger.release hheld
  · rw [houtputs, created_append, hcreated, append_nil, hrequested]
    exact haccounted.fresh

/-- A step that only changes what is collected for the same command. -/
theorem collect {next : Correlation} (houtputs : next.outputs = state.outputs)
    (hrequested : next.requested = state.requested)
    (hheld : next.held = state.held) : next.Accounted :=
  haccounted.advance (houtputs.trans (append_nil _).symm) rfl hrequested
    (hheld ▸ List.Perm.refl _)

/-- The ledger with the connection of a new command. -/
theorem openPlugin (env : Env) (cmd : Byte) :
    Balanced (created state.outputs ++ (openPlugin env state.requested cmd).toList)
        (tornDown state.outputs) (state.held ++ (openPlugin env state.requested cmd).toList) ∧
      ∀ conn ∈ created state.outputs ++ (openPlugin env state.requested cmd).toList,
        conn < requestedAfter env state.requested cmd := by
  apply haccounted.ledger.issue haccounted.fresh
  · rw [requestedAfter]
    split
    · exact Nat.le_succ _
    · exact le_rfl
  · intro conn hconn
    obtain ⟨rfl, hrequested⟩ := openPlugin_eq_some hconn
    rw [hrequested]
    exact ⟨rfl, Nat.lt_succ_self _⟩

theorem queueCommand (env : Env) (packet : Packet) (cmd : Byte) (data : CommandData) :
    (state.queueCommand env packet cmd data).Accounted := by
  obtain ⟨hledger, hfresh⟩ := haccounted.openPlugin env cmd
  rw [Correlation.queueCommand, Correlation.enqueue]
  split
  next hfull =>
    cases hqueue : state.pendingCommands with
    | nil =>
      rw [hqueue] at hfull
      exact absurd hfull (by decide)
    | cons =>
      rw [held, hqueue, connections_cons] at hledger
      constructor
      · simp only [held, List.head?_cons, Option.elim_some, created_append,
          tornDown_append, created_commandOutputs, tornDown_commandOutputs, created_teardown,
          tornDown_teardown, append_nil, tail_cons, connections_append,
          connections_cons, connections_nil]
        refine hledger.release ?_
        rw [append_assoc, append_assoc]
        exact perm_append_comm_assoc _ _ _
      · simp only [List.head?_cons, Option.elim_some, created_append,
          created_commandOutputs, created_teardown, append_nil]
        exact hfresh
  · constructor
    · simp only [held, created_append, tornDown_append, created_commandOutputs,
        tornDown_commandOutputs, append_nil, connections_append, connections_cons,
        connections_nil]
      rw [held, append_assoc] at hledger
      exact hledger
    · simp only [created_append, created_commandOutputs]
      exact hfresh

theorem handleRequest (env : Env) (packet : Packet) :
    (state.handleRequest env packet).Accounted := by
  rw [Correlation.handleRequest]
  split_ifs
  · exact haccounted
  · exact haccounted
  · split
    · exact haccounted.queueCommand env packet _ _
    · exact haccounted

/-! ### Responses -/

section Collect

variable {active : ActiveResultSet}
  (hactive : state.active.toList.map ActiveResultSet.command = [active.command])

include hactive

theorem finishResultSet : (state.finishResultSet active).Accounted := by
  refine haccounted.advance rfl (created_report _ _ _) rfl ?_
  rw [tornDown_report, held, hactive, connections_cons, connections_nil, append_nil]
  exact List.Perm.refl _

/-- More is collected for the same command. -/
theorem continueResultSet {changed : ActiveResultSet}
    (hcommand : changed.command = active.command) :
    Accounted { state with active := some changed } := by
  refine haccounted.collect rfl rfl ?_
  rw [Correlation.held, Correlation.held, hactive, Option.toList_some, map_singleton, hcommand]

theorem collectRow (packet : Packet) : (state.collectRow active packet).Accounted := by
  rw [Correlation.collectRow]
  split_ifs
  · exact haccounted.finishResultSet hactive
  · exact haccounted.finishResultSet hactive
  · split <;> exact haccounted.continueResultSet hactive rfl
  · exact haccounted.continueResultSet hactive rfl

theorem collectColumn (packet : Packet) : (state.collectColumn active packet).Accounted := by
  rw [Correlation.collectColumn]
  split_ifs
  · exact haccounted.continueResultSet hactive rfl
  · exact haccounted.finishResultSet hactive
  · split
    · dsimp only
      split_ifs <;> exact haccounted.continueResultSet hactive rfl
    · exact haccounted.finishResultSet hactive

theorem processResultSetPacket (packet : Packet) :
    (state.processResultSetPacket active packet).Accounted := by
  rw [Correlation.processResultSetPacket]
  split
  · refine haccounted.collectColumn ?_ packet
    exact hactive
  · split_ifs
    · exact haccounted.continueResultSet hactive rfl
    · refine haccounted.collectRow ?_ packet
      exact hactive
  · refine haccounted.collectRow ?_ packet
    exact hactive

end Collect

theorem logUncorrelatedResponse (packet : Packet) :
    (state.logUncorrelatedResponse packet).Accounted := by
  rw [Correlation.logUncorrelatedResponse]
  split
  · exact haccounted
  · split_ifs
    · exact haccounted
    · exact haccounted
    · exact haccounted.collect rfl rfl rfl
    · exact haccounted

theorem handleResponse (packet : Packet) : (state.handleResponse packet).Accounted := by
  rw [Correlation.handleResponse]
  split_ifs
  · exact haccounted
  · split
    next hactive =>
      exact haccounted.processResultSetPacket (by rw [hactive]; rfl) packet
    · exact haccounted.logUncorrelatedResponse packet
    next pending rest hactive hqueue =>
      have hheld : state.held = pending.pluginConn.toList ++ connections rest := by
        rw [held, hactive, hqueue]
        rfl
      split
      · -- the command is now the active one
        refine haccounted.collect rfl rfl ?_
        rw [hheld, held, Option.toList_some, map_singleton, connections_cons,
          connections_nil, append_nil]
      · refine haccounted.advance rfl (created_report _ _ _) rfl ?_
        rw [hheld, tornDown_report, hactive]
        exact List.Perm.refl _
      · refine haccounted.advance rfl (created_teardown _) rfl ?_
        rw [hheld, tornDown_teardown, hactive]
        exact List.Perm.refl _

end Accounted

end Correlation

namespace Stream

theorem accounted_process (env : Env) (event : DataEvent) {stream : Stream}
    (haccounted : stream.Accounted) : (stream.process env event).Accounted := by
  rw [process]
  split_ifs
  · exact haccounted
  · split
    · exact haccounted
    · rw [processRequests, packetFramer.pump_eq _ _ _ _ le_rfl]
      exact foldlRecOn _ _ haccounted fun _ hstate packet _ => hstate.handleRequest env packet
  · split
    · exact haccounted
    · rw [processResponses, packetFramer.pump_eq _ _ _ _ le_rfl]
      exact foldlRecOn _ _ haccounted fun _ hstate packet _ => hstate.handleResponse packet
  · exact haccounted

theorem accounted_run (env : Env) (events : List DataEvent) {stream : Stream}
    (haccounted : stream.Accounted) : (run env events stream).Accounted := by
  induction events generalizing stream with
  | nil => exact haccounted
  | cons event events ih => exact ih (accounted_process env event haccounted)

/-- What `Close` tears down is what the queue holds. -/
theorem tornDown_close (stream : Stream) :
    (tornDown stream.close.outputs).Perm
      (tornDown stream.outputs ++ connections stream.pendingCommands) := by
  rw [close]
  rw [tornDown_append, tornDown_append, tornDown_flatMap_teardown, tornDown_flatMap_teardown,
    append_assoc, ← connections_append]
  refine List.Perm.append_left _ (List.Perm.flatMap_right _ ?_)
  exact filter_append_perm _ _

theorem created_close (stream : Stream) :
    created stream.close.outputs = created stream.outputs := by
  rw [close]
  rw [created_append, created_append, created_flatMap_teardown, created_flatMap_teardown,
    append_nil, append_nil]

/-- After any events `Close` has torn down every plugin connection exactly once if and only if no
result set was being collected for a command with a plugin connection. -/
theorem torn_down_once_iff (env : Env) (events : List DataEvent) :
    (∀ conn ∈ created (run env events {}).close.outputs,
        (tornDown (run env events {}).close.outputs).count conn = 1) ↔
      ∀ active, (run env events {}).active = some active → active.command.pluginConn = none := by
  have haccounted : (run env events {}).Accounted :=
    accounted_run env events ⟨Balanced.nil, nofun⟩
  generalize run env events {} = stream at haccounted ⊢
  have hheld : stream.held.Perm (connections stream.pendingCommands ++
      connections (stream.active.toList.map ActiveResultSet.command)) := perm_append_comm
  have hledger := haccounted.ledger.release hheld
  rw [created_close]
  simp only [(tornDown_close stream).count_eq]
  rw [hledger.count_closed_iff]
  cases stream.active with
  | none => simp
  | some active =>
    cases hconn : active.command.pluginConn <;> simp [hconn]

/-- A process that talks to a server, with a plugin connection for every query. -/
def pluggedIn : Env where
  source := .client
  pluginManager := some fun _ => true

/-- A query is closed in the middle of its result set: its plugin connection is not torn down. -/
theorem not_torn_down_in_result_set :
    created (run pluggedIn [⟨.ingress, [1, 0, 0, 2, 0]⟩, ⟨.egress, [2, 0, 0, 0, 3, 65]⟩,
        ⟨.ingress, [1, 0, 0, 1, 1]⟩] {}).close.outputs = [0] ∧
    tornDown (run pluggedIn [⟨.ingress, [1, 0, 0, 2, 0]⟩, ⟨.egress, [2, 0, 0, 0, 3, 65]⟩,
        ⟨.ingress, [1, 0, 0, 1, 1]⟩] {}).close.outputs = [] := by
  decide

end Stream

end Qtap.Mysql
