import Qtap.Core.Ledger
import Qtap.Redis.Stream

/-!
# Ownership of the plugin connections

A plugin connection belongs to its command.  It is held by the queue until the response to the
command arrives, which tears it down, or until the stream is closed, which tears down what the
queue still holds.
-/

namespace Qtap.Redis

open List Qtap.Core Qtap.Connection

/-- The plugin connections that were created, in order: each is given its command at once. -/
def opened (calls : List PluginCall) : List ℕ :=
  calls.filterMap fun
    | .onRedisCommand conn _ => some conn
    | _ => none

/-- The plugin connections that were torn down, in order. -/
def tornDown (calls : List PluginCall) : List ℕ :=
  calls.filterMap fun
    | .teardown conn => some conn
    | _ => none

namespace Correlation

/-- The connections of the commands in the queue. -/
def held (state : Correlation) : List ℕ :=
  state.pendingCommands.filterMap PendingCommand.pluginConn

structure Accounted (state : Correlation) : Prop where
  balanced : Balanced (opened state.calls) (tornDown state.calls) state.held
  numbered : ∀ conn ∈ opened state.calls, conn < state.created

namespace Accounted

variable {state : Correlation} (haccounted : state.Accounted)

include haccounted

theorem handleRequest (env : Env) (value : Value) : (state.handleRequest env value).Accounted := by
  rw [Correlation.handleRequest]
  cases value.toCommand with
  | none => exact haccounted
  | some =>
    have hnew : ∀ conn, state.newConnection env = some conn →
        conn = state.created ∧ state.created < state.created + 1 := by
      intro conn hconn
      obtain ⟨_, _, hopen⟩ := Option.bind_eq_some_iff.1 hconn
      split_ifs at hopen
      cases hopen
      exact ⟨rfl, Nat.lt_succ_self _⟩
    have hissue := haccounted.balanced.issue haccounted.numbered (Nat.le_succ _) hnew
    cases hconn : state.newConnection env with
    | none =>
      rw [hconn] at hissue
      constructor
      · simpa [held] using hissue.1
      · simpa using hissue.2
    | some =>
      rw [hconn] at hissue
      constructor
      · simpa [held, opened, tornDown] using hissue.1
      · simpa [opened] using hissue.2

theorem handleResponse (value : Value) : (state.handleResponse value).Accounted := by
  obtain ⟨queue, _, _, _⟩ := state
  obtain ⟨hbalanced, hnumbered⟩ := haccounted
  cases queue with
  | nil => exact ⟨hbalanced, hnumbered⟩
  | cons pending rest =>
    obtain ⟨_, conn⟩ := pending
    cases conn with
    | none =>
      constructor
      · simpa [Correlation.handleResponse, held] using hbalanced
      · simpa [Correlation.handleResponse] using hnumbered
    | some conn =>
      have hheld : (conn :: rest.filterMap PendingCommand.pluginConn).Perm
          ([conn] ++ rest.filterMap PendingCommand.pluginConn) := .refl _
      constructor
      · simpa [Correlation.handleResponse, held, opened, tornDown] using hbalanced.release hheld
      · simpa [Correlation.handleResponse, opened] using hnumbered

end Accounted

end Correlation

namespace Stream

variable (parseFloat : List Byte → Option UInt64) (env : Env)

theorem accounted_parseAll {handle : Correlation → Value → Correlation}
    (hhandle : ∀ state : Correlation, state.Accounted → ∀ value, (handle state value).Accounted)
    (fuel : ℕ) (parser : Parser) {state : Correlation} (haccounted : state.Accounted) :
    (parseAll parseFloat handle fuel parser state).2.Accounted := by
  rw [parseAll_eq_foldl]
  exact foldlRecOn _ _ haccounted fun state hstate value _ => hhandle state hstate value

theorem accounted_process {stream : Stream} (haccounted : stream.Accounted) (event : DataEvent) :
    (stream.process parseFloat env event).Accounted := by
  rw [process]
  split_ifs
  · exact haccounted
  · exact accounted_parseAll parseFloat (fun _ hstate => hstate.handleRequest env) _ _ haccounted
  · exact accounted_parseAll parseFloat (fun _ hstate => hstate.handleResponse) _ _ haccounted
  · exact haccounted

theorem accounted_run (events : List DataEvent) : (run parseFloat env {} events).Accounted := by
  refine foldlRecOn (motive := fun stream : Stream => stream.Accounted) _ _ ?_
    fun stream hstream event _ => accounted_process parseFloat env hstream event
  exact ⟨.nil, fun _ hmem => absurd hmem not_mem_nil⟩

/-- When `Close` returns, every plugin connection that the stream created has been torn down
exactly once, whatever the events held. -/
theorem torn_down_once (events : List DataEvent) :
    ∀ conn ∈ opened ((run parseFloat env {} events).close).calls,
      (tornDown ((run parseFloat env {} events).close).calls).count conn = 1 := by
  have haccounted := (accounted_run parseFloat env events).balanced
  generalize run parseFloat env {} events = stream at haccounted
  have hopened : opened stream.close.calls = opened stream.calls := by
    simp [close, opened, filterMap_append, filterMap_map]
  have htorn : tornDown stream.close.calls = tornDown stream.calls ++ stream.held := by
    simp [close, tornDown, filterMap_append, filterMap_map, Correlation.held]
  rw [hopened, htorn]
  have hheld : stream.held.Perm (stream.held ++ []) := .of_eq (append_nil _).symm
  exact (haccounted.release hheld).count_closed_iff.2 rfl

/-- A command that has no reply yet when the stream is closed. -/
theorem torn_down_once_unanswered :
    let calls := (run (fun _ => none) ⟨.client, some fun _ => true⟩ {}
      [⟨.egress, [42, 49, 13, 10, 36, 49, 13, 10, 97, 13, 10]⟩]).close.calls
    0 ∈ opened calls ∧ (tornDown calls).count 0 = 1 := by
  intro calls
  have hopened : 0 ∈ opened calls := by decide
  exact ⟨hopened, torn_down_once _ _ _ 0 hopened⟩

end Stream

end Qtap.Redis
