import Qtap.Kafka.Stream

/-!
# Ownership of the plugin connections

A plugin connection belongs to its pending request.  A response takes the request out of the map
and tears the connection down, and `Close` tears down those that are left.  But the map is keyed by
an id that the client chooses: a request under an id that is already pending takes the place of the
request before it, whose connection is then forgotten.
-/

namespace Qtap.Kafka

open Correlation List Qtap.Core Qtap.Connection Exec

/-- The plugin connections that were created, in order. -/
def created (outputs : List Output) : List ℕ :=
  outputs.filterMap fun
    | .command conn _ _ => some conn
    | _ => none

/-- The plugin connections that were torn down, in order. -/
def tornDown (outputs : List Output) : List ℕ :=
  outputs.filterMap fun
    | .teardown conn => some conn
    | _ => none

@[simp]
theorem created_append (first second : List Output) :
    created (first ++ second) = created first ++ created second :=
  filterMap_append

@[simp]
theorem tornDown_append (first second : List Output) :
    tornDown (first ++ second) = tornDown first ++ tornDown second :=
  filterMap_append

/-- The connections of the requests. -/
def connections (requests : List PendingRequest) : List ℕ :=
  requests.flatMap fun pending => pending.pluginConn.toList

theorem connections_cons (pending : PendingRequest) (requests : List PendingRequest) :
    connections (pending :: requests) = pending.pluginConn.toList ++ connections requests :=
  flatMap_cons

theorem connections_append (first second : List PendingRequest) :
    connections (first ++ second) = connections first ++ connections second :=
  flatMap_append

theorem connections_perm {first second : List PendingRequest} (hperm : first.Perm second) :
    (connections first).Perm (connections second) :=
  hperm.flatMap_right _

theorem created_commandOutputs (pending : PendingRequest) :
    created (commandOutputs pending) = pending.pluginConn.toList := by
  rw [commandOutputs]
  split <;> rename_i hconn <;> rw [hconn] <;> rfl

theorem tornDown_commandOutputs (pending : PendingRequest) :
    tornDown (commandOutputs pending) = [] := by
  rw [commandOutputs]
  split <;> rfl

theorem tornDown_flatMap_teardown (requests : List PendingRequest) :
    tornDown (requests.flatMap teardown) = connections requests := by
  refine filterMap_flatMap.trans (congrArg requests.flatMap (funext fun pending => ?_))
  rw [teardown]
  split <;> rename_i hconn <;> rw [hconn] <;> rfl

theorem created_flatMap_teardown (requests : List PendingRequest) :
    created (requests.flatMap teardown) = [] := by
  refine filterMap_flatMap.trans (flatMap_eq_nil_iff.2 fun pending _ => ?_)
  rw [teardown]
  split <;> rfl

namespace Correlation

/-! ## One message -/

theorem fetchedMessages_completes (pending : PendingRequest) (resp : Response) :
    (fetchedMessages pending resp).Completes := by
  rw [fetchedMessages]
  split
  · exact completes_ok _
  · split_ifs
    · exact extractFetchResponseMessages_completes
    · exact completes_ok _

/-- A report tears the connection of its request down. -/
theorem exists_report {pending : PendingRequest} {resp : Response} :
    ∃ outputs, report pending resp = .ok outputs ∧ created outputs = [] ∧
      tornDown outputs = pending.pluginConn.toList := by
  rw [report]
  split
  next hconn => exact ⟨_, rfl, rfl, by rw [hconn]; rfl⟩
  next hconn =>
    obtain ⟨_, hmessages⟩ := fetchedMessages_completes pending resp
    rw [hmessages]
    exact ⟨_, rfl, rfl, by rw [hconn]; rfl⟩

/-- A response is dropped, or it answers the request under its id. -/
theorem exists_handleResponse (resp : Response) (state : Correlation) :
    ∃ next, state.handleResponse resp = .ok next ∧ (next = state ∨
      ∃ pending outputs, state.pendingRequests.lookup resp.header.correlationID = some pending ∧
        created outputs = [] ∧ tornDown outputs = pending.pluginConn.toList ∧
        next = { state with
          pendingRequests := state.pendingRequests.erase resp.header.correlationID
          outputs := state.outputs ++ outputs }) := by
  rw [handleResponse]
  split
  · exact ⟨state, rfl, .inl rfl⟩
  next pending hpending =>
    obtain ⟨code, hcode⟩ := @extractResponseErrorCode_completes (resp.rawBody.getD [])
      pending.request.header.apiKey pending.request.header.apiVersion
    obtain ⟨outputs, hreport, hcreated, htornDown⟩ :=
      exists_report
    dsimp only
    rw [hcode, bind_ok, hreport]
    exact ⟨_, rfl, .inr ⟨pending, outputs, hpending, hcreated, htornDown, rfl⟩⟩

theorem handle_completes {env : Env} {message : Message} {state : Correlation} :
    (state.handle env message).Completes := by
  cases message with
  | request => exact completes_ok _
  | response resp =>
    obtain ⟨next, hnext, -⟩ := exists_handleResponse resp state
    exact ⟨next, hnext⟩

/-! ## The ledger of the connections -/

/-- The connections that the stream still holds. -/
def held (state : Correlation) : List ℕ := connections (values state.pendingRequests)

/-- The connections of the request whose place a message takes. -/
def replaced (state : Correlation) : Message → List ℕ
  | .request req => connections (state.pendingRequests.lookup req.header.correlationID).toList
  | .response _ => []

/-- Every connection is torn down, held or lost. -/
structure Accounted (state : Correlation) (lost : List ℕ) : Prop where
  ledger : Balanced (created state.outputs) (tornDown state.outputs) (state.held ++ lost)
  fresh : ∀ conn ∈ created state.outputs, conn < state.requested

variable {env : Env} {next state : Correlation} {messages : List Message}

theorem openPlugin_eq_some {requested conn : ℕ} (hconn : openPlugin env requested = some conn) :
    conn = requested ∧ env.pluginManager.isSome := by
  rw [openPlugin] at hconn
  split at hconn
  · cases hconn
  next hmanager =>
    split at hconn
    · cases hconn
      exact ⟨rfl, by rw [hmanager]; rfl⟩
    · cases hconn

theorem held_perm (state : Correlation) (key : ℤ) :
    state.held.Perm (connections (state.pendingRequests.lookup key).toList ++
      connections (values (state.pendingRequests.erase key))) := by
  have hperm := connections_perm (perm_values_erase state.pendingRequests key)
  rw [connections_append] at hperm
  exact hperm

namespace Accounted

variable {state : Correlation} {lost : List ℕ} (haccounted : state.Accounted lost)

include haccounted

/-- The ledger with the connection of a new request. -/
theorem openPlugin (env : Env) :
    Balanced (created state.outputs ++ (openPlugin env state.requested).toList)
        (tornDown state.outputs) (state.held ++ lost ++ (openPlugin env state.requested).toList) ∧
      ∀ conn ∈ created state.outputs ++ (openPlugin env state.requested).toList,
        conn < if env.pluginManager.isSome then state.requested + 1 else state.requested := by
  apply haccounted.ledger.issue haccounted.fresh
  · split
    · exact Nat.le_succ _
    · exact le_rfl
  · intro conn hconn
    obtain ⟨rfl, hmanager⟩ := openPlugin_eq_some hconn
    rw [if_pos hmanager]
    exact ⟨rfl, Nat.lt_succ_self _⟩

theorem handleRequest (env : Env) (req : Request) :
    (state.handleRequest env req).Accounted (lost ++ state.replaced (.request req)) := by
  obtain ⟨hledger, hfresh⟩ := haccounted.openPlugin env
  constructor
  · rw [Correlation.handleRequest, held]
    rw [created_append, tornDown_append, created_commandOutputs, tornDown_commandOutputs,
      append_nil, values_insert, connections_cons]
    refine hledger.rearrange ?_
    -- the new connection comes first, and the one whose place it takes moves to the lost ones
    refine perm_append_comm.trans ?_
    rw [append_assoc]
    refine List.Perm.append_left _ ?_
    refine ((state.held_perm req.header.correlationID).append_right lost).trans ?_
    rw [replaced, append_assoc]
    refine perm_append_comm.trans ?_
    rw [append_assoc]
  · rw [Correlation.handleRequest]
    rw [created_append, created_commandOutputs]
    exact hfresh

theorem handle {message : Message} (hnext : state.handle env message = .ok next) :
    next.Accounted (lost ++ state.replaced message) := by
  cases message with
  | request req =>
    rw [Correlation.handle, ok_inj] at hnext
    exact hnext ▸ haccounted.handleRequest env req
  | response resp =>
    rw [Correlation.handle] at hnext
    obtain ⟨_, hfound, hcases⟩ := exists_handleResponse resp state
    rw [hfound, ok_inj] at hnext
    subst hnext
    rw [replaced, append_nil]
    rcases hcases with rfl | ⟨pending, outputs, hpending, hcreated, htornDown, rfl⟩
    · exact haccounted
    · have hheld := state.held_perm resp.header.correlationID
      rw [hpending, Option.toList_some, connections_cons, connections, flatMap_nil,
        append_nil] at hheld
      constructor
      · rw [created_append, tornDown_append, hcreated, htornDown, append_nil]
        refine haccounted.ledger.release ?_
        rw [← append_assoc]
        exact hheld.append_right lost
      · rw [created_append, hcreated, append_nil]
        exact haccounted.fresh

end Accounted

/-! ## Whole runs -/

/-- The messages of a run, handled one after another. -/
def correlate (env : Env) : List Message → Correlation → Read Correlation
  | [], state => .ok state
  | message :: messages, state =>
    (state.handle env message).bind fun state => correlate env messages state

/-- The state that a message leaves. -/
def advance (env : Env) (state : Correlation) (message : Message) : Correlation :=
  (state.handle env message).value?.getD state

theorem handle_eq_advance (env : Env) (state : Correlation) (message : Message) :
    state.handle env message = .ok (state.advance env message) := by
  obtain ⟨_, hnext⟩ := handle_completes
  rw [advance, hnext]
  rfl

theorem correlate_eq_foldl (env : Env) (messages : List Message) (state : Correlation) :
    correlate env messages state = .ok (messages.foldl (advance env) state) := by
  induction messages generalizing state with
  | nil => rfl
  | cons message messages ih =>
    rw [correlate, handle_eq_advance, bind_ok, ih, foldl_cons]

theorem correlate_concat {message : Message} {middle : Correlation}
    (hmiddle : correlate env messages state = .ok middle)
    (hnext : middle.handle env message = .ok next) :
    correlate env (messages ++ [message]) state = .ok next := by
  rw [correlate_eq_foldl, ok_inj] at hmiddle
  rw [handle_eq_advance] at hnext
  rw [correlate_eq_foldl, foldl_concat, hmiddle, hnext]

/-- Whenever a request arrives, the request that is pending under its id, if there is one, has no
plugin connection. -/
def NoneReplaced (env : Env) (messages : List Message) (state : Correlation) : Prop :=
  ∀ before req after, messages = before ++ .request req :: after →
    ∀ middle, correlate env before state = .ok middle →
      ∀ pending, middle.pendingRequests.lookup req.header.correlationID = some pending →
        pending.pluginConn = none

theorem replaced_eq_nil_iff {req : Request} :
    state.replaced (.request req) = [] ↔
      ∀ pending, state.pendingRequests.lookup req.header.correlationID = some pending →
        pending.pluginConn = none := by
  rw [replaced]
  cases state.pendingRequests.lookup req.header.correlationID with
  | none => simp [connections]
  | some pending => cases hconn : pending.pluginConn <;> simp [connections, hconn]

theorem noneReplaced_iff :
    NoneReplaced env messages state ↔ losses (advance env) replaced state messages = [] := by
  rw [losses_eq_nil_iff]
  constructor
  · intro hnone before message after hsplit
    cases message with
    | request req =>
      exact replaced_eq_nil_iff.2 (hnone before req after hsplit _ (correlate_eq_foldl _ _ _))
    | response => rfl
  · intro hnone before req after hsplit middle hmiddle
    rw [correlate_eq_foldl, ok_inj] at hmiddle
    exact hmiddle ▸ replaced_eq_nil_iff.1 (hnone before _ after hsplit)

/-- The connections that a run loses are those whose places are taken. -/
theorem Accounted.correlate {lost : List ℕ} (haccounted : state.Accounted lost)
    (hnext : correlate env messages state = .ok next) :
    next.Accounted (lost ++ losses (advance env) replaced state messages) := by
  rw [correlate_eq_foldl, ok_inj] at hnext
  subst hnext
  refine losses_induction (fun state message lost hstate => ?_) haccounted messages
  exact Accounted.handle hstate (handle_eq_advance env state message)

end Correlation

namespace Stream

/-- A run of an open stream handles the messages that its parsers take from the events. -/
theorem exists_run (env : Env) (events : List DataEvent) {stream : Stream} {taken : List Message}
    (hopen : stream.closed = false) (htaken : correlate env taken {} = .ok stream.toCorrelation) :
    ∃ next messages, stream.run env events = .ok next ∧
      stream.toParsers.messages env.source events taken = .ok messages ∧
        correlate env messages {} = .ok next.toCorrelation := by
  induction events generalizing stream taken with
  | nil => exact ⟨stream, taken, rfl, rfl, htaken⟩
  | cons event events ih =>
    have hstep : ∀ message (taken : List Message) (state : Correlation),
        correlate env taken {} = .ok state → ∃ following next,
          (Exec.ok (taken ++ [message]) : Read (List Message)) = .ok following ∧
            state.handle env message = .ok next ∧
              correlate env following {} = .ok next := by
      intro message taken state hstate
      obtain ⟨next, hnext⟩ := handle_completes
      exact ⟨_, next, rfl, hnext, correlate_concat hstate hnext⟩
    obtain ⟨following, state, parsers, hmessages, hstate, hfollowing⟩ :=
      Parsers.process_relates hstep htaken
    have hprocess : stream.process env event =
        .ok { stream with toCorrelation := state, toParsers := parsers } := by
      rw [process, hopen, hstate]
      rfl
    obtain ⟨next, messages, hrun, htook, hcorrelate⟩ := @ih
      { stream with toCorrelation := state, toParsers := parsers } following hopen hfollowing
    refine ⟨next, messages, ?_, ?_, hcorrelate⟩
    · rw [run, hprocess]
      exact hrun
    · rw [Parsers.messages, hmessages]
      exact htook

/-- What `Close` tears down is what the map holds. -/
theorem tornDown_close (env : Env) (stream : Stream) :
    (tornDown (stream.close env).outputs).Perm (tornDown stream.outputs ++ stream.held) := by
  rw [close]
  rw [tornDown_append, tornDown_flatMap_teardown]
  exact (connections_perm (env.visit_perm _)).append_left _

theorem created_close (env : Env) (stream : Stream) :
    created (stream.close env).outputs = created stream.outputs := by
  rw [close]
  rw [created_append, created_flatMap_teardown, append_nil]

/-- After any events `Close` has torn down every plugin connection exactly once if and only if no
request took the place of a pending one that had a plugin connection. -/
theorem torn_down_once_iff_none_replaced (env : Env) (events : List DataEvent) :
    ∃ stream messages, run env events {} = .ok stream ∧
      Parsers.messages env.source events {} [] = .ok messages ∧
      ((∀ conn ∈ created (stream.close env).outputs,
          (tornDown (stream.close env).outputs).count conn = 1) ↔
        Correlation.NoneReplaced env messages {}) := by
  obtain ⟨stream, messages, hrun, hmessages, hcorrelate⟩ :=
    @exists_run env events {} [] rfl rfl
  refine ⟨stream, messages, hrun, hmessages, ?_⟩
  have hinit : Correlation.Accounted {} [] := ⟨Balanced.nil, nofun⟩
  have hledger := (hinit.correlate hcorrelate).ledger.release (List.Perm.refl _)
  rw [created_close]
  simp only [(tornDown_close env stream).count_eq]
  rw [hledger.count_closed_iff, nil_append, noneReplaced_iff]

/-- Any events are taken without a panic.  The stream is then where its messages, handled one after
another, lead to, and `Close` leaves no plugin connection torn down twice. -/
theorem run_correlates (env : Env) (events : List DataEvent) :
    ∃ stream messages, run env events {} = .ok stream ∧
      Parsers.messages env.source events {} [] = .ok messages ∧
      correlate env messages {} = .ok stream.toCorrelation ∧
      (tornDown (stream.close env).outputs).Nodup := by
  obtain ⟨stream, messages, hrun, hmessages, hcorrelate⟩ := @exists_run env events {} [] rfl rfl
  have hinit : Correlation.Accounted {} [] := ⟨Balanced.nil, nofun⟩
  have hledger := (hinit.correlate hcorrelate).ledger.release (List.Perm.refl _)
  refine ⟨stream, messages, hrun, hmessages, hcorrelate, ?_⟩
  exact (tornDown_close env stream).nodup_iff.2 hledger.nodup_closed

/-- A process that talks to a broker, with a plugin connection for every request. -/
def pluggedIn : Env where
  source := .client
  pluginManager := some fun _ => true
  visit := id
  visit_perm := List.Perm.refl

/-- Two requests with the correlation id 7, one after the other: the plugin connection of the first
is not torn down. -/
theorem not_torn_down_when_replaced :
    ∃ stream, run pluggedIn [⟨.egress, [0, 0, 0, 10, 0, 3, 0, 0, 0, 0, 0, 7, 255, 255]⟩,
          ⟨.egress, [0, 0, 0, 10, 0, 3, 0, 0, 0, 0, 0, 7, 255, 255]⟩] {} = .ok stream ∧
      created (stream.close pluggedIn).outputs = [0, 1] ∧
      tornDown (stream.close pluggedIn).outputs = [1] :=
  ⟨_, rfl, rfl, rfl⟩

end Stream

end Qtap.Kafka
