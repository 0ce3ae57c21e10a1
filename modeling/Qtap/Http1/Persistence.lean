import Qtap.Http1.Transactions

/-!
# When the exchanges of a persistent connection are observed

There is never more than one session, so that no sequence of two or more exchanges is
observed.  A single exchange is, unless a head is too long, or the request goroutine waits
for a 100 response while the body is written in front of the final response: whether it
notices the 100 response is a race, since only a request that has been stored is released.
-/

namespace Qtap.Http1

open Option List Qtap.Core Qtap.Connection Qtap.Http1.System

variable {env : Env}

/-! ## A request goroutine that is slow to store its request -/

def RequestControl.unstored : RequestControl env → Bool
  | .head _ => true
  | .parsed _ => true
  | _ => false

def System.unstored (system : System env) : Bool :=
  (system.session.map fun transaction => transaction.request.unstored).getD true

variable {system : System env}

theorem unstored_of_session {transaction : Transaction env}
    (hsession : system.session = some transaction) :
    system.unstored = transaction.request.unstored := by
  rw [System.unstored, hsession]
  rfl

section

variable {events : List Event} {system next : System env} {transaction : Transaction env}
  {taken : Phase → List Byte} {exchange : Exchange env.library} {tail tail' : List Byte}

/-- The system rests with the request goroutine held before it stores a request. -/
structure Held (events : List Event) (system : System env) : Prop where
  tracked : Tracked events system
  unstored : system.unstored = true
  rest : Quiescent (restrict System.unstored step) system

section

variable (hheld : Held events system)

include hheld

theorem Held.not_unstored {action : Action}
    (hstep : system.step action = some next) : next.unstored = false :=
  restrict.keep_eq_false hheld.rest hstep

theorem Held.pending_eq_nil (hwriting : system.writing = none) : system.pending = [] := by
  have htracked := hheld.tracked
  cases hpending : system.pending with
  | nil => rfl
  | cons event rest =>
    cases hsession : system.session with
    | none =>
      have hstep : system.step .callerStart = some { system with
            pending := rest, writing := some event, session := some {},
            sessions := system.sessions + 1 } := by
        simp only [step, callerStart, hwriting, hpending, hsession]
      cases hheld.not_unstored hstep
    | some =>
      obtain ⟨_, hfollows⟩ := (tracked_of_session hsession).1 htracked
      have hstep : system.step .callerStart =
          some { system with pending := rest, writing := some event } := by
        simp [step, callerStart, hwriting, hpending, hsession, hfollows.closed]
      have hsame : System.unstored { system with pending := rest, writing := some event } =
          system.unstored := rfl
      cases (hsame.trans hheld.unstored).symm.trans (hheld.not_unstored hstep)

theorem Held.exists_session (hevents : events ≠ []) :
    ∃ transaction taken, system.session = some transaction ∧
      Follows events system transaction taken := by
  have htracked := hheld.tracked
  cases hsession : system.session with
  | none =>
    rw [Tracked, hsession] at htracked
    have hnil := hheld.pending_eq_nil htracked.1
    exact absurd (htracked.2.1.symm.trans hnil) hevents
  | some transaction =>
    obtain ⟨taken, hfollows⟩ := (tracked_of_session hsession).1 htracked
    exact ⟨transaction, taken, rfl, hfollows⟩

theorem Held.responseStep_eq_none
    (hsession : system.session = some transaction) : system.responseStep transaction = none := by
  cases hstep : system.responseStep transaction with
  | none => rfl
  | some next =>
    have hsystem : system.step .responseStep = some next := by
      simp [step, hsession, hstep]
    have hunstored := hheld.unstored
    rw [unstored_of_session hsession] at hunstored
    have hnext : next.unstored = transaction.request.unstored := by
      rcases responseStep_move hsession hstep with
        ⟨callbacks, after, hwork, rfl⟩ | ⟨data, count, control, -, -, rfl⟩
      · rw [unstored_of_session rfl, hwork.decreases.2]
      · rw [unstored_of_session rfl]
    cases (hnext.trans hunstored).symm.trans (hheld.not_unstored hsystem)

variable {request : Request}

/-- In a head the request goroutine is not held. -/
theorem Held.request_not_head {reader : HeadReader} {data rest : List Byte}
    (hunswitched : Unswitched env (bytesOf events .response))
    (hrequest : requestScan env (bytesOf events .request) = (.parsed request, rest))
    (hsession : system.session = some transaction)
    (hoffered : system.offered .request = some data) : transaction.request ≠ .head reader := by
  intro hcontrol
  cases data with
  | nil =>
    have hstep : system.step .requestStep = some (system.take 0) := by
      simp only [step, hsession, bind_some, requestStep, hcontrol, hoffered]
    have hsame : (system.take 0).unstored = system.unstored := by
      rw [System.unstored, System.unstored, session_take]
    cases (hsame.trans hheld.unstored).symm.trans (hheld.not_unstored hstep)
  | cons byte =>
    have hstep : system.step .requestStep = some ((system.take 1).setSession
        { transaction with request := headRequest env (reader.read byte) }) := by
      simp only [step, hsession, bind_some, requestStep, hcontrol, hoffered]
    have hunstored := hheld.not_unstored hstep
    have htracked := move_tracked hunswitched _ _ (step_move hstep) hheld.tracked
    obtain ⟨_, hfollows⟩ := (tracked_of_session rfl).1 htracked
    have hat := hfollows.request
    rcases headRequest_cases with
      ⟨after, -, hnext⟩ | ⟨silent, hnext⟩ | ⟨other, hnext⟩
    · rw [hnext] at hunstored
      cases hunstored
    · rw [hnext] at hat
      cases request_determined hfollows hrequest hat.1 (by simp)
    · rw [hnext] at hunstored
      cases hunstored

end

theorem bytesOf_length_le {first second : List Event} (hleading : first <+: second)
    (phase : Phase) :
    (bytesOf first phase).length ≤ (bytesOf second phase).length := by
  obtain ⟨_, rfl⟩ := hleading
  rw [bytesOf_append, length_append]
  exact Nat.le_add_right _ _

/-- The caller blocks on the first event that reaches past the request head, so that no
more of the response has come than before such an event. -/
theorem taken_response_lt {event : Event} (hovertaken : exchange.Overtaken events)
    (hfollows : Follows events system transaction taken)
    (htaken : taken .request = exchange.requestHead) (hwriting : system.writing = some event)
    (hphase : event.phase = .request) :
    (taken .response).length < exchange.responseHeads.length := by
  obtain ⟨before, past, after, hevents, -, _, hshort⟩ := hovertaken
  obtain ⟨done, part, hsplit, hbytes, -⟩ := hfollows.account.split
  rw [hwriting] at hsplit hbytes
  have hdone : done <+: events := by
    rw [hsplit, append_assoc]
    exact prefix_append done _
  have hrequest : (bytesOf done .request).length ≤ exchange.requestHead.length := by
    rw [← htaken, hbytes .request, bytesOf_append, length_append]
    exact Nat.le_add_right _ _
  have hresponse : taken .response = bytesOf done .response := by
    rw [hbytes .response, bytesOf_append]
    change bytesOf done .response ++ bytesOf [{ event with data := part }] .response = _
    rw [hphase]
    exact append_nil _
  have hle : done.length ≤ before.length := by
    rw [← Nat.not_lt]
    intro hlt
    have hpast : before ++ [past] <+: events := ⟨after, by rw [hevents]; simp⟩
    have hinside : before ++ [past] <+: done := by
      apply prefix_of_prefix_length_le hpast hdone
      rw [length_append]
      exact hlt
    exact absurd (bytesOf_length_le hinside .request) (by omega)
  have hinside : done <+: before :=
    prefix_of_prefix_length_le hdone (hevents ▸ prefix_append before _) hle
  rw [hresponse]
  exact lt_of_le_of_lt (bytesOf_length_le hinside .response) hshort

theorem Exchange.Overtaken.tail_ne_nil (hovertaken : exchange.Overtaken events)
    (hrequest : bytesOf events .request = exchange.requestHead ++ tail) : tail ≠ [] := by
  rintro rfl
  obtain ⟨before, past, after, hevents, -, hlong, -⟩ := hovertaken
  have hpast : before ++ [past] <+: events := ⟨after, by rw [hevents]; simp⟩
  have hle := bytesOf_length_le hpast .request
  rw [hrequest, append_nil] at hle
  exact absurd hle (Nat.not_le.2 hlong)

section

variable (hsession : system.session = some transaction)

include hsession

/-- The goroutine of a held request reads the head or has parsed it. -/
theorem Held.request_cases (hheld : Held events system) :
    (∃ reader, transaction.request = .head reader) ∨
      ∃ request, transaction.request = .parsed request := by
  have hunstored := hheld.unstored
  rw [unstored_of_session hsession] at hunstored
  generalize transaction.request = control at hunstored ⊢
  cases control with
  | head reader => exact .inl ⟨reader, rfl⟩
  | parsed request => exact .inr ⟨request, rfl⟩
  | _ => cases hunstored

/-- The caller of a held system is still writing. -/
theorem Held.exists_writing (hheld : Held events system)
    (hrequest : bytesOf events .request = exchange.requestHead ++ tail)
    (hstream : requestScan env (bytesOf events .request) = (.parsed exchange.request, tail))
    (hovertaken : exchange.Overtaken events) (hfollows : Follows events system transaction taken) :
    ∃ event, system.writing = some event := by
  rw [← ne_none_iff_exists']
  intro hnone
  have hunread : system.unread .request = [] := by
    simp [unread, offered, hnone, hheld.pending_eq_nil hnone]
  have hat := hfollows.request
  unfold RequestAt at hat
  rcases hheld.request_cases hsession with ⟨_, hcontrol⟩ | ⟨request, hcontrol⟩
  · rw [hcontrol] at hat
    exact unread_of_head hfollows hstream hat.1 hunread
  · rw [hcontrol] at hat
    have htail := (Prod.mk.inj (request_determined hfollows hstream hat.1 (by simp))).2
    rw [hunread] at htail
    exact hovertaken.tail_ne_nil hrequest htail.symm

/-- While the final response head is incomplete, the response goroutine of a held system reads
it. -/
theorem Held.response_head (hheld : Held events system) (hfits : exchange.Fits)
    (hresponse : bytesOf events .response = exchange.responseHeads ++ tail')
    (hfollows : Follows events system transaction taken)
    (hshort : (taken .response).length < exchange.responseHeads.length) :
    ∃ reader, transaction.response = .head reader := by
  have hstuck := hheld.responseStep_eq_none hsession
  have hstream := exchange.responseScan_eq tail' hfits
  rw [← hresponse] at hstream
  have hat := hfollows.response
  unfold responseStep at hstuck
  generalize transaction.response = control at hstuck hat ⊢
  cases control with
  | head reader => exact ⟨reader, rfl⟩
  | failed silent | parsed other => cases hstuck
  | awaiting | closing => exact hat.elim
  | body state | discard =>
    obtain ⟨_, rest, hscan, -⟩ := hat
    exact absurd (taken_ge_of_parsed hfits hresponse hfollows hscan) (Nat.not_le.2 hshort)
  | exited =>
    obtain ⟨_, _, hscan, -⟩ := hat
    cases response_determined hfollows hstream hscan nofun

end

/-- The held system rests with the request parsed, the caller writing the body, and the
final response head incomplete. -/
theorem Held.blocked (hheld : Held events system) (hfits : exchange.Fits)
    (hrequest : bytesOf events .request = exchange.requestHead ++ tail)
    (hresponse : bytesOf events .response = exchange.responseHeads ++ tail')
    (hovertaken : exchange.Overtaken events) :
    ∃ transaction taken event reader, system.session = some transaction ∧
      Follows events system transaction taken ∧ system.writing = some event ∧
      event.phase = .request ∧ transaction.request = .parsed exchange.request ∧
      transaction.response = .head reader := by
  have hrequestStream := exchange.requestScan_eq tail hfits.1
  have hresponseStream := exchange.responseScan_eq tail' hfits
  have hunswitched := exchange.unswitched tail'
  rw [← hrequest] at hrequestStream
  rw [← hresponse] at hresponseStream hunswitched
  have hevents : events ≠ [] := by
    rintro rfl
    obtain ⟨_, _, _, hnil, -⟩ := hovertaken
    exact absurd hnil.symm (by simp)
  obtain ⟨transaction, taken, hsession, hfollows⟩ := hheld.exists_session hevents
  obtain ⟨event, hwriting⟩ :=
    hheld.exists_writing hsession hrequest hrequestStream hovertaken hfollows
  have hoffered := offered_of_writing hwriting
  have hphase : event.phase = .request := by
    cases hphase : event.phase with
    | request => rfl
    | response =>
      rw [hphase] at hoffered
      exact absurd (hheld.responseStep_eq_none hsession)
        (response_not_stuck hfollows hresponseStream hoffered)
  rw [hphase] at hoffered
  have hat := hfollows.request
  unfold RequestAt at hat
  have hparsed : transaction.request = .parsed exchange.request := by
    rcases hheld.request_cases hsession with ⟨reader, hcontrol⟩ | ⟨request, hcontrol⟩
    · exact absurd hcontrol (hheld.request_not_head hunswitched hrequestStream hsession hoffered)
    · rw [hcontrol] at hat
      cases request_determined hfollows hrequestStream hat.1 nofun
      exact hcontrol
  rw [hparsed] at hat
  have htaken := taken_request_eq hfits hrequest hfollows hat.1
  have hshort := taken_response_lt hovertaken hfollows htaken hwriting hphase
  obtain ⟨reader, hhead⟩ := hheld.response_head hsession hfits hresponse hfollows hshort
  exact ⟨transaction, taken, event, reader, hsession, hfollows, hwriting, hphase, hparsed, hhead⟩

/-- Released, the request goroutine stores the request, reports it, and waits. -/
theorem run_released (hsession : system.session = some transaction)
    (hcontrol : transaction.request = .parsed request) (hwaits : waits request = true) :
    runActions step system [.requestStep, .requestStep, .requestStep] =
      some ((system.report [.onRequest request (!expectsRequestBody request)]).setSession
        { transaction with
          request := .waiting request, current := some request, expectingContinue := true }) := by
  rw [waits, Bool.and_eq_true] at hwaits
  simp [runActions, step, hsession, requestStep, hcontrol, setSession, report, afterNotified,
    hwaits.1, hwaits.2]

/-- Waiting, with the caller in the body and the final response to come, nothing moves. -/
theorem quiescent_waiting {event : Event} {reader : HeadReader}
    (hsession : system.session = some transaction) (hwriting : system.writing = some event)
    (hphase : event.phase = .request) (hrequest : transaction.request = .waiting request)
    (hreceived : transaction.continueReceived = false) (hcancelled : transaction.cancelled = false)
    (hclosed : transaction.closed = false) (hresponse : transaction.response = .head reader) :
    Quiescent step system := by
  have hoffered : system.offered .response = none := by
    rw [offered, hwriting]
    exact if_neg (by simp [hphase])
  intro action
  cases action with
  | callerStart => simp only [step, callerStart, hwriting]
  | callerError => simp [step, hsession, callerError, hclosed]
  | requestStep => simp [step, hsession, requestStep, hrequest, hreceived]
  | requestCancel => simp [step, hsession, requestCancel, hrequest, hcancelled]
  | requestEOF => simp [step, hsession, requestEOF, hclosed]
  | responseStep => simp [step, hsession, responseStep, hresponse, hoffered]
  | responseEOF => simp [step, hsession, responseEOF, hclosed]

theorem exists_overtaken_run (source : Source) (events : List DataEvent) (hfits : exchange.Fits)
    (hrequest : bytesOf (phased source events) .request = exchange.requestHead ++ tail)
    (hresponse : bytesOf (phased source events) .response = exchange.responseHeads ++ tail')
    (hwaits : waits exchange.request = true)
    (hovertaken : exchange.Overtaken (phased source events)) :
    ∃ actions final, runActions step (initial env source events) actions = some final ∧
      Quiescent step final ∧ final.responsesOf 1 = [] := by
  have hunswitched := exchange.unswitched tail'
  rw [← hresponse] at hunswitched
  obtain ⟨actions, system, hrun, hrest⟩ := exists_quiescent fun _ _ _ hstep =>
    move_decreases (step_move (restrict.eq_some_iff.1 hstep).1)
  have hheld : Held (phased source events) system :=
    { tracked := run_tracked hunswitched (restrict.run hrun) tracked_initial
      unstored := restrict.run_keep hrun rfl
      rest := hrest }
  obtain ⟨transaction, taken, event, reader, hsession, hfollows, hwriting, hphase, hparsed,
    hhead⟩ := hheld.blocked hfits hrequest hresponse hovertaken
  have hrequestStream := exchange.requestScan_eq tail hfits.1
  have hresponseStream := exchange.responseScan_eq tail' hfits
  rw [← hrequest] at hrequestStream
  rw [← hresponse] at hresponseStream
  have hat := hfollows.request
  have hresponseAt := hfollows.response
  rw [RequestAt, hparsed] at hat
  rw [hhead] at hresponseAt
  have hcancelled := not_cancelled hfollows hrequestStream hresponseStream
  have hreleased := run_released hsession hparsed hwaits
  have hfinal : runActions step (initial env source events)
      (actions ++ [.requestStep, .requestStep, .requestStep]) =
        runActions step system [.requestStep, .requestStep, .requestStep] := by
    rw [runActions.append, restrict.run hrun, bind_some]
  refine ⟨_, _, hfinal.trans hreleased, ?_, ?_⟩
  · exact quiescent_waiting rfl hwriting hphase rfl hat.2.2.2 hcancelled hfollows.closed hhead
  · rw [responsesOf, callbacksOf_report hfollows.sessions, responsesIn_append]
    exact append_eq_nil_iff.2 ⟨hresponseAt.2, rfl⟩

end

/-! ## Which connections are observed -/

section

variable {source : Source} {events : List DataEvent}

theorem sessions_le_one {events : List Event} (htracked : Tracked events system) :
    system.sessions ≤ 1 := by
  unfold Tracked at htracked
  split at htracked
  · rw [htracked.2.2.1]
    exact Nat.zero_le 1
  · obtain ⟨_, hfollows⟩ := htracked
    rw [hfollows.sessions]

/-- A refused request stream is never reported. -/
theorem requestsOf_refused {events : List Event} {silent : Bool} {left : List Byte}
    (htracked : Tracked events system)
    (hstream : requestScan env (bytesOf events .request) = (.failed silent, left)) :
    system.requestsOf 1 = [] := by
  unfold Tracked at htracked
  split at htracked
  · rw [requestsOf, callbacksOf, htracked.2.2.2]
    rfl
  · rename_i transaction hsession
    obtain ⟨taken, hfollows⟩ := htracked
    have hat := hfollows.request
    unfold RequestAt at hat
    generalize transaction.request = control at hat
    cases control with
    | failed => exact hat.2
    | head => exact hat.2.1
    | body state | discard =>
      obtain ⟨request, rest, hscan, -⟩ := hat
      cases request_determined hfollows hstream hscan (by simp)
    | exited =>
      rcases hat with ⟨silent, rest, -, hreports⟩ | ⟨-, request, rest, hscan, -⟩
      · exact hreports
      · cases request_determined hfollows hstream hscan (by simp)
    | _ => cases request_determined hfollows hstream hat.1 (by simp)

theorem responsesOf_refused {events : List Event} {silent : Bool} {left : List Byte}
    (htracked : Tracked events system)
    (hstream : responseScan env {} (bytesOf events .response) = (.failed silent, left)) :
    system.responsesOf 1 = [] := by
  unfold Tracked at htracked
  split at htracked
  · rw [responsesOf, callbacksOf, htracked.2.2.2]
    rfl
  · rename_i transaction hsession
    obtain ⟨taken, hfollows⟩ := htracked
    have hat := hfollows.response
    generalize transaction.response = control at hat
    cases control with
    | head reader | failed silent | parsed response => exact hat.2
    | awaiting | closing => exact hat.elim
    | body state | discard =>
      obtain ⟨response, rest, hscan, -⟩ := hat
      cases response_determined hfollows hstream hscan (by simp)
    | exited =>
      obtain ⟨silent, rest, -, hreports⟩ := hat
      exact hreports

variable {exchange : Exchange env.library}

theorem Delivered.single_request {events : List Event} (hdelivered : Delivered [exchange] events) :
    bytesOf events .request = exchange.requestHead ++ exchange.requestBody := by
  rw [hdelivered.request, map_singleton, flatten_singleton, Exchange.requestBytes]

theorem Delivered.single_response {events : List Event} (hdelivered : Delivered [exchange] events) :
    bytesOf events .response = exchange.responseHeads ++ exchange.responseBody := by
  rw [hdelivered.response, map_singleton, flatten_singleton, Exchange.responseBytes]

theorem Observed.single (hobserved : Observed [exchange] system) :
    system.requestsOf 1 = [exchange.request] ∧ system.responsesOf 1 = [exchange.response] :=
  hobserved.2 0 exchange rfl

/-- Heads over the limit are lost. -/
theorem fits_of_losesNothing (hdelivered : Delivered [exchange] (phased source events))
    (hloses : LosesNothing env source [exchange] events) : exchange.Fits := by
  obtain ⟨actions, final, hrun, hquiescent⟩ := exists_complete_run
  have htracked := run_tracked hdelivered.unswitched hrun tracked_initial
  obtain ⟨hrequests, hresponses⟩ := (hloses actions final hrun hquiescent).single
  have hrequestFits : exchange.requestHead.length ≤ maxHeaderSize := by
    rw [← Nat.not_lt]
    intro hlong
    obtain ⟨silent, left, hscan⟩ := exchange.requestScan_long exchange.requestBody hlong
    rw [← hdelivered.single_request] at hscan
    rw [requestsOf_refused htracked hscan] at hrequests
    cases hrequests
  rcases exchange.responseScan_cases exchange.responseBody with
    ⟨hresponseFits, -⟩ | ⟨-, silent, left, hscan⟩
  · exact ⟨hrequestFits, hresponseFits⟩
  · rw [← hdelivered.single_response] at hscan
    rw [responsesOf_refused htracked hscan] at hresponses
    cases hresponses

theorem IsHead.ne_nil {head : List Byte} (hhead : IsHead head) : head ≠ [] := by
  obtain ⟨_, -, -, rfl⟩ := hhead
  exact append_ne_nil_of_right_ne_nil _ (cons_ne_nil _ _)

theorem observed_single (hdelivered : Delivered [exchange] (phased source events))
    (hfits : exchange.Fits)
    (hkept : ¬ (waits exchange.request = true ∧ exchange.Overtaken (phased source events))) :
    LosesNothing env source [exchange] events := by
  intro actions final hrun hquiescent
  have htracked := run_tracked hdelivered.unswitched hrun tracked_initial
  have hrequestStream := exchange.requestScan_eq exchange.requestBody hfits.1
  have hresponseStream := exchange.responseScan_eq exchange.responseBody hfits
  rw [← hdelivered.single_request] at hrequestStream
  rw [← hdelivered.single_response] at hresponseStream
  cases hsession : final.session with
  | none =>
    rw [Tracked, hsession] at htracked
    obtain ⟨hwriting, hpending, -⟩ := htracked
    have hunread : final.unread .request ≠ [] := by
      intro hnil
      have hbytes : bytesOf (phased source events) .request = [] := by
        rw [← hpending, bytesOf]
        simp only [unread, offered, hwriting, toList_none, nil_append] at hnil
        rw [hnil]
        rfl
      rw [hdelivered.single_request] at hbytes
      exact exchange.requestHead_isHead.ne_nil (append_eq_nil_iff.1 hbytes).1
    obtain ⟨_, hevent⟩ := writing_of_unread (hquiescent .callerStart) hunread
    cases hwriting.symm.trans hevent
  | some =>
    obtain ⟨_, hfollows⟩ := (tracked_of_session hsession).1 htracked
    refine ⟨hfollows.sessions, fun k other hother => ?_⟩
    obtain ⟨hk, rfl⟩ := List.getElem?_eq_some_iff.1 hother
    obtain rfl : k = 0 := Nat.lt_one_iff.1 hk
    exact ⟨request_observed hfollows hrequestStream hresponseStream hsession hquiescent,
      response_observed hfits hdelivered.single_request hfollows
        hdelivered.single_response hdelivered.nonempty hkept hsession hquiescent⟩

theorem Delivered.events_eq_nil (hdelivered : Delivered ([] : List (Exchange env.library))
    (phased source events)) : events = [] := by
  cases events with
  | nil => rfl
  | cons event rest =>
    exfalso
    have hbytes : ∀ phase, bytesOf (phased source (event :: rest)) phase = [] := by
      intro phase
      cases phase with
      | request => exact hdelivered.request
      | response => exact hdelivered.response
    have hdata := hbytes (phaseOf source event.direction)
    simp only [phased, map_cons, bytesOf, filter_cons, decide_true, if_true,
      flatten_cons, append_eq_nil_iff] at hdata
    exact hdelivered.nonempty _ mem_cons_self hdata.1

/-- There is no session for a second exchange. -/
theorem not_losesNothing_of_two {first second : Exchange env.library}
    {rest : List (Exchange env.library)}
    (hdelivered : Delivered (first :: second :: rest) (phased source events)) :
    ¬ LosesNothing env source (first :: second :: rest) events := by
  intro hloses
  obtain ⟨actions, final, hrun, hquiescent⟩ := exists_complete_run
  have htracked := run_tracked hdelivered.unswitched hrun tracked_initial
  have hsessions := (hloses actions final hrun hquiescent).1
  have hone := sessions_le_one htracked
  rw [hsessions, length_cons, length_cons] at hone
  omega

/-- The exchanges on a connection are observed exactly when there is none, or only one,
with heads within the limit and not a body that overtakes the final response of a request
waiting for a 100 response. -/
theorem exchanges_observed_iff (env : Env) (source : Source)
    (exchanges : List (Exchange env.library)) (events : List DataEvent)
    (hdelivered : Delivered exchanges (phased source events)) :
    LosesNothing env source exchanges events ↔
      exchanges = [] ∨
        ∃ exchange, exchanges = [exchange] ∧ exchange.Fits ∧
          ¬ (waits exchange.request = true ∧ exchange.Overtaken (phased source events)) := by
  constructor
  · intro hloses
    match exchanges with
    | [] => exact .inl rfl
    | [exchange] =>
      have hfits := fits_of_losesNothing hdelivered hloses
      refine .inr ⟨exchange, rfl, hfits, ?_⟩
      rintro ⟨hwaits, hovertaken⟩
      obtain ⟨actions, final, hrun, hquiescent, hnone⟩ := exists_overtaken_run source events hfits
        hdelivered.single_request hdelivered.single_response hwaits hovertaken
      have hresponses := (hloses actions final hrun hquiescent).single.2
      cases hnone.symm.trans hresponses
    | first :: second :: rest => exact absurd hloses (not_losesNothing_of_two hdelivered)
  · rintro (rfl | ⟨exchange, rfl, hfits, hkept⟩)
    · obtain rfl := hdelivered.events_eq_nil
      intro actions final hrun hquiescent
      have hinitial : Quiescent step (initial env source []) := by
        intro action
        cases action <;> rfl
      rw [runActions.of_quiescent hinitial hrun]
      exact ⟨rfl, nofun⟩
    · exact observed_single hdelivered hfits hkept

end

def getHead : List Byte := encodeHead [ascii "GET / HTTP/1.1", ascii "Host: a"]

def okHead : List Byte := encodeHead [ascii "HTTP/1.1 200 OK", ascii "Content-Length: 2"]

def getExchange : Exchange lengthEnv.library where
  requestHead := getHead
  requestBody := []
  request :=
    { method := ascii "GET"
      requestURI := ascii "/"
      proto := ascii "HTTP/1.1"
      host := ascii "a"
      headers := [(ascii "Host", ascii "a")] }
  interim := []
  responseHead := okHead
  responseBody := ascii "ok"
  response :=
    { statusCode := 200
      status := ascii "OK"
      proto := ascii "HTTP/1.1"
      headers := [(ascii "Content-Length", ascii "2")] }
  requestHead_isHead := ⟨_, by decide, by unfold IsLine; decide +kernel, rfl⟩
  readRequest_eq := by rfl
  interim_isHead := nofun
  readResponse_interim := nofun
  responseHead_isHead := ⟨_, by decide, by unfold IsLine; decide +kernel, rfl⟩
  readResponse_eq := by rfl
  response_final := by decide

/-- The events of an exchange, with the response cut inside its head. -/
def getEvents : List DataEvent :=
  [{ direction := .egress, data := getHead }, { direction := .ingress, data := okHead.take 20 },
    { direction := .ingress, data := okHead.drop 20 ++ ascii "ok" }]

theorem exchanges_observed_iff_single :
    Delivered [getExchange] (phased .client getEvents) ∧
      LosesNothing lengthEnv .client [getExchange] getEvents := by
  have hdelivered : Delivered [getExchange] (phased .client getEvents) :=
    ⟨by decide, by decide, by decide, by decide⟩
  refine ⟨hdelivered, (exchanges_observed_iff _ _ _ _ hdelivered).2 (.inr ⟨_, rfl, ?_, ?_⟩)⟩
  · exact ⟨by decide, nofun, by decide⟩
  · rintro ⟨hwaits, -⟩
    exact absurd hwaits (by decide)

/-- Two exchanges one after another are not observed as two. -/
theorem second_exchange_lost :
    Delivered [getExchange, getExchange] (phased .client (getEvents ++ getEvents)) ∧
      ¬ LosesNothing lengthEnv .client [getExchange, getExchange] (getEvents ++ getEvents) := by
  have hdelivered :
      Delivered [getExchange, getExchange] (phased .client (getEvents ++ getEvents)) :=
    ⟨by decide, by decide, by decide, by decide⟩
  exact ⟨hdelivered, not_losesNothing_of_two hdelivered⟩

end Qtap.Http1
