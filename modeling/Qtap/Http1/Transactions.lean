import Qtap.Http1.Tracking

/-!
# Exchanges on a persistent connection

A connection carries request and response pairs one after another.  The stream processor
means to give each pair a session of its own, but the goroutines of a session go on
discarding whatever follows the first pair, and nothing ever ends them, so that there is
never a second session.
-/

namespace Qtap.Http1

open Option List Qtap.Core Qtap.Connection Qtap.Http1.System

/-- A request with its response, and the interim responses in front of it, as they stand
on the wire. -/
structure Exchange (library : Library) where
  requestHead : List Byte
  requestBody : List Byte
  request : Request
  interim : List (List Byte)
  responseHead : List Byte
  responseBody : List Byte
  response : Response
  requestHead_isHead : IsHead requestHead
  readRequest_eq : readRequest library requestHead = .ok request
  interim_isHead : ∀ head ∈ interim, IsHead head
  readResponse_interim : ∀ head ∈ interim, ∃ response,
    readResponse library head = .ok response ∧ isSkipped response = true
  responseHead_isHead : IsHead responseHead
  readResponse_eq : readResponse library responseHead = .ok response
  response_final : isInterim response = false

namespace Exchange

variable {library : Library}

def requestBytes (exchange : Exchange library) : List Byte :=
  exchange.requestHead ++ exchange.requestBody

/-- The response stream up to the end of the final head. -/
def responseHeads (exchange : Exchange library) : List Byte :=
  exchange.interim.flatten ++ exchange.responseHead

def responseBytes (exchange : Exchange library) : List Byte :=
  exchange.responseHeads ++ exchange.responseBody

/-- The heads are within the limit of the reader. -/
def Fits (exchange : Exchange library) : Prop :=
  exchange.requestHead.length ≤ maxHeaderSize ∧
    (∀ head ∈ exchange.interim, head.length ≤ maxHeaderSize) ∧
    exchange.responseHead.length ≤ maxHeaderSize

/-- A request event reaches past the request head before the final response head is
complete. -/
def Overtaken (exchange : Exchange library) (events : List Event) : Prop :=
  ∃ before event after, events = before ++ event :: after ∧ event.phase = .request ∧
    exchange.requestHead.length < (bytesOf (before ++ [event]) .request).length ∧
    (bytesOf before .response).length < exchange.responseHeads.length

end Exchange

/-- The events of a connection with their phases. -/
def phased (source : Source) (events : List DataEvent) : List Event :=
  events.map fun event => { phase := phaseOf source event.direction, data := event.data }

/-- The exchanges one after another, cut into events; an event that reaches past the k-th
request comes behind the whole k-th response. -/
structure Delivered {library : Library} (exchanges : List (Exchange library))
    (events : List Event) : Prop where
  request : bytesOf events .request = (exchanges.map Exchange.requestBytes).flatten
  response : bytesOf events .response = (exchanges.map Exchange.responseBytes).flatten
  nonempty : ∀ event ∈ events, event.data ≠ []
  ordered : ∀ k < exchanges.length, ∀ i < events.length,
    events[i]?.map Event.phase = some .request →
    ((exchanges.take k).map Exchange.requestBytes).flatten.length <
      (bytesOf (events.take (i + 1)) .request).length →
    ((exchanges.take k).map Exchange.responseBytes).flatten.length ≤
      (bytesOf (events.take i) .response).length

/-- One session per exchange, and each reports the heads of its exchange. -/
def Observed {env : Env} (exchanges : List (Exchange env.library)) (system : System env) : Prop :=
  system.sessions = exchanges.length ∧
    ∀ k exchange, exchanges[k]? = some exchange →
      system.requestsOf (k + 1) = [exchange.request] ∧
        system.responsesOf (k + 1) = [exchange.response]

/-- Every complete run observes the exchanges. -/
def LosesNothing (env : Env) (source : Source) (exchanges : List (Exchange env.library))
    (events : List DataEvent) : Prop :=
  ∀ actions final, runActions step (initial env source events) actions = some final →
    Quiescent step final → Observed exchanges final

/-! ## What the streams say -/

variable {env : Env}

variable {response : Response}

theorem responseScan_head {head : List Byte} (hhead : IsHead head)
    (hparse : readResponse env.library head = .ok response) (hfits : head.length ≤ maxHeaderSize)
    (rest : List Byte) :
    responseScan env {} (head ++ rest) =
      match afterByte (.parsed response : ResponseControl env) with
      | .head next => responseScan env next rest
      | control => (control, rest) := by
  have hcontrol : headResponse env (.complete head) = .parsed response := by
    simp only [headResponse, hparse]
  have hscan : responseScan env {} (head ++ rest) = _ :=
    responseScan_of_scan (HeadReader.scan_head hhead hfits rest) (by simp)
  rw [hcontrol] at hscan
  exact hscan

theorem responseScan_long_head {head : List Byte} (hhead : IsHead head)
    (hlong : maxHeaderSize < head.length) (rest : List Byte) :
    ∃ silent left, responseScan env {} (head ++ rest) = (.failed silent, left) := by
  obtain ⟨silent, left, hscan⟩ := HeadReader.scan_long_head hhead hlong rest
  exact ⟨silent, left, responseScan_of_scan hscan nofun⟩

theorem responseScan_interim {heads : List (List Byte)} (hheads : ∀ head ∈ heads, IsHead head)
    (hparse : ∀ head ∈ heads, ∃ response,
      readResponse env.library head = .ok response ∧ isSkipped response = true) {rest : List Byte} :
    (∀ head ∈ heads, head.length ≤ maxHeaderSize) ∧
        responseScan env {} (heads.flatten ++ rest) = responseScan env {} rest ∨
      (∃ head ∈ heads, maxHeaderSize < head.length) ∧
        ∃ silent left, responseScan env {} (heads.flatten ++ rest) = (.failed silent, left) := by
  induction heads with
  | nil => exact .inl ⟨nofun, rfl⟩
  | cons head heads ih =>
    rw [flatten_cons, append_assoc]
    by_cases hfits : head.length ≤ maxHeaderSize
    · obtain ⟨_, hread, hskipped⟩ := hparse head mem_cons_self
      rw [responseScan_head (hheads head mem_cons_self) hread hfits, afterByte_skipped hskipped]
      rcases ih (fun other hother => hheads other (mem_cons_of_mem head hother))
        (fun other hother => hparse other (mem_cons_of_mem head hother)) with
        ⟨hshort, hscan⟩ | ⟨⟨long, hmem, hlong⟩, hscan⟩
      · exact .inl ⟨forall_mem_cons.2 ⟨hfits, hshort⟩, hscan⟩
      · exact .inr ⟨⟨long, mem_cons_of_mem head hmem, hlong⟩, hscan⟩
    · rw [Nat.not_le] at hfits
      exact .inr ⟨⟨head, mem_cons_self, hfits⟩,
        responseScan_long_head (hheads head mem_cons_self) hfits _⟩

namespace Exchange

variable (exchange : Exchange env.library) (rest : List Byte)

theorem requestScan_eq (hfits : exchange.requestHead.length ≤ maxHeaderSize) :
    requestScan env (exchange.requestHead ++ rest) = (.parsed exchange.request, rest) := by
  rw [requestScan, HeadReader.scan_head exchange.requestHead_isHead hfits]
  simp only [headRequest, exchange.readRequest_eq]

theorem requestScan_long (hlong : maxHeaderSize < exchange.requestHead.length) :
    ∃ silent left, requestScan env (exchange.requestHead ++ rest) = (.failed silent, left) := by
  obtain ⟨silent, left, hscan⟩ :=
    HeadReader.scan_long_head exchange.requestHead_isHead hlong rest
  refine ⟨silent, left, ?_⟩
  rw [requestScan, hscan]
  rfl

/-- The response stream gets to the final response, or one of the heads is too long. -/
theorem responseScan_cases :
    ((∀ head ∈ exchange.interim, head.length ≤ maxHeaderSize) ∧
          exchange.responseHead.length ≤ maxHeaderSize) ∧
        responseScan env {} (exchange.responseHeads ++ rest) = (.parsed exchange.response, rest) ∨
      ((∃ head ∈ exchange.interim, maxHeaderSize < head.length) ∨
        maxHeaderSize < exchange.responseHead.length) ∧
      ∃ silent left, responseScan env {} (exchange.responseHeads ++ rest) =
        (.failed silent, left) := by
  rw [responseHeads, append_assoc]
  rcases responseScan_interim exchange.interim_isHead exchange.readResponse_interim with
    ⟨hshort, hscan⟩ | ⟨hlong, hscan⟩
  · rw [hscan]
    by_cases hfits : exchange.responseHead.length ≤ maxHeaderSize
    · refine .inl ⟨⟨hshort, hfits⟩, ?_⟩
      rw [responseScan_head exchange.responseHead_isHead exchange.readResponse_eq hfits,
        afterByte_kept (isSkipped_of_not_interim exchange.response_final)]
    · rw [Nat.not_le] at hfits
      exact .inr ⟨.inr hfits, responseScan_long_head exchange.responseHead_isHead hfits rest⟩
  · exact .inr ⟨.inl hlong, hscan⟩

theorem responseScan_eq (hfits : exchange.Fits) :
    responseScan env {} (exchange.responseHeads ++ rest) = (.parsed exchange.response, rest) := by
  rcases exchange.responseScan_cases rest with ⟨-, hscan⟩ | ⟨⟨head, hmem, hlong⟩ | hlong, -⟩
  · exact hscan
  · exact absurd (hfits.2.1 head hmem) (Nat.not_le.2 hlong)
  · exact absurd hfits.2.2 (Nat.not_le.2 hlong)

theorem unswitched : Unswitched env (exchange.responseHeads ++ rest) := by
  intro response left hresponse
  rcases exchange.responseScan_cases rest with ⟨-, hscan⟩ | ⟨-, silent, other, hscan⟩
  · cases hscan.symm.trans hresponse
    exact exchange.response_final
  · cases hscan.symm.trans hresponse

end Exchange

theorem Delivered.unswitched {exchanges : List (Exchange env.library)} {events : List Event}
    (hdelivered : Delivered exchanges events) : Unswitched env (bytesOf events .response) := by
  rw [hdelivered.response]
  cases exchanges with
  | nil => exact nofun
  | cons exchange =>
    rw [map_cons, flatten_cons, Exchange.responseBytes, append_assoc]
    exact exchange.unswitched _

theorem tracked_initial {source : Source} {events : List DataEvent} :
    Tracked (phased source events) (initial env source events) := ⟨rfl, rfl, rfl, rfl⟩

theorem exists_complete_run {env : Env} {source : Source} {events : List DataEvent} :
    ∃ actions final, runActions step (initial env source events) actions = some final ∧
      Quiescent step final :=
  exists_quiescent (fun _ _ _ hstep => move_decreases (step_move hstep))

/-! ## States at rest -/

section

variable {events : List Event} {system : System env} {transaction : Transaction env}
  {taken : Phase → List Byte}

/-- While anything is unread the caller is in a write. -/
theorem writing_of_unread {phase : Phase} (hstart : system.callerStart = none)
    (hunread : system.unread phase ≠ []) : ∃ event, system.writing = some event := by
  cases hwriting : system.writing with
  | some event => exact ⟨event, rfl⟩
  | none =>
    exfalso
    cases hpending : system.pending with
    | nil => exact hunread (by simp [unread, offered, hwriting, hpending])
    | cons =>
      unfold callerStart at hstart
      rw [hwriting, hpending] at hstart
      dsimp only at hstart
      split at hstart
      · split_ifs at hstart
      · cases hstart

theorem offered_of_writing {event : Event} (hwriting : system.writing = some event) :
    system.offered event.phase = some event.data := by
  rw [offered, hwriting]
  exact if_pos rfl

variable {reader : HeadReader} {rest left : List Byte} {request : Request}

section

variable {more : List Byte} (hfollows : Follows events system transaction taken)
  (hrequest : requestScan env (bytesOf events .request) = (.parsed request, rest))
  (hresponse : responseScan env {} (bytesOf events .response) = (.parsed response, left))

include hfollows

/-- What the goroutine has found behind a head is what the whole stream says. -/
theorem request_determined {control : RequestControl env} {result : RequestControl env × List Byte}
    (hstream : requestScan env (bytesOf events .request) = result)
    (hscan : requestScan env (taken .request) = (control, more))
    (hdone : ∀ reader, control ≠ .head reader) :
    (control, more ++ (system.unread .request).flatten) = result := by
  rw [← hstream, hfollows.account.bytes_eq .request, requestScan_append_done hscan hdone]

theorem response_determined {control : ResponseControl env}
    {result : ResponseControl env × List Byte}
    (hstream : responseScan env {} (bytesOf events .response) = result)
    (hscan : responseScan env {} (taken .response) = (control, more))
    (hdone : ∀ reader, control ≠ .head reader) :
    (control, more ++ (system.unread .response).flatten) = result := by
  rw [← hstream, hfollows.account.bytes_eq .response, responseScan_append_done hscan hdone]

section

include hrequest

/-- A stream that is unread to its end and yet decided is not in a head. -/
theorem unread_of_head (hscan : requestScan env (taken .request) = (.head reader, [])) :
    system.unread .request ≠ [] := by
  intro hnil
  rw [hfollows.account.bytes_eq .request, hnil, flatten_nil, append_nil, hscan] at hrequest
  cases hrequest

end

section

include hresponse

theorem unread_of_responseHead
    (hscan : responseScan env {} (taken .response) = (.head reader, [])) :
    system.unread .response ≠ [] := by
  intro hnil
  rw [hfollows.account.bytes_eq .response, hnil, flatten_nil, append_nil, hscan] at hresponse
  cases hresponse

/-- The response goroutine never leaves a write to it. -/
theorem response_not_stuck {data : List Byte}
    (hoffered : system.offered .response = some data) : system.responseStep transaction ≠ none := by
  intro hstuck
  have hat := hfollows.response
  rcases responseStep_stuck hoffered hstuck with hcontrol | hcontrol | hcontrol
  · rw [hcontrol] at hat
    exact hat
  · rw [hcontrol] at hat
    exact hat
  · rw [hcontrol] at hat
    obtain ⟨_, _, hscan, -⟩ := hat
    cases response_determined hfollows hresponse hscan nofun

end

include hrequest hresponse

theorem not_cancelled : transaction.cancelled = false := by
  rw [← Bool.not_eq_true]
  intro hcancelled
  rcases hfollows.cancelled hcancelled with ⟨silent, rest, hscan⟩ | ⟨silent, rest, hscan⟩
  · cases request_determined hfollows hrequest hscan nofun
  · cases response_determined hfollows hresponse hscan nofun

/-- Of the request goroutine only the wait for a 100 response leaves a write to it. -/
theorem request_stuck {data : List Byte} (hoffered : system.offered .request = some data)
    (hstuck : system.requestStep transaction = none) :
    requestScan env (taken .request) = (.parsed request, []) ∧ waits request = true := by
  have hat := hfollows.request
  unfold RequestAt at hat
  rcases requestStep_stuck hoffered hstuck with hcontrol | ⟨other, hcontrol⟩
  · rw [hcontrol] at hat
    rcases hat with ⟨_, _, hscan, -⟩ | ⟨hcancelled, -⟩
    · cases request_determined hfollows hrequest hscan nofun
    · rw [not_cancelled hfollows hrequest hresponse] at hcancelled
      cases hcancelled
  · rw [hcontrol] at hat
    obtain ⟨hscan, -, hwaits⟩ := hat
    cases request_determined hfollows hrequest hscan nofun
    exact ⟨hscan, hwaits⟩

theorem request_observed (hsession : system.session = some transaction)
    (hquiescent : Quiescent step system) :
    system.requestsOf 1 = [request] := by
  have hstep : system.requestStep transaction = none := by
    simpa only [step, hsession, bind_some] using hquiescent .requestStep
  have hat := hfollows.request
  unfold RequestAt at hat
  cases hcontrol : transaction.request with
  | head =>
    exfalso
    rw [hcontrol] at hat
    obtain ⟨event, hwriting⟩ := writing_of_unread (hquiescent .callerStart)
      (unread_of_head hfollows hrequest hat.1)
    have hoffered := offered_of_writing hwriting
    cases hphase : event.phase with
    | request =>
      rw [hphase] at hoffered
      rcases requestStep_stuck hoffered hstep with hexited | ⟨other, hwaiting⟩
      · cases hcontrol.symm.trans hexited
      · cases hcontrol.symm.trans hwaiting
    | response =>
      rw [hphase] at hoffered
      apply response_not_stuck hfollows hresponse hoffered
      simpa only [step, hsession, bind_some] using hquiescent .responseStep
  | failed silent | parsed other | stored other | notified other =>
    unfold requestStep at hstep
    rw [hcontrol] at hstep
    cases hstep
  | waiting =>
    rw [hcontrol] at hat
    cases request_determined hfollows hrequest hat.1 (by simp)
    exact hat.2.1
  | body state | discard =>
    rw [hcontrol] at hat
    obtain ⟨other, rest, hscan, hreports⟩ := hat
    cases request_determined hfollows hrequest hscan (by simp)
    exact hreports
  | exited =>
    rw [hcontrol] at hat
    rcases hat with ⟨_, rest, hscan, -⟩ | ⟨-, other, rest, hscan, hreports⟩
    · cases request_determined hfollows hrequest hscan (by simp)
    · cases request_determined hfollows hrequest hscan (by simp)
      exact hreports

end

variable {exchange : Exchange env.library} {tail tail' : List Byte}

section

variable (hfits : exchange.Fits)
  (hresponse : bytesOf events .response = exchange.responseHeads ++ tail')
  (hfollows : Follows events system transaction taken)

include hfits hresponse hfollows

/-- A goroutine that is still in a head has not taken the final one. -/
theorem taken_lt_of_head (hscan : responseScan env {} (taken .response) = (.head reader, [])) :
    (taken .response).length < exchange.responseHeads.length := by
  rw [← Nat.not_le]
  intro hlength
  have hbytes := hfollows.account.bytes_eq .response
  rw [hresponse] at hbytes
  obtain ⟨more, hmore⟩ := prefix_of_prefix_length_le (prefix_append exchange.responseHeads tail')
    (hbytes ▸ prefix_append (taken .response) _) hlength
  rw [← hmore, exchange.responseScan_eq more hfits] at hscan
  cases hscan

/-- A goroutine past the final head has taken it. -/
theorem taken_ge_of_parsed
    (hscan : responseScan env {} (taken .response) = (.parsed response, rest)) :
    exchange.responseHeads.length ≤ (taken .response).length := by
  rw [← Nat.not_lt]
  intro hlength
  have hbytes := hfollows.account.bytes_eq .response
  rw [hresponse] at hbytes
  obtain ⟨more, hmore⟩ := prefix_of_prefix_length_le (hbytes ▸ prefix_append (taken .response) _)
    (prefix_append exchange.responseHeads tail') (Nat.le_of_lt hlength)
  have hheads := exchange.responseScan_eq [] hfits
  rw [append_nil, ← hmore, responseScan_append_done hscan nofun] at hheads
  have hnil : more = [] := (append_eq_nil_iff.1 (Prod.mk.inj hheads).2).2
  rw [← hmore, hnil, append_nil] at hlength
  exact lt_irrefl _ hlength

end

section

variable (hfits : exchange.Fits) (hrequest : bytesOf events .request = exchange.requestHead ++ tail)

include hfits hrequest

section

variable (hfollows : Follows events system transaction taken)

include hfollows

section

variable (hscan : requestScan env (taken .request) = (.parsed exchange.request, []))

include hscan

/-- Before the body the request goroutine has taken the head and no more. -/
theorem taken_request_eq : taken .request = exchange.requestHead := by
  have hstream := exchange.requestScan_eq tail hfits.1
  rw [← hrequest] at hstream
  have hunread := (Prod.mk.inj (request_determined hfollows hstream hscan nofun)).2
  have hbytes := hfollows.account.bytes_eq .request
  rw [hrequest, ← hunread] at hbytes
  exact (append_cancel_right hbytes).symm

theorem overtaken_of_waiting {event : Event}
    (hresponse : bytesOf events .response = exchange.responseHeads ++ tail')
    (hnonempty : ∀ event ∈ events, event.data ≠ []) (hwriting : system.writing = some event)
    (hphase : event.phase = .request)
    (hhead : responseScan env {} (taken .response) = (.head reader, [])) :
    exchange.Overtaken events := by
  have hshort := taken_lt_of_head hfits hresponse hfollows hhead
  have htaken := taken_request_eq hfits hrequest hfollows hscan
  obtain ⟨done, part, hevents, hbytes, hempty⟩ := hfollows.account.split
  rw [hwriting] at hevents hbytes
  have hdata : event.data ≠ [] := by
    intro hnil
    refine hnonempty { event with data := part ++ event.data } ?_ ?_
    · rw [hevents]
      simp
    · rw [hempty event hwriting hnil, hnil]
      rfl
  refine ⟨done, { event with data := part ++ event.data }, system.pending, ?_, hphase, ?_, ?_⟩
  · rw [hevents]
    simp
  · have hlength := congrArg List.length htaken
    rw [hbytes .request] at hlength
    simp only [map_some, toList_some, bytesOf_append, bytesOf_singleton, hphase,
      if_true, length_append] at hlength ⊢
    have hpositive := length_pos_iff.2 hdata
    omega
  · have hnone : bytesOf [{ event with data := part }] .response = [] := by
      rw [hphase]
      rfl
    have hdone : taken .response = bytesOf done .response := by
      rw [hbytes .response, bytesOf_append]
      change bytesOf done .response ++ bytesOf [{ event with data := part }] .response = _
      rw [hnone, append_nil]
    rwa [hdone] at hshort

end

theorem response_observed (hresponse : bytesOf events .response = exchange.responseHeads ++ tail')
    (hnonempty : ∀ event ∈ events, event.data ≠ [])
    (hkept : ¬ (waits exchange.request = true ∧ exchange.Overtaken events))
    (hsession : system.session = some transaction) (hquiescent : Quiescent step system) :
    system.responsesOf 1 = [exchange.response] := by
  have hrequestStream := exchange.requestScan_eq tail hfits.1
  have hresponseStream := exchange.responseScan_eq tail' hfits
  rw [← hrequest] at hrequestStream
  rw [← hresponse] at hresponseStream
  have hstep : system.responseStep transaction = none := by
    simpa only [step, hsession, bind_some] using hquiescent .responseStep
  have hat := hfollows.response
  cases hcontrol : transaction.response with
  | head =>
    exfalso
    rw [hcontrol] at hat
    obtain ⟨event, hwriting⟩ := writing_of_unread (hquiescent .callerStart)
      (unread_of_responseHead hfollows hresponseStream hat.1)
    have hoffered := offered_of_writing hwriting
    cases hphase : event.phase with
    | response =>
      rw [hphase] at hoffered
      exact response_not_stuck hfollows hresponseStream hoffered hstep
    | request =>
      rw [hphase] at hoffered
      have hstuck : system.requestStep transaction = none := by
        simpa only [step, hsession, bind_some] using hquiescent .requestStep
      obtain ⟨hscan, hwaits⟩ :=
        request_stuck hfollows hrequestStream hresponseStream hoffered hstuck
      exact hkept ⟨hwaits, overtaken_of_waiting hfits hrequest hfollows hscan hresponse
        hnonempty hwriting hphase hat.1⟩
  | failed silent | parsed other =>
    unfold responseStep at hstep
    rw [hcontrol] at hstep
    cases hstep
  | awaiting | closing =>
    rw [hcontrol] at hat
    exact hat.elim
  | body state | discard =>
    rw [hcontrol] at hat
    obtain ⟨_, rest, hscan, hreports⟩ := hat
    cases response_determined hfollows hresponseStream hscan (by simp)
    exact hreports
  | exited =>
    rw [hcontrol] at hat
    obtain ⟨_, _, hscan, -⟩ := hat
    cases response_determined hfollows hresponseStream hscan (by simp)

end

end

end

end Qtap.Http1
