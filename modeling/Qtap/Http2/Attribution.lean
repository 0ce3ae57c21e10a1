import Qtap.Http2.Exchange

/-!
# Whose bytes end up in which body

The machine of a stream keeps one state for both directions.  While the response waits
for the end of the request, the state tells which side is sending, and every DATA frame
reaches the body it belongs to; a response that starts earlier takes the rest of the
request's DATA frames into its own body.
-/

namespace Qtap.Http2

open Phase Session List Option Qtap.Core Qtap.Connection

@[simp]
theorem requestBytes_append (first second : List Report) :
    requestBytes (first ++ second) = requestBytes first ++ requestBytes second :=
  flatMap_append

@[simp]
theorem responseBytes_append (first second : List Report) :
    responseBytes (first ++ second) = responseBytes first ++ responseBytes second :=
  flatMap_append

theorem dataFrom_cons (side : Side) (sent : Sent) (frames : List Sent) :
    dataFrom side (sent :: frames) =
      (if sent.side = side then dataOf sent.item else []) ++ dataFrom side frames := by
  unfold dataFrom
  by_cases hside : sent.side = side <;> simp [hside]

/-- The state takes DATA frames into the request body, which is not content-coded. -/
def ReceivesRequest (state : StreamState) : Prop :=
  ∃ request, (state = .requestHeaders request ∨ state = .requestBody request) ∧
    isEncoded request.header = false

/-- The state takes DATA frames into the response body, which is not content-coded. -/
def ReceivesResponse (state : StreamState) : Prop :=
  ∃ request response,
    (state = .responseHeaders request response ∨ state = .responseBody request response) ∧
      isEncoded response.header = false

/-- The block starts a request whose body is not content-coded. -/
def Accepts (env : Env) (streamID : ℕ) (fields : List HeaderField) : Prop :=
  ∃ request, createRequest env streamID (isGRPC fields) fields = some request ∧
    isEncoded request.header = false

/-- No response block of the frames announces a content coding. -/
def PlainResponse (frames : List Sent) : Prop :=
  ∀ fields endStream, { side := .server, item := .headers fields endStream } ∈ frames →
    hasStatusHeader fields = true → isEncoded (responseHeader fields) = false

/-! ## Steps of a session -/

/-- The calls hand exactly these bytes to the two bodies. -/
structure Writes (reports : List Report) (request response : List Byte) : Prop where
  request_eq : requestBytes reports = request
  response_eq : responseBytes reports = response

theorem Writes.append {first second : List Report} {request response more more' : List Byte}
    (hfirst : Writes first request response) (hsecond : Writes second more more') :
    Writes (first ++ second) (request ++ more) (response ++ more') where
  request_eq := by rw [requestBytes_append, hfirst.request_eq, hsecond.request_eq]
  response_eq := by rw [responseBytes_append, hfirst.response_eq, hsecond.response_eq]

namespace Session

section Frames

variable (env : Env) (streamID : ℕ) {session : Session} {request : Request} {response : Response}

section

variable (hstate : session.state = .requestHeaders request ∨ session.state = .requestBody request)

include hstate

theorem handleFrame_headers_of_request (fields : List HeaderField) (endStream : Bool) :
    session.handleFrame env streamID (.headers fields endStream) =
      handleEarlyHeaders { session with isGRPC := session.isGRPC || Http2.isGRPC fields } request
        fields endStream := by
  rcases hstate with hstate | hstate <;> simp only [handleFrame, handleHeadersFrame, hstate]

theorem handleFrame_data_of_request (data : List Byte) (endStream : Bool) :
    session.handleFrame env streamID (.data data endStream) =
      session.handleRequestData request data endStream := by
  rcases hstate with hstate | hstate <;> simp only [handleFrame, handleDataFrame, hstate]

end

variable (hstate : session.state = .responseHeaders request response ∨
  session.state = .responseBody request response)

include hstate

theorem handleFrame_headers_of_response (fields : List HeaderField) (endStream : Bool) :
    session.handleFrame env streamID (.headers fields endStream) =
      handleTrailers { session with isGRPC := session.isGRPC || Http2.isGRPC fields } response
        fields endStream := by
  rcases hstate with hstate | hstate <;> simp only [handleFrame, handleHeadersFrame, hstate]

theorem handleFrame_data_of_response (data : List Byte) (endStream : Bool) :
    session.handleFrame env streamID (.data data endStream) =
      session.handleResponseData request response data endStream := by
  rcases hstate with hstate | hstate <;> simp only [handleFrame, handleDataFrame, hstate]

end Frames

theorem endResponse_writes {response : Response} {reports : List Report}
    (hreports : Writes reports [] []) :
    (endResponse response reports).1 = none ∧ Writes (endResponse response reports).2 [] [] := by
  unfold endResponse
  split_ifs <;> exact ⟨rfl, hreports.append ⟨rfl, rfl⟩⟩

theorem handleResponseHeaders_ended {session : Session} {request : Request}
    {fields : List HeaderField} :
    (session.handleResponseHeaders request fields true).1 = none ∧
      Writes (session.handleResponseHeaders request fields true).2 [] [] := by
  unfold handleResponseHeaders
  split <;> exact endResponse_writes ⟨rfl, rfl⟩

theorem handleResponseHeaders_open (session : Session) (request : Request)
    (fields : List HeaderField) :
    session.handleResponseHeaders request fields false =
      (some { session with
          state := .responseHeaders request (Response.ofFields request fields false) },
        [.response (Response.ofFields request fields false) false]) := by
  simp [handleResponseHeaders]

theorem handleTrailers_ended {session : Session} {response : Response} {fields : List HeaderField} :
    (session.handleTrailers response fields true).1 = none ∧
      Writes (session.handleTrailers response fields true).2 [] [] := by
  unfold handleTrailers
  rw [if_pos rfl]
  split_ifs <;> exact endResponse_writes ⟨rfl, rfl⟩

end Session

/-! ## Steps of an exchange -/

/-- The session of a stream whose response has not started. -/
def FollowsRequest : Phase → Session → Prop
  | .waiting, session => session = {}
  | .headers, session => ReceivesRequest session.state
  | .body, session => ReceivesRequest session.state
  | .ended, session =>
    ReceivesRequest session.state ∨ ∃ request, session.state = .requestDone request

/-- The session of a stream whose response has started; it is removed at the end. -/
def FollowsResponse : Phase → Session → Prop
  | .waiting, _ => False
  | .headers, session => ReceivesResponse session.state
  | .body, session => ReceivesResponse session.state
  | .ended, session => session = {}

variable {phase next : Phase} {fields : List HeaderField} {item : Item} {frames : List Sent}
  {progress : Progress} {entry : Option Session}

theorem FollowsRequest.started {session : Session} (hfollows : FollowsRequest phase session)
    (hphase : phase ≠ .waiting) :
    ReceivesRequest session.state ∨ ∃ request, session.state = .requestDone request := by
  cases phase with
  | waiting => exact absurd rfl hphase
  | headers => exact .inl hfollows
  | body => exact .inl hfollows
  | ended => exact hfollows

/-- What a frame does to a session that follows `holds`, and the bytes it hands over. -/
def StepsTo (env : Env) (streamID : ℕ) (session : Session) (item : Item)
    (holds : Session → Prop) (request response : List Byte) : Prop :=
  holds ((session.handleFrame env streamID item).1.getD {}) ∧
    Writes (session.handleFrame env streamID item).2 request response

variable {env : Env} {streamID : ℕ} {session : Session}

theorem request_headers_step (haccepts : Accepts env streamID fields) (endStream : Bool) :
    StepsTo env streamID {} (.headers fields endStream)
      (FollowsRequest (headers.after endStream)) [] [] := by
  obtain ⟨request, hcreate, hplain⟩ := haccepts
  have hcreated : createRequest env streamID (false || isGRPC fields) fields = some request := by
    rw [Bool.false_or, hcreate]
  cases endStream
  · simp only [StepsTo, handleFrame, handleHeadersFrame, handleRequestHeaders, hcreated]
    exact ⟨⟨request, .inl rfl, hplain⟩, rfl, rfl⟩
  · simp only [StepsTo, handleFrame, handleHeadersFrame, handleRequestHeaders, hcreated, hplain]
    exact ⟨.inr ⟨request, rfl⟩, rfl, rfl⟩

theorem request_trailers_step (hreceives : ReceivesRequest session.state)
    (hstatus : hasStatusHeader fields = false) :
    StepsTo env streamID session (.headers fields true) (FollowsRequest .ended) [] [] := by
  obtain ⟨request, hstate, hplain⟩ := hreceives
  rw [StepsTo, handleFrame_headers_of_request env streamID hstate, handleEarlyHeaders, hstatus]
  exact ⟨.inl ⟨request, hstate, hplain⟩, rfl, rfl⟩

theorem request_data_step (hreceives : ReceivesRequest session.state) (data : List Byte)
    (endStream : Bool) :
    StepsTo env streamID session (.data data endStream)
      (FollowsRequest (body.after endStream)) data [] := by
  obtain ⟨request, hstate, hplain⟩ := hreceives
  rw [StepsTo, handleFrame_data_of_request env streamID hstate, handleRequestData, hplain]
  cases endStream
  · exact ⟨⟨request, .inr rfl, hplain⟩, by simp [requestBytes], rfl⟩
  · exact ⟨.inr ⟨request, rfl⟩, by simp [requestBytes], rfl⟩

theorem other_step {holds : Session → Prop} (hholds : holds session) :
    StepsTo env streamID session .other holds [] [] :=
  ⟨hholds, rfl, rfl⟩

/-- The request of the frames, unless it has started before, is accepted. -/
def AcceptsNext (env : Env) (streamID : ℕ) (client : Phase) (frames : List Sent) : Prop :=
  client = .waiting → ∀ fields, requestBlock frames = some fields → Accepts env streamID fields

/-- While the response has not started, a frame of the request hands its payload to the
request body. -/
theorem client_step (hfollows : FollowsRequest phase session)
    (hnext : requestStep phase item = some next)
    (haccepts : AcceptsNext env streamID phase ({ side := .client, item := item } :: frames)) :
    StepsTo env streamID session item (FollowsRequest next) (dataOf item) [] := by
  unfold requestStep at hnext
  split at hnext
  · rename_i fields endStream
    split_ifs at hnext
    rw [← Option.some.inj hnext, show session = {} from hfollows]
    exact request_headers_step (haccepts rfl fields rfl) endStream
  iterate 2
    · split_ifs at hnext with hstatus
      cases hnext
      exact request_trailers_step hfollows (Bool.eq_false_of_not_eq_true hstatus)
  iterate 2
    · cases hnext
      exact request_data_step hfollows _ _
  · cases hnext
    exact other_step hfollows
  · cases hnext

/-- The first block of a response moves a started request on, whether it has ended or
not, and hands over nothing. -/
theorem response_headers_step
    (hstarted : ReceivesRequest session.state ∨ ∃ request, session.state = .requestDone request)
    (hstatus : hasStatusHeader fields = true) (hplain : isEncoded (responseHeader fields) = false)
    (endStream : Bool) :
    StepsTo env streamID session (.headers fields endStream)
      (FollowsResponse (headers.after endStream)) [] [] := by
  have hresponse : ∀ (current : Session) (request : Request),
      FollowsResponse (headers.after endStream)
          ((current.handleResponseHeaders request fields endStream).1.getD {}) ∧
        Writes (current.handleResponseHeaders request fields endStream).2 [] [] := by
    intro current request
    cases endStream
    · rw [current.handleResponseHeaders_open request fields]
      exact ⟨⟨request, _, .inl rfl, hplain⟩, rfl, rfl⟩
    · obtain ⟨hnone, hwrites⟩ := current.handleResponseHeaders_ended
      rw [hnone]
      exact ⟨rfl, hwrites⟩
  rcases hstarted with ⟨request, hstate, _⟩ | ⟨request, hstate⟩
  · rw [StepsTo, handleFrame_headers_of_request env streamID hstate, handleEarlyHeaders, hstatus]
    obtain ⟨hfollows, hwrites⟩ := hresponse _ request
    exact ⟨hfollows, hwrites.request_eq, hwrites.response_eq⟩
  · simp only [StepsTo, handleFrame, handleHeadersFrame, hstate]
    exact hresponse _ request

/-- Blocks behind the first one of a response leave the session as it is, or end it. -/
theorem response_trailers_step (hreceives : ReceivesResponse session.state)
    (fields : List HeaderField) (endStream : Bool) :
    StepsTo env streamID session (.headers fields endStream)
      (FollowsResponse (headers.after endStream)) [] [] := by
  obtain ⟨request, response, hstate, hplain⟩ := hreceives
  rw [StepsTo, handleFrame_headers_of_response env streamID hstate]
  cases endStream
  · exact ⟨⟨request, response, hstate, hplain⟩, rfl, rfl⟩
  · obtain ⟨hnone, hwrites⟩ := handleTrailers_ended
    rw [hnone]
    exact ⟨rfl, hwrites⟩

theorem response_data_step (hreceives : ReceivesResponse session.state) (data : List Byte)
    (endStream : Bool) :
    StepsTo env streamID session (.data data endStream)
      (FollowsResponse (body.after endStream)) [] data := by
  obtain ⟨request, response, hstate, hplain⟩ := hreceives
  rw [StepsTo, handleFrame_data_of_response env streamID hstate, handleResponseData, hplain]
  cases endStream
  · exact ⟨⟨request, response, .inr rfl, hplain⟩, rfl, by simp [responseBytes]⟩
  · exact ⟨rfl, rfl, by simp [responseBytes]⟩

/-- Once the response has started, its frames hand their payloads to the response body. -/
theorem server_step (hfollows : FollowsResponse phase session)
    (hnext : responseStep phase item = some next) :
    StepsTo env streamID session item (FollowsResponse next) [] (dataOf item) := by
  unfold responseStep at hnext
  split at hnext
  · exact hfollows.elim
  · rename_i fields endStream
    have hblock : StepsTo env streamID session (.headers fields endStream)
        (FollowsResponse (headers.after endStream)) [] [] :=
      response_trailers_step hfollows fields endStream
    split_ifs at hnext with hstatus hended
    · cases hnext
      exact hblock
    · cases hnext
      rw [hended] at hblock ⊢
      exact hblock
  · rename_i fields
    split_ifs at hnext
    cases hnext
    exact response_trailers_step hfollows fields true
  iterate 2
    · cases hnext
      exact response_data_step hfollows _ _
  · cases hnext
    exact other_step hfollows
  · cases hnext

/-! ## Responses in turn -/

/-- The session of a stream whose response starts when its request has ended. -/
def FollowsInTurn (progress : Progress) (session : Session) : Prop :=
  if progress.server = .waiting then FollowsRequest progress.client session
  else FollowsResponse progress.server session

theorem requestStep_waiting (hnext : requestStep phase item = some .waiting) :
    phase = .waiting ∧ item = .other := by
  unfold requestStep at hnext
  split at hnext
  · rename_i endStream
    split_ifs at hnext
    cases endStream <;> cases hnext
  iterate 2
    · split_ifs at hnext
      cases hnext
  iterate 2
    · rename_i endStream
      cases endStream <;> cases hnext
  · exact ⟨Option.some.inj hnext, rfl⟩
  · cases hnext

theorem requestBlock_cons_other (side : Side) (frames : List Sent) :
    requestBlock ({ side := side, item := .other } :: frames) = requestBlock frames := by
  cases side <;> rfl

theorem AcceptsNext.client {client : Phase}
    (haccepts : AcceptsNext env streamID client ({ side := .client, item := item } :: frames))
    (hnext : requestStep client item = some next) : AcceptsNext env streamID next frames := by
  intro hwaiting fields hblock
  rw [hwaiting] at hnext
  obtain ⟨hclient, hother⟩ := requestStep_waiting hnext
  apply haccepts hclient
  rw [hother, requestBlock_cons_other, hblock]

theorem exchange_cons {mayRespond : Phase → Bool} {sent : Sent}
    (hrun : (runActions (exchangeStep mayRespond) progress (sent :: frames)).isSome) :
    ∃ next, exchangeStep mayRespond progress sent = some next ∧
      (runActions (exchangeStep mayRespond) next frames).isSome := by
  obtain ⟨final, hfinal⟩ := isSome_iff_exists.1 hrun
  obtain ⟨next, hnext, hrest⟩ := runActions.cons_eq_some_iff.1 hfinal
  exact ⟨next, hnext, isSome_iff_exists.2 ⟨final, hrest⟩⟩

/-- The progress of an exchange after a frame of the response. -/
theorem exchangeStep_server {mayRespond : Phase → Bool} {next : Progress}
    (hnext : exchangeStep mayRespond progress { side := .server, item := item } = some next) :
    (item = .other ∧ next = progress) ∨
      (item ≠ .other ∧ mayRespond progress.client = true ∧
        ∃ phase, responseStep progress.server item = some phase ∧
          next = { progress with server := phase }) := by
  unfold exchangeStep at hnext
  split_ifs at hnext with hother hrespond
  · exact .inl ⟨hother, (Option.some.inj hnext).symm⟩
  · obtain ⟨phase, hphase, heq⟩ := map_eq_some_iff.1 hnext
    exact .inr ⟨hother, hrespond, phase, hphase, heq.symm⟩

theorem exchangeStep_client {mayRespond : Phase → Bool} {next : Progress}
    (hnext : exchangeStep mayRespond progress { side := .client, item := item } = some next) :
    ∃ phase, requestStep progress.client item = some phase ∧
      next = { progress with client := phase } := by
  obtain ⟨phase, hphase, heq⟩ := map_eq_some_iff.1 hnext
  exact ⟨phase, hphase, heq.symm⟩

/-- A block that starts a response. -/
theorem responseStep_waiting (hother : item ≠ .other)
    (hnext : responseStep .waiting item = some next) :
    ∃ fields endStream, item = .headers fields endStream ∧ hasStatusHeader fields = true ∧
      next = headers.after endStream := by
  cases item with
  | headers fields endStream =>
    simp only [responseStep, ite_none_right_eq_some, Option.some.injEq] at hnext
    exact ⟨fields, endStream, rfl, hnext.1, hnext.2.symm⟩
  | other => exact absurd rfl hother
  | headersFailed | data data endStream | rstStream | goAway => cases hnext

/-- One frame of an exchange in turn hands its payload to the body of its sender. -/
theorem inTurn_step {next : Progress} {sent : Sent} (hfollows : FollowsInTurn progress session)
    (hended : progress.server ≠ .waiting → progress.client = .ended)
    (hnext : exchangeStep inTurn progress sent = some next)
    (haccepts : AcceptsNext env streamID progress.client (sent :: frames))
    (hplain : PlainResponse (sent :: frames)) :
    StepsTo env streamID session sent.item (FollowsInTurn next)
        (if sent.side = .client then dataOf sent.item else [])
        (if sent.side = .server then dataOf sent.item else []) ∧
      (next.server ≠ .waiting → next.client = .ended) ∧
      AcceptsNext env streamID next.client frames := by
  obtain ⟨side, item⟩ := sent
  cases side with
  | client =>
    obtain ⟨phase, hphase, rfl⟩ := exchangeStep_client hnext
    by_cases hserver : progress.server = .waiting
    · simp only [FollowsInTurn, hserver, if_true] at hfollows ⊢
      exact ⟨client_step hfollows hphase haccepts, fun habsurd => absurd rfl habsurd,
        haccepts.client hphase⟩
    · have hclient := hended hserver
      rw [hclient] at hphase
      cases item with
      | other =>
        cases hphase
        have hholds : FollowsInTurn { progress with client := .ended } session := by
          simpa only [FollowsInTurn, hserver, if_false] using hfollows
        exact ⟨other_step hholds, fun _ => rfl, fun habsurd => by cases habsurd⟩
      | headers fields endStream | headersFailed | data data endStream | rstStream
      | goAway => cases hphase
  | server =>
    rcases exchangeStep_server hnext with ⟨rfl, rfl⟩ | ⟨hother, hrespond, phase, hphase, rfl⟩
    · exact ⟨other_step hfollows, hended, haccepts⟩
    · have hclient : progress.client = .ended := of_decide_eq_true hrespond
      refine ⟨?_, fun _ => hclient, haccepts⟩
      by_cases hserver : progress.server = .waiting
      · simp only [FollowsInTurn, hserver, if_true, hclient] at hfollows
        rw [hserver] at hphase
        obtain ⟨fields, endStream, rfl, hstatus, rfl⟩ := responseStep_waiting hother hphase
        have hblock : StepsTo env streamID session (.headers fields endStream)
            (FollowsResponse (headers.after endStream)) [] [] :=
          response_headers_step hfollows hstatus
            (hplain fields endStream mem_cons_self hstatus) endStream
        cases endStream <;> exact hblock
      · simp only [FollowsInTurn, hserver, if_false] at hfollows
        have hstep : StepsTo env streamID session item (FollowsResponse phase) []
            (dataOf item) := server_step hfollows hphase
        refine ⟨?_, hstep.2⟩
        have hstarted : phase ≠ .waiting := by
          rintro rfl
          exact hstep.1
        simp only [FollowsInTurn, hstarted, if_false]
        exact hstep.1

theorem inTurn_run (frames : List Sent) (hfollows : FollowsInTurn progress (entry.getD {}))
    (hended : progress.server ≠ .waiting → progress.client = .ended)
    (hrun : (runActions (exchangeStep inTurn) progress frames).isSome)
    (haccepts : AcceptsNext env streamID progress.client frames) (hplain : PlainResponse frames) :
    Writes (feed (streamStep env streamID) entry frames).2 (dataFrom .client frames)
      (dataFrom .server frames) := by
  induction frames generalizing progress entry with
  | nil => exact ⟨rfl, rfl⟩
  | cons sent frames ih =>
    obtain ⟨_, hnext, hrest⟩ := exchange_cons hrun
    obtain ⟨⟨hholds, hwrites⟩, hnextEnded, hnextAccepts⟩ :=
      inTurn_step hfollows hended hnext haccepts hplain
    have htail := ih hholds hnextEnded hrest hnextAccepts
      fun fields endStream hmem => hplain fields endStream (mem_cons_of_mem _ hmem)
    rw [dataFrom_cons, dataFrom_cons]
    exact hwrites.append htail

/-! ## Early responses -/

/-- The state takes no DATA frame into a request body. -/
def Settled (state : StreamState) : Prop :=
  ∀ request, state ≠ .requestHeaders request ∧ state ≠ .requestBody request

/-- A frame leaves nothing that takes request data, and hands none over. -/
def Settles (result : Option Session × List Report) : Prop :=
  Settled (result.1.getD {}).state ∧ requestBytes result.2 = []

/-- A frame that cannot open a message: DATA, the end of a stream, or neither. -/
def opensNothing : Item → Bool
  | .headers _ endStream => endStream
  | .data _ _ => true
  | .other => true
  | _ => false

section

variable (env : Env) (streamID : ℕ) (hsettled : Settled session.state)

include hsettled

theorem ended_headers_settles (fields : List HeaderField) :
    Settles (session.handleFrame env streamID (.headers fields true)) := by
  have hidle : Settled StreamState.idle := fun _ => ⟨nofun, nofun⟩
  have hremoved : ∀ result : Option Session × List Report,
      result.1 = none ∧ Writes result.2 [] [] → Settles result := by
    rintro result ⟨hnone, hwrites⟩
    rw [Settles, hnone]
    exact ⟨hidle, hwrites.request_eq⟩
  cases hstate : session.state with
  | idle =>
    simp only [handleFrame, handleHeadersFrame, hstate, handleRequestHeaders]
    cases createRequest env streamID (session.isGRPC || isGRPC fields) fields with
    | none => exact ⟨hidle, rfl⟩
    | some =>
      simp only [if_true]
      split_ifs
      · exact ⟨hidle, rfl⟩
      · exact ⟨fun other => ⟨nofun, nofun⟩, rfl⟩
  | requestHeaders request => exact absurd hstate (hsettled request).1
  | requestBody request => exact absurd hstate (hsettled request).2
  | requestDone request =>
    simp only [handleFrame, handleHeadersFrame, hstate]
    exact hremoved _ (handleResponseHeaders_ended)
  | responseHeaders request response | responseBody request response =>
    simp only [handleFrame, handleHeadersFrame, hstate]
    exact hremoved _ (handleTrailers_ended)

theorem data_settles (data : List Byte) (endStream : Bool) :
    Settles (session.handleFrame env streamID (.data data endStream)) := by
  cases hstate : session.state with
  | idle | requestDone request =>
    simp only [handleFrame, handleDataFrame, hstate]
    exact ⟨hsettled, rfl⟩
  | requestHeaders request => exact absurd hstate (hsettled request).1
  | requestBody request => exact absurd hstate (hsettled request).2
  | responseHeaders request response | responseBody request response =>
    simp only [handleFrame, handleDataFrame, hstate]
    unfold handleResponseData
    split_ifs
    all_goals exact ⟨fun other => ⟨nofun, nofun⟩, rfl⟩

theorem settles_step (hitem : opensNothing item = true) :
    Settles (session.handleFrame env streamID item) := by
  cases item with
  | headers fields endStream =>
    rw [show endStream = true from hitem]
    exact ended_headers_settles env streamID hsettled fields
  | data data endStream => exact data_settles env streamID hsettled data endStream
  | other => exact ⟨hsettled, rfl⟩
  | headersFailed | rstStream | goAway => cases hitem

end

theorem settled_run (env : Env) (streamID : ℕ) (hsettled : Settled (entry.getD {}).state)
    (frames : List Sent) (hframes : ∀ sent ∈ frames, opensNothing sent.item = true) :
    requestBytes (feed (streamStep env streamID) entry frames).2 = [] := by
  induction frames generalizing entry with
  | nil => rfl
  | cons sent frames ih =>
    obtain ⟨hnext, hbytes⟩ :=
      settles_step env streamID hsettled (hframes sent mem_cons_self)
    have htail := ih hnext (forall_mem_cons.1 hframes).2
    rw [feed, requestBytes_append, streamStep, hbytes, htail]
    rfl

/-- A block that starts a response, interim or final. -/
def Sent.startsResponse (sent : Sent) : Bool :=
  match sent with
  | { side := .server, item := .headers fields _ } => hasStatusHeader fields
  | _ => false

theorem Phase.after_ne_waiting (phase : Phase) (hphase : phase ≠ .waiting) (endStream : Bool) :
    phase.after endStream ≠ .waiting := by
  cases endStream
  · exact hphase
  · exact nofun

theorem requestStep_started (hphase : phase ≠ .waiting)
    (hnext : requestStep phase item = some next) :
    opensNothing item = true ∧ next ≠ .waiting := by
  constructor
  · unfold requestStep at hnext
    split at hnext
    · exact absurd rfl hphase
    all_goals first | rfl | cases hnext
  · rintro rfl
    exact hphase (requestStep_waiting hnext).1

theorem responseStep_started (hphase : phase ≠ .waiting)
    (hstatus : ∀ fields endStream, item = .headers fields endStream →
      hasStatusHeader fields = false) (hnext : responseStep phase item = some next) :
    opensNothing item = true ∧ next ≠ .waiting := by
  unfold responseStep at hnext
  split at hnext
  · exact absurd rfl hphase
  · rename_i fields endStream
    rw [hstatus fields endStream rfl] at hnext
    simp only [Bool.false_eq_true, if_false, ite_none_right_eq_some, Option.some.injEq] at hnext
    exact ⟨hnext.1, by rw [← hnext.2]; exact nofun⟩
  · split_ifs at hnext
    exact ⟨rfl, by rw [← Option.some.inj hnext]; exact nofun⟩
  iterate 2
    · cases hnext
      exact ⟨rfl, after_ne_waiting .body nofun _⟩
  · cases hnext
    exact ⟨rfl, hphase⟩
  · cases hnext

/-- Behind the only block of a response that has `:status`, nothing opens a message. -/
theorem opensNothing_of_exchange (frames : List Sent)
    (hrun : (runActions (exchangeStep early) progress frames).isSome)
    (hclient : progress.client ≠ .waiting) (hserver : progress.server ≠ .waiting)
    (hstarts : ∀ sent ∈ frames, sent.startsResponse = false) :
    ∀ sent ∈ frames, opensNothing sent.item = true := by
  induction frames generalizing progress with
  | nil => exact nofun
  | cons first frames ih =>
    obtain ⟨_, hnext, hrest⟩ := exchange_cons hrun
    have htail := fun hnextClient hnextServer =>
      ih hrest hnextClient hnextServer (forall_mem_cons.1 hstarts).2
    have hfirst := hstarts first mem_cons_self
    obtain ⟨side, item⟩ := first
    rw [forall_mem_cons]
    cases side with
    | client =>
      obtain ⟨phase, hphase, rfl⟩ := exchangeStep_client hnext
      obtain ⟨hitem, hstarted⟩ := requestStep_started hclient hphase
      exact ⟨hitem, htail hstarted hserver⟩
    | server =>
      rcases exchangeStep_server hnext with ⟨rfl, rfl⟩ | ⟨_, _, phase, hphase, rfl⟩
      · exact ⟨rfl, htail hclient hserver⟩
      · have hstatus : ∀ fields endStream, item = .headers fields endStream →
            hasStatusHeader fields = false := by
          rintro fields endStream rfl
          exact hfirst
        obtain ⟨hitem, hstarted⟩ := responseStep_started hserver hstatus hphase
        exact ⟨hitem, htail hclient hstarted⟩

theorem startsResponse_tail {endStream : Bool} (hstatus : hasStatusHeader fields = true)
    (hsingle : (({ side := .server, item := .headers fields endStream } :: frames).filter
      Sent.startsResponse).length ≤ 1) : ∀ sent ∈ frames, sent.startsResponse = false := by
  have hfirst : Sent.startsResponse { side := .server, item := .headers fields endStream } = true :=
    hstatus
  rw [filter_cons_of_pos hfirst] at hsingle
  have hnone : frames.filter Sent.startsResponse = [] :=
    length_eq_zero_iff.1 (Nat.le_zero.1 (Nat.le_of_succ_le_succ hsingle))
  intro sent hsent
  exact Bool.eq_false_of_not_eq_true (filter_eq_nil_iff.1 hnone sent hsent)

theorem FollowsResponse.settled (hfollows : FollowsResponse phase session) :
    Settled session.state := by
  have hreceives : ReceivesResponse session.state → Settled session.state := by
    rintro ⟨request, _, hstate | hstate, _⟩ other <;> rw [hstate] <;> exact ⟨nofun, nofun⟩
  cases phase with
  | waiting => exact hfollows.elim
  | headers | body => exact hreceives hfollows
  | ended =>
    rw [show session = {} from hfollows]
    exact fun request => ⟨nofun, nofun⟩

/-- However early the only response block comes, the request body stays a prefix of what
the client has sent. -/
theorem early_run (frames : List Sent) (hserver : progress.server = .waiting)
    (hfollows : FollowsRequest progress.client (entry.getD {}))
    (hrun : (runActions (exchangeStep early) progress frames).isSome)
    (hsingle : (frames.filter Sent.startsResponse).length ≤ 1)
    (haccepts : AcceptsNext env streamID progress.client frames) (hplain : PlainResponse frames) :
    requestBytes (feed (streamStep env streamID) entry frames).2 <+: dataFrom .client frames := by
  induction frames generalizing progress entry with
  | nil => exact prefix_rfl
  | cons sent frames ih =>
    obtain ⟨_, hnext, hrest⟩ := exchange_cons hrun
    have hplainTail : PlainResponse frames := fun fields endStream hmem =>
      hplain fields endStream (mem_cons_of_mem _ hmem)
    have hsingleTail : (frames.filter Sent.startsResponse).length ≤ 1 :=
      ((sublist_cons_self sent frames).filter _).length_le.trans hsingle
    obtain ⟨side, item⟩ := sent
    rw [feed, requestBytes_append]
    cases side with
    | client =>
      obtain ⟨phase, hphase, rfl⟩ := exchangeStep_client hnext
      have hstep : StepsTo env streamID (entry.getD {}) item (FollowsRequest phase)
          (dataOf item) [] := client_step hfollows hphase haccepts
      have hwaiting : ({ progress with client := phase } : Progress).server = .waiting :=
        hserver
      have htail := ih hwaiting hstep.1 hrest hsingleTail (haccepts.client hphase) hplainTail
      rw [streamStep, hstep.2.request_eq]
      exact (prefix_append_right_inj _).2 htail
    | server =>
      rcases exchangeStep_server hnext with ⟨rfl, rfl⟩ | ⟨hother, hrespond, phase, hphase, rfl⟩
      · exact ih hserver hfollows hrest hsingleTail haccepts hplainTail
      · rw [hserver] at hphase
        obtain ⟨fields, endStream, rfl, hstatus, rfl⟩ := responseStep_waiting hother hphase
        have hclient : progress.client ≠ .waiting := by
          intro hwaiting
          rw [hwaiting] at hrespond
          cases hrespond
        have hstep : StepsTo env streamID (entry.getD {}) (.headers fields endStream)
            (FollowsResponse (headers.after endStream)) [] [] :=
          response_headers_step (hfollows.started hclient) hstatus
            (hplain fields endStream mem_cons_self hstatus) endStream
        have hnothing := opensNothing_of_exchange frames hrest hclient
          (after_ne_waiting .headers (by simp) endStream)
          (startsResponse_tail hstatus hsingle)
        rw [streamStep, hstep.2.request_eq,
          settled_run env streamID hstep.1.settled frames hnothing]
        exact nil_prefix

/-! ## Connections -/

/-- Two streams, interleaved; the frames of the other stream change nothing. -/
def interleavedTrace : List (ℕ × Sent) :=
  [(1, ⟨.client, .headers postBlock false⟩), (3, ⟨.client, .headers postBlock true⟩),
    (1, ⟨.client, .data [1, 2] false⟩), (3, ⟨.server, .headers okBlock false⟩),
    (1, ⟨.client, .data [3] true⟩), (3, ⟨.server, .data [9] true⟩), (1, ⟨.server, .other⟩),
    (1, ⟨.server, .headers okBlock false⟩), (1, ⟨.server, .data [7] false⟩),
    (1, ⟨.server, .data [8] true⟩)]

end Qtap.Http2
