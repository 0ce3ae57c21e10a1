import Qtap.Http2.Attribution

/-!
# The life of a session

Any frame on a stream without a session starts one.  As long as nothing but RST_STREAM
arrives on a stream whose session has been removed, and the first header block of every
stream is the client's, each stream makes at most one request and leaves no session
behind; late frames on a finished stream bring a session back.
-/

namespace Qtap.Http2

open StreamState Report Option Session List Qtap.Core Qtap.Connection

/-! ## What a frame can do to a session -/

def StreamState.inRequest : StreamState → Bool
  | .requestHeaders _ => true
  | .requestBody _ => true
  | .requestDone _ => true
  | _ => false

def StreamState.inResponse : StreamState → Bool
  | .responseHeaders _ _ => true
  | .responseBody _ _ => true
  | _ => false

def Report.isRequest : Report → Bool
  | .request _ _ => true
  | _ => false

/-- No request is created, and a session that is given up is removed. -/
structure Quiet (result : Option Session × List Report) : Prop where
  no_request : ∀ report ∈ result.2, report.isRequest = false
  skipped : .skipped ∈ result.2 → result.1 = none

/-- Quiet, and a session that goes on meets the condition. -/
def Quietly (result : Option Session × List Report) (post : Session → Prop) : Prop :=
  Quiet result ∧ ∀ next, result.1 = some next → post next

variable {reports : List Report} {frames : List Sent} {sent : Sent} {progress next : Progress}
  {fields : List HeaderField} {endStream : Bool}

namespace Session

theorem endResponse_quiet {response : Response}
    (hreports : ∀ report ∈ reports, report.isRequest = false) :
    Quiet (endResponse response reports) := by
  have hnone : (endResponse response reports).1 = none := by
    unfold endResponse
    split_ifs <;> rfl
  refine ⟨?_, fun _ => hnone⟩
  unfold endResponse
  split_ifs <;> simpa [or_imp, forall_and, isRequest] using hreports

theorem handleResponseHeaders_quiet {session : Session} {request : Request} :
    Quietly (session.handleResponseHeaders request fields endStream) fun next =>
      next.state.inResponse = true ∧ endStream = false := by
  cases endStream with
  | false =>
    rw [handleResponseHeaders_open]
    refine ⟨⟨by simp [isRequest], by simp⟩, ?_⟩
    intro next hnext
    cases hnext
    exact ⟨rfl, rfl⟩
  | true =>
    constructor
    · unfold handleResponseHeaders
      split <;> exact endResponse_quiet (by simp [isRequest])
    · rw [handleResponseHeaders_ended.1]
      exact nofun

theorem handleEarlyHeaders_quiet {session : Session} {request : Request} :
    Quietly (session.handleEarlyHeaders request fields endStream) fun next =>
      (next = session ∧ hasStatusHeader fields = false) ∨
        (next.state.inResponse = true ∧ endStream = false) := by
  unfold handleEarlyHeaders
  split_ifs with hstatus
  · obtain ⟨hquiet, hnext⟩ := handleResponseHeaders_quiet
    refine ⟨⟨?_, ?_⟩, fun next hsome => .inr (hnext next hsome)⟩
    · simpa [isRequest] using hquiet.no_request
    · simpa using hquiet.skipped
  · refine ⟨⟨by simp, by simp⟩, ?_⟩
    intro next hsome
    exact .inl ⟨(some.inj hsome).symm, Bool.eq_false_of_not_eq_true hstatus⟩

theorem handleTrailers_quiet (session : Session) (response : Response) (fields : List HeaderField)
    (endStream : Bool) : Quiet (session.handleTrailers response fields endStream) := by
  unfold handleTrailers
  split_ifs
  · exact endResponse_quiet (by simp [isRequest])
  · exact endResponse_quiet (by simp)
  · exact ⟨by simp, by simp⟩

theorem handleRequestData_quiet (session : Session) (request : Request) (data : List Byte)
    (endStream : Bool) : Quietly (session.handleRequestData request data endStream) fun next =>
      next.state.inRequest = true := by
  unfold handleRequestData
  split_ifs <;> exact ⟨⟨by simp [isRequest], by simp⟩, by simp [inRequest]⟩

theorem handleResponseData_quiet (session : Session) (request : Request) (response : Response)
    (data : List Byte) (endStream : Bool) :
    Quietly (session.handleResponseData request response data endStream) fun next =>
      next.state.inResponse = true ∧ endStream = false := by
  unfold handleResponseData
  split_ifs <;> exact ⟨⟨by simp [isRequest], by simp⟩, by simp_all [inResponse]⟩

end Session

variable {env : Env} {streamID : ℕ} {session : Session}

/-- A block on a stream without a request makes one from its fields, or gives it up. -/
theorem idle_headers_step (env : Env) (streamID : ℕ) (hidle : session.state = .idle)
    (fields : List HeaderField) (endStream : Bool) :
    (session.handleFrame env streamID (.headers fields endStream) = (none, [.skipped])) ∨
      ∃ reports, .request (Request.ofFields env fields) endStream :: reports =
          (session.handleFrame env streamID (.headers fields endStream)).2 ∧
        (∀ report ∈ reports, report.isRequest = false) ∧
        (.skipped ∈ reports →
          (session.handleFrame env streamID (.headers fields endStream)).1 = none) ∧
        ∀ next, (session.handleFrame env streamID (.headers fields endStream)).1 = some next →
          next.state.inRequest = true := by
  simp only [handleFrame, handleHeadersFrame, hidle, handleRequestHeaders]
  cases hcreate : createRequest env streamID (session.isGRPC || isGRPC fields) fields with
  | none => exact .inl rfl
  | some request =>
    have hrequest : request = Request.ofFields env fields := by
      unfold createRequest at hcreate
      dsimp only at hcreate
      split_ifs at hcreate
      exact (some.inj hcreate).symm
    rw [hrequest]
    dsimp only
    cases endStream with
    | false =>
      exact .inr ⟨[], rfl, by simp, by simp, by simp [inRequest]⟩
    | true =>
      rw [if_pos rfl]
      split_ifs
      · exact .inr ⟨_, rfl, by simp [isRequest], fun _ => rfl, by simp⟩
      · exact .inr ⟨_, rfl, by simp [isRequest], by simp, by simp [inRequest]⟩

/-- Frames of a message on a stream whose response has started end it or keep it going. -/
theorem inResponse_step (hresponse : session.state.inResponse = true) {item : Item}
    (hitem : item ≠ .other) :
    Quietly (session.handleFrame env streamID item) fun next =>
      next.state.inResponse = true ∧ item.endsStream = false := by
  obtain ⟨request, response, hstate⟩ : ∃ request response,
      session.state = .responseHeaders request response ∨
        session.state = .responseBody request response := by
    cases hstate : session.state with
    | responseHeaders request response => exact ⟨request, response, .inl rfl⟩
    | responseBody request response => exact ⟨request, response, .inr rfl⟩
    | idle | requestHeaders request | requestBody request
    | requestDone => rw [hstate] at hresponse; cases hresponse
  cases item with
  | headers fields endStream =>
    rw [handleFrame_headers_of_response env streamID hstate]
    refine ⟨handleTrailers_quiet _ response fields endStream, ?_⟩
    cases endStream with
    | false =>
      intro next hnext
      cases hnext
      exact ⟨hresponse, rfl⟩
    | true =>
      rw [handleTrailers_ended.1]
      simp
  | data data endStream =>
    rw [handleFrame_data_of_response env streamID hstate]
    exact session.handleResponseData_quiet request response data endStream
  | headersFailed => exact ⟨⟨by simp [handleFrame, isRequest], fun _ => rfl⟩, by simp [handleFrame]⟩
  | rstStream | goAway => exact ⟨⟨by simp [handleFrame], fun _ => rfl⟩, by simp [handleFrame]⟩
  | other => exact absurd rfl hitem

/-- A block on a stream with a request starts the response or leaves the session as it is;
the latter only without `:status`. -/
theorem inRequest_headers_step (hrequest : session.state.inRequest = true) :
    Quietly (session.handleFrame env streamID (.headers fields endStream)) fun next =>
      (next.state.inRequest = true ∧ hasStatusHeader fields = false) ∨
        (next.state.inResponse = true ∧ endStream = false) := by
  cases hstate : session.state with
  | requestHeaders request | requestBody request =>
    rw [@handleFrame_headers_of_request env streamID session request (by simp [hstate])]
    obtain ⟨hquiet, hnext⟩ := handleEarlyHeaders_quiet
    refine ⟨hquiet, ?_⟩
    intro next hsome
    rcases hnext next hsome with ⟨rfl, hstatus⟩ | hresponse
    · exact .inl ⟨hrequest, hstatus⟩
    · exact .inr hresponse
  | requestDone request =>
    simp only [handleFrame, handleHeadersFrame, hstate]
    obtain ⟨hquiet, hnext⟩ := handleResponseHeaders_quiet
    exact ⟨hquiet, fun next hsome => .inr (hnext next hsome)⟩
  | idle | responseHeaders request response
  | responseBody => rw [hstate] at hrequest; cases hrequest

theorem inRequest_data_step (hrequest : session.state.inRequest = true) (data : List Byte)
    (endStream : Bool) : Quietly (session.handleFrame env streamID (.data data endStream))
      fun next => next.state.inRequest = true := by
  cases hstate : session.state with
  | requestHeaders request | requestBody request =>
    simp only [handleFrame, handleDataFrame, hstate]
    exact session.handleRequestData_quiet request data endStream
  | requestDone =>
    simp only [handleFrame, handleDataFrame, hstate]
    refine ⟨⟨by simp, by simp⟩, ?_⟩
    intro next hsome
    cases hsome
    exact hrequest
  | idle | responseHeaders request response
  | responseBody => rw [hstate] at hrequest; cases hrequest

/-! ## Conforming connections -/

/-- A frame that RFC 9113 allows on a stream: a reset, or the next one of an exchange, be
it the client's or one that the server has promised. -/
def conformStep (progress : Progress) (sent : Sent) : Option Progress :=
  if sent.item = .rstStream then
    match sent.side with
    | .client => some { progress with client := .ended }
    | .server => some { progress with server := .ended }
  else exchangeStep (fun _ => true) progress sent

def Conforming (trace : List (ℕ × Sent)) : Prop :=
  ∀ streamID, (runActions conformStep {} (entriesOf streamID trace)).isSome

def Item.isBlock : Item → Bool
  | .headers _ _ => true
  | _ => false

/-- A frame finds the table in order: on a stream that had a session and has none any
more, only RST_STREAM arrives, and what starts a request was sent by the client. -/
def OrderlyStep (env : Env) (before : List (ℕ × Sent)) (entry : ℕ × Sent) : Prop :=
  ((Sessions.receive env {} before).table entry.1 = none → entriesOf entry.1 before ≠ [] →
      entry.2.item = .rstStream) ∧
    (entry.2.item.isBlock = true →
      ((Sessions.receive env {} before).sessionOf entry.1).state = .idle →
      entry.2.side = .client)

instance (env : Env) (before : List (ℕ × Sent)) (entry : ℕ × Sent) :
    Decidable (OrderlyStep env before entry) :=
  inferInstanceAs (Decidable (_ ∧ _))

/-- Every frame of the trace meets the condition when it arrives. -/
def Orderly (env : Env) (trace : List (ℕ × Sent)) : Prop :=
  ∀ index : Fin trace.length, OrderlyStep env (trace.take index) (trace.get index)

instance (env : Env) (trace : List (ℕ × Sent)) : Decidable (Orderly env trace) :=
  inferInstanceAs (Decidable (∀ _ : Fin trace.length, _))

theorem Orderly.step {trace before after : List (ℕ × Sent)} {entry : ℕ × Sent}
    (horderly : Orderly env trace) (htrace : trace = before ++ entry :: after) :
    OrderlyStep env before entry := by
  subst htrace
  have hindex : before.length < (before ++ entry :: after).length := by simp
  have hstep := horderly ⟨before.length, hindex⟩
  simpa using hstep

/-! ## The life of one stream -/

/-- The first header block of a stream. -/
def firstBlock (frames : List Sent) : Option Sent := frames.find? fun sent => sent.item.isBlock

/-- At most one request, made from the client's block that is the first of the stream. -/
structure RequestedOnce (env : Env) (frames : List Sent) (reports : List Report) : Prop where
  once : (reports.filter Report.isRequest).length ≤ 1
  from_client : ∀ request endStream, .request request endStream ∈ reports →
    ∃ fields, firstBlock frames = some { side := .client, item := .headers fields endStream } ∧
      request = Request.ofFields env fields

theorem RequestedOnce.append {more : List Report} (honce : RequestedOnce env frames reports)
    (hmore : ∀ report ∈ more, report.isRequest = false) :
    RequestedOnce env (frames ++ [sent]) (reports ++ more) := by
  constructor
  · have hnone : more.filter isRequest = [] :=
      filter_eq_nil_iff.2 fun report hreport => by simp [hmore report hreport]
    rw [filter_append, hnone, append_nil]
    exact honce.once
  · intro request endStream hmem
    rcases mem_append.1 hmem with hmem | hmem
    · obtain ⟨fields, hfirst, hrequest⟩ := honce.from_client request endStream hmem
      refine ⟨fields, ?_, hrequest⟩
      unfold firstBlock at hfirst ⊢
      rw [List.find?_append, hfirst]
      rfl
    · cases hmore _ hmem

/-- The stages of a stream: no message yet, a session with a request, or a session that
was removed. -/
inductive Life (env : Env) (frames : List Sent) (entry : Option Session)
    (reports : List Report) (progress : Progress) : Prop where
  | unopened (hentry : entry.getD {} = {}) (hframes : ∀ sent ∈ frames, sent.item = .other)
      (hreports : reports = []) (hprogress : progress = {})
  | live (session : Session) (hentry : entry = some session)
      (hstate : session.state.inRequest = true ∨ session.state.inResponse = true)
      (hserver : progress.server ≠ .waiting → session.state.inResponse = true)
      (hopen : ∀ sent ∈ frames, sent.side = .server → sent.item.endsStream = false)
      (hreset : ∀ sent ∈ frames, sent.item ≠ .rstStream) (hskipped : .skipped ∉ reports)
      (honce : RequestedOnce env frames reports)
  | gone (hentry : entry = none) (honce : RequestedOnce env frames reports) (hframes : frames ≠ [])

theorem inRequest_not_inResponse {state : StreamState} (hrequest : state.inRequest = true) :
    state.inResponse ≠ true := by
  cases state <;> simp_all [inRequest, inResponse]

theorem exchangeStep_other {mayRespond : Phase → Bool} {side : Side}
    (hnext : exchangeStep mayRespond progress { side := side, item := .other } = some next) :
    next = progress := by
  cases side with
  | client =>
    obtain ⟨_, hphase, rfl⟩ := exchangeStep_client hnext
    obtain ⟨client, server⟩ := progress
    cases client <;> cases hphase <;> rfl
  | server =>
    rcases exchangeStep_server hnext with ⟨_, rfl⟩ | ⟨hother, _⟩
    · rfl
    · exact absurd rfl hother

section

variable (hstate : session.state.inRequest = true ∨ session.state.inResponse = true)

include hstate

/-- A frame that does not remove the session of a live stream keeps it live: the response is
open, and started if a frame of it has been seen. -/
theorem live_step {after : Session}
    (hserver : progress.server ≠ .waiting → session.state.inResponse = true)
    (hnext : exchangeStep (fun _ => true) progress sent = some next)
    (hafter : (session.handleFrame env streamID sent.item).1 = some after) :
    (after.state.inRequest = true ∨ after.state.inResponse = true) ∧
      (next.server ≠ .waiting → after.state.inResponse = true) ∧
      (sent.side = .server → sent.item.endsStream = false) := by
  obtain ⟨side, item⟩ := sent
  by_cases hother : item = .other
  · subst hother
    rw [exchangeStep_other hnext, ← some.inj hafter]
    exact ⟨hstate, hserver, fun _ => rfl⟩
  rcases hstate with hrequest | hresponse
  · have hwaiting : progress.server = .waiting := by
      by_contra hstarted
      exact inRequest_not_inResponse hrequest (hserver hstarted)
    cases side with
    | client =>
      obtain ⟨phase, hphase, rfl⟩ := exchangeStep_client hnext
      refine ⟨?_, fun habsurd => absurd hwaiting habsurd, nofun⟩
      cases item with
      | headers fields endStream =>
        rcases (inRequest_headers_step hrequest).2 after hafter with hkept | hkept
        · exact .inl hkept.1
        · exact .inr hkept.1
      | data data endStream =>
        exact .inl ((inRequest_data_step hrequest data endStream).2 after hafter)
      | other => exact absurd rfl hother
      | headersFailed | rstStream | goAway => cases hafter
    | server =>
      rcases exchangeStep_server hnext with ⟨habsurd, _⟩ | ⟨_, _, phase, hphase, rfl⟩
      · exact absurd habsurd hother
      · rw [hwaiting] at hphase
        obtain ⟨fields, endStream, rfl, hstatus, rfl⟩ := responseStep_waiting hother hphase
        rcases (inRequest_headers_step hrequest).2 after hafter with hkept | hkept
        · rw [hstatus] at hkept
          cases hkept.2
        · exact ⟨.inr hkept.1, fun _ => hkept.1, fun _ => hkept.2⟩
  · obtain ⟨hkept, hopen⟩ := (inResponse_step hresponse hother).2 after hafter
    exact ⟨.inr hkept, fun _ => hkept, fun _ => hopen⟩

theorem live_quiet (item : Item) : Quiet (session.handleFrame env streamID item) := by
  have hother : Quiet (session.handleFrame env streamID .other) :=
    ⟨by simp [handleFrame], by simp [handleFrame]⟩
  rcases hstate with hrequest | hresponse
  · cases item with
    | headers fields endStream => exact (inRequest_headers_step hrequest).1
    | data data endStream => exact (inRequest_data_step hrequest data endStream).1
    | headersFailed => exact ⟨by simp [handleFrame, isRequest], fun _ => rfl⟩
    | rstStream | goAway => exact ⟨by simp [handleFrame], fun _ => rfl⟩
    | other => exact hother
  · by_cases hitem : item = .other
    · rw [hitem]
      exact hother
    · exact (inResponse_step hresponse hitem).1

end

theorem RequestedOnce.nil (env : Env) (frames : List Sent) : RequestedOnce env frames [] :=
  ⟨Nat.zero_le _, nofun⟩

/-- The first header block of a stream opens it, if it is the client's. -/
theorem Life.open {entry : Option Session}
    (hentry : entry.getD {} = {}) (hframes : ∀ sent ∈ frames, sent.item = .other)
    (hnext : exchangeStep (fun _ => true) {} sent = some next)
    (hsent : sent = { side := .client, item := .headers fields endStream }) :
    Life env (frames ++ [sent]) (streamStep env streamID entry sent).1
      (streamStep env streamID entry sent).2 next := by
  have hblocks : firstBlock frames = none :=
    List.find?_eq_none.2 fun sent hsent => by simp [hframes sent hsent, Item.isBlock]
  have hfirst : firstBlock (frames ++ [sent]) = some sent := by
    unfold firstBlock at hblocks ⊢
    rw [List.find?_append, hblocks, hsent]
    rfl
  subst hsent
  obtain ⟨_, _, rfl⟩ := exchangeStep_client hnext
  rw [streamStep, hentry]
  have hidle : ({} : Session).state = .idle := rfl
  rcases idle_headers_step env streamID hidle fields endStream
    with hskip | ⟨reports, hreports, hquiet, hskipped, hstate⟩
  · rw [hskip]
    exact .gone rfl ⟨by simp [isRequest], by simp⟩ (by simp)
  · have honce : RequestedOnce env (frames ++ [⟨.client, .headers fields endStream⟩])
        (.request (Request.ofFields env fields) endStream :: reports) := by
      constructor
      · have hnone : reports.filter isRequest = [] :=
          filter_eq_nil_iff.2 fun report hreport => by simp [hquiet report hreport]
        rw [filter_cons_of_pos (by rfl), hnone]
        exact le_rfl
      · intro request ended hmem
        rcases mem_cons.1 hmem with hmem | hmem
        · obtain ⟨rfl, rfl⟩ := Report.request.inj hmem
          exact ⟨fields, hfirst, rfl⟩
        · cases hquiet _ hmem
    rw [← hreports]
    cases hresult : (handleFrame env streamID {} (.headers fields endStream)).1 with
    | none => exact .gone rfl honce (by simp)
    | some session =>
      refine .live session rfl (.inl (hstate session hresult)) (absurd rfl) ?_ ?_ ?_ honce
      · refine forall_mem_append.2 ⟨fun sent hsent _ => ?_, forall_mem_singleton.2 (by simp)⟩
        rw [hframes sent hsent]
        rfl
      · refine forall_mem_append.2 ⟨fun sent hsent => ?_, forall_mem_singleton.2 (by simp)⟩
        rw [hframes sent hsent]
        simp
      · intro hmem
        rcases mem_cons.1 hmem with hmem | hmem
        · cases hmem
        · rw [hskipped hmem] at hresult
          cases hresult

/-- A live stream stays live until its session is removed. -/
theorem Life.continue (hstate : session.state.inRequest = true ∨ session.state.inResponse = true)
    (hserver : progress.server ≠ .waiting → session.state.inResponse = true)
    (hopen : ∀ sent ∈ frames, sent.side = .server → sent.item.endsStream = false)
    (hreset : ∀ sent ∈ frames, sent.item ≠ .rstStream) (hskipped : .skipped ∉ reports)
    (honce : RequestedOnce env frames reports) (hnext : conformStep progress sent = some next) :
    Life env (frames ++ [sent]) (streamStep env streamID (some session) sent).1
      (reports ++ (streamStep env streamID (some session) sent).2) next := by
  have hquiet : Quiet (session.handleFrame env streamID sent.item) := live_quiet hstate sent.item
  have honceNext : RequestedOnce env (frames ++ [sent])
      (reports ++ (session.handleFrame env streamID sent.item).2) :=
    honce.append hquiet.no_request
  rw [streamStep, getD_some]
  cases hresult : (session.handleFrame env streamID sent.item).1 with
  | none => exact .gone rfl honceNext (by simp)
  | some after =>
    have hrst : sent.item ≠ .rstStream := by
      intro hitem
      rw [hitem] at hresult
      cases hresult
    rw [conformStep, if_neg hrst] at hnext
    obtain ⟨hlive, hstarted, hends⟩ := live_step hstate hserver hnext hresult
    refine .live after rfl hlive hstarted ?_ ?_ ?_ honceNext
    · exact forall_mem_append.2 ⟨hopen, forall_mem_singleton.2 hends⟩
    · exact forall_mem_append.2 ⟨hreset, forall_mem_singleton.2 hrst⟩
    · intro hmem
      rcases mem_append.1 hmem with hmem | hmem
      · exact hskipped hmem
      · rw [hquiet.skipped hmem] at hresult
        cases hresult

/-- Before its first header block, a stream sees resets and frames that carry nothing. -/
theorem conformStep_unopened (hnext : conformStep {} sent = some next) :
    (sent.item = .other ∧ next = {}) ∨ sent.item = .rstStream ∨
      ∃ fields endStream, sent.item = .headers fields endStream := by
  obtain ⟨side, item⟩ := sent
  cases item with
  | headers fields endStream => exact .inr (.inr ⟨fields, endStream, rfl⟩)
  | rstStream => exact .inr (.inl rfl)
  | other =>
    rw [conformStep, if_neg nofun] at hnext
    exact .inl ⟨rfl, exchangeStep_other hnext⟩
  | headersFailed | data data endStream | goAway => cases side <;> cases hnext

theorem Life.step {entry : Option Session} (hlife : Life env frames entry reports progress)
    (hnext : conformStep progress sent = some next)
    (hlate : entry = none → frames ≠ [] → sent.item = .rstStream)
    (hclient : sent.item.isBlock = true → (entry.getD {}).state = .idle → sent.side = .client) :
    Life env (frames ++ [sent]) (streamStep env streamID entry sent).1
      (reports ++ (streamStep env streamID entry sent).2) next := by
  cases hlife with
  | unopened hentry hframes hreports hprogress =>
    subst hprogress hreports
    obtain ⟨side, _⟩ := sent
    rcases conformStep_unopened hnext with ⟨hitem, hsame⟩ | hitem | ⟨fields, endStream, hitem⟩
    · subst hitem hsame
      rw [streamStep, hentry]
      exact .unopened rfl (forall_mem_append.2 ⟨hframes, forall_mem_singleton.2 rfl⟩) rfl rfl
    · subst hitem
      exact .gone rfl (RequestedOnce.nil env _) (by simp)
    · subst hitem
      have hside : side = .client := hclient rfl (by rw [hentry])
      subst hside
      exact Life.open hentry hframes hnext rfl
  | live session hentry hstate hserver hopen hreset hskipped honce =>
    subst hentry
    exact Life.continue hstate hserver hopen hreset hskipped honce hnext
  | gone hentry honce hframes =>
    have hitem := hlate hentry hframes
    rw [streamStep, hitem]
    exact .gone rfl (honce.append (by simp [handleFrame])) (by simp)

/-- A stream of an orderly connection is at one of its stages. -/
theorem orderly_life {trace : List (ℕ × Sent)} (hconforming : Conforming trace)
    (horderly : Orderly env trace) (streamID : ℕ) :
    ∃ progress, Life env (entriesOf streamID trace) ((Sessions.receive env {} trace).table streamID)
      ((Sessions.receive env {} trace).reportsOf streamID) progress := by
  obtain ⟨final, hfinal⟩ := isSome_iff_exists.1 (hconforming streamID)
  refine ⟨final, ?_⟩
  rw [Sessions.receive_table_at, Sessions.receive_reportsOf]
  refine feed_induction (fun frames entry reports => ∀ progress,
    runActions conformStep {} frames = some progress → Life env frames entry reports progress)
    ?_ ?_ final hfinal
  · intro progress hprogress
    rw [runActions.nil, some.injEq] at hprogress
    exact .unopened rfl nofun rfl hprogress.symm
  · intro past sent future hsplit hpast progress hprogress
    obtain ⟨before, _, htrace, hbefore⟩ := entriesOf_split hsplit
    obtain ⟨hlate, hclient⟩ := horderly.step htrace
    have htable := Sessions.receive_table_at env before streamID
    rw [hbefore] at htable
    rw [runActions.append] at hprogress
    obtain ⟨middle, hmiddle, hlast⟩ := bind_eq_some_iff.1 hprogress
    obtain ⟨_, hnext, hnil⟩ := runActions.cons_eq_some_iff.1 hlast
    rw [runActions.nil, some.injEq] at hnil
    subst hnil
    refine (hpast middle hmiddle).step hnext ?_ ?_
    · intro hnone hframes
      exact hlate (htable.trans hnone) (by rw [hbefore]; exact hframes)
    · intro hblock hidle
      refine hclient hblock ?_
      rw [Sessions.sessionOf, htable]
      exact hidle

/-! ## Connections -/

/-- Both sides of a stream have ended, or it was reset or given up. -/
def Finished (sessions : Sessions) (trace : List (ℕ × Sent)) (streamID : ℕ) : Prop :=
  (∀ side, ∃ sent ∈ entriesOf streamID trace, sent.side = side ∧ sent.item.endsStream = true) ∨
    (∃ sent ∈ entriesOf streamID trace, sent.item = .rstStream) ∨
    .skipped ∈ sessions.reportsOf streamID

/-- In every state that an orderly connection reaches, each stream has made at most one
request, from the first block that the client has sent on it, and no finished stream has
a session. -/
theorem orderly_sessions (env : Env) (trace : List (ℕ × Sent)) (hconforming : Conforming trace)
    (horderly : Orderly env trace) (streamID : ℕ) :
    RequestedOnce env (entriesOf streamID trace)
        ((Sessions.receive env {} trace).reportsOf streamID) ∧
      (Finished (Sessions.receive env {} trace) trace streamID →
        (Sessions.receive env {} trace).table streamID = none) := by
  obtain ⟨_, hlife⟩ := orderly_life hconforming horderly streamID
  cases hlife with
  | unopened hentry hframes hreports =>
    rw [hreports]
    refine ⟨RequestedOnce.nil env _, ?_⟩
    rintro (hended | ⟨sent, hsent, hreset⟩ | hskipped)
    · obtain ⟨sent, hsent, _, hends⟩ := hended .server
      rw [hframes sent hsent] at hends
      cases hends
    · rw [hframes sent hsent] at hreset
      cases hreset
    · rw [hreports] at hskipped
      cases hskipped
  | live session hentry hstate hserver hopen hreset hskipped honce =>
    refine ⟨honce, ?_⟩
    rintro (hended | ⟨sent, hsent, hrst⟩ | habsurd)
    · obtain ⟨sent, hsent, hside, hends⟩ := hended .server
      rw [hopen sent hsent hside] at hends
      cases hends
    · exact absurd hrst (hreset sent hsent)
    · exact absurd habsurd hskipped
  | gone hentry honce => exact ⟨honce, fun _ => hentry⟩

/-- A trace of one stream conforms if the frames of that stream do. -/
theorem conforming_of_single (streamID : ℕ) (hframes : (runActions conformStep {} frames).isSome) :
    Conforming (frames.map (Prod.mk streamID)) := by
  intro other
  by_cases hother : streamID = other
  · subst hother
    rw [entriesOf_map_mk_self]
    exact hframes
  · rw [entriesOf_map_mk_of_ne hother]
    rfl

/-- A stream with a request, a response and a late RST_STREAM. -/
def orderlyFrames : List Sent :=
  [⟨.client, .headers postBlock false⟩, ⟨.client, .data [1] true⟩, ⟨.server, .other⟩,
    ⟨.server, .headers okBlock false⟩, ⟨.server, .data [7] true⟩, ⟨.client, .rstStream⟩]

theorem orderly_sessions_reset :
    (Sessions.receive acceptAll {} (orderlyFrames.map (Prod.mk 1))).table 1 = none := by
  refine (orderly_sessions acceptAll (orderlyFrames.map (Prod.mk 1))
    (conforming_of_single 1 (by decide)) (by decide) 1).2 ?_
  exact .inr (.inl ⟨⟨.client, .rstStream⟩, by decide, rfl⟩)

/-- A WINDOW_UPDATE on a finished stream brings its session back, and after an early
response the trailers of the server become a second request. -/
theorem late_frames_revive_sessions :
    (∃ frames : List Sent, Conforming (frames.map (Prod.mk 1)) ∧
        (∀ side, ∃ sent ∈ frames, sent.side = side ∧ sent.item.endsStream = true) ∧
        (Sessions.receive acceptAll {} (frames.map (Prod.mk 1))).table 1 ≠ none) ∧
      ∃ frames : List Sent, Conforming (frames.map (Prod.mk 1)) ∧
        (((Sessions.receive acceptAll {} (frames.map (Prod.mk 1))).reportsOf 1).filter
          Report.isRequest).length = 2 := by
  refine ⟨⟨[⟨.client, .headers postBlock true⟩, ⟨.server, .headers okBlock true⟩,
      ⟨.client, .other⟩], conforming_of_single 1 (by decide), ?_, by decide⟩,
    ⟨[⟨.client, .headers postBlock false⟩, ⟨.server, .headers okBlock false⟩,
      ⟨.client, .data [1] true⟩, ⟨.server, .headers [] true⟩],
      conforming_of_single 1 (by decide), by decide⟩⟩
  intro side
  cases side with
  | client => exact ⟨⟨.client, .headers postBlock true⟩, by simp, rfl, rfl⟩
  | server => exact ⟨⟨.server, .headers okBlock true⟩, by simp, rfl, rfl⟩

end Qtap.Http2
