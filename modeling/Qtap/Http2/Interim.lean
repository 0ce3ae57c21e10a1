import Qtap.Http2.Exchange

/-!
# Interim responses

A response may have interim header blocks, with a status from 100 to 199, before its final one.
The session has a single state for the headers of a response: the first block makes the response,
and every later one is taken for its trailers.
-/

namespace Qtap.Http2

open Qtap.Core Qtap.Connection

/-- A header block of a response: the status comes first. -/
structure ResponseBlock where
  statusText : List Byte
  status : ℤ
  headers : List HeaderField
  status_eq : atoi statusText = some status

def ResponseBlock.fields (block : ResponseBlock) : List HeaderField :=
  ⟨ascii ":status", block.statusText⟩ :: block.headers

/-- A response with its interim blocks, its final block and the DATA frames and trailers behind
it. -/
structure BlockedResponse where
  interim : List ResponseBlock
  ending : ResponseBlock
  endStream : Bool
  rest : List Item
  interim_status : ∀ block ∈ interim, 100 ≤ block.status ∧ block.status ≤ 199
  ending_status : 200 ≤ ending.status

namespace BlockedResponse

/-- The block that the server sends first. -/
def opening (response : BlockedResponse) : ResponseBlock := response.interim.headD response.ending

def items (response : BlockedResponse) : List Item :=
  response.interim.map (fun block => .headers block.fields false) ++
    .headers response.ending.fields response.endStream :: response.rest

end BlockedResponse

/-- What the server sends of its response. -/
def serverItems (frames : List Sent) : List Item :=
  (frames.filter fun sent => sent.side = .server ∧ sent.item ≠ .other).map Sent.item

/-! ## The response that is created -/

def Report.created? : Report → Option Response
  | .response created _ => some created
  | _ => none

/-- The response that `CreateResponse` made for the stream. -/
def createdResponse (reports : List Report) : Option Response := reports.findSome? Report.created?

/-- The response has the status of the block and its fields under their canonical keys. -/
structure Carries (response : Response) (block : ResponseBlock) : Prop where
  status : response.statusCode = block.status
  header : response.header =
    block.fields.map fun field => (canonicalHeaderKey field.name, field.value)

theorem responseHeader_eq (fields : List HeaderField) :
    responseHeader fields =
      fields.map fun field => (canonicalHeaderKey field.name, field.value) := by
  refine (List.foldl_append_eq_append (f := fun field : HeaderField =>
    [(canonicalHeaderKey field.name, field.value)])).trans ?_
  exact List.map_eq_flatMap.symm

theorem carries_ofFields {request : Request} {block : ResponseBlock} {endStream : Bool} :
    Carries (Response.ofFields request block.fields endStream) block := by
  constructor
  · have hstatus : (responseHeader block.fields).get (ascii ":status") = block.statusText := by
      rw [responseHeader_eq, Header.get, Header.values]
      rfl
    rw [Response.ofFields]
    rw [hstatus, block.status_eq, Option.getD_some]
  · exact responseHeader_eq block.fields

namespace Session

variable {session : Session} {request : Request} {block : ResponseBlock}

theorem createdResponse_handleResponseHeaders {endStream : Bool} :
    ∃ created, createdResponse
        (session.handleResponseHeaders request block.fields endStream).2 = some created ∧
      Carries created block := by
  have hended : ∀ (response : Response) (reports : List Report),
      ∃ more, (endResponse response reports).2 = reports ++ more := by
    intro response reports
    rw [endResponse]
    split <;> exact ⟨_, rfl⟩
  rw [handleResponseHeaders]
  split_ifs
  · obtain ⟨more, hmore⟩ := hended _ _
    rw [hmore]
    exact ⟨_, rfl, carries_ofFields⟩
  · obtain ⟨_, hmore⟩ := hended _ _
    rw [hmore]
    exact ⟨_, rfl, carries_ofFields⟩
  · exact ⟨_, rfl, carries_ofFields⟩

/-- The stream has a request and waits for its response. -/
def Awaits (session : Session) : Prop :=
  ∃ request, session.state = .requestHeaders request ∨ session.state = .requestBody request ∨
    session.state = .requestDone request

/-- The first header block that the server sends makes the response. -/
theorem createdResponse_opening (env : Env) (streamID : ℕ) (hawaits : session.Awaits)
    (block : ResponseBlock) (endStream : Bool) :
    ∃ created, createdResponse
        (session.handleFrame env streamID (.headers block.fields endStream)).2 = some created ∧
      Carries created block := by
  obtain ⟨request, hstate | hstate | hstate⟩ := hawaits
  all_goals
    rw [Session.handleFrame, hstate]
    exact createdResponse_handleResponseHeaders

end Session

/-! ## Streams -/

/-- After these frames the stream has a request and no response yet. -/
structure AwaitsResponse (env : Env) (streamID : ℕ) (frames : List Sent) : Prop where
  session : ∃ session, (feed (streamStep env streamID) none frames).1 = some session ∧
    session.Awaits
  none_created : createdResponse (feed (streamStep env streamID) none frames).2 = none

theorem createdResponse_append (first second : List Report) :
    createdResponse (first ++ second) = (createdResponse first).or (createdResponse second) :=
  List.findSome?_append

/-- The response that is created for a stream carries the status and the headers of the block that
the server sends first. -/
theorem AwaitsResponse.createdResponse {env : Env} {streamID : ℕ} {request : List Sent}
    (hawaits : AwaitsResponse env streamID request) (block : ResponseBlock) (endStream : Bool)
    (others : List Sent) :
    ∃ created, Http2.createdResponse (feed (streamStep env streamID) none
        (request ++ ⟨.server, .headers block.fields endStream⟩ :: others)).2 = some created ∧
      Carries created block := by
  obtain ⟨session, hsession, hwaits⟩ := hawaits.session
  obtain ⟨created, hcreated, hcarries⟩ :=
    Session.createdResponse_opening env streamID hwaits block endStream
  refine ⟨created, ?_, hcarries⟩
  have hstep : (streamStep env streamID (some session)
      ⟨.server, .headers block.fields endStream⟩).2 =
        (session.handleFrame env streamID (.headers block.fields endStream)).2 := rfl
  rw [feed_append, createdResponse_append, hawaits.none_created, Option.none_or, hsession, feed,
    createdResponse_append, hstep, hcreated, Option.some_or]

theorem BlockedResponse.opening_eq {response : BlockedResponse} {item : Item} {items : List Item}
    (hitems : item :: items = response.items) :
    ∃ endStream, item = .headers response.opening.fields endStream := by
  rw [BlockedResponse.items] at hitems
  rw [opening]
  cases hinterim : response.interim with
  | nil | cons block blocks =>
    rw [hinterim] at hitems
    exact ⟨_, (List.cons.inj hitems).1⟩

theorem BlockedResponse.carries_ending_iff {response : BlockedResponse} {created : Response}
    (hcarries : Carries created response.opening) :
    Carries created response.ending ↔ response.interim = [] := by
  cases hinterim : response.interim with
  | nil =>
    rw [opening, hinterim] at hcarries
    exact iff_of_true hcarries rfl
  | cons block =>
    rw [opening, hinterim] at hcarries
    refine iff_of_false (fun hending => ?_) (List.cons_ne_nil _ _)
    have hlow := (response.interim_status block (by rw [hinterim]; exact List.mem_cons_self)).2
    have hhigh := response.ending_status
    rw [← hending.status, hcarries.status] at hhigh
    exact absurd (hhigh.trans hlow) (by decide)

/-- On every stream with a request and a response of interim blocks, a final block, DATA frames and
trailers, however its frames are interleaved with those of the other streams and of the client, a
response is created; it carries the status and the headers of the final block if and only if there
are no interim blocks. -/
theorem final_response_created_iff (env : Env) (trace : List (ℕ × Sent)) (streamID : ℕ)
    (response : BlockedResponse) (request others : List Sent) (first : Item)
    (hframes : entriesOf streamID trace = request ++ ⟨.server, first⟩ :: others)
    (hawaits : AwaitsResponse env streamID request)
    (hresponse : first :: serverItems others = response.items) :
    ∃ created, createdResponse ((Sessions.receive env {} trace).reportsOf streamID) = some created ∧
        (Carries created response.ending ↔ response.interim = []) := by
  obtain ⟨endStream, rfl⟩ := BlockedResponse.opening_eq hresponse
  obtain ⟨created, hcreated, hcarries⟩ :=
    hawaits.createdResponse response.opening endStream others
  refine ⟨created, ?_, BlockedResponse.carries_ending_iff hcarries⟩
  rw [Sessions.receive_reportsOf, hframes]
  exact hcreated

def okResponse : ResponseBlock where
  statusText := ascii "200"
  status := 200
  headers := []
  status_eq := by decide

def earlyHints : ResponseBlock where
  statusText := ascii "103"
  status := 103
  headers := [⟨ascii "link", ascii "</style.css>"⟩]
  status_eq := by decide

/-- A plain response of one block and a body. -/
def plainResponse : BlockedResponse where
  interim := []
  ending := okResponse
  endStream := false
  rest := [.data [7] true]
  interim_status := nofun
  ending_status := by decide

theorem final_response_created_iff_plain :
    ∃ created, createdResponse ((Sessions.receive acceptAll {}
        [(1, ⟨.client, .headers postBlock true⟩), (1, ⟨.server, .headers okResponse.fields false⟩),
          (1, ⟨.server, .data [7] true⟩)]).reportsOf 1) = some created ∧
        (Carries created okResponse ↔ plainResponse.interim = []) :=
  final_response_created_iff acceptAll _ 1 plainResponse
    [⟨.client, .headers postBlock true⟩] [⟨.server, .data [7] true⟩]
    (.headers okResponse.fields false) rfl
    ⟨⟨_, rfl, _, .inr (.inr rfl)⟩, rfl⟩ rfl

/-- Early hints before the final block: the response that is created has the status 103, and the
final block is not reported at all. -/
theorem early_hints_reported_as_response :
    (Sessions.receive acceptAll {} [(1, ⟨.client, .headers postBlock true⟩),
        (1, ⟨.server, .headers earlyHints.fields false⟩),
        (1, ⟨.server, .headers okResponse.fields false⟩),
        (1, ⟨.server, .data [7] true⟩)]).reportsOf 1 =
      [.request (Request.ofFields acceptAll postBlock) true, .requestBody [] true,
        .response ⟨-1, 103, [(ascii ":status", ascii "103"), (ascii "Link", ascii "</style.css>")]⟩
          false,
        .responseBody [7] true] := by
  decide

end Qtap.Http2
