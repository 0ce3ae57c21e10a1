import Qtap.Core.Trace
import Qtap.Http2.Continuation

/-!
# The connection seen from its two ends

The same bytes reach the processor as egress or as ingress, depending on which end of
the connection is observed.  At the client, the preface is found and the frames are
followed.  At the server, the preface is taken for the header of a frame of five
megabytes, and the first bytes of the server are refused because they are no preface.
-/

namespace Qtap.Http2

open Sessions Http2.Stream List Qtap.Core Qtap.Connection

/-- Some bytes of one side, as they were seen in one event. -/
structure Chunk where
  side : Side
  data : List Byte
  deriving DecidableEq, Repr

namespace Chunk

def atClient (chunk : Chunk) : DataEvent where
  direction :=
    match chunk.side with
    | .client => .egress
    | .server => .ingress
  data := chunk.data

def atServer (chunk : Chunk) : DataEvent where
  direction :=
    match chunk.side with
    | .client => .ingress
    | .server => .egress
  data := chunk.data

end Chunk

def bytesFrom (side : Side) (chunks : List Chunk) : List Byte :=
  (chunks.filter fun chunk => chunk.side = side).flatMap Chunk.data

/-- What the client sends before anything of the server is seen. -/
def clientOpening (chunks : List Chunk) : List Byte :=
  (chunks.takeWhile fun chunk => chunk.side = .client).flatMap Chunk.data

/-! ## The preface as a frame -/

/-- The size of the frame that the first bytes of the preface announce. -/
def prefaceFrameSize : ℕ := totalFrameSize clientPreface

theorem prefaceFrameSize_eq : prefaceFrameSize = 5263954 := by decide

theorem nextFrame_preface {bytes stream : List Byte} (hbytes : bytes <+: stream)
    (hpreface : clientPreface <+: stream) (hshort : bytes.length < prefaceFrameSize) :
    nextFrame bytes = none := by
  by_cases hheader : bytes.length < frameHeaderLen
  · rw [nextFrame, if_pos hheader]
  · have hsize : totalFrameSize bytes = prefaceFrameSize := by
      obtain ⟨more, hmore⟩ := hbytes
      obtain ⟨rest, hrest⟩ := hpreface
      rw [← totalFrameSize_append (Nat.not_lt.1 hheader) more, hmore, ← hrest,
        totalFrameSize_append (by decide) rest, prefaceFrameSize]
    rw [nextFrame, if_neg hheader, hsize, if_pos hshort]

/-! ## At the server -/

theorem readPreface_eq_none {bytes stream : List Byte} (hbytes : bytes <+: stream)
    (hother : ¬clientPreface <+: stream) : readPreface bytes = none := by
  refine if_neg fun hpreface => hother ?_
  exact (List.isPrefixOf_iff_prefix.1 hpreface).trans hbytes

/-- At the server nothing becomes a frame before the server's first bytes, which end the
processing. -/
theorem arrivals_atServer {stream : List Byte} (hpreface : clientPreface <+: stream)
    (chunks : List Chunk) {buffers : Buffers} (hunread : buffers.prefaceRead = false)
    (hegress : buffers.egress = []) (hclient : buffers.ingress ++ clientOpening chunks <+: stream)
    (hshort : (buffers.ingress ++ clientOpening chunks).length < prefaceFrameSize)
    (hserver : ¬clientPreface <+: bytesFrom .server chunks) :
    (feed Buffers.read buffers (chunks.map Chunk.atServer)).2 = [] ∨
      ∃ rest, (feed Buffers.read buffers (chunks.map Chunk.atServer)).2 = .badPreface :: rest := by
  induction chunks generalizing buffers with
  | nil => exact .inl rfl
  | cons chunk chunks ih =>
    obtain ⟨side, data⟩ := chunk
    cases side with
    | client =>
      have hopening : clientOpening ({ side := .client, data := data } :: chunks) =
          data ++ clientOpening chunks := rfl
      rw [hopening, ← append_assoc] at hclient hshort
      have hnext : nextFrame (buffers.ingress ++ data) = none := by
        refine nextFrame_preface ((prefix_append _ _).trans hclient) hpreface ?_
        rw [length_append] at hshort
        exact (Nat.le_add_right _ _).trans_lt hshort
      have hread : buffers.read (Chunk.atServer { side := .client, data := data }) =
          ({ buffers with ingress := buffers.ingress ++ data }, []) := by
        rw [Chunk.atServer, Buffers.read]
        rw [Buffers.readIngress, frameFramer.drain_of_none hnext]
        rfl
      rw [map_cons, feed, hread]
      exact ih hunread hegress hclient hshort hserver
    | server =>
      have hbytes : data <+: bytesFrom .server ({ side := .server, data := data } :: chunks) :=
        prefix_append data (bytesFrom .server chunks)
      have hread : buffers.read (Chunk.atServer { side := .server, data := data }) =
          ({ buffers with egress := data }, [.badPreface]) := by
        rw [Chunk.atServer, Buffers.read]
        rw [hunread, hegress, nil_append, readPreface_eq_none hbytes hserver]
        rfl
      rw [map_cons, feed, hread]
      exact .inr ⟨_, rfl⟩

theorem clientOpening_isPrefix (chunks : List Chunk) :
    clientOpening chunks <+: bytesFrom .client chunks := by
  induction chunks with
  | nil => exact prefix_rfl
  | cons chunk chunks ih =>
    obtain ⟨side, data⟩ := chunk
    cases side with
    | client => exact (prefix_append_right_inj data).2 ih
    | server => exact nil_prefix

section

variable (codec : Codec) (env : Env) {chunks : List Chunk}
  (hclient : clientPreface <+: bytesFrom .client chunks)
  (hserver : ¬clientPreface <+: bytesFrom .server chunks)
  (hshort : (clientOpening chunks).length < prefaceFrameSize)

include hclient hserver hshort

/-- Observed at the server, the connection reports nothing. -/
theorem reports_atServer :
    (run env ({} : Stream codec) (chunks.map Chunk.atServer)).reports = [] := by
  have hleading : ({} : Buffers).ingress ++ clientOpening chunks <+: bytesFrom .client chunks :=
    clientOpening_isPrefix chunks
  rw [run_sessions]
  rcases arrivals_atServer hclient chunks rfl rfl hleading hshort hserver
    with harrivals | ⟨rest, harrivals⟩
  · rw [arrivals, harrivals]
    rfl
  · rw [arrivals, harrivals, Wire.receiveAll, foldl_cons]
    have hfailed : ((({} : Wire codec).receive env .badPreface)).sessions.failed = true := rfl
    have hrest := Wire.receiveAll_failed env hfailed rest
    rw [Wire.receiveAll] at hrest
    rw [hrest]
    rfl

theorem reported_atServer :
    (run env ({} : Stream codec) (chunks.map Chunk.atServer)).reported = [] := by
  rw [reported, reports_atServer codec env hclient hserver hshort, filter_nil]

end

/-! ## At the client -/

/-- The frame carries a header block, on a connection that is still processed, from which
a request can be made. -/
def StartsRequest {codec : Codec} (env : Env) (wire : Wire codec) : Arrival → Prop
  | .badPreface => False
  | .frame direction bytes =>
    wire.sessions.failed = false ∧
      ∃ streamID fields endStream, (decodeFrame codec (wire.decoder direction) bytes).2 =
            some (.frame streamID (.headers fields endStream)) ∧
          createRequest env streamID (isGRPC fields) fields ≠ none

/-- No frame of the trace starts a request when it arrives. -/
def NoRequest (codec : Codec) (env : Env) (trace : List Arrival) : Prop :=
  ∀ before arrival after, trace = before ++ arrival :: after →
    ¬StartsRequest env (Wire.receiveAll env ({} : Wire codec) before) arrival

/-- No stream has a request, and nothing has been reported. -/
structure Sessions.Quiescent (sessions : Sessions) : Prop where
  idle : ∀ streamID, sessions.sessionOf streamID = {}
  silent : sessions.reported = []

namespace Sessions

theorem Quiescent.handleFrame {sessions : Sessions} (hquiescent : sessions.Quiescent) (env : Env)
    (streamID : ℕ) {item : Item}
    (hnext : ((({} : Session).handleFrame env streamID item).1.getD {}) = {})
    (hreports : ∀ report ∈ (({} : Session).handleFrame env streamID item).2, report = .skipped) :
    (sessions.handleFrame env streamID item).Quiescent := by
  refine ⟨?_, ?_⟩
  · intro other
    have hsession : (sessions.table streamID).getD {} = {} := hquiescent.idle streamID
    simp only [Sessions.handleFrame, sessionOf, hsession]
    by_cases hother : other = streamID
    · rw [hother, Function.update_self]
      exact hnext
    · rw [Function.update_of_ne hother]
      exact hquiescent.idle other
  · have hsilent := hquiescent.silent
    simp only [reported] at hsilent
    simp only [Sessions.handleFrame, reported, filter_append, hsilent,
      hquiescent.idle streamID, nil_append]
    simpa [filter_eq_nil_iff] using hreports

/-- Only a block from which a request can be made ends the quiet of a connection. -/
theorem Quiescent.handle {sessions : Sessions} (hquiescent : sessions.Quiescent) (env : Env)
    {decoded : Decoded}
    (hnone : ∀ streamID fields endStream, decoded = .frame streamID (.headers fields endStream) →
      createRequest env streamID (isGRPC fields) fields = none) :
    (sessions.handle env decoded).Quiescent := by
  unfold Sessions.handle
  split
  · exact hquiescent
  · cases decoded with
    | unreadable protocolError =>
      cases protocolError with
      | false => exact ⟨hquiescent.idle, hquiescent.silent⟩
      | true =>
        split_ifs
        · exact hquiescent
        · exact ⟨hquiescent.idle, hquiescent.silent⟩
    | frame streamID item =>
      cases item with
      | headers fields endStream =>
        have hcreate : createRequest env streamID (false || isGRPC fields) fields = none := by
          exact hnone streamID fields endStream rfl
        have hframe : ({} : Session).handleFrame env streamID (.headers fields endStream) =
            (none, [.skipped]) := by
          simp only [Session.handleFrame, Session.handleHeadersFrame,
            Session.handleRequestHeaders, hcreate]
        refine hquiescent.handleFrame env streamID ?_ ?_
        · rw [hframe]
          rfl
        · simp [hframe]
      | _ =>
        exact hquiescent.handleFrame env streamID rfl (by
          simp [Session.handleFrame, Session.handleDataFrame])

theorem Quiescent.handle_request {sessions : Sessions} (hquiescent : sessions.Quiescent)
    (env : Env) (hlive : sessions.failed = false) {streamID : ℕ} {fields : List HeaderField}
    {endStream : Bool} (hcreate : createRequest env streamID (isGRPC fields) fields ≠ none) :
    (sessions.handle env (.frame streamID (.headers fields endStream))).reported ≠ [] := by
  obtain ⟨request, hrequest⟩ := Option.ne_none_iff_exists'.1 hcreate
  have hcreated : createRequest env streamID (false || isGRPC fields) fields = some request := by
    rw [Bool.false_or, hrequest]
  have hreport : .request request endStream ∈
      (({} : Session).handleFrame env streamID (.headers fields endStream)).2 := by
    simp only [Session.handleFrame, Session.handleHeadersFrame, Session.handleRequestHeaders,
      hcreated]
    cases endStream with
    | false => exact mem_cons_self
    | true =>
      rw [if_pos rfl]
      split_ifs <;> exact mem_cons_self
  simp only [Sessions.handle, hlive, Bool.false_eq_true, if_false, Sessions.handleFrame, reported,
    hquiescent.idle streamID]
  intro hempty
  have hfilter := filter_eq_nil_iff.1 hempty (streamID, .request request endStream)
    (mem_append_right _ (mem_map_of_mem hreport))
  exact hfilter rfl

end Sessions

namespace Wire

variable {codec : Codec}

/-- A frame leaves the connection quiet if it starts no request, and only then. -/
theorem receive_quiescent (env : Env) {wire : Wire codec}
    (hquiescent : wire.sessions.Quiescent) (arrival : Arrival) :
    (¬StartsRequest env wire arrival → (wire.receive env arrival).sessions.Quiescent) ∧
      (StartsRequest env wire arrival → (wire.receive env arrival).sessions.reported ≠ []) := by
  cases arrival with
  | badPreface => exact ⟨fun _ => ⟨hquiescent.idle, hquiescent.silent⟩, False.elim⟩
  | frame direction bytes =>
    by_cases hfailed : wire.sessions.failed = true
    · rw [receive, handleBytes_failed env hfailed, update_self]
      exact ⟨fun _ => hquiescent, fun hstarts => absurd hfailed (by simp [hstarts.1])⟩
    · have hlive := Bool.eq_false_of_not_eq_true hfailed
      rw [receive, sessions_update, handleBytes, if_neg hfailed]
      dsimp only [StartsRequest]
      cases decodeFrame codec (wire.decoder direction) bytes with
      | mk decoder decoded =>
        cases decoded with
        | none => exact ⟨fun _ => hquiescent, by simp⟩
        | some =>
          refine ⟨fun hstarts => hquiescent.handle env ?_, ?_⟩
          · rintro streamID fields endStream rfl
            by_contra hcreate
            exact hstarts ⟨hlive, streamID, fields, endStream, rfl, hcreate⟩
          · rintro ⟨_, _, _, _, hdecoded, hcreate⟩
            rw [Option.some.inj hdecoded]
            exact hquiescent.handle_request env hlive hcreate

/-- Reports are never taken back. -/
theorem reported_receive_isPrefix (env : Env) (wire : Wire codec) (arrival : Arrival) :
    wire.sessions.reported <+: (wire.receive env arrival).sessions.reported := by
  have hhandle : ∀ decoded,
      wire.sessions.reported <+: (wire.sessions.handle env decoded).reported := by
    intro decoded
    unfold handle
    split
    · exact prefix_rfl
    · cases decoded with
      | frame =>
        simp only [handleFrame, reported, filter_append]
        exact prefix_append _ _
      | unreadable protocolError =>
        cases protocolError with
        | false => exact prefix_rfl
        | true =>
          split_ifs <;> exact prefix_rfl
  cases arrival with
  | badPreface => exact prefix_rfl
  | frame direction bytes =>
    rw [receive, sessions_update, handleBytes]
    split_ifs
    · exact prefix_rfl
    · cases decodeFrame codec (wire.decoder direction) bytes with
      | mk decoder decoded =>
        cases decoded with
        | none => exact prefix_rfl
        | some decoded => exact hhandle decoded

theorem noRequest_concat (env : Env) (trace : List Arrival) (arrival : Arrival) :
    NoRequest codec env (trace ++ [arrival]) ↔
      NoRequest codec env trace ∧
        ¬StartsRequest env (Wire.receiveAll env ({} : Wire codec) trace) arrival := by
  constructor
  · intro hnone
    refine ⟨fun before first after htrace => ?_, hnone trace arrival [] rfl⟩
    exact hnone before first (after ++ [arrival]) (by rw [htrace, append_assoc]; rfl)
  · rintro ⟨hnone, hlast⟩
    exact Keeps.snoc hnone hlast

/-- Something is reported exactly when some frame starts a request. -/
theorem reported_receiveAll (codec : Codec) (env : Env) (trace : List Arrival) :
    ((Wire.receiveAll env ({} : Wire codec) trace).sessions.reported = [] →
        NoRequest codec env trace) ∧
      (NoRequest codec env trace →
        (Wire.receiveAll env ({} : Wire codec) trace).sessions.Quiescent) := by
  induction trace using List.reverseRecOn with
  | nil => exact ⟨fun _ => Keeps.nil, fun _ => ⟨fun _ => rfl, rfl⟩⟩
  | append_singleton trace arrival ih =>
    have hlast : Wire.receiveAll env ({} : Wire codec) (trace ++ [arrival]) =
        (Wire.receiveAll env {} trace).receive env arrival := by
      rw [receiveAll_append]
      rfl
    rw [hlast, noRequest_concat]
    refine ⟨fun hreported => ?_, fun ⟨hnone, hstarts⟩ => ?_⟩
    · have hbefore := reported_receive_isPrefix env
        (Wire.receiveAll env ({} : Wire codec) trace) arrival
      rw [hreported, prefix_nil] at hbefore
      have hnone := ih.1 hbefore
      exact ⟨hnone, fun hstarts => (receive_quiescent env (ih.2 hnone) arrival).2 hstarts hreported⟩
    · exact (receive_quiescent env (ih.2 hnone) arrival).1 hstarts

end Wire

/-! ## Both perspectives -/

/-- Both observers are told the same about every stream. -/
def SameReports (left right : Sessions) : Prop :=
  ∀ streamID, entriesOf streamID left.reported = entriesOf streamID right.reported

theorem sameReports_nil {left right : Sessions} (hright : right.reported = []) :
    SameReports left right ↔ left.reported = [] := by
  constructor
  · intro hsame
    rw [eq_nil_iff_forall_not_mem]
    rintro ⟨streamID, _⟩ hmem
    have hentries := hsame streamID
    rw [hright, entriesOf_nil, entriesOf, map_eq_nil_iff, filter_eq_nil_iff] at hentries
    exact hentries _ hmem (beq_self_eq_true streamID)
  · intro hleft streamID
    rw [hleft, hright]

/-- If the client sends less than the frame that its preface seems to announce before the
server's first bytes are seen, the two perspectives agree exactly when no header block of
the exchange starts a request. -/
theorem perspectives_agree_iff (codec : Codec) (env : Env) (chunks : List Chunk)
    (hclient : clientPreface <+: bytesFrom .client chunks)
    (hserver : ¬clientPreface <+: bytesFrom .server chunks) :
    ((clientOpening chunks).length < 5263954 ∧
          NoRequest codec env (arrivals (chunks.map Chunk.atClient)) →
        SameReports (Stream.run env ({} : Stream codec) (chunks.map Chunk.atClient)).toSessions
          (Stream.run env ({} : Stream codec) (chunks.map Chunk.atServer)).toSessions) ∧
      ((clientOpening chunks).length < 5263954 →
        SameReports (Stream.run env ({} : Stream codec) (chunks.map Chunk.atClient)).toSessions
          (Stream.run env ({} : Stream codec) (chunks.map Chunk.atServer)).toSessions →
        NoRequest codec env (arrivals (chunks.map Chunk.atClient))) := by
  have hwire := Wire.reported_receiveAll codec env (arrivals (chunks.map Chunk.atClient))
  rw [← prefaceFrameSize_eq]
  refine ⟨fun ⟨hshort, hnone⟩ => ?_, fun hshort hsame => ?_⟩
  · rw [sameReports_nil (reported_atServer codec env hclient hserver hshort), run_sessions]
    exact (hwire.2 hnone).silent
  · rw [sameReports_nil (reported_atServer codec env hclient hserver hshort), run_sessions] at hsame
    exact hwire.1 hsame

/-- A request without a body, and the SETTINGS frame of the server. -/
def requestChunks : List Chunk :=
  [{ side := .client
     data := clientPreface ++ headersFrame 1 (literalBytes postBlock) true true },
    { side := .server, data := frameBytes 4 0 0 [] }]

theorem perspectives_agree_iff_request :
    ¬SameReports (Stream.run acceptAll ({} : Stream plainCodec)
        (requestChunks.map Chunk.atClient)).toSessions
      (Stream.run acceptAll ({} : Stream plainCodec)
        (requestChunks.map Chunk.atServer)).toSessions := by
  intro hsame
  have hnone := (perspectives_agree_iff plainCodec acceptAll requestChunks
    ⟨headersFrame 1 (literalBytes postBlock) true true, rfl⟩ (by decide)).2 (by decide) hsame
  have harrivals : arrivals (requestChunks.map Chunk.atClient) =
      [.frame .egress (headersFrame 1 (literalBytes postBlock) true true),
        .frame .ingress (frameBytes 4 0 0 [])] := by
    decide
  exact hnone [] _ _ harrivals ⟨rfl, 1, postBlock, true, rfl, nofun⟩

/-- The request is reported at the client, and nothing at the server, where the stream
fails at the first bytes that the server sends. -/
theorem perspectives_differ :
    entriesOf 1 (Stream.run acceptAll ({} : Stream plainCodec)
        (requestChunks.map Chunk.atClient)).reported =
        [.request (Request.ofFields acceptAll postBlock) true, .requestBody [] true] ∧
      (Stream.run acceptAll ({} : Stream plainCodec)
        (requestChunks.map Chunk.atServer)).reported = [] ∧
      (Stream.run acceptAll ({} : Stream plainCodec)
        (requestChunks.map Chunk.atServer)).failed = true := by
  refine ⟨?_, ?_, ?_⟩ <;> decide

end Qtap.Http2
