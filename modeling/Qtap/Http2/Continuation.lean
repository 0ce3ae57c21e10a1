import Qtap.Core.LittleEndian
import Qtap.Http2.Arrivals

/-!
# Header blocks in several frames

A header block may be carried by one HEADERS frame or by a HEADERS frame and
CONTINUATION frames.  The processor reads each frame with a framer of its own, so that a
block without END_HEADERS stops at the end of its first frame and the stream is given
up, and each CONTINUATION frame breaks the protocol for the framer that reads it.
-/

namespace Qtap.Http2

open Sessions Wire List Qtap.Core Qtap.Connection

/-! ## Frames as bytes -/

def frameBytes (kind flags : Byte) (streamID : ℕ) (payload : List Byte) : List Byte :=
  (leBytes 3 payload.length).reverse ++ [kind, flags] ++ (leBytes 4 streamID).reverse ++ payload

def headersFrame (streamID : ℕ) (fragment : List Byte) (endStream endHeaders : Bool) :
    List Byte :=
  frameBytes 1 ((if endStream then 1 else 0) + (if endHeaders then 4 else 0)) streamID fragment

def continuationFrame (streamID : ℕ) (fragment : List Byte) (endHeaders : Bool) : List Byte :=
  frameBytes 9 (if endHeaders then 4 else 0) streamID fragment

/-- The fragments of the rest of a block; the last frame ends it. -/
def continuationFrames (streamID : ℕ) : List (List Byte) → List (List Byte)
  | [] => []
  | [last] => [continuationFrame streamID last true]
  | fragment :: rest =>
    continuationFrame streamID fragment false :: continuationFrames streamID rest

/-- What RFC 9113 says of the frames of a header block: HEADERS is read back, and
CONTINUATION is a connection error of type PROTOCOL_ERROR when no block is open, as it is
for a framer that has read nothing before. -/
structure Codec.Conforms (codec : Codec) : Prop where
  headers : ∀ streamID fragment endStream endHeaders, 0 < streamID → streamID < 2 ^ 31 →
    fragment.length < 2 ^ 24 →
    codec.readFrame (headersFrame streamID fragment endStream endHeaders) =
      .ok { streamID := streamID, payload := .headers fragment endStream endHeaders }
  continuation : ∀ streamID fragment endHeaders, 0 < streamID → streamID < 2 ^ 31 →
    fragment.length < 2 ^ 24 →
    codec.readFrame (continuationFrame streamID fragment endHeaders) = .error .protocol

/-- A header block cut into two or more fragments that one frame could carry as well. -/
structure SplitBlock where
  streamID : ℕ
  endStream : Bool
  first : List Byte
  rest : List (List Byte)
  streamID_pos : 0 < streamID
  streamID_lt : streamID < 2 ^ 31
  fits : (first ++ rest.flatten).length < 2 ^ 24
  rest_ne_nil : rest ≠ []

namespace SplitBlock

/-- The one frame that carries the whole block. -/
def whole (block : SplitBlock) : List Byte :=
  headersFrame block.streamID (block.first ++ block.rest.flatten) block.endStream true

/-- The frames that carry the fragments. -/
def parts (block : SplitBlock) : List (List Byte) :=
  headersFrame block.streamID block.first block.endStream false ::
    continuationFrames block.streamID block.rest

end SplitBlock

/-! ## Runs that differ in skipped streams only -/

namespace Sessions

/-- The requests, responses and bodies reported so far. -/
def reported (sessions : Sessions) : List (ℕ × Report) :=
  sessions.reports.filter fun entry => entry.2 != .skipped

/-- The tables agree, and so does everything reported but the skipped streams. -/
structure Agree (left right : Sessions) : Prop where
  table_eq : left.table = right.table
  protocol_eq : left.protocol = right.protocol
  failed_eq : left.failed = right.failed
  reported_eq : left.reported = right.reported

theorem Agree.handleFrame {left right : Sessions} (hagree : left.Agree right) (env : Env)
    (streamID : ℕ) (item : Item) :
    (left.handleFrame env streamID item).Agree (right.handleFrame env streamID item) := by
  have hsession : left.sessionOf streamID = right.sessionOf streamID := by
    rw [sessionOf, sessionOf, hagree.table_eq]
  refine ⟨?_, ?_, hagree.failed_eq, ?_⟩
  · simp only [Sessions.handleFrame, hsession, hagree.table_eq]
  · simp only [Sessions.handleFrame, hagree.protocol_eq]
  · have hreported := hagree.reported_eq
    simp only [reported] at hreported
    simp only [Sessions.handleFrame, reported, filter_append, hsession, hreported]

theorem Agree.handle {left right : Sessions} (hagree : left.Agree right) (env : Env)
    (decoded : Decoded) : (left.handle env decoded).Agree (right.handle env decoded) := by
  unfold Sessions.handle
  rw [hagree.failed_eq]
  by_cases hfailed : right.failed = true
  · rw [if_pos hfailed, if_pos hfailed]
    exact hagree
  · rw [if_neg hfailed, if_neg hfailed]
    cases decoded with
    | frame streamID item => exact hagree.handleFrame env streamID item
    | unreadable protocolError =>
      cases protocolError with
      | false => exact ⟨hagree.table_eq, hagree.protocol_eq, rfl, hagree.reported_eq⟩
      | true =>
        rw [hagree.protocol_eq]
        split_ifs with hgrpc
        · exact hagree
        · exact ⟨hagree.table_eq, rfl, rfl, hagree.reported_eq⟩

end Sessions

namespace Wire

variable {codec : Codec} {env : Env}

structure Agree (left right : Wire codec) : Prop where
  egress_eq : left.egress = right.egress
  ingress_eq : left.ingress = right.ingress
  sessions_agree : left.sessions.Agree right.sessions

theorem handleBytes_agree (env : Env) (bytes : List Byte) (decoder : codec.Decoder)
    {left right : Sessions} (hagree : left.Agree right) :
    (handleBytes codec env bytes (decoder, left)).1 =
        (handleBytes codec env bytes (decoder, right)).1 ∧
      (handleBytes codec env bytes (decoder, left)).2.Agree
        (handleBytes codec env bytes (decoder, right)).2 := by
  unfold handleBytes
  rw [hagree.failed_eq]
  split_ifs with hfailed
  · exact ⟨rfl, hagree⟩
  · cases decodeFrame codec decoder bytes with
    | mk next decoded =>
      cases decoded with
      | none => exact ⟨rfl, hagree⟩
      | some decoded => exact ⟨rfl, hagree.handle env decoded⟩

theorem Agree.receive {left right : Wire codec} (hagree : left.Agree right) (env : Env)
    (arrival : Arrival) : (left.receive env arrival).Agree (right.receive env arrival) := by
  obtain ⟨hegress, hingress, hsessions⟩ := hagree
  cases arrival with
  | badPreface =>
    exact ⟨hegress, hingress, hsessions.table_eq, hsessions.protocol_eq, rfl, hsessions.reported_eq⟩
  | frame direction bytes =>
    cases direction with
    | ingress =>
      have hstep := handleBytes_agree env bytes right.ingress hsessions
      refine ⟨hegress, ?_, ?_⟩
      · simp only [Wire.receive, update, decoder, hingress]
        exact hstep.1
      · simp only [Wire.receive, update, decoder, hingress]
        exact hstep.2
    | egress =>
      have hstep := handleBytes_agree env bytes right.egress hsessions
      refine ⟨?_, hingress, ?_⟩
      · simp only [Wire.receive, update, decoder, hegress]
        exact hstep.1
      · simp only [Wire.receive, update, decoder, hegress]
        exact hstep.2

theorem Agree.receiveAll {left right : Wire codec} (hagree : left.Agree right) (env : Env)
    (trace : List Arrival) : (left.receiveAll env trace).Agree (right.receiveAll env trace) := by
  induction trace generalizing left right with
  | nil => exact hagree
  | cons arrival trace ih => exact ih (hagree.receive env arrival)

/-! ## The frames of a split block -/

@[simp]
theorem update_self (wire : Wire codec) (direction : Direction) :
    wire.update direction (wire.decoder direction, wire.sessions) = wire := by
  cases direction <;> rfl

@[simp]
theorem sessions_update (wire : Wire codec) (direction : Direction)
    (state : codec.Decoder × Sessions) : (wire.update direction state).sessions = state.2 := by
  cases direction <;> rfl

section

variable (env) {wire : Wire codec} (hlive : wire.sessions.failed = false)

include hlive

/-- A frame that breaks the protocol is passed over on a gRPC connection and ends the
processing of any other. -/
theorem receive_protocolError {direction : Direction} {bytes : List Byte}
    (hread : codec.readFrame bytes = .error .protocol) :
    wire.receive env (.frame direction bytes) =
      if wire.sessions.protocol = .grpc then wire
      else
        wire.update direction (wire.decoder direction,
          { wire.sessions with failed := true, protocol := .unknown }) := by
  have hdecode : decodeFrame codec (wire.decoder direction) bytes =
      (wire.decoder direction, some (.unreadable true)) := by
    rw [decodeFrame, hread]
    rfl
  rw [Wire.receive, handleBytes, hdecode]
  simp only [handle, hlive, Bool.false_eq_true, if_false]
  split_ifs with hgrpc
  · rw [update_self]
  · rfl

theorem receiveAll_protocolErrors (hgrpc : wire.sessions.protocol = .grpc) (direction : Direction)
    (frames : List (List Byte))
    (hread : ∀ bytes ∈ frames, codec.readFrame bytes = .error .protocol) :
    wire.receiveAll env (frames.map (.frame direction)) = wire := by
  induction frames with
  | nil => rfl
  | cons bytes frames ih =>
    rw [map_cons, receiveAll, foldl_cons,
      receive_protocolError env hlive (hread bytes mem_cons_self), if_pos hgrpc]
    exact ih (forall_mem_cons.1 hread).2

theorem receiveAll_protocolErrors_failed (hgrpc : wire.sessions.protocol ≠ .grpc)
    (direction : Direction) {frames : List (List Byte)} (hframes : frames ≠ [])
    (hread : ∀ bytes ∈ frames, codec.readFrame bytes = .error .protocol) :
    (wire.receiveAll env (frames.map (.frame direction))).sessions.failed = true := by
  cases frames with
  | nil => exact absurd rfl hframes
  | cons bytes frames =>
    have hfailed : (wire.receive env (.frame direction bytes)).sessions.failed = true := by
      rw [receive_protocolError env hlive (hread bytes mem_cons_self), if_neg hgrpc,
        sessions_update]
    rw [map_cons, receiveAll, foldl_cons]
    have hrest := receiveAll_failed env hfailed (frames.map (.frame direction))
    rw [receiveAll] at hrest
    rw [hrest]
    exact hfailed

end

end Wire

theorem readFrame_continuationFrames {codec : Codec} (hcodec : codec.Conforms) {streamID : ℕ}
    (hpos : 0 < streamID) (hlt : streamID < 2 ^ 31) (rest : List (List Byte))
    (hfits : rest.flatten.length < 2 ^ 24) :
    ∀ bytes ∈ continuationFrames streamID rest, codec.readFrame bytes = .error .protocol := by
  induction rest with
  | nil => exact nofun
  | cons fragment rest ih =>
    rw [flatten_cons, length_append] at hfits
    have hfragment : fragment.length < 2 ^ 24 := (Nat.le_add_right _ _).trans_lt hfits
    have hrest := ih ((Nat.le_add_left _ _).trans_lt hfits)
    cases rest with
    | nil =>
      refine forall_mem_singleton.2 ?_
      exact hcodec.continuation streamID fragment true hpos hlt hfragment
    | cons =>
      refine forall_mem_cons.2 ⟨?_, hrest⟩
      exact hcodec.continuation streamID fragment false hpos hlt hfragment

theorem continuationFrames_ne_nil (streamID : ℕ) {rest : List (List Byte)} (hrest : rest ≠ []) :
    continuationFrames streamID rest ≠ [] := by
  match rest, hrest with
  | [_], _ => exact nofun
  | _ :: _ :: _, _ => exact nofun

/-- The framer of the first frame has nothing to read behind it, so that the block fails. -/
theorem readMetaFrame_unended (codec : Codec) (decoder : codec.Decoder) (remain : ℕ)
    (fields : List HeaderField) (fragment : List Byte) :
    (readMetaFrame codec decoder remain fields fragment false []).2 = none := by
  rw [readMetaFrame]
  by_cases hlength : 2 * remain < fragment.length
  · rw [if_pos hlength]
  · rw [if_neg hlength]
    obtain ⟨_, _, written⟩ := codec.write decoder fragment
    cases written <;> rfl

/-! ## Blocks that are lost -/

namespace Session

/-- A block that cannot be decoded, or that makes no request where one should start. -/
def Drops (env : Env) (streamID : ℕ) (session : Session) : Item → Prop
  | .headersFailed => True
  | .headers fields _ =>
    session.state = .idle ∧
      createRequest env streamID (session.isGRPC || Http2.isGRPC fields) fields = none
  | _ => False

/-- Something is reported, or the session stays. -/
def Shows (result : Option Session × List Report) : Prop :=
  result.1 ≠ none ∨ ∃ report ∈ result.2, report ≠ .skipped

theorem endResponse_shows (response : Response) (reports : List Report) :
    Shows (endResponse response reports) := by
  refine .inr ⟨.responseBody [] true, ?_, nofun⟩
  unfold endResponse
  split_ifs <;> simp

theorem handleResponseHeaders_shows (session : Session) (request : Request)
    (fields : List HeaderField) (endStream : Bool) :
    Shows (session.handleResponseHeaders request fields endStream) := by
  unfold handleResponseHeaders
  split_ifs
  · exact endResponse_shows _ _
  · exact endResponse_shows _ _
  · exact .inl nofun

theorem handleEarlyHeaders_shows (session : Session) (request : Request) (fields : List HeaderField)
    (endStream : Bool) : Shows (session.handleEarlyHeaders request fields endStream) := by
  unfold handleEarlyHeaders
  split_ifs
  · exact .inr ⟨.requestBody [] true, mem_cons_self, nofun⟩
  · exact .inl nofun

theorem handleTrailers_shows (session : Session) (response : Response) (fields : List HeaderField)
    (endStream : Bool) : Shows (session.handleTrailers response fields endStream) := by
  unfold handleTrailers
  split_ifs
  · exact endResponse_shows _ _
  · exact endResponse_shows _ _
  · exact .inl nofun

theorem handleRequestHeaders_shows (env : Env) (streamID : ℕ) (session : Session)
    (fields : List HeaderField) (endStream : Bool) :
    ¬Shows (session.handleRequestHeaders env streamID fields endStream) ↔
      createRequest env streamID session.isGRPC fields = none := by
  unfold handleRequestHeaders
  cases createRequest env streamID session.isGRPC fields with
  | none => simp [Shows]
  | some request =>
    have hshows : ∀ (next : Option Session) (reports : List Report),
        Shows (next, .request request endStream :: reports) :=
      fun next reports => .inr ⟨_, mem_cons_self, nofun⟩
    refine ⟨fun habsurd => (habsurd ?_).elim, nofun⟩
    cases endStream with
    | false => exact hshows _ _
    | true =>
      dsimp only
      rw [if_pos rfl]
      split_ifs <;> exact hshows _ _

/-- A header block goes by without a trace exactly when it is dropped. -/
theorem handleFrame_shows {env : Env} {streamID : ℕ} {session : Session}
    {fields : List HeaderField} {endStream : Bool} :
    ¬Shows (session.handleFrame env streamID (.headers fields endStream)) ↔
      session.Drops env streamID (.headers fields endStream) := by
  unfold Drops handleFrame handleHeadersFrame
  cases hstate : session.state with
  | idle => simpa [hstate] using handleRequestHeaders_shows env streamID _ fields endStream
  | requestHeaders request | requestBody request => simp [handleEarlyHeaders_shows]
  | requestDone => simp [handleResponseHeaders_shows]
  | responseHeaders request response | responseBody request response => simp [handleTrailers_shows]

end Session

namespace SplitBlock

variable {codec : Codec} {env : Env}

/-- The decoder behind the first fragment of the block. -/
def decoderAfterFirst (block : SplitBlock) (decoder : codec.Decoder) : codec.Decoder :=
  (decodePayload codec decoder (.headers block.first block.endStream false)).1

theorem decodePayload_first (block : SplitBlock) (decoder : codec.Decoder) :
    decodePayload codec decoder (.headers block.first block.endStream false) =
      (block.decoderAfterFirst decoder, .headersFailed) := by
  have hnone := readMetaFrame_unended codec decoder maxHeaderListSize [] block.first
  unfold decoderAfterFirst decodePayload
  dsimp only
  revert hnone
  cases readMetaFrame codec decoder maxHeaderListSize [] block.first false [] with
  | mk =>
    rintro rfl
    rfl

/-- The sessions after the first frame of a split block: its stream is given up. -/
def givenUp (block : SplitBlock) (sessions : Sessions) : Sessions :=
  { sessions with
    table := Function.update sessions.table block.streamID none
    reports := sessions.reports ++ [(block.streamID, .skipped)] }

section Receive

variable (hcodec : codec.Conforms) (block : SplitBlock)

include hcodec

theorem readFrame_rest :
    ∀ bytes ∈ continuationFrames block.streamID block.rest,
      codec.readFrame bytes = .error .protocol := by
  refine readFrame_continuationFrames hcodec block.streamID_pos block.streamID_lt block.rest ?_
  have hblock := block.fits
  rw [length_append] at hblock
  exact (Nat.le_add_left _ _).trans_lt hblock

variable {wire : Wire codec} (hlive : wire.sessions.failed = false) (direction : Direction)

include hlive

theorem receive_first :
    wire.receive env (.frame direction
        (headersFrame block.streamID block.first block.endStream false)) =
      wire.update direction (block.decoderAfterFirst (wire.decoder direction),
        block.givenUp wire.sessions) := by
  have hfits : block.first.length < 2 ^ 24 := by
    have hblock := block.fits
    rw [length_append] at hblock
    exact (Nat.le_add_right _ _).trans_lt hblock
  have hread := hcodec.headers block.streamID block.first block.endStream false block.streamID_pos
    block.streamID_lt hfits
  have hdecode : decodeFrame codec (wire.decoder direction)
      (headersFrame block.streamID block.first block.endStream false) =
      (block.decoderAfterFirst (wire.decoder direction),
        some (.frame block.streamID .headersFailed)) := by
    rw [decodeFrame, hread]
    dsimp only
    rw [if_neg block.streamID_pos.ne', block.decodePayload_first]
  rw [Wire.receive, handleBytes, hdecode]
  simp only [handle, hlive, Bool.false_eq_true, if_false]
  rfl

/-- On a gRPC connection the split block gives its stream up and does nothing else. -/
theorem receive_parts (env : Env) (hgrpc : wire.sessions.protocol = .grpc) :
    wire.receiveAll env (block.parts.map (.frame direction)) =
      wire.update direction (block.decoderAfterFirst (wire.decoder direction),
        block.givenUp wire.sessions) := by
  rw [parts, map_cons, receiveAll, foldl_cons, receive_first hcodec block hlive direction]
  refine receiveAll_protocolErrors env ?_ ?_ direction _ (block.readFrame_rest hcodec)
  · rw [sessions_update]
    exact hlive
  · rw [sessions_update]
    exact hgrpc

/-- On any other connection it ends the processing. -/
theorem receive_parts_failed (hgrpc : wire.sessions.protocol ≠ .grpc) :
    (wire.receiveAll env (block.parts.map (.frame direction))).sessions.failed = true := by
  rw [parts, map_cons, receiveAll, foldl_cons, receive_first hcodec block hlive direction]
  refine receiveAll_protocolErrors_failed env ?_ ?_ direction
    (continuationFrames_ne_nil block.streamID block.rest_ne_nil) (block.readFrame_rest hcodec)
  · rw [sessions_update]
    exact hlive
  · rw [sessions_update]
    exact hgrpc

/-! ## Split and whole -/

/-- The item that the whole block is decoded to. -/
def wholeItem (block : SplitBlock) (decoder : codec.Decoder) : Item :=
  (decodePayload codec decoder
    (.headers (block.first ++ block.rest.flatten) block.endStream true)).2

theorem receive_whole (env : Env) :
    ∃ decoder, wire.receive env (.frame direction block.whole) =
      wire.update direction (decoder, wire.sessions.handleFrame env block.streamID
        (block.wholeItem (wire.decoder direction))) := by
  have hread := hcodec.headers block.streamID (block.first ++ block.rest.flatten) block.endStream
    true block.streamID_pos block.streamID_lt block.fits
  refine ⟨(decodePayload codec (wire.decoder direction)
    (.headers (block.first ++ block.rest.flatten) block.endStream true)).1, ?_⟩
  have hdecode : decodeFrame codec (wire.decoder direction) block.whole =
      ((decodePayload codec (wire.decoder direction)
          (.headers (block.first ++ block.rest.flatten) block.endStream true)).1,
        some (.frame block.streamID (block.wholeItem (wire.decoder direction)))) := by
    rw [decodeFrame, whole, hread]
    dsimp only
    rw [if_neg block.streamID_pos.ne']
    rfl
  rw [Wire.receive, handleBytes, hdecode]
  simp only [handle, hlive, Bool.false_eq_true, if_false]

end Receive

/-- With the split block in place of the whole one, the connection reports the same, goes
on behind the block, and keeps the stream's session if it had been kept. -/
def Unchanged (env : Env) (wire : Wire codec) (direction : Direction) (block : SplitBlock)
    (after : List Arrival) : Prop :=
  let whole := wire.receive env (.frame direction block.whole)
  let parts := wire.receiveAll env (block.parts.map (.frame direction))
  (parts.receiveAll env after).sessions.reported = (whole.receiveAll env after).sessions.reported ∧
    parts.sessions.failed = false ∧
    ((parts.sessions.table block.streamID).isSome ↔ (whole.sessions.table block.streamID).isSome)

/-- The block is lost on its stream anyway: the connection is known to be gRPC, the whole
block cannot be decoded or makes no request where one should start, and no later frame
can tell the decoder that has seen all of it from the one that has seen its first
fragment. -/
structure Dropped (env : Env) (wire : Wire codec) (direction : Direction) (block : SplitBlock) :
    Prop where
  live : wire.sessions.failed = false
  grpc : wire.sessions.protocol = .grpc
  lost : (wire.sessions.sessionOf block.streamID).Drops env block.streamID
    (block.wholeItem (wire.decoder direction))
  decoder : ∀ after, ((wire.update direction (block.decoderAfterFirst (wire.decoder direction),
        (wire.receive env (.frame direction block.whole)).sessions)).receiveAll env
          after).sessions.reported =
      ((wire.receive env (.frame direction block.whole)).receiveAll env after).sessions.reported

theorem reported_givenUp (block : SplitBlock) (sessions : Sessions) :
    (block.givenUp sessions).reported = sessions.reported := by
  simp [reported, givenUp]

theorem wholeItem_cases (block : SplitBlock) (decoder : codec.Decoder) :
    block.wholeItem decoder = .headersFailed ∨
      ∃ fields, block.wholeItem decoder = .headers fields block.endStream := by
  unfold wholeItem decodePayload
  dsimp only
  cases readMetaFrame codec decoder maxHeaderListSize [] (block.first ++ block.rest.flatten) true
    [] with
  | mk next fields =>
    cases fields with
    | none => exact .inl rfl
    | some fields => exact .inr ⟨fields, rfl⟩

/-- The whole block reports nothing and leaves no session exactly when it is dropped. -/
theorem silent_iff_drops (env : Env) (sessions : Sessions) (block : SplitBlock)
    (decoder : codec.Decoder) :
    ((sessions.handleFrame env block.streamID (block.wholeItem decoder)).reported =
          sessions.reported ∧
        (sessions.handleFrame env block.streamID (block.wholeItem decoder)).table block.streamID =
          none) ↔
      (sessions.sessionOf block.streamID).Drops env block.streamID (block.wholeItem decoder) := by
  have hshows : ∀ item, ((sessions.handleFrame env block.streamID item).reported =
        sessions.reported ∧
      (sessions.handleFrame env block.streamID item).table block.streamID = none) ↔
      ¬Session.Shows ((sessions.sessionOf block.streamID).handleFrame env block.streamID item) := by
    intro item
    simp only [Session.Shows, handleFrame, reported, filter_append,
      append_right_eq_self, Function.update_self, not_or, not_not, not_exists, not_and]
    rw [and_comm]
    refine and_congr_right fun _ => ?_
    simp [filter_eq_nil_iff]
  rw [hshows]
  rcases block.wholeItem_cases decoder with hitem | ⟨fields, hitem⟩
  · rw [hitem]
    simp [Session.Shows, Session.Drops, Session.handleFrame]
  · rw [hitem]
    exact Session.handleFrame_shows

/-- A split block that is lost leaves what the whole block leaves, but for the decoder. -/
theorem agree_parts (hcodec : codec.Conforms) (block : SplitBlock) {wire : Wire codec}
    (hlive : wire.sessions.failed = false) (hgrpc : wire.sessions.protocol = .grpc)
    {direction : Direction}
    (hlost : (wire.sessions.sessionOf block.streamID).Drops env block.streamID
      (block.wholeItem (wire.decoder direction))) :
    (wire.receiveAll env (block.parts.map (.frame direction))).Agree
      (wire.update direction (block.decoderAfterFirst (wire.decoder direction),
        (wire.receive env (.frame direction block.whole)).sessions)) := by
  obtain ⟨decoder, hwhole⟩ := block.receive_whole hcodec hlive direction env
  obtain ⟨hsilent, hremoved⟩ := (block.silent_iff_drops env wire.sessions _).2 hlost
  have hsessions : (block.givenUp wire.sessions).Agree
      (wire.receive env (.frame direction block.whole)).sessions := by
    rw [hwhole, sessions_update]
    refine ⟨?_, ?_, rfl, ?_⟩
    · simp only [handleFrame, Function.update_self] at hremoved
      simp only [handleFrame, givenUp, hremoved]
    · simp only [givenUp, handleFrame, hgrpc]
      rcases block.wholeItem_cases (wire.decoder direction) with hitem | ⟨fields, hitem⟩
      · rw [hitem]
        rfl
      · rw [hitem]
        simp [recognise]
    · rw [reported_givenUp, hsilent]
  rw [receive_parts hcodec block hlive direction env hgrpc]
  cases direction with
  | ingress | egress => exact ⟨rfl, rfl, hsessions⟩

end SplitBlock

/-! ## A codec without compression -/

/-- Fields as texts with their lengths in front. -/
def literalFields : ℕ → List Byte → List HeaderField
  | 0, _ => []
  | _, [] => []
  | fuel + 1, nameLength :: rest =>
    match rest.drop nameLength.toNat with
    | [] => []
    | valueLength :: values =>
      { name := rest.take nameLength.toNat, value := values.take valueLength.toNat } ::
        literalFields fuel (values.drop valueLength.toNat)

def literalBytes (fields : List HeaderField) : List Byte :=
  fields.flatMap fun field =>
    UInt8.ofNat field.name.length :: field.name ++ UInt8.ofNat field.value.length :: field.value

def plainPayload (kind flags : Byte) (payload : List Byte) : Payload :=
  if kind = 0 then .data payload (flags % 2 == 1)
  else if kind = 1 then .headers payload (flags % 2 == 1) (flags / 4 % 2 == 1)
  else if kind = 3 then .rstStream
  else .other

/-- Frames without padding and priority, header blocks without compression. -/
def plainCodec : Codec where
  Decoder := Unit
  initial := ()
  readFrame := fun bytes =>
    match bytes.drop 3 with
    | kind :: flags :: high :: middle :: low :: lowest :: payload =>
      if kind = 9 then .error .protocol
      else
        .ok
          { streamID := leValue [lowest, low, middle, high]
            payload := plainPayload kind flags payload }
    | _ => .error .other
  write := fun _ fragment => ((), literalFields fragment.length fragment, true)
  close := fun _ => ((), true)

theorem plainCodec_readFrame (kind flags : Byte) {streamID : ℕ} (hlt : streamID < 2 ^ 31)
    (payload : List Byte) :
    plainCodec.readFrame (frameBytes kind flags streamID payload) =
      if kind = 9 then .error .protocol
      else .ok { streamID := streamID, payload := plainPayload kind flags payload } := by
  have hvalue := leValue_leBytes 4 streamID (hlt.trans (by norm_num))
  simp only [leBytes] at hvalue
  simp [plainCodec, frameBytes, leBytes, hvalue]

theorem plainCodec_conforms : plainCodec.Conforms := by
  refine ⟨?_, ?_⟩
  · intro streamID fragment endStream endHeaders _ hlt _
    rw [headersFrame, plainCodec_readFrame _ _ hlt]
    cases endStream <;> cases endHeaders <;> rfl
  · intro streamID fragment endHeaders _ hlt _
    rfl

/-- A request whose block is cut in front of its last field. -/
def splitRequest : SplitBlock where
  streamID := 1
  endStream := true
  first := literalBytes (postBlock.take 2)
  rest := [literalBytes (postBlock.drop 2)]
  streamID_pos := by decide
  streamID_lt := by decide
  fits := by decide
  rest_ne_nil := by decide

end Qtap.Http2
