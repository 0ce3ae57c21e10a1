import Qtap.Core.Duplex
import Qtap.Http2.Perspective

/-!
# The same bytes cut in two ways

How the bytes of the two sides are cut into events matters only for the preface.  A frame that has
not arrived completely waits for the rest of it, but the preface is looked for in the first event
of the observed process, and a part of it is an error that ends the processing.
-/

namespace Qtap.Http2

open Buffers Chunk List Qtap.Core Qtap.Connection

/-- The event in which the chunk is seen at one end of the connection. -/
def Chunk.seenAt : Side → Chunk → DataEvent
  | .client => Chunk.atClient
  | .server => Chunk.atServer

/-! ## The order in which frames become complete -/

/-- The chunks without the first bytes of the client. -/
def dropClient : ℕ → List Chunk → List Chunk
  | _, [] => []
  | count, { side := .server, data } :: chunks =>
    { side := .server, data := data } :: dropClient count chunks
  | count, { side := .client, data } :: chunks =>
    { side := .client, data := data.drop count } :: dropClient (count - data.length) chunks

def Chunk.entry (chunk : Chunk) : Side × List Byte := (chunk.side, chunk.data)

/-- The frames of both sides behind the client's preface, in the order in which they become
complete. -/
def completions (chunks : List Chunk) : List (Side × List Byte) :=
  frameFramer.arrivals ((dropClient clientPreface.length chunks).map Chunk.entry)

theorem dropClient_zero (chunks : List Chunk) : dropClient 0 chunks = chunks := by
  induction chunks with
  | nil => rfl
  | cons chunk chunks ih =>
    obtain ⟨side, _⟩ := chunk
    cases side with
    | server => rw [dropClient, ih]
    | client => rw [dropClient, Nat.zero_sub, ih, drop_zero]

/-- A frame as the client's end sees it. -/
def arrivalAtClient : Side × List Byte → Arrival
  | (.client, bytes) => .frame .egress bytes
  | (.server, bytes) => .frame .ingress bytes

theorem map_arrivalAtClient (side : Side) (frames : List (List Byte)) :
    (frames.map (Prod.mk side)).map arrivalAtClient =
      frames.map (.frame (atClient ⟨side, []⟩).direction) := by
  rw [map_map]
  cases side <;> rfl

/-- The unfinished frames of both sides. -/
def Buffers.table (buffers : Buffers) : Side → List Byte
  | .client => buffers.egress
  | .server => buffers.ingress

theorem Buffers.update_table_server (buffers : Buffers) (rest : List Byte) :
    Function.update buffers.table .server rest = table { buffers with ingress := rest } := by
  funext side
  cases side <;> rfl

theorem Buffers.update_table_client (buffers : Buffers) (rest : List Byte) :
    Function.update buffers.table .client rest =
      table { buffers with prefaceRead := true, egress := rest } := by
  funext side
  cases side <;> rfl

/-- Behind the preface the processor takes the frames as they become complete. -/
theorem feed_behind_preface (chunks : List Chunk) {buffers : Buffers}
    (hread : buffers.prefaceRead = true) :
    (feed read buffers (chunks.map atClient)).2 =
      (route (fun _ => frameFramer.push) buffers.table (chunks.map entry)).2.map
        arrivalAtClient := by
  induction chunks generalizing buffers with
  | nil => rfl
  | cons chunk chunks ih =>
    obtain ⟨side, data⟩ := chunk
    cases side with
    | server =>
      have hrest := @ih { buffers with ingress := (frameFramer.push buffers.ingress data).1 } hread
      rw [map_cons, map_cons, entry, route]
      rw [map_append, map_arrivalAtClient, update_table_server]
      exact congrArg _ hrest
    | client =>
      have hegress : buffers.read (atClient ⟨.client, data⟩) =
          buffers.readEgress (buffers.egress ++ data) := if_pos hread
      rw [map_cons, feed, hegress, map_cons, entry, route]
      rw [map_append, map_arrivalAtClient, update_table_client, ← ih rfl]
      rfl

/-! ## The preface -/

/-- The first event of a side. -/
def firstOf (side : Side) (chunks : List Chunk) : Option Chunk :=
  chunks.find? fun chunk => chunk.side = side

variable {bytes : List Byte} {chunks : List Chunk}

theorem readPreface_eq_some {stream : List Byte} (hbytes : bytes <+: stream)
    (hpreface : clientPreface <+: stream) (hlength : clientPreface.length ≤ bytes.length) :
    readPreface bytes = some (bytes.drop clientPreface.length) := by
  refine if_pos (List.isPrefixOf_iff_prefix.2 ?_)
  exact prefix_of_prefix_length_le hpreface hbytes hlength

theorem readPreface_eq_none_of_lt (hlength : bytes.length < clientPreface.length) :
    readPreface bytes = none := by
  refine if_neg fun hpreface => ?_
  exact (List.isPrefixOf_iff_prefix.1 hpreface).length_le.not_gt hlength

/-- When the client's first event holds its preface, the processor at the client sees the frames in
the order in which they become complete. -/
theorem arrivals_atClient (hclient : clientPreface <+: bytesFrom .client chunks)
    (hwhole : ∀ chunk ∈ firstOf .client chunks, clientPreface.length ≤ chunk.data.length) :
    arrivals (chunks.map atClient) = (completions chunks).map arrivalAtClient := by
  have hfeed : ∀ (chunks : List Chunk) (buffers : Buffers), buffers.prefaceRead = false →
      buffers.egress = [] → clientPreface <+: bytesFrom .client chunks →
      (∀ chunk ∈ firstOf .client chunks, clientPreface.length ≤ chunk.data.length) →
      (feed read buffers (chunks.map atClient)).2 =
        (route (fun _ => frameFramer.push) buffers.table
          ((dropClient clientPreface.length chunks).map entry)).2.map arrivalAtClient := by
    intro chunks
    induction chunks with
    | nil => exact fun _ _ _ _ _ => rfl
    | cons chunk chunks ih =>
      intro buffers hunread hegress hclient hwhole
      obtain ⟨side, data⟩ := chunk
      cases side with
      | server =>
        have hrest := ih
          { buffers with ingress := (frameFramer.push buffers.ingress data).1 } hunread
          hegress hclient hwhole
        rw [map_cons, dropClient, map_cons, entry, route]
        rw [map_append, map_arrivalAtClient, update_table_server]
        exact congrArg _ hrest
      | client =>
        have hlength : clientPreface.length ≤ data.length := hwhole _ rfl
        have hpreface : readPreface (buffers.egress ++ data) =
            some (data.drop clientPreface.length) := by
          rw [hegress]
          exact readPreface_eq_some (prefix_append data (bytesFrom .client chunks)) hclient hlength
        have hread : buffers.read (atClient ⟨.client, data⟩) =
            buffers.readEgress (data.drop clientPreface.length) := by
          rw [atClient, Buffers.read]
          rw [hunread, hpreface]
          rfl
        have hpush : frameFramer.push (buffers.table .client) (data.drop clientPreface.length) =
              ((frameFramer.drain (data.drop clientPreface.length)).2,
                (frameFramer.drain (data.drop clientPreface.length)).1) := by
          rw [Framer.push, table, hegress, nil_append]
        rw [map_cons, feed, hread, dropClient, Nat.sub_eq_zero_of_le hlength,
          dropClient_zero, map_cons, entry, route]
        rw [hpush, map_append, map_arrivalAtClient, update_table_client,
          ← feed_behind_preface chunks rfl]
        rfl
  have htable : table {} = fun _ => [] := by
    funext side
    cases side <;> rfl
  have harrivals := hfeed chunks {} rfl rfl hclient hwhole
  rw [htable] at harrivals
  exact harrivals

/-- Anything but the preface in the first event of the observed process is an error. -/
theorem badPreface_mem_feed {events : List DataEvent} {event : DataEvent}
    (hfirst : events.find? (fun event => event.direction = .egress) = some event)
    (hpreface : readPreface event.data = none) {buffers : Buffers}
    (hunread : buffers.prefaceRead = false) (hegress : buffers.egress = []) :
    .badPreface ∈ (feed read buffers events).2 := by
  induction events generalizing buffers with
  | nil => cases hfirst
  | cons other events ih =>
    obtain ⟨direction, data⟩ := other
    rw [feed]
    cases direction with
    | ingress => exact mem_append_right _ (ih hfirst hunread hegress)
    | egress =>
      obtain rfl : { direction := .egress, data := data } = event := Option.some.inj hfirst
      have hread : (buffers.read { direction := .egress, data := data }).2 = [.badPreface] := by
        rw [Buffers.read]
        rw [hunread, hegress, nil_append, hpreface]
        rfl
      rw [hread]
      exact mem_append_left _ (mem_singleton_self _)

/-- An error in place of the preface ends the processing. -/
theorem Wire.failed_of_badPreface {codec : Codec} (env : Env) {trace : List Arrival}
    (hmem : .badPreface ∈ trace) (wire : Wire codec) :
    (wire.receiveAll env trace).sessions.failed = true := by
  obtain ⟨before, after, rfl⟩ := append_of_mem hmem
  rw [Wire.receiveAll_append]
  have hfailed : ((wire.receiveAll env before).receive env .badPreface).sessions.failed = true :=
    rfl
  have hafter := Wire.receiveAll_failed env hfailed after
  rw [Wire.receiveAll, foldl_cons]
  rw [Wire.receiveAll] at hafter
  rw [hafter]
  exact hfailed

/-! ## Two cuts -/

/-- The cut does no harm.  At the client, the client's first event holds its whole preface.  At the
server, less has come from the client when the server's first event is seen than the frame has that
the preface seems to announce. -/
def Harmless (observed : Side) (chunks : List Chunk) : Prop :=
  match observed with
  | .client => ∀ chunk ∈ firstOf .client chunks, clientPreface.length ≤ chunk.data.length
  | .server => (clientOpening chunks).length < 5263954

instance (observed : Side) (chunks : List Chunk) : Decidable (Harmless observed chunks) :=
  match observed with
  | .client => inferInstanceAs (Decidable (∀ chunk ∈ firstOf .client chunks, _))
  | .server => inferInstanceAs (Decidable (_ < _))

/-- What the processor makes of the events at one end. -/
def observe (codec : Codec) (env : Env) (observed : Side) (chunks : List Chunk) : Sessions :=
  (Stream.run env ({} : Stream codec) (chunks.map (Chunk.seenAt observed))).toSessions

/-- The calls are the same, and so is whether the processing was given up. -/
def SameOutcome (left right : Sessions) : Prop :=
  left.reports = right.reports ∧ left.failed = right.failed

section Cuts

variable (codec : Codec) (env : Env) {chunks : List Chunk}

theorem observe_eq (observed : Side) (chunks : List Chunk) :
    observe codec env observed chunks = (Wire.receiveAll env ({} : Wire codec)
        (arrivals (chunks.map (seenAt observed)))).sessions :=
  Stream.run_sessions env _

theorem observe_client (hclient : clientPreface <+: bytesFrom .client chunks)
    (hharmless : Harmless .client chunks) :
    observe codec env .client chunks = (Wire.receiveAll env ({} : Wire codec)
        ((completions chunks).map arrivalAtClient)).sessions := by
  rw [observe_eq, ← arrivals_atClient hclient hharmless]
  rfl

end Cuts

theorem find_egress_seenAt (observed : Side) (chunks : List Chunk) :
    (chunks.map (seenAt observed)).find? (fun event => event.direction = .egress) =
      (firstOf observed chunks).map (seenAt observed) := by
  rw [List.find?_map]
  congr 2
  funext chunk
  obtain ⟨side, _⟩ := chunk
  cases observed <;> cases side <;> rfl

/-- The observed process does not start with a whole preface. -/
theorem failed_of_first (codec : Codec) (env : Env) {observed : Side} {chunk : Chunk}
    (hfirst : firstOf observed chunks = some chunk) (hpreface : readPreface chunk.data = none) :
    (observe codec env observed chunks).failed = true := by
  have hevent : (chunks.map (seenAt observed)).find?
      (fun event => event.direction = .egress) = some (chunk.seenAt observed) := by
    rw [find_egress_seenAt, hfirst, Option.map_some]
  have hdata : readPreface (chunk.seenAt observed).data = none := by
    cases observed <;> exact hpreface
  rw [observe_eq]
  exact Wire.failed_of_badPreface env (badPreface_mem_feed hevent hdata rfl rfl) _

theorem harmless_of_not_failed {codec : Codec} {env : Env}
    (hworks : (observe codec env .client chunks).failed = false) : Harmless .client chunks := by
  intro chunk hfirst
  by_contra hshort
  have hfailed := failed_of_first codec env hfirst (readPreface_eq_none_of_lt (Nat.not_le.1 hshort))
  exact Bool.false_ne_true (hworks.symm.trans hfailed)

theorem firstOf_isPrefix {side : Side} {chunk : Chunk} (hfirst : firstOf side chunks = some chunk) :
    chunk.data <+: bytesFrom side chunks := by
  induction chunks with
  | nil => cases hfirst
  | cons other chunks ih =>
    by_cases hside : other.side = side
    · rw [firstOf, List.find?_cons_of_pos (by simpa using hside)] at hfirst
      cases hfirst
      rw [bytesFrom, filter_cons_of_pos (by simpa using hside)]
      exact prefix_append _ _
    · rw [firstOf, List.find?_cons_of_neg (by simpa using hside)] at hfirst
      rw [bytesFrom, filter_cons_of_neg (by simpa using hside)]
      exact ih hfirst

/-- The server's bytes start with a SETTINGS frame: the fourth byte is the type of a frame. -/
def StartsWithSettings (bytes : List Byte) : Prop := bytes[3]? = some 4

theorem StartsWithSettings.not_preface (hsettings : StartsWithSettings bytes) :
    ¬clientPreface <+: bytes := by
  rintro ⟨_, rfl⟩
  rw [StartsWithSettings, List.getElem?_append_left (by decide)] at hsettings
  exact absurd hsettings (by decide)

theorem failed_at_server (codec : Codec) (env : Env)
    (hsettings : StartsWithSettings (bytesFrom .server chunks)) :
    (observe codec env .server chunks).failed = true := by
  cases hfirst : firstOf .server chunks with
  | none =>
    have hnone : chunks.filter (fun chunk => chunk.side = .server) = [] :=
      filter_eq_nil_iff.2 (List.find?_eq_none.1 hfirst)
    rw [bytesFrom, hnone] at hsettings
    cases hsettings
  | some =>
    refine failed_of_first codec env hfirst ?_
    exact readPreface_eq_none (firstOf_isPrefix hfirst) hsettings.not_preface

/-- Two cuts of the same bytes: the client starts with its preface and the server with SETTINGS,
and the frames become complete in the same order. -/
structure Recut (first second : List Chunk) : Prop where
  preface : clientPreface <+: bytesFrom .client first
  settings : StartsWithSettings (bytesFrom .server first)
  client : bytesFrom .client first = bytesFrom .client second
  server : bytesFrom .server first = bytesFrom .server second
  order : completions first = completions second

theorem Recut.sameOutcome {first second : List Chunk} (hrecut : Recut first second)
    (codec : Codec) (env : Env) {observed : Side} (hfirst : Harmless observed first)
    (hsecond : Harmless observed second) :
    SameOutcome (observe codec env observed first) (observe codec env observed second) := by
  cases observed with
  | client =>
    rw [observe_client codec env hrecut.preface hfirst,
      observe_client codec env (hrecut.client ▸ hrecut.preface) hsecond, hrecut.order]
    exact ⟨rfl, rfl⟩
  | server =>
    rw [Harmless, ← prefaceFrameSize_eq] at hfirst hsecond
    have hleft := reports_atServer codec env hrecut.preface hrecut.settings.not_preface hfirst
    have hright := reports_atServer codec env (hrecut.client ▸ hrecut.preface)
      (hrecut.server ▸ hrecut.settings.not_preface) hsecond
    constructor
    · exact hleft.trans hright.symm
    · exact (failed_at_server codec env hrecut.settings).trans
        (failed_at_server codec env (hrecut.server ▸ hrecut.settings)).symm

/-- Two harmless cuts give the same outcome, whatever it is.  When the one is processed to its end,
the other gives the same outcome if and only if it is harmless. -/
theorem cuts_agree_iff (codec : Codec) (env : Env) (observed : Side) (first second : List Chunk)
    (hrecut : Recut first second) :
    (Harmless observed first ∧ Harmless observed second →
        SameOutcome (observe codec env observed first) (observe codec env observed second)) ∧
      ((observe codec env observed first).failed = false →
        (SameOutcome (observe codec env observed first) (observe codec env observed second) ↔
          Harmless observed second)) := by
  refine ⟨fun hboth => hrecut.sameOutcome codec env hboth.1 hboth.2, fun hworks => ?_⟩
  cases observed with
  | client =>
    constructor
    · intro hsame
      exact harmless_of_not_failed (hsame.2.symm.trans hworks)
    · exact hrecut.sameOutcome codec env (harmless_of_not_failed hworks)
  | server =>
    have hfailed := failed_at_server codec env hrecut.settings
    exact absurd (hworks.symm.trans hfailed) Bool.false_ne_true

/-- The request of `requestChunks`, cut behind the first byte of its frame. -/
def cutInFrame : List Chunk :=
  [{ side := .client
     data := clientPreface ++ (headersFrame 1 (literalBytes postBlock) true true).take 1 },
    { side := .client, data := (headersFrame 1 (literalBytes postBlock) true true).drop 1 },
    { side := .server, data := frameBytes 4 0 0 [] }]

/-- The request of `requestChunks`, cut inside the preface. -/
def cutInPreface : List Chunk :=
  [{ side := .client, data := clientPreface.take 10 },
    { side := .client
      data := clientPreface.drop 10 ++ headersFrame 1 (literalBytes postBlock) true true },
    { side := .server, data := frameBytes 4 0 0 [] }]

theorem cuts_agree_iff_cutInFrame :
    SameOutcome (observe plainCodec acceptAll .client requestChunks)
      (observe plainCodec acceptAll .client cutInFrame) :=
  ((cuts_agree_iff plainCodec acceptAll .client requestChunks cutInFrame
    ⟨⟨_, rfl⟩, rfl, by decide, rfl, by decide⟩).2 (by decide)).2 (by decide)

/-- The request is reported when the preface comes in one event, and nothing when it comes in
two. -/
theorem cut_in_preface_differs :
    bytesFrom .client requestChunks = bytesFrom .client cutInPreface ∧
      bytesFrom .server requestChunks = bytesFrom .server cutInPreface ∧
      completions requestChunks = completions cutInPreface ∧
      (observe plainCodec acceptAll .client requestChunks).failed = false ∧
      (observe plainCodec acceptAll .client requestChunks).reports =
        [(1, .request (Request.ofFields acceptAll postBlock) true), (1, .requestBody [] true)] ∧
      (observe plainCodec acceptAll .client cutInPreface).failed = true ∧
      (observe plainCodec acceptAll .client cutInPreface).reports = [] := by
  refine ⟨?_, ?_, ?_, ?_, ?_, ?_, ?_⟩
  all_goals decide

end Qtap.Http2
