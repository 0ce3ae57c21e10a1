import Qtap.Core.Fifo
import Qtap.Redis.Command

/-!
# Commands and their replies

The stream refines the matcher of the correlation library: complete values are moves of
it, and the pairs it reports are the pairs of the matcher.  A condition on the moments
between events is carried to every moment of the run, and with it the replies are
reported with the commands in their position.
-/

namespace Qtap.Redis

open Prod List Qtap.Core Qtap.Connection

/-! ## The stream refines the matcher -/

/-- What a complete value is to the matcher. -/
def moveOf : Side × Value → Option (Command ⊕ Value)
  | (.client, value) => value.toCommand.map .inl
  | (.server, value) => some (.inr value)

def Report.pair? : Report → Option (Command × Value)
  | .pair command response => some (command, response)
  | .uncorrelated _ => none

def Report.uncorrelated? : Report → Option Value
  | .pair _ _ => none
  | .uncorrelated response => some response

namespace Correlation

def pairs (state : Correlation) : List (Command × Value) := state.reports.filterMap Report.pair?

def pending (state : Correlation) : List Command :=
  state.pendingCommands.map PendingCommand.command

def matching (state : Correlation) : Matching Command Value where
  pending := state.pending
  pairs := state.pairs
  unmatched := state.reports.filterMap Report.uncorrelated?

theorem matching_handleResponse (state : Correlation) (value : Value) :
    (state.handleResponse value).matching = state.matching.answer value := by
  obtain ⟨pendingCommands, _, _, _⟩ := state
  cases pendingCommands with
  | nil | cons =>
    simp [handleResponse, matching, Matching.answer, pending, pairs, Report.pair?,
      Report.uncorrelated?]

/-- One complete value is at most one move. -/
theorem matching_handle (env : Env) (state : Correlation) (arrival : Side × Value) :
    (state.handle env arrival).matching =
      (moveOf arrival).toList.foldl Matching.step state.matching := by
  obtain ⟨side, value⟩ := arrival
  cases side with
  | server => exact matching_handleResponse state value
  | client =>
    rw [handle, moveOf]
    cases hcommand : value.toCommand with
    | none => rw [handleRequest, hcommand]; rfl
    | some => simp [handleRequest, hcommand, matching, Matching.step, Matching.ask, pending, pairs]

theorem matching_foldl (env : Env) (state : Correlation) (trace : List (Side × Value)) :
    (trace.foldl (handle env) state).matching =
      (trace.filterMap moveOf).foldl Matching.step state.matching := by
  induction trace generalizing state with
  | nil => rfl
  | cons arrival trace ih =>
    rw [foldl_cons, ih, matching_handle, filterMap_cons]
    cases moveOf arrival with
    | none => rfl
    | some => rfl

end Correlation

/-- A run over events is a run of the matcher over the values in order of arrival. -/
theorem Stream.matching_run (parseFloat : List Byte → Option UInt64) (env : Env)
    (events : List DataEvent)
    (hsize : ∀ side, (bytesFrom env.source side events).length ≤ maxAlloc) :
    (run parseFloat env {} events).matching =
      Matching.run ((arrivals parseFloat env.source events).filterMap moveOf) := by
  rw [Stream.run_eq_foldl_arrivals parseFloat env events hsize, Correlation.matching_foldl]
  rfl

/-! ## Values and moments -/

theorem questions_moves (trace : List (Side × Value)) :
    questions (trace.filterMap moveOf) = (entriesOf .client trace).filterMap Value.toCommand := by
  induction trace with
  | nil => rfl
  | cons arrival trace ih =>
    obtain ⟨side, value⟩ := arrival
    cases side with
    | server =>
      rw [entriesOf_cons_of_ne (by decide), ← ih]
      rfl
    | client =>
      rw [entriesOf_cons_self, filterMap_cons, filterMap_cons, moveOf, ← ih]
      cases value.toCommand with
      | none => rfl
      | some => rfl

theorem answers_moves (trace : List (Side × Value)) :
    answers (trace.filterMap moveOf) = entriesOf .server trace := by
  induction trace with
  | nil => rfl
  | cons arrival trace ih =>
    obtain ⟨side, value⟩ := arrival
    cases side with
    | server =>
      rw [entriesOf_cons_self, ← ih]
      rfl
    | client =>
      rw [entriesOf_cons_of_ne (by decide), filterMap_cons, moveOf, ← ih]
      cases value.toCommand with
      | none => rfl
      | some => rfl

theorem bytesFrom_append (source : Source) (side : Side) (first second : List DataEvent) :
    bytesFrom source side (first ++ second) =
      bytesFrom source side first ++ bytesFrom source side second := by
  rw [bytesFrom, chunksOf, filterMap_append, entriesOf_append, flatten_append]
  rfl

/-- How many of the pieces of one direction are complete after the events. -/
def arrived (source : Source) (side : Side) (pieces : List (List Byte))
    (events : List DataEvent) : ℕ :=
  Framer.completed pieces (bytesFrom source side events).length

variable {before : List DataEvent} {past : List (Side × Value)}

section Moments

variable {parseFloat : List Byte → Option UInt64} {source : Source}

variable {side : Side} {events : List DataEvent}

section Reads

variable {pieces : List (List Byte × Value)}
  (hreads : ∀ piece ∈ pieces, (respFramer parseFloat).Reads piece.1 piece.2)
  (hbytes : bytesFrom source side events = pieces.flatMap Prod.fst)

include hreads hbytes

/-- The values that have arrived after a prefix of the events. -/
theorem entriesOf_arrivals_of_reads (hbefore : before <+: events) :
    entriesOf side (arrivals parseFloat source before) =
      (pieces.map snd).take (arrived source side (pieces.map fst) before) := by
  obtain ⟨_, rfl⟩ := hbefore
  rw [bytesFrom_append] at hbytes
  rw [arrivals, Framer.entriesOf_arrivals]
  exact (Framer.drain_of_reads hreads hbytes).1

theorem length_arrivals_of_reads (hbefore : before <+: events) :
    (entriesOf side (arrivals parseFloat source before)).length =
      arrived source side (pieces.map fst) before := by
  have hle : arrived source side (pieces.map fst) before ≤ pieces.length :=
    (Framer.completed_le_length _ _).trans_eq (length_map _)
  rw [entriesOf_arrivals_of_reads hreads hbytes hbefore, length_take, length_map,
    Nat.min_eq_left hle]

theorem entriesOf_arrivals_whole :
    entriesOf side (arrivals parseFloat source events) = pieces.map snd := by
  have hdrain := Framer.drain_append_of_reads hreads []
  rw [append_nil, Framer.drain_of_none _ (respFramer parseFloat).next_nil, append_nil] at hdrain
  rw [arrivals, Framer.entriesOf_arrivals]
  exact (congrArg (fun bytes => ((respFramer parseFloat).drain bytes).1) hbytes).trans
    (congrArg fst hdrain)

end Reads

/-- Every moment lies inside one event. -/
theorem prefix_arrivals (hpast : past <+: arrivals parseFloat source events) :
    past = [] ∨ ∃ before event side, ∃ values : List Value,
      values ≠ [] ∧ before ++ [event] <+: events ∧ chunkOf source event = some (side, event.data) ∧
      past <+: arrivals parseFloat source (before ++ [event]) ∧
      past = arrivals parseFloat source before ++ values.map (mk side) := by
  apply (Framer.prefix_arrivals _ hpast).imp id
  rintro ⟨_, ⟨side, bytes⟩, values, hne, hchunks, hleading, rfl⟩
  obtain ⟨before, event, hevents, rfl, hevent⟩ := concat_prefix_filterMap hchunks
  have hdata : bytes = event.data := by
    rw [chunkOf] at hevent
    split_ifs at hevent <;> cases hevent <;> rfl
  subst hdata
  refine ⟨before, event, side, values, hne, hevents, hevent, ?_, rfl⟩
  rw [arrivals, chunksOf, filterMap_append, filterMap_cons_some hevent]
  exact hleading

theorem arrived_concat_of_ne {other : Side} {event : DataEvent}
    (hevent : chunkOf source event = some (other, event.data)) (hne : other ≠ side)
    (pieces : List (List Byte)) (before : List DataEvent) :
    arrived source side pieces (before ++ [event]) = arrived source side pieces before := by
  have hnone : bytesFrom source side [event] = [] := by
    rw [bytesFrom, chunksOf, filterMap_cons_some hevent, entriesOf_cons_of_ne hne]
    rfl
  rw [arrived, bytesFrom_append, hnone, append_nil, arrived]

end Moments

/-! ## Orderly runs -/

section Orderly

variable {parseFloat : List Byte → Option UInt64} {source : Source} {stray : Value → Bool}

/-- The bytes of a run: the client sends commands, the server values. -/
structure Conversation (parseFloat : List Byte → Option UInt64) (source : Source)
    (requests responses : List (List Byte × Value)) (events : List DataEvent) : Prop where
  requests_read : ∀ piece ∈ requests, (respFramer parseFloat).Reads piece.1 piece.2
  requests_named : ∀ piece ∈ requests, piece.2.toCommand.isSome
  responses_read : ∀ piece ∈ responses, (respFramer parseFloat).Reads piece.1 piece.2
  request_bytes : bytesFrom source .client events = requests.flatMap Prod.fst
  response_bytes : bytesFrom source .server events = responses.flatMap Prod.fst

variable {requests responses : List (List Byte × Value)} {events : List DataEvent}

/-- The values among `values` that answer a command. -/
def expectedValues (stray : Value → Bool) (values : List Value) : List Value :=
  values.filter fun value => !stray value

namespace Conversation

variable (htalk : Conversation parseFloat source requests responses events)

include htalk

/-- Every value of the client is a question. -/
theorem length_questions (hpast : past <+: arrivals parseFloat source events) :
    (questions (past.filterMap moveOf)).length = (entriesOf .client past).length := by
  have hclient := entriesOf_isPrefix Side.client hpast
  rw [entriesOf_arrivals_whole htalk.requests_read htalk.request_bytes] at hclient
  rw [questions_moves]
  apply filterMap_length_eq_length.2
  intro value hvalue
  obtain ⟨piece, hpiece, rfl⟩ := mem_map.1 (hclient.subset hvalue)
  exact htalk.requests_named piece hpiece

section

variable (hcausal : ∀ before, before <+: events →
    (expectedValues stray ((responses.map Prod.snd).take
      (arrived source .server (responses.map Prod.fst) before))).length ≤
    arrived source .client (requests.map Prod.fst) before)

include hcausal

theorem causal_moves (hpast : past <+: arrivals parseFloat source events) :
    (expected stray (past.filterMap moveOf)).length ≤
      (questions (past.filterMap moveOf)).length := by
  rw [htalk.length_questions hpast, expected, answers_moves]
  rcases prefix_arrivals hpast with rfl | ⟨before, event, side, values, _, hevents, hevent,
    hleading, rfl⟩
  · exact le_rfl
  · have hbefore : before <+: events := (prefix_append _ _).trans hevents
    cases side with
    | client =>
      rw [entriesOf_append, entriesOf_append, entriesOf_map_mk_of_ne (by decide),
        append_nil, length_append,
        entriesOf_arrivals_of_reads htalk.responses_read htalk.response_bytes hbefore,
        length_arrivals_of_reads htalk.requests_read htalk.request_bytes hbefore]
      exact (hcausal before hbefore).trans (Nat.le_add_right _ _)
    | server =>
      have hserver := entriesOf_isPrefix Side.server hleading
      rw [entriesOf_arrivals_of_reads htalk.responses_read htalk.response_bytes hevents] at hserver
      have hclient : (entriesOf .client
          (arrivals parseFloat source before ++ values.map (Prod.mk .server))).length =
          arrived source .client (requests.map Prod.fst) (before ++ [event]) := by
        rw [entriesOf_append, entriesOf_map_mk_of_ne (by decide), append_nil,
          length_arrivals_of_reads htalk.requests_read htalk.request_bytes hbefore,
          arrived_concat_of_ne hevent (by decide)]
      rw [hclient]
      exact (hserver.filter _).length_le.trans (hcausal _ hevents)

variable (hidle : ∀ before event, before ++ [event] <+: events →
    ∀ index value, (responses.map Prod.snd)[index]? = some value → stray value = true →
    arrived source .server (responses.map Prod.fst) before ≤ index →
    index < arrived source .server (responses.map Prod.fst) (before ++ [event]) →
    arrived source .client (requests.map Prod.fst) before ≤
      (expectedValues stray ((responses.map Prod.snd).take index)).length)

include hidle

omit hcausal in
theorem idle_moves {value : Value}
    (hpast : past ++ [(.server, value)] <+: arrivals parseFloat source events)
    (hstray : stray value = true) :
    (questions (past.filterMap moveOf)).length ≤
      (expected stray (past.filterMap moveOf)).length := by
  rw [htalk.length_questions ((prefix_append _ _).trans hpast), expected, answers_moves]
  rcases prefix_arrivals hpast with hnil | ⟨before, event, side, values, hne, hevents, hevent,
    hleading, hmoment⟩
  · simp at hnil
  · have hbefore : before <+: events := (prefix_append _ _).trans hevents
    obtain ⟨seen, _, rfl⟩ := (eq_nil_or_concat' values).resolve_left hne
    rw [map_append, ← append_assoc] at hmoment
    obtain ⟨rfl, hlast⟩ := append_inj' hmoment rfl
    cases hlast
    rw [entriesOf_append, entriesOf_map_mk_of_ne (by decide), append_nil,
      length_arrivals_of_reads htalk.requests_read htalk.request_bytes hbefore]
    generalize hmoves : arrivals parseFloat source before ++ seen.map (Prod.mk .server) = moves
      at hleading hpast ⊢
    have hbatch : entriesOf .server (moves ++ [(.server, value)]) =
        entriesOf .server moves ++ [value] := by
      rw [entriesOf_append, entriesOf_cons_self, entriesOf_nil]
    have hnow := entriesOf_isPrefix Side.server hleading
    have hwhole := entriesOf_isPrefix Side.server hpast
    rw [hbatch] at hnow hwhole
    rw [entriesOf_arrivals_whole htalk.responses_read htalk.response_bytes] at hwhole
    have hlast : (responses.map snd)[(entriesOf .server moves).length]? = some value := by
      obtain ⟨_, hrest⟩ := hwhole
      rw [← hrest, append_assoc, List.getElem?_append_right le_rfl, Nat.sub_self]
      rfl
    have hearlier : arrived source .server (responses.map fst) before ≤
        (entriesOf .server moves).length := by
      rw [← length_arrivals_of_reads htalk.responses_read htalk.response_bytes hbefore, ← hmoves]
      exact (entriesOf_isPrefix Side.server (prefix_append _ _)).length_le
    have hlater : (entriesOf .server moves).length <
        arrived source .server (responses.map fst) (before ++ [event]) := by
      rw [← length_arrivals_of_reads htalk.responses_read htalk.response_bytes hevents]
      simpa using hnow.length_le
    have htake : entriesOf .server moves =
        (responses.map snd).take (entriesOf .server moves).length :=
      prefix_iff_eq_take.1 ((prefix_append _ _).trans hwhole)
    have hbound := hidle before event hevents _ value hlast hstray hearlier hlater
    rwa [← htake] at hbound

/-- The moves of a run are orderly when its events are. -/
theorem orderly_moves :
    Orderly stray ((arrivals parseFloat source events).filterMap moveOf) where
  causal := by
    intro past hpast
    obtain ⟨moves, hmoves, rfl⟩ := prefix_filterMap_iff.1 hpast
    exact htalk.causal_moves hcausal hmoves
  idle := by
    intro past value hpast hstray
    obtain ⟨_, ⟨side, _⟩, hmoves, rfl, hlast⟩ := concat_prefix_filterMap hpast
    cases side with
    | client =>
      obtain ⟨_, _, hcommand⟩ := Option.map_eq_some_iff.1 hlast
      cases hcommand
    | server =>
      cases hlast
      exact htalk.idle_moves hidle hmoves hstray

end

/-- Replies are reported with the commands in their position. -/
theorem run_eq (env : Env) (hsource : env.source = source)
    (hsize : ∀ side, (bytesFrom source side events).length ≤ maxAlloc)
    (horderly : Orderly stray ((arrivals parseFloat source events).filterMap moveOf)) :
    (Stream.run parseFloat env {} events).pairs =
        ((requests.map snd).filterMap Value.toCommand).zip
          (expectedValues stray (responses.map snd)) ∧
      (Stream.run parseFloat env {} events).pending =
        ((requests.map snd).filterMap Value.toCommand).drop
          (expectedValues stray (responses.map snd)).length := by
  subst hsource
  have hrun := Matching.run_eq_of_orderly horderly
  rw [← Stream.matching_run parseFloat env events hsize, questions_moves, expected, answers_moves,
    entriesOf_arrivals_whole htalk.requests_read htalk.request_bytes,
    entriesOf_arrivals_whole htalk.responses_read htalk.response_bytes] at hrun
  exact hrun

end Conversation

end Orderly

end Qtap.Redis
