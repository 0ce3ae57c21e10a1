import Qtap.Core.Transition
import Qtap.JavaSsl.Engine

/-!
# Soundness of the correlation

Both kinds of events share one table of pending correlations under the hash of a prefix,
and what is pending under a hash is taken for the other half of whatever comes next: an
event of the same kind, of another process, or of another prefix with the same hash.  As
long as the half that an event meets is a true one, every active correlation joins a session
with a socket of its process that sent the same bytes.
-/

namespace Qtap.JavaSsl

open Engine Option Function List Qtap.Core Qtap.Connection

namespace Event

/-- The half of a correlation that an event brings. -/
def half? : Event → Option (CorrelationSource × Correlation)
  | encrypted pid sessionId _ _ => some (.uprobe, ⟨pid, sessionId, 0, -1⟩)
  | correlate pid fd cookie _ _ => some (.syscall, ⟨pid, 0, cookie, fd⟩)
  | _ => none

def source? (event : Event) : Option CorrelationSource := event.half?.map Prod.fst

/-- The identifiers are those of a session and of a socket. -/
def Genuine : Event → Prop
  | encrypted _ sessionId _ _ => sessionId ≠ 0
  | correlate _ fd cookie _ _ => fd ≠ -1 ∧ cookie ≠ 0
  | _ => True

/-- A session and a socket of one process with the same first bytes. -/
def Matches : Event → Event → Prop
  | encrypted pid _ _ msg, correlate other _ _ _ data => pid = other ∧ msg.take 16 = data.take 16
  | correlate pid _ _ _ msg, encrypted other _ _ data => pid = other ∧ msg.take 16 = data.take 16
  | _, _ => False

theorem source?_ne_of_matches {first second : Event} (hmatches : first.Matches second) :
    first.source? ≠ second.source? := by
  cases first <;> cases second <;> first | exact hmatches.elim | nofun

end Event

/-- The engine with its history: the events so far, the event that left each pending
correlation, and the events that were paired. -/
structure State where
  engine : Engine
  seen : List Event
  origins : UInt64 → Option Event
  pairs : List (Event × Event)

section Hash

variable (sum64 : List Byte → UInt64)

/-- The hash under which an event looks for its other half, unless it is ignored. -/
def Engine.accepted? (engine : Engine) : Event → Option UInt64
  | .encrypted _ sessionId _ msg =>
    if msg.length < 16 ∨ (engine.activeCorrelations sessionId).isSome then none
    else some (generatePrefixHash sum64 msg)
  | .correlate pid fd _ _ msg =>
    if msg.length < 16 ∨ (pid, fd) ∈ engine.syscallCorrelatedMap then none
    else some (generatePrefixHash sum64 msg)
  | _ => none

namespace State

def initial (streamProtocols : L7Detect.Protocol → Bool) : State where
  engine := .new streamProtocols
  seen := []
  origins := fun _ => none
  pairs := []

/-- The event of the pending correlation that this event meets. -/
def met? (state : State) (event : Event) : Option Event :=
  (state.engine.accepted? sum64 event).bind fun hash =>
    (state.engine.pendingCorrelations hash).bind fun _ => state.origins hash

def next (state : State) (event : Event) : State where
  engine := (state.engine.handle sum64 event).1
  seen := state.seen ++ [event]
  origins :=
    match state.engine.accepted? sum64 event with
    | some hash => if (state.engine.pendingCorrelations hash).isSome then state.origins
        else Function.update state.origins hash (some event)
    | none => state.origins
  pairs := state.pairs ++ (state.met? sum64 event).toList.map fun origin => (origin, event)

def step (state : State) (event : Event) : Option State := some (state.next sum64 event)

/-- The event is genuine, and what it meets is the other half of it. -/
def Apt (state : State) (event : Event) : Prop :=
  event.Genuine ∧ ∀ origin, state.met? sum64 event = some origin → origin.Matches event

end State

end Hash

/-! ## What the operations leave -/

namespace Engine

/-- No correlation is added. -/
structure Subsides (before after : Engine) : Prop where
  active : ∀ {sessionId correlation}, after.activeCorrelations sessionId = some correlation →
    before.activeCorrelations sessionId = some correlation
  pending : ∀ {hash correlation}, after.pendingCorrelations hash = some correlation →
    before.pendingCorrelations hash = some correlation

namespace Subsides

variable {first second third : Engine}

theorem refl (engine : Engine) : engine.Subsides engine := ⟨id, id⟩

theorem trans (hfirst : first.Subsides second) (hsecond : second.Subsides third) :
    first.Subsides third :=
  ⟨fun h => hfirst.active (hsecond.active h), fun h => hfirst.pending (hsecond.pending h)⟩

theorem foldl {K : Type*} {clean : Engine → K → Engine}
    (hclean : ∀ engine key, Subsides engine (clean engine key)) (engine : Engine) (keys : List K) :
    engine.Subsides (keys.foldl clean engine) :=
  foldlRecOn keys clean (refl engine) fun _ hbefore key _ => hbefore.trans (hclean _ key)

end Subsides

section

variable (engine : Engine) (pid : UInt32) (fd : Int32) (key hash sessionId : UInt64)
  (correlation : Correlation)

theorem subsides_deleteActiveCorrelation :
    engine.Subsides (engine.deleteActiveCorrelation sessionId) :=
  ⟨update_none_eq_some, id⟩

theorem subsides_deletePendingMessages : engine.Subsides (engine.deletePendingMessages sessionId) :=
  ⟨id, id⟩

theorem subsides_removePendingCorrelationsBySource :
    engine.Subsides (engine.removePendingCorrelationsBySource key) := by
  rw [removePendingCorrelationsBySource]
  split
  · exact ⟨id, fun hfound => (deleteAll_eq_some_iff.1 hfound).2⟩
  · exact .refl engine

theorem subsides_deletePending :
    engine.Subsides
      { engine with
        pendingCorrelations := update engine.pendingCorrelations hash none } :=
  ⟨id, update_none_eq_some⟩

theorem subsides_addSessionIdToPidMeta :
    engine.Subsides (engine.addSessionIdToPidMeta pid sessionId) := by
  rw [addSessionIdToPidMeta]
  split <;> exact ⟨id, id⟩

theorem subsides_addPidFdToPidMeta : engine.Subsides (engine.addPidFdToPidMeta pid fd) := by
  rw [addPidFdToPidMeta]
  split <;> exact ⟨id, id⟩

theorem subsides_removeSessionIdFromPidMeta :
    engine.Subsides (engine.removeSessionIdFromPidMeta pid sessionId) := by
  rw [removeSessionIdFromPidMeta]
  split <;> exact ⟨id, id⟩

theorem subsides_removePidFdFromPidMeta :
    engine.Subsides (engine.removePidFdFromPidMeta pid fd) := by
  rw [removePidFdFromPidMeta]
  split <;> exact ⟨id, id⟩

theorem subsides_addToPidMeta (source : CorrelationSource) :
    engine.Subsides (engine.addToPidMeta source correlation) := by
  cases source with
  | uprobe => exact engine.subsides_addSessionIdToPidMeta _ _
  | syscall => exact engine.subsides_addPidFdToPidMeta _ _

theorem subsides_cleanSession : engine.Subsides (engine.cleanSession sessionId) :=
  (engine.subsides_deleteActiveCorrelation sessionId).trans
    ((subsides_removePendingCorrelationsBySource _ sessionId).trans ⟨id, id⟩)

theorem subsides_cleanPidFd : engine.Subsides (engine.cleanPidFd key) :=
  (engine.subsides_removePendingCorrelationsBySource key).trans ⟨id, id⟩

theorem subsides_cleanAllFromPid : engine.Subsides (engine.cleanAllFromPid pid) := by
  rw [cleanAllFromPid]
  split
  · exact .refl engine
  · exact (Subsides.foldl subsides_cleanSession engine _).trans
      ((Subsides.foldl subsides_cleanPidFd _ _).trans ⟨id, id⟩)

theorem subsides_processSocketClosed : engine.Subsides (engine.processSocketClosed pid fd) := by
  rw [processSocketClosed]
  split
  · exact .refl engine
  next sessionId _ =>
    have hpidFd : engine.Subsides (engine.deletePidFdSessionId (generatePidFdKey pid fd)) :=
      ⟨id, id⟩
    have hactive := hpidFd.trans (subsides_deleteActiveCorrelation _ sessionId)
    have hsession := hactive.trans (subsides_removePendingCorrelationsBySource _ sessionId)
    have hsocket := hsession.trans
      (subsides_removePendingCorrelationsBySource _ (generatePidFdKey pid fd))
    have hmessages := hsocket.trans (subsides_deletePendingMessages _ sessionId)
    have hsockets := hmessages.trans (subsides_removePidFdFromPidMeta _ pid fd)
    have hsessions := hsockets.trans (subsides_removeSessionIdFromPidMeta _ pid sessionId)
    exact hsessions.trans ⟨id, id⟩

theorem subsides_expirePendingCorrelation :
    engine.Subsides (engine.expirePendingCorrelation hash correlation) := by
  have hpidFd : engine.Subsides (if correlation.pid ≠ 0 ∧ correlation.fd ≠ -1 then
        engine.removePendingCorrelationsBySource (generatePidFdKey correlation.pid correlation.fd)
      else engine) := by
    split
    · exact engine.subsides_removePendingCorrelationsBySource _
    · exact .refl engine
  have hsession : ∀ left : Engine, left.Subsides (if correlation.sessionId ≠ 0 then
        (left.removePendingCorrelationsBySource correlation.sessionId).deletePendingMessages
          correlation.sessionId
      else left) := by
    intro left
    split
    · exact (left.subsides_removePendingCorrelationsBySource _).trans
        (subsides_deletePendingMessages _ _)
    · exact .refl left
  exact hpidFd.trans ((hsession _).trans (subsides_deletePending _ hash))

theorem subsides_flush : engine.Subsides (engine.flush correlation).1 := by
  rw [flush]
  split
  · split <;> exact ⟨id, id⟩
  · exact .refl engine

theorem subsides_processPlaintextData (direction : Direction) (msg : List Byte) :
    engine.Subsides (engine.processPlaintextData sessionId direction msg).1 := by
  rw [processPlaintextData]
  split
  · split <;> exact ⟨id, id⟩
  · exact ⟨id, id⟩

/-- The pending correlations after an activation were there before. -/
theorem pending_activate {found : Correlation}
    (hfound : (engine.activate hash correlation).pendingCorrelations key = some found) :
    engine.pendingCorrelations key = some found := by
  have hremoved := update_none_eq_some hfound
  have hsocket := (subsides_removePendingCorrelationsBySource _ _).pending hremoved
  have hsession := (subsides_removePendingCorrelationsBySource _ _).pending hsocket
  exact hsession

theorem active_removePendingCorrelationsBySource :
    (engine.removePendingCorrelationsBySource key).activeCorrelations =
      engine.activeCorrelations := by
  rw [removePendingCorrelationsBySource]
  split <;> rfl

theorem active_activate : (engine.activate hash correlation).activeCorrelations =
    update engine.activeCorrelations correlation.sessionId (some correlation) := by
  rw [activate]
  simp only [active_removePendingCorrelationsBySource]

end

/-- An event that looks for its other half is processed as the half that it brings. -/
theorem handle_of_accepted (sum64 : List Byte → UInt64) {engine : Engine} {event : Event}
    {hash : UInt64} (haccepted : engine.accepted? sum64 event = some hash) :
    ∃ source correlation, event.half? = some (source, correlation) ∧
      engine.handle sum64 event = engine.processCorrelation source hash correlation := by
  cases event with
  | encrypted =>
    rw [accepted?, ite_none_left_eq_some, not_or] at haccepted
    obtain ⟨⟨hlength, hactive⟩, hhash⟩ := haccepted
    refine ⟨_, _, rfl, ?_⟩
    rw [handle, processEncryptedData, if_neg hlength, if_neg hactive, some.inj hhash]
  | correlate =>
    rw [accepted?, ite_none_left_eq_some, not_or] at haccepted
    obtain ⟨⟨hlength, hcorrelated⟩, hhash⟩ := haccepted
    refine ⟨_, _, rfl, ?_⟩
    rw [handle, processCorrelationData, if_neg hlength, if_neg hcorrelated, some.inj hhash]
  | _ => cases haccepted

/-- Any other event adds no correlation. -/
theorem subsides_of_not_accepted (sum64 : List Byte → UInt64) {engine : Engine} {event : Event}
    (haccepted : engine.accepted? sum64 event = none) :
    engine.Subsides (engine.handle sum64 event).1 := by
  cases event with
  | plaintext => exact subsides_processPlaintextData _ _ _ _
  | encrypted | correlate =>
    rw [accepted?] at haccepted
    simp only [handle, processEncryptedData, processCorrelationData]
    split
    · exact .refl engine
    next hlength =>
      split
      · exact .refl engine
      next hknown =>
        rw [if_neg (not_or.2 ⟨hlength, hknown⟩)] at haccepted
        cases haccepted
  | socketClosed => exact subsides_processSocketClosed _ _ _
  | processStopped => exact subsides_cleanAllFromPid _ _
  | expired =>
    rw [handle]
    split
    · exact subsides_expirePendingCorrelation _ _ _
    · exact .refl engine

end Engine

/-! ## The invariant -/

/-- A session and a socket of one process were seen with the same first bytes. -/
def Correlation.Witnessed (correlation : Correlation) (seen : List Event) : Prop :=
  ∃ direction msg other data,
    .encrypted correlation.pid correlation.sessionId direction msg ∈ seen ∧
    .correlate correlation.pid correlation.fd correlation.cookie other data ∈ seen ∧
    msg.take 16 = data.take 16

/-- The correlation joins a session and a socket. -/
structure Correlation.Sound (correlation : Correlation) (seen : List Event) : Prop where
  witnessed : correlation.Witnessed seen
  sessionId : correlation.sessionId ≠ 0
  fd : correlation.fd ≠ -1
  cookie : correlation.cookie ≠ 0

theorem Correlation.Sound.append {correlation : Correlation} {seen : List Event}
    (hsound : correlation.Sound seen) (more : List Event) : correlation.Sound (seen ++ more) := by
  obtain ⟨direction, msg, other, data, hencrypted, hcorrelate, hsame⟩ := hsound.witnessed
  exact { hsound with
    witnessed := ⟨direction, msg, other, data, mem_append_left _ hencrypted,
      mem_append_left _ hcorrelate, hsame⟩ }

/-- The two halves make a sound correlation. -/
theorem sound_converge {origin event : Event} {seen : List Event} {source other : CorrelationSource}
    {pending correlation : Correlation} (hmatches : origin.Matches event)
    (horigin : origin.half? = some (other, pending)) (hpast : origin.Genuine) (hmem : origin ∈ seen)
    (hevent : event.half? = some (source, correlation)) (hgenuine : event.Genuine) :
    (converge source pending correlation).Sound (seen ++ [event]) := by
  have hseen := mem_append_left [event] hmem
  have hlast : event ∈ seen ++ [event] := mem_append_right _ (mem_singleton_self _)
  cases origin with
  | encrypted pid sessionId direction msg =>
    cases event with
    | correlate otherPid fd cookie otherDirection data =>
      obtain ⟨rfl, hsame⟩ := hmatches
      cases horigin
      cases hevent
      exact ⟨⟨direction, msg, otherDirection, data, hseen, hlast, hsame⟩, hpast, hgenuine.1,
        hgenuine.2⟩
    | _ => exact hmatches.elim
  | correlate pid fd cookie direction msg =>
    cases event with
    | encrypted otherPid sessionId otherDirection data =>
      obtain ⟨rfl, hsame⟩ := hmatches
      cases horigin
      cases hevent
      exact ⟨⟨otherDirection, data, direction, msg, hlast, hseen, hsame.symm⟩, hgenuine,
        hpast.1, hpast.2⟩
    | _ => exact hmatches.elim
  | _ => exact hmatches.elim

namespace State

variable (sum64 : List Byte → UInt64) {state : State} {event : Event}

/-- Each pending correlation is the half that a past event brought; each active one is sound. -/
structure Correlated (state : State) : Prop where
  pending : ∀ {hash correlation}, state.engine.pendingCorrelations hash = some correlation →
    ∃ origin source, state.origins hash = some origin ∧ origin ∈ state.seen ∧ origin.Genuine ∧
      origin.half? = some (source, correlation)
  active : ∀ {sessionId correlation}, state.engine.activeCorrelations sessionId = some correlation →
      correlation.sessionId = sessionId ∧ correlation.Sound state.seen
  paired : ∀ pair ∈ state.pairs, pair.1.source? ≠ pair.2.source?

theorem correlated_initial (streamProtocols : L7Detect.Protocol → Bool) :
    (initial streamProtocols).Correlated :=
  ⟨nofun, nofun, nofun⟩

namespace Correlated

variable (hcorrelated : state.Correlated)

include hcorrelated

theorem paired_next (hapt : state.Apt sum64 event) :
    ∀ pair ∈ (state.next sum64 event).pairs, pair.1.source? ≠ pair.2.source? := by
  refine forall_mem_append.2 ⟨hcorrelated.paired, forall_mem_map.2 fun origin horigin => ?_⟩
  exact Event.source?_ne_of_matches (hapt.2 origin (mem_toList.1 horigin))

/-- An event that is not processed as a half. -/
theorem next_of_not_accepted (haccepted : state.engine.accepted? sum64 event = none)
    (hapt : state.Apt sum64 event) : (state.next sum64 event).Correlated where
  pending := by
    intro hash correlation hpending
    have hsubsides := subsides_of_not_accepted sum64 haccepted
    obtain ⟨origin, source, horigin, hmem, hgenuine, hhalf⟩ :=
      hcorrelated.pending (hsubsides.pending hpending)
    refine ⟨origin, source, ?_, mem_append_left _ hmem, hgenuine, hhalf⟩
    simp only [next, haccepted]
    exact horigin
  active := by
    intro sessionId correlation hactive
    have hsubsides := subsides_of_not_accepted sum64 haccepted
    obtain ⟨hsession, hsound⟩ := hcorrelated.active (hsubsides.active hactive)
    exact ⟨hsession, hsound.append [event]⟩
  paired := hcorrelated.paired_next sum64 hapt

/-- The event waits for its other half. -/
theorem next_of_awaiting {hash : UInt64}
    (haccepted : state.engine.accepted? sum64 event = some hash)
    (hnone : state.engine.pendingCorrelations hash = none) (hapt : state.Apt sum64 event) :
    (state.next sum64 event).Correlated := by
  obtain ⟨source, correlation, hhalf, hhandle⟩ := handle_of_accepted sum64 haccepted
  have hengine : (state.next sum64 event).engine =
      (state.engine.await source hash correlation).addToPidMeta source correlation := by
    simp only [next, hhandle, processCorrelation, hnone]
  have horigins : (state.next sum64 event).origins = update state.origins hash (some event) := by
    simp only [next, haccepted, hnone, isSome_none, if_neg Bool.false_ne_true]
  have hsubsides := (state.engine.await source hash correlation).subsides_addToPidMeta
    correlation source
  refine ⟨?_, ?_, hcorrelated.paired_next sum64 hapt⟩
  · intro key found hfound
    rw [hengine] at hfound
    rw [horigins]
    rcases update_some_eq_some_iff.1 (hsubsides.pending hfound) with ⟨rfl, rfl⟩ | ⟨hkey, hold⟩
    · exact ⟨event, source, update_self _ _ _,
        mem_append_right _ (mem_singleton_self _), hapt.1, hhalf⟩
    · obtain ⟨origin, other, horigin, hmem, hgenuine, hother⟩ := hcorrelated.pending hold
      exact ⟨origin, other, (update_of_ne hkey _ _).trans horigin,
        mem_append_left _ hmem, hgenuine, hother⟩
  · intro sessionId found hfound
    rw [hengine] at hfound
    obtain ⟨hsession, hsound⟩ := hcorrelated.active (hsubsides.active hfound)
    exact ⟨hsession, hsound.append [event]⟩

/-- The event meets a pending correlation. -/
theorem next_of_met {hash : UInt64} {pending : Correlation}
    (haccepted : state.engine.accepted? sum64 event = some hash)
    (hpending : state.engine.pendingCorrelations hash = some pending)
    (hapt : state.Apt sum64 event) : (state.next sum64 event).Correlated := by
  obtain ⟨source, correlation, hhalf, hhandle⟩ := handle_of_accepted sum64 haccepted
  obtain ⟨origin, _, horigin, hmem, hgenuine, hother⟩ := hcorrelated.pending hpending
  have hmet : state.met? sum64 event = some origin := by
    simp [met?, haccepted, hpending, horigin]
  have hsound := sound_converge (hapt.2 origin hmet) hother hgenuine hmem hhalf hapt.1
  generalize hconverged : converge source pending correlation = converged at hsound
  have hengine : (state.next sum64 event).engine =
      ((state.engine.activate hash converged).flush converged).1.addToPidMeta source converged := by
    simp only [next, hhandle, processCorrelation, hpending, hconverged]
  have horigins : (state.next sum64 event).origins = state.origins := by
    simp [next, haccepted, hpending]
  have hsubsides := (subsides_flush (state.engine.activate hash converged) converged).trans
    (subsides_addToPidMeta _ converged source)
  refine ⟨?_, ?_, hcorrelated.paired_next sum64 hapt⟩
  · intro key found hfound
    rw [hengine] at hfound
    rw [horigins]
    obtain ⟨past, half, hpast, hmem, hgenuine, hhalf⟩ :=
      hcorrelated.pending (pending_activate _ _ _ _ (hsubsides.pending hfound))
    exact ⟨past, half, hpast, mem_append_left _ hmem, hgenuine, hhalf⟩
  · intro sessionId found hfound
    rw [hengine] at hfound
    have hactive := hsubsides.active hfound
    rw [active_activate] at hactive
    rcases update_some_eq_some hactive with ⟨rfl, rfl⟩ | hold
    · exact ⟨rfl, hsound⟩
    · obtain ⟨hsession, hold⟩ := hcorrelated.active hold
      exact ⟨hsession, hold.append [event]⟩

theorem next (hapt : state.Apt sum64 event) : (state.next sum64 event).Correlated := by
  cases haccepted : state.engine.accepted? sum64 event with
  | none => exact hcorrelated.next_of_not_accepted sum64 haccepted hapt
  | some hash =>
    cases hpending : state.engine.pendingCorrelations hash with
    | none => exact hcorrelated.next_of_awaiting sum64 haccepted hpending hapt
    | some => exact hcorrelated.next_of_met sum64 haccepted hpending hapt

end Correlated

theorem seen_run {events : List Event} {before : State}
    (hrun : runActions (step sum64) before events = some state) :
    state.seen = before.seen ++ events := by
  induction events generalizing before with
  | nil =>
    cases hrun
    exact (append_nil _).symm
  | cons event events ih =>
    obtain ⟨_, hnext, hrest⟩ := runActions.cons_eq_some_iff.1 hrun
    cases hnext
    rw [ih hrest, State.next, append_assoc, singleton_append]

/-- As long as each half meets a true other half, every active correlation is sound. -/
theorem correlations_sound {streamProtocols : L7Detect.Protocol → Bool} {events : List Event}
    (hrun : runActions (step sum64) (initial streamProtocols) events = some state)
    (hapt : runActions.Throughout (step sum64) (Apt sum64) (initial streamProtocols) events) :
    (∀ sessionId correlation, state.engine.activeCorrelations sessionId = some correlation →
      correlation.sessionId = sessionId ∧ correlation.Sound events) ∧
      ∀ pair ∈ state.pairs, pair.1.source? ≠ pair.2.source? := by
  have hcorrelated : state.Correlated := by
    refine runActions.invariant_of_throughout Correlated ?_ hrun hapt
      (correlated_initial streamProtocols)
    intro before event after hevent hnext hbefore
    cases hnext
    exact hbefore.next sum64 hevent
  have hseen : state.seen = events := seen_run sum64 hrun
  exact ⟨fun _ _ hactive => hseen ▸ hcorrelated.active hactive, hcorrelated.paired⟩

/-- Sixteen bytes of a record with application data. -/
def record : List Byte := 0x17 :: 0x03 :: 0x03 :: List.replicate 13 0xa5

/-- A hash for the runs below. -/
def firstByte (bytes : List Byte) : UInt64 := (bytes.headD 0).toUInt64

theorem correlations_sound_oneOfEach :
    ∃ state, runActions (step firstByte) (initial fun _ => true)
        [.correlate 1 9 77 .egress record, .encrypted 1 5 .egress record] = some state ∧
      state.engine.activeCorrelations 5 = some ⟨1, 5, 77, 9⟩ ∧
      Correlation.Sound ⟨1, 5, 77, 9⟩
        [.correlate 1 9 77 .egress record, .encrypted 1 5 .egress record] := by
  have hapt : runActions.Throughout (step firstByte) (Apt firstByte) (initial fun _ => true)
      [.correlate 1 9 77 .egress record, .encrypted 1 5 .egress record] := by
    refine .cons ⟨(by decide : (9 : Int32) ≠ -1 ∧ (77 : UInt64) ≠ 0), nofun⟩ rfl <|
      .cons ⟨(by decide : (5 : UInt64) ≠ 0), ?_⟩ rfl trivial
    intro origin hmet
    have horigin : (Event.correlate 1 9 77 .egress record) = origin := some.inj hmet
    rw [← horigin]
    exact ⟨rfl, rfl⟩
  exact ⟨_, rfl, rfl, ((correlations_sound firstByte rfl hapt).1 5 _ rfl).2⟩

/-- A session that sends the same bytes twice is correlated with no socket at all. -/
theorem correlation_with_itself :
    ∃ state, runActions (step firstByte) (initial fun _ => true)
        [.encrypted 1 5 .egress record, .encrypted 1 5 .egress record] = some state ∧
      state.engine.activeCorrelations 5 = some ⟨1, 5, 0, -1⟩ ∧
      state.pairs = [(.encrypted 1 5 .egress record, .encrypted 1 5 .egress record)] :=
  ⟨_, rfl, rfl, rfl⟩

end State

end Qtap.JavaSsl
