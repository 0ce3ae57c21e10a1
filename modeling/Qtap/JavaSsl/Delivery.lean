import Qtap.JavaSsl.Correlation

/-!
# Delivery of the plaintext of a session

Plaintext that comes before the session is correlated waits, and is written when the
correlation is found, after an event with its protocol; what comes later is written at once.
A session whose protocol is not among those that are streamed is ignored.
-/

namespace Qtap.JavaSsl

open PendingMessage Function List Qtap.Core Qtap.Connection

namespace Event

/-- Plaintext, ciphertext or a system call. -/
def IsTraffic : Event → Prop
  | plaintext .. | encrypted .. | correlate .. => True
  | _ => False

/-- The plaintext of the session. -/
def message? (sessionId : UInt64) : Event → Option PendingMessage
  | plaintext _ other direction msg => if other = sessionId then some ⟨direction, msg⟩ else none
  | _ => none

end Event

/-- The plaintext events of the session, as they came. -/
def messages (sessionId : UInt64) (events : List Event) : List PendingMessage :=
  events.filterMap (Event.message? sessionId)

/-- What was written for the session. -/
def outputs (sessionId : UInt64) (writes : List Write) : List Output :=
  (writes.filter fun write => write.sessionId = sessionId).map Write.output

/-- The data event for a plaintext event. -/
def PendingMessage.output (cookie : UInt64) (message : PendingMessage) : Output :=
  .data cookie message.direction message.msg

theorem messages_append (sessionId : UInt64) (first second : List Event) :
    messages sessionId (first ++ second) = messages sessionId first ++ messages sessionId second :=
  filterMap_append

theorem messages_cons (sessionId : UInt64) (event : Event) (events : List Event) :
    messages sessionId (event :: events) =
      (event.message? sessionId).toList ++ messages sessionId events := by
  rw [messages, filterMap_cons]
  cases event.message? sessionId <;> rfl

theorem outputs_append (sessionId : UInt64) (first second : List Write) :
    outputs sessionId (first ++ second) = outputs sessionId first ++ outputs sessionId second := by
  rw [outputs, filter_append, map_append]
  rfl

variable {sessionId : UInt64}

theorem outputs_eq_nil {writes : List Write}
    (hother : ∀ write ∈ writes, write.sessionId ≠ sessionId) : outputs sessionId writes = [] := by
  rw [outputs, map_eq_nil_iff, filter_eq_nil_iff]
  intro write hwrite hsession
  exact hother write hwrite (of_decide_eq_true hsession)

theorem outputs_eq_map {writes : List Write}
    (hsame : ∀ write ∈ writes, write.sessionId = sessionId) :
    outputs sessionId writes = writes.map Write.output := by
  rw [outputs, filter_eq_self.2]
  exact fun write hwrite => decide_eq_true (hsame write hwrite)

namespace Engine

/-- The events one after another, with all that is written. -/
def run (sum64 : List Byte → UInt64) (engine : Engine) : List Event → Engine × List Write
  | [] => (engine, [])
  | event :: events =>
    let rest := run sum64 (engine.handle sum64 event).1 events
    (rest.1, (engine.handle sum64 event).2 ++ rest.2)

theorem run_append (sum64 : List Byte → UInt64) (engine : Engine) (first second : List Event) :
    engine.run sum64 (first ++ second) = ((run sum64 (engine.run sum64 first).1 second).1,
        (engine.run sum64 first).2 ++ (run sum64 (engine.run sum64 first).1 second).2) := by
  induction first generalizing engine with
  | nil => rfl
  | cons event first ih =>
    rw [cons_append, run, ih, run, append_assoc]

/-! ## What a correlation leaves -/

/-- Each pending correlation of a session is listed under it. -/
def Listed (engine : Engine) : Prop :=
  ∀ hash pending, engine.pendingCorrelations hash = some pending → pending.sessionId ≠ 0 →
    ∃ hashes, engine.pendingCorrelationsBySource pending.sessionId = some hashes ∧ hash ∈ hashes

/-- The pending correlations of a session are listed under it and wait for its correlation; a
session that is ignored has been correlated. -/
structure Tidy (engine : Engine) : Prop where
  listed : engine.Listed
  waiting : ∀ hash pending, engine.pendingCorrelations hash = some pending →
    pending.sessionId ≠ 0 → engine.activeCorrelations pending.sessionId = none
  ignored : ∀ {sessionId}, sessionId ∈ engine.sessionIgnoreMap →
    engine.activeCorrelations sessionId ≠ none

theorem tidy_new (streamProtocols : L7Detect.Protocol → Bool) : (new streamProtocols).Tidy :=
  ⟨nofun, nofun, fun hmem => absurd hmem (Finset.notMem_empty _)⟩

section Removal

variable (engine : Engine) (key : UInt64)

/-- Removal changes the pending correlations and their list. -/
theorem removePendingCorrelationsBySource_eq :
    engine.removePendingCorrelationsBySource key =
      { engine with
        pendingCorrelations :=
          deleteAll engine.pendingCorrelations ((engine.pendingCorrelationsBySource key).getD [])
        pendingCorrelationsBySource :=
          update engine.pendingCorrelationsBySource key none } := by
  rw [removePendingCorrelationsBySource]
  split
  next hlist => rw [hlist, Option.getD_some]
  next hlist =>
    rw [hlist, Option.getD_none, ← hlist, update_eq_self]
    rfl

variable {engine}

/-- Removal by a key takes all that is listed under it. -/
theorem Listed.remove (hlisted : engine.Listed) :
    (engine.removePendingCorrelationsBySource key).Listed ∧
      ∀ hash pending, (engine.removePendingCorrelationsBySource key).pendingCorrelations hash =
        some pending → pending.sessionId ≠ 0 → pending.sessionId ≠ key := by
  rw [removePendingCorrelationsBySource_eq]
  have hkey : ∀ hash pending, deleteAll engine.pendingCorrelations
      ((engine.pendingCorrelationsBySource key).getD []) hash = some pending →
      pending.sessionId ≠ 0 → pending.sessionId ≠ key := by
    rintro hash pending hpending hsession rfl
    obtain ⟨hleft, hpending⟩ := deleteAll_eq_some_iff.1 hpending
    obtain ⟨hashes, hhashes, hmem⟩ := hlisted hash pending hpending hsession
    rw [hhashes] at hleft
    exact hleft hmem
  refine ⟨?_, hkey⟩
  intro hash pending hpending hsession
  obtain ⟨hashes, hhashes, hmem⟩ :=
    hlisted hash pending (deleteAll_eq_some_iff.1 hpending).2 hsession
  exact ⟨hashes, (update_of_ne (hkey hash pending hpending hsession) _ _).trans hhashes, hmem⟩

end Removal

theorem mem_putKey_of_ne {K : Type*} [DecidableEq K] {keys : Finset K} {key other : K}
    (hother : other ≠ key) : other ∈ putKey keys key ↔ other ∈ keys := by
  rw [putKey]
  split
  · rw [Finset.mem_insert, or_iff_right hother]
  · rfl

section Activation

variable (engine : Engine) (hash : UInt64) (correlation : Correlation)

theorem activate_frame :
    (engine.activate hash correlation).pendingMessages = engine.pendingMessages ∧
      (engine.activate hash correlation).sessionIgnoreMap = engine.sessionIgnoreMap ∧
      (engine.activate hash correlation).streamProtocols = engine.streamProtocols := by
  simp only [activate, removePendingCorrelationsBySource_eq, and_self]

/-- Only the bookkeeping by process changes. -/
theorem addToPidMeta_eq {source : CorrelationSource} :
    ∃ pidMeta, engine.addToPidMeta source correlation = { engine with pidMeta := pidMeta } := by
  cases source with
  | uprobe =>
    rw [addToPidMeta, addSessionIdToPidMeta]
    split <;> exact ⟨_, rfl⟩
  | syscall =>
    rw [addToPidMeta, addPidFdToPidMeta]
    split <;> exact ⟨_, rfl⟩

/-- A flush changes the messages that wait and the ignored sessions. -/
theorem flush_eq : ∃ messages ignored, (engine.flush correlation).1 =
    { engine with pendingMessages := messages, sessionIgnoreMap := ignored } := by
  rw [flush]
  split
  · split <;> exact ⟨_, _, rfl⟩
  · exact ⟨_, _, rfl⟩

/-- The correlation is active, and what waited for it is flushed. -/
def pair (source : CorrelationSource) : Engine × List Write :=
  (((engine.activate hash correlation).flush correlation).1.addToPidMeta source correlation,
    ((engine.activate hash correlation).flush correlation).2)

theorem flush_pendingMessages_of_ne (hsession : sessionId ≠ correlation.sessionId) :
    (engine.flush correlation).1.pendingMessages sessionId = engine.pendingMessages sessionId := by
  rw [flush]
  split
  · split <;> exact update_of_ne hsession _ _
  · rfl

theorem mem_flush_sessionIgnoreMap_of_ne (hsession : sessionId ≠ correlation.sessionId) :
    sessionId ∈ (engine.flush correlation).1.sessionIgnoreMap ↔
      sessionId ∈ engine.sessionIgnoreMap := by
  rw [flush]
  split
  · split
    · rfl
    · exact mem_putKey_of_ne hsession
  · rfl

/-- What is flushed belongs to the session. -/
theorem flush_sessionId {write : Write} (hwrite : write ∈ (engine.flush correlation).2) :
    write.sessionId = correlation.sessionId := by
  rw [flush] at hwrite
  split at hwrite
  · split at hwrite
    · rcases mem_cons.1 hwrite with rfl | hwrite
      · rfl
      · obtain ⟨_, _, rfl⟩ := mem_map.1 hwrite
        rfl
    · cases hwrite
  · cases hwrite

section

variable (source : CorrelationSource)

theorem pair_fst : ∃ pidMeta, (engine.pair hash correlation source).1 =
    { ((engine.activate hash correlation).flush correlation).1 with pidMeta := pidMeta } :=
  addToPidMeta_eq _ correlation

theorem pair_activeCorrelations : (engine.pair hash correlation source).1.activeCorrelations =
    update engine.activeCorrelations correlation.sessionId (some correlation) := by
  obtain ⟨_, hmeta⟩ := engine.pair_fst hash correlation source
  obtain ⟨_, _, hflush⟩ := (engine.activate hash correlation).flush_eq correlation
  rw [hmeta, hflush]
  exact engine.active_activate hash correlation

end

end Activation

variable {correlation : Correlation} {engine : Engine}

namespace Tidy

variable {engine : Engine} (htidy : engine.Tidy)

include htidy

theorem activate (hash : UInt64) (correlation : Correlation) :
    (engine.activate hash correlation).Tidy := by
  have hstored : Listed { engine with
        uprobeCorrelatedMap := putKey engine.uprobeCorrelatedMap correlation.sessionId
        syscallCorrelatedMap := putKey engine.syscallCorrelatedMap (correlation.pid, correlation.fd)
        activeCorrelations :=
          update engine.activeCorrelations correlation.sessionId (some correlation)
        pidFdSessionIdMap :=
          update engine.pidFdSessionIdMap
            (generatePidFdKey correlation.pid correlation.fd) (some correlation.sessionId) } :=
    htidy.listed
  obtain ⟨hlisted, hother⟩ := hstored.remove correlation.sessionId
  have hsocket := (hlisted.remove (generatePidFdKey correlation.pid correlation.fd)).1
  -- no pending correlation of the session is left
  have hremoved : ∀ other pending,
      (engine.activate hash correlation).pendingCorrelations other = some pending →
      pending.sessionId ≠ 0 → pending.sessionId ≠ correlation.sessionId := by
    intro other pending hpending
    exact hother other pending
      ((subsides_removePendingCorrelationsBySource _ _).pending (update_none_eq_some hpending))
  refine ⟨?_, ?_, ?_⟩
  · exact fun other pending hpending => hsocket other pending (update_none_eq_some hpending)
  · intro other pending hpending hsession
    rw [active_activate, update_of_ne (hremoved other pending hpending hsession)]
    exact htidy.waiting other pending (pending_activate _ _ _ _ hpending) hsession
  · intro sessionId hmem
    rw [(activate_frame _ _ _).2.1] at hmem
    rw [active_activate]
    rcases eq_or_ne sessionId correlation.sessionId with rfl | hne
    · rw [update_self]
      nofun
    · rw [update_of_ne hne]
      exact htidy.ignored hmem

theorem flush (hactive : engine.activeCorrelations correlation.sessionId ≠ none) :
    (engine.flush correlation).1.Tidy := by
  have hignored : ∀ {sessionId}, sessionId ∈ (engine.flush correlation).1.sessionIgnoreMap →
      engine.activeCorrelations sessionId ≠ none := by
    intro sessionId hmem
    rcases eq_or_ne sessionId correlation.sessionId with rfl | hne
    · exact hactive
    · exact htidy.ignored ((mem_flush_sessionIgnoreMap_of_ne _ _ hne).1 hmem)
  obtain ⟨_, _, hflush⟩ := engine.flush_eq correlation
  rw [hflush] at hignored ⊢
  exact ⟨htidy.listed, htidy.waiting, hignored⟩

theorem addToPidMeta (source : CorrelationSource) (correlation : Correlation) :
    (engine.addToPidMeta source correlation).Tidy := by
  obtain ⟨_, hmeta⟩ := addToPidMeta_eq engine correlation
  rw [hmeta]
  exact ⟨htidy.listed, htidy.waiting, htidy.ignored⟩

theorem await {source : CorrelationSource} {hash : UInt64}
    (hsource : correlation.sessionId ≠ 0 → source = .uprobe) (hactive : correlation.sessionId ≠ 0 →
      engine.activeCorrelations correlation.sessionId = none) :
    (engine.await source hash correlation).Tidy := by
  refine ⟨?_, ?_, htidy.ignored⟩
  · intro other pending hpending hsession
    rcases update_some_eq_some hpending with ⟨rfl, rfl⟩ | hold
    · obtain rfl := hsource hsession
      exact ⟨_, update_self _ _ _, mem_append_right _ (mem_singleton_self _)⟩
    · obtain ⟨hashes, hhashes, hmem⟩ := htidy.listed other pending hold hsession
      -- the list may be the one that grows
      simp only [Engine.await]
      rcases eq_or_ne pending.sessionId (sourceKey source correlation) with hkey | hne
      · rw [← hkey, hhashes]
        exact ⟨_, update_self _ _ _, mem_append_left _ hmem⟩
      · exact ⟨hashes, (update_of_ne hne _ _).trans hhashes, hmem⟩
  · intro other pending hpending hsession
    rcases update_some_eq_some hpending with ⟨rfl, rfl⟩ | hold
    · exact hactive hsession
    · exact htidy.waiting other pending hold hsession

end Tidy

/-! ## What one event does -/

/-- What the event of a half can do: nothing, wait for its other half, or be paired with one.
A session that is paired was not correlated before. -/
inductive Effect (engine : Engine) : Engine × List Write → Prop where
  | ignored : Effect engine (engine, [])
  | awaiting (source : CorrelationSource) (hash : UInt64) (correlation : Correlation)
      (hsource : correlation.sessionId ≠ 0 → source = .uprobe)
      (hactive : correlation.sessionId ≠ 0 →
        engine.activeCorrelations correlation.sessionId = none) :
      Effect engine ((engine.await source hash correlation).addToPidMeta source correlation, [])
  | pairing (source : CorrelationSource) (hash : UInt64) (correlation : Correlation)
      (hactive : correlation.sessionId ≠ 0 →
        engine.activeCorrelations correlation.sessionId = none) :
      Effect engine
        (((engine.activate hash correlation).flush correlation).1.addToPidMeta source correlation,
          ((engine.activate hash correlation).flush correlation).2)

theorem Tidy.effect_processCorrelation (htidy : engine.Tidy) {source : CorrelationSource}
    (hash : UInt64) (hsource : correlation.sessionId ≠ 0 → source = .uprobe)
    (hactive : correlation.sessionId ≠ 0 →
      engine.activeCorrelations correlation.sessionId = none) :
    engine.Effect (engine.processCorrelation source hash correlation) := by
  rw [processCorrelation]
  split
  next pending hpending =>
    apply Effect.pairing
    cases source with
    | uprobe => exact hactive
    | syscall => exact htidy.waiting hash pending hpending
  next => exact .awaiting source hash correlation hsource hactive

variable (sum64 : List Byte → UInt64)

/-- An event of traffic is plaintext or has the effect of a half. -/
theorem Tidy.effect (htidy : engine.Tidy) {event : Event} (htraffic : event.IsTraffic) :
    (∃ pid sessionId direction msg, event = .plaintext pid sessionId direction msg) ∨
      (∀ sessionId, event.message? sessionId = none) ∧
        engine.Effect (engine.handle sum64 event) := by
  cases event with
  | plaintext pid sessionId direction msg => exact .inl ⟨pid, sessionId, direction, msg, rfl⟩
  | encrypted =>
    refine .inr ⟨fun _ => rfl, ?_⟩
    rw [handle, processEncryptedData]
    split
    · exact .ignored
    · split
      · exact .ignored
      next hactive =>
        exact htidy.effect_processCorrelation _ (fun _ => rfl) fun _ =>
          Option.not_isSome_iff_eq_none.1 hactive
  | correlate =>
    refine .inr ⟨fun _ => rfl, ?_⟩
    rw [handle, processCorrelationData]
    split
    · exact .ignored
    · split
      · exact .ignored
      · exact htidy.effect_processCorrelation _ (absurd rfl) (absurd rfl)
  | _ => exact htraffic.elim

/-- Nothing happens to the session. -/
structure Aside (engine : Engine) (result : Engine × List Write) (sessionId : UInt64) :
    Prop where
  active : result.1.activeCorrelations sessionId = engine.activeCorrelations sessionId
  messages : result.1.pendingMessages sessionId = engine.pendingMessages sessionId
  ignored : sessionId ∈ result.1.sessionIgnoreMap ↔ sessionId ∈ engine.sessionIgnoreMap
  silent : outputs sessionId result.2 = []

namespace Effect

variable {engine : Engine} {result : Engine × List Write} {sessionId : UInt64}
  {correlation : Correlation} (heffect : engine.Effect result)

include heffect

theorem tidy (htidy : engine.Tidy) : result.1.Tidy := by
  cases heffect with
  | ignored => exact htidy
  | awaiting source hash half hsource hactive =>
    exact (htidy.await hsource hactive).addToPidMeta source half
  | pairing source hash half =>
    refine ((htidy.activate hash half).flush ?_).addToPidMeta source half
    rw [active_activate, update_self]
    nofun

theorem streamProtocols : result.1.streamProtocols = engine.streamProtocols := by
  cases heffect with
  | ignored => rfl
  | awaiting source hash half =>
    obtain ⟨pidMeta, hmeta⟩ := addToPidMeta_eq (engine.await source hash half) half
    rw [hmeta]
    rfl
  | pairing source hash half =>
    obtain ⟨_, hmeta⟩ := engine.pair_fst hash half source
    obtain ⟨_, _, hflush⟩ := (engine.activate hash half).flush_eq half
    change (engine.pair hash half source).1.streamProtocols = _
    rw [hmeta, hflush]
    exact (engine.activate_frame hash half).2.2

/-- The session is the one that is paired, or nothing happens to it. -/
theorem session (hsession : sessionId ≠ 0) :
    (∃ source hash half, half.sessionId = sessionId ∧
      engine.activeCorrelations sessionId = none ∧ result = engine.pair hash half source) ∨
      Aside engine result sessionId := by
  cases heffect with
  | ignored => exact .inr ⟨rfl, rfl, Iff.rfl, rfl⟩
  | awaiting source hash half =>
    obtain ⟨pidMeta, hmeta⟩ := addToPidMeta_eq (engine.await source hash half) half
    rw [hmeta]
    exact .inr ⟨rfl, rfl, Iff.rfl, rfl⟩
  | pairing source hash half hactive =>
    rcases eq_or_ne sessionId half.sessionId with rfl | hne
    · exact .inl ⟨source, hash, half, rfl, hactive hsession, rfl⟩
    · obtain ⟨_, hmeta⟩ := engine.pair_fst hash half source
      change _ ∨ Aside engine (engine.pair hash half source) sessionId
      refine .inr ⟨?_, ?_, ?_, ?_⟩
      · rw [pair_activeCorrelations, update_of_ne hne]
      · simp only [hmeta, flush_pendingMessages_of_ne _ _ hne, activate_frame]
      · simp only [hmeta, mem_flush_sessionIgnoreMap_of_ne _ _ hne, activate_frame]
      · exact outputs_eq_nil fun write hwrite =>
          (flush_sessionId _ _ hwrite).trans_ne hne.symm

end Effect

section Plaintext

variable {engine : Engine} {sessionId other : UInt64} {correlation : Correlation}
  (direction : Direction) (msg : List Byte)

theorem plaintext_tidy (htidy : engine.Tidy) :
    (engine.processPlaintextData sessionId direction msg).1.Tidy := by
  rw [processPlaintextData]
  split
  · split <;> exact htidy
  · exact ⟨htidy.listed, htidy.waiting, htidy.ignored⟩

theorem plaintext_aside (hother : sessionId ≠ other) :
    Aside engine (engine.processPlaintextData other direction msg) sessionId := by
  rw [processPlaintextData]
  split
  · split
    · exact ⟨rfl, rfl, Iff.rfl, rfl⟩
    · exact ⟨rfl, rfl, Iff.rfl, outputs_eq_nil (forall_mem_singleton.2 hother.symm)⟩
  · exact ⟨rfl, update_of_ne hother _ _, Iff.rfl, rfl⟩

end Plaintext

namespace Tidy

variable {engine : Engine} (htidy : engine.Tidy) {event : Event} {sessionId : UInt64}
  {correlation : Correlation}

include htidy

section

variable (htraffic : event.IsTraffic)

include htraffic

theorem handle : (engine.handle sum64 event).1.Tidy := by
  rcases htidy.effect sum64 htraffic with ⟨_, _, direction, msg, rfl⟩ | ⟨_, heffect⟩
  · exact plaintext_tidy direction msg htidy
  · exact heffect.tidy htidy

/-- The event passes the session by, has plaintext of it or correlates it. -/
theorem session_cases (hsession : sessionId ≠ 0) :
    event.message? sessionId = none ∧ Aside engine (engine.handle sum64 event) sessionId ∨
      (∃ direction msg, event.message? sessionId = some ⟨direction, msg⟩ ∧
        engine.handle sum64 event = engine.processPlaintextData sessionId direction msg) ∨
      event.message? sessionId = none ∧ engine.activeCorrelations sessionId = none ∧
        ∃ hash half source, engine.handle sum64 event = engine.pair hash half source ∧
          half.sessionId = sessionId := by
  rcases htidy.effect sum64 htraffic with ⟨_, other, direction, msg, rfl⟩ | ⟨hmessage, heffect⟩
  · rcases eq_or_ne other sessionId with rfl | hother
    · exact .inr (.inl ⟨direction, msg, if_pos rfl, rfl⟩)
    · exact .inl ⟨if_neg hother, plaintext_aside direction msg hother.symm⟩
  · rcases heffect.session hsession with ⟨source, hash, half, hhalf, hnone, hresult⟩ | haside
    · exact .inr (.inr ⟨hmessage sessionId, hnone, hash, half, source, hresult, hhalf⟩)
    · exact .inl ⟨hmessage sessionId, haside⟩

/-- A session that is correlated stays so, and its plaintext is written at once. -/
theorem handle_of_active (hsession : sessionId ≠ 0)
    (hactive : engine.activeCorrelations sessionId = some correlation) :
    (engine.handle sum64 event).1.activeCorrelations sessionId = some correlation ∧
      (sessionId ∈ (engine.handle sum64 event).1.sessionIgnoreMap ↔
        sessionId ∈ engine.sessionIgnoreMap) ∧
      outputs sessionId (engine.handle sum64 event).2 =
        if sessionId ∈ engine.sessionIgnoreMap then []
        else (event.message? sessionId).toList.map (output correlation.cookie) := by
  rcases htidy.session_cases sum64 htraffic hsession with
    ⟨hmessage, haside⟩ | ⟨direction, msg, hmessage, hresult⟩ | ⟨_, hnone, _⟩
  · rw [hmessage, haside.active, haside.silent]
    exact ⟨hactive, haside.ignored, (ite_self _).symm⟩
  · rw [hmessage, hresult, processPlaintextData]
    simp only [hactive]
    split
    next => exact ⟨hactive, Iff.rfl, rfl⟩
    next =>
      refine ⟨hactive, Iff.rfl, ?_⟩
      rw [outputs_eq_map]
      · rfl
      · exact fun write hwrite => congrArg Write.sessionId (mem_singleton.1 hwrite)
  · cases hactive.symm.trans hnone

/-- Before the correlation the plaintext of the session waits. -/
theorem handle_of_waiting (hsession : sessionId ≠ 0)
    (hafter : (engine.handle sum64 event).1.activeCorrelations sessionId = none) :
    engine.activeCorrelations sessionId = none ∧
      ((engine.handle sum64 event).1.pendingMessages sessionId).getD [] =
        (engine.pendingMessages sessionId).getD [] ++ (event.message? sessionId).toList ∧
      outputs sessionId (engine.handle sum64 event).2 = [] := by
  have hactive : engine.activeCorrelations sessionId = none := by
    cases hfound : engine.activeCorrelations sessionId with
    | none => rfl
    | some =>
      cases hafter.symm.trans (htidy.handle_of_active sum64 htraffic hsession hfound).1
  refine ⟨hactive, ?_⟩
  rcases htidy.session_cases sum64 htraffic hsession with
    ⟨hmessage, haside⟩ | ⟨direction, msg, hmessage, hresult⟩ | ⟨_, _, hash, half, _, hresult, rfl⟩
  · rw [hmessage, haside.messages, Option.toList_none, append_nil]
    exact ⟨rfl, haside.silent⟩
  · rw [hmessage, hresult, processPlaintextData, hactive]
    refine ⟨?_, rfl⟩
    simp
  · rw [hresult, pair_activeCorrelations, update_self] at hafter
    cases hafter

/-- The event that correlates the session writes what waited, or ignores the session. -/
theorem handle_of_correlating (hsession : sessionId ≠ 0)
    (hbefore : engine.activeCorrelations sessionId = none)
    (hafter : (engine.handle sum64 event).1.activeCorrelations sessionId = some correlation) :
    event.message? sessionId = none ∧ ∃ hash source,
      engine.handle sum64 event = engine.pair hash correlation source ∧
        correlation.sessionId = sessionId := by
  rcases htidy.session_cases sum64 htraffic hsession with
    ⟨_, haside⟩ | ⟨_, _, _, hresult⟩ | ⟨hmessage, _, hash, half, source, hresult, rfl⟩
  · cases hafter.symm.trans (haside.active.trans hbefore)
  · rw [hresult, processPlaintextData, hbefore] at hafter
    cases hbefore.symm.trans hafter
  · have hhalf := hafter
    rw [hresult, pair_activeCorrelations, update_self] at hhalf
    obtain rfl := Option.some.inj hhalf
    exact ⟨hmessage, hash, source, hresult, rfl⟩

end

end Tidy

/-- What waits for a streamed protocol is written behind the protocol. -/
theorem flush_of_streams {first : PendingMessage} {rest : List PendingMessage}
    (hmessages : engine.pendingMessages correlation.sessionId = some (first :: rest))
    (hstreams : engine.streamProtocols (detect first.msg) = true) :
    (engine.flush correlation).1.sessionIgnoreMap = engine.sessionIgnoreMap ∧
      outputs correlation.sessionId (engine.flush correlation).2 =
        .protocol correlation.cookie (detect first.msg) true ::
          (first :: rest).map (output correlation.cookie) := by
  rw [outputs_eq_map fun write hwrite => flush_sessionId _ _ hwrite, flush, hmessages]
  simp only [hstreams, if_true]
  refine ⟨rfl, ?_⟩
  rw [map_cons, map_map]
  rfl

/-! ## Whole runs -/

section Runs

variable {engine : Engine} {sessionId : UInt64} {correlation : Correlation} {events : List Event}

section

variable (htidy : engine.Tidy) (htraffic : ∀ event ∈ events, event.IsTraffic)

include htidy htraffic

theorem run_tidy : (engine.run sum64 events).1.Tidy := by
  induction events generalizing engine with
  | nil => exact htidy
  | cons event events ih =>
    obtain ⟨hevent, hevents⟩ := forall_mem_cons.1 htraffic
    exact ih (htidy.handle sum64 hevent) hevents

theorem run_of_active (hsession : sessionId ≠ 0)
    (hactive : engine.activeCorrelations sessionId = some correlation) :
    outputs sessionId (engine.run sum64 events).2 =
      if sessionId ∈ engine.sessionIgnoreMap then []
      else (messages sessionId events).map (output correlation.cookie) := by
  induction events generalizing engine with
  | nil => exact (ite_self _).symm
  | cons event events ih =>
    obtain ⟨hevent, hevents⟩ := forall_mem_cons.1 htraffic
    obtain ⟨hstill, hignored, hwritten⟩ := htidy.handle_of_active sum64 hevent hsession hactive
    rw [run, outputs_append, hwritten, ih (htidy.handle sum64 hevent) hevents hstill,
      messages_cons, map_append]
    simp only [hignored]
    split <;> rfl

theorem run_of_waiting (hsession : sessionId ≠ 0)
    (hafter : (engine.run sum64 events).1.activeCorrelations sessionId = none) :
    engine.activeCorrelations sessionId = none ∧
      ((engine.run sum64 events).1.pendingMessages sessionId).getD [] =
        (engine.pendingMessages sessionId).getD [] ++ messages sessionId events ∧
      outputs sessionId (engine.run sum64 events).2 = [] := by
  induction events generalizing engine with
  | nil => exact ⟨hafter, (append_nil _).symm, rfl⟩
  | cons event events ih =>
    obtain ⟨hevent, hevents⟩ := forall_mem_cons.1 htraffic
    obtain ⟨hmiddle, hmessages, hsilent⟩ := ih (htidy.handle sum64 hevent) hevents hafter
    obtain ⟨hbefore, hstep, hquiet⟩ := htidy.handle_of_waiting sum64 hevent hsession hmiddle
    refine ⟨hbefore, ?_, ?_⟩
    · rw [run, hmessages, hstep, messages_cons, append_assoc]
    · rw [run, outputs_append, hquiet, hsilent, append_nil]

end

theorem handle_streamProtocols {event : Event} (htidy : engine.Tidy) (htraffic : event.IsTraffic) :
    (engine.handle sum64 event).1.streamProtocols = engine.streamProtocols := by
  rcases htidy.effect sum64 htraffic with ⟨_, _, _, _, rfl⟩ | ⟨_, heffect⟩
  · rw [handle, processPlaintextData]
    split
    · split <;> rfl
    · rfl
  · exact heffect.streamProtocols

theorem run_streamProtocols (htidy : engine.Tidy) (htraffic : ∀ event ∈ events, event.IsTraffic) :
    (engine.run sum64 events).1.streamProtocols = engine.streamProtocols := by
  induction events generalizing engine with
  | nil => rfl
  | cons event events ih =>
    obtain ⟨hevent, hevents⟩ := forall_mem_cons.1 htraffic
    rw [run, ih (htidy.handle sum64 hevent) hevents, handle_streamProtocols sum64 htidy hevent]

section Correlating

variable {event : Event} {first : PendingMessage} {rest : List PendingMessage}
  (htidy : engine.Tidy) (hevent : event.IsTraffic)
  (htraffic : ∀ event ∈ events, event.IsTraffic) (hsession : sessionId ≠ 0)
  (hbefore : engine.activeCorrelations sessionId = none)
  (hafter : (engine.handle sum64 event).1.activeCorrelations sessionId = some correlation)
  (hmessages : engine.pendingMessages sessionId = some (first :: rest))

include htidy hevent htraffic hsession hbefore hafter hmessages

/-- What waited is written before what comes later. -/
theorem run_of_correlating_streams (hstreams : engine.streamProtocols (detect first.msg) = true) :
    outputs sessionId (engine.run sum64 (event :: events)).2 =
      .protocol correlation.cookie (detect first.msg) true ::
        ((first :: rest) ++ messages sessionId (event :: events)).map
          (output correlation.cookie) := by
  have hlater := run_of_active sum64 (htidy.handle sum64 hevent) htraffic hsession hafter
  obtain ⟨hnone, hash, source, hresult, rfl⟩ :=
    htidy.handle_of_correlating sum64 hevent hsession hbefore hafter
  obtain ⟨_, hmeta⟩ := engine.pair_fst hash correlation source
  obtain ⟨hsame, hignore, hprotocols⟩ := engine.activate_frame hash correlation
  rw [← hsame] at hmessages
  rw [← hprotocols] at hstreams
  obtain ⟨hignored, hwritten⟩ := flush_of_streams hmessages hstreams
  have hfree : correlation.sessionId ∉ (engine.handle sum64 event).1.sessionIgnoreMap := by
    rw [hresult, hmeta]
    simp only [hignored, hignore]
    exact fun hmem => htidy.ignored hmem hbefore
  rw [if_neg hfree] at hlater
  rw [run, outputs_append, hlater, hresult, pair, hwritten, messages_cons, hnone,
    Option.toList_none,
    nil_append, map_append, cons_append]

theorem run_of_correlating_ignored (hstreams : engine.streamProtocols (detect first.msg) = false)
    (hignored : sessionId ∈ (engine.handle sum64 event).1.sessionIgnoreMap) :
    outputs sessionId (engine.run sum64 (event :: events)).2 = [] := by
  have hlater := run_of_active sum64 (htidy.handle sum64 hevent) htraffic hsession hafter
  obtain ⟨_, hash, _, hresult, rfl⟩ :=
    htidy.handle_of_correlating sum64 hevent hsession hbefore hafter
  rw [← (engine.activate_frame hash correlation).1] at hmessages
  rw [← (engine.activate_frame hash correlation).2.2] at hstreams
  rw [if_pos hignored] at hlater
  rw [run, outputs_append, hlater, hresult, pair, flush, hmessages]
  simp only [hstreams, if_neg Bool.false_ne_true]
  rfl

end Correlating

end Runs

/-- A request, its ciphertext on the socket and in the session, and the answer. -/
def exchange (request answer : List Byte) : List Event :=
  [.plaintext 1 5 .egress request, .encrypted 1 5 .egress State.record,
    .correlate 1 9 77 .egress State.record, .plaintext 1 5 .ingress answer]

end Engine

end Qtap.JavaSsl
