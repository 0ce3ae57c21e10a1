import Qtap.Connection.Lifecycle
import Qtap.Connection.Types
import Qtap.Core.Ledger

/-!
# The stream processors of a connection

The goroutine that takes a connection's events from the queue creates a stream processor when it
learns the protocol, hands the data to it and closes it in `Close`.  An announcement of another
protocol makes a new one; the processor whose place it takes is not closed.
-/

namespace Qtap.Connection.Processors

open List Qtap.Core

/-- The protocols; `unset` is the zero value of a new connection. -/
inductive Protocol where
  | unset
  | unknown
  | http1
  | http2
  | dns
  | mongodb
  | redis
  | mysql
  | kafka
  | grpc
  deriving DecidableEq, Repr

/-- The protocols that plugin stacks are configured for. -/
inductive StackProtocol where
  | http
  | redis
  | mysql
  | kafka
  deriving DecidableEq, Repr

inductive Kind where
  | dns
  | redis
  | mysql
  | kafka
  | http1
  | http2
  deriving DecidableEq, Repr

structure Processor where
  number : ℕ
  kind : Kind
  deriving DecidableEq, Repr

/-- What `Process` does to the connection: it may set the protocol, and its error may be an
unrecoverable one. -/
structure Reply where
  protocol : Option Protocol := none
  unrecoverable : Bool := false
  deriving DecidableEq, Repr

/-- The side of the connection, the managers of the stream factory and the processors' replies.
Whether the domain has a stack may change from one event to the next. -/
structure Env where
  source : Source
  dnsManager : Bool
  hasDomainStack : ℕ → StackProtocol → Bool
  reply : ℕ → Processor → Reply

inductive Event where
  | protocol (protocol : Protocol) (isTLS : Bool)
  | data
  | hostname
  | originalDestination
  | error
  | handlerType
  | close
  | done
  | tlsClientHello
  | tlsServerHello
  deriving DecidableEq, Repr

def Event.kind : Event → EventKind
  | .protocol _ _ => .protocol
  | .data => .data
  | .hostname => .hostname
  | .originalDestination => .originalDestination
  | .error => .error
  | .handlerType => .handlerType
  | .close => .close
  | .done => .done
  | .tlsClientHello => .tlsClientHello
  | .tlsServerHello => .tlsServerHello

/-- The connection as its event loop sees it; `handled` counts the events and `finished` says that
`Close` has returned. -/
structure Handler where
  protocol : Protocol := .unset
  isTLS : Bool := false
  streamProcessor : Option Processor := none
  skipStreamProcessing : Bool := false
  held : Bool
  closeEvent : Bool := false
  handled : ℕ := 0
  created : List Processor := []
  closed : List Processor := []
  finished : Bool := false
  deriving DecidableEq, Repr

/-- `StreamFactory.OnConnection`. -/
def onConnection (env : Env) (time : ℕ) (protocol : Protocol) : Option Kind :=
  let withStack (stack : StackProtocol) (kind : Kind) : Option Kind :=
    if env.hasDomainStack time stack then some kind else none
  match protocol with
  | .dns => if env.source = .client ∧ env.dnsManager then some .dns else none
  | .mongodb => none
  | .redis => withStack .redis .redis
  | .mysql => withStack .mysql .mysql
  | .kafka => withStack .kafka .kafka
  | .http1 => withStack .http .http1
  | .http2 => withStack .http .http2
  | .grpc => withStack .http .http2
  | .unset => none
  | .unknown => none

namespace Handler

/-- A connection that was just opened; a redirected one is held. -/
def opened (held : Bool) : Handler := { held := held }

/-- The event announces the protocol that the connection already has. -/
def Repeats (conn : Handler) (protocol : Protocol) : Prop :=
  conn.protocol = protocol ∧ conn.protocol ≠ .unknown

instance (conn : Handler) (protocol : Protocol) : Decidable (conn.Repeats protocol) :=
  inferInstanceAs (Decidable (_ ∧ _))

/-- `c.streamProcessor = c.services.createStreamer(c)`. -/
def createStreamer (env : Env) (conn : Handler) : Handler :=
  match onConnection env conn.handled conn.protocol with
  | none => { conn with streamProcessor := none }
  | some kind =>
    let processor : Processor := { number := conn.created.length, kind := kind }
    { conn with
      streamProcessor := some processor
      created := conn.created ++ [processor] }

def processProtocolEvent (env : Env) (protocol : Protocol) (isTLS : Bool) (conn : Handler) :
    Handler :=
  if conn.Repeats protocol then { conn with isTLS := conn.isTLS || isTLS }
  else createStreamer env { conn with protocol := protocol, isTLS := isTLS }

def processDataEvent (env : Env) (conn : Handler) : Handler :=
  match conn.streamProcessor with
  | none => conn
  | some processor =>
    if processor ∉ conn.closed ∧ !conn.skipStreamProcessing then
      let reply := env.reply conn.handled processor
      { conn with
        protocol := reply.protocol.getD conn.protocol
        skipStreamProcessing := reply.unrecoverable }
    else conn

def close (conn : Handler) : Handler :=
  { conn with
    closed := conn.closed ++ conn.streamProcessor.toList
    finished := true }

def processCloseEvent (conn : Handler) : Handler :=
  let conn := { conn with closeEvent := true }
  if conn.held then conn else conn.close

def processDoneEvent (conn : Handler) : Handler :=
  let conn := { conn with held := false }
  if conn.closeEvent then conn.close else conn

def processEvent (env : Env) (event : Event) (conn : Handler) : Handler :=
  match event with
  | .protocol protocol isTLS => conn.processProtocolEvent env protocol isTLS
  | .data => conn.processDataEvent env
  | .close => conn.processCloseEvent
  | .done => conn.processDoneEvent
  | _ => conn

/-- One turn of the event loop; it ends when `Close` has closed the queue. -/
def watch (env : Env) (conn : Handler) (event : Event) : Handler :=
  if conn.finished then conn
  else processEvent env event { conn with handled := conn.handled + 1 }

/-- The connection after a sequence of events. -/
def run (env : Env) (events : List Event) (conn : Handler) : Handler :=
  events.foldl (watch env) conn

/-! ## When the event loop closes the connection -/

section

variable (env : Env) {conn : Handler}

/-- What an event changes of what decides when an open connection is closed. -/
theorem processEvent_decides (hopen : conn.finished = false) (event : Event) :
    ∃ next, conn.processEvent env event = next ∧ next.held = (conn.held && .done != event) ∧
      next.closeEvent = (conn.closeEvent || .close == event) ∧
      next.finished = ((.close == event || .done == event) && next.closeEvent && !next.held) := by
  refine ⟨_, rfl, ?_⟩
  cases event with
  | protocol =>
    rw [processEvent, processProtocolEvent]
    split
    · simp [hopen]
    · rw [createStreamer]
      split <;> simp [hopen]
  | data =>
    rw [processEvent, processDataEvent]
    split
    · simp [hopen]
    · split <;> simp [hopen]
  | close => cases hheld : conn.held <;> simp [processEvent, processCloseEvent, close, hopen, hheld]
  | done =>
    cases hclose : conn.closeEvent <;>
      simp [processEvent, processDoneEvent, close, hopen, hclose]
  | _ => simp [processEvent, hopen]

/-- The part of an open connection that decides when it is closed. -/
structure Follows (conn : Handler) (outer : Conn) : Prop where
  held : conn.held = outer.held
  closeEvent : conn.closeEvent = outer.closeEvent

/-- Handling an event decides as `Conn.process` does whether `Close` is called. -/
theorem Follows.processEvent {outer : Conn} (hfollows : conn.Follows outer)
    (hopen : conn.finished = false) (event : Event) (number : ℕ) :
    (conn.processEvent env event).Follows (outer.process ⟨event.kind, number⟩) ∧
      ((conn.processEvent env event).finished = true ↔
        (outer.process ⟨event.kind, number⟩).watch = .closing .started) := by
  obtain ⟨_, hnext, hheld, hclose, hfinished⟩ := processEvent_decides env hopen event
  rw [hfollows.held] at hheld
  rw [hfollows.closeEvent] at hclose
  rw [hnext, hfinished, hclose, hheld]
  refine ⟨⟨hheld.trans ?_, hclose.trans ?_⟩, ?_⟩ <;>
    cases event <;> simp [Conn.process, Event.kind]

theorem finished_run (events : List Event)
    (hdecided : conn.finished = (conn.closeEvent && !conn.held)) : (conn.run env events).finished =
      ((conn.closeEvent || events.contains .close) && (!conn.held || events.contains .done)) := by
  induction events generalizing conn with
  | nil => simpa [run] using hdecided
  | cons event events ih =>
    rw [run, foldl_cons, watch]
    split
    next hfinished =>
      rw [hfinished, eq_comm, Bool.and_eq_true, Bool.not_eq_true'] at hdecided
      exact (ih (by simp [hfinished, hdecided])).trans (by simp [hdecided])
    next hopen =>
      have hopen := Bool.eq_false_of_not_eq_true hopen
      obtain ⟨next, hnext, hheld, hclose, hfinished⟩ := @processEvent_decides env
        { conn with handled := conn.handled + 1 } hopen event
      rw [hnext]
      have hnow : next.finished = (next.closeEvent && !next.held) := by
        rw [hfinished, hheld, hclose]
        grind
      refine (ih hnow).trans ?_
      rw [hheld, hclose]
      simp only [contains_cons, bne, Bool.not_and, Bool.not_not, Bool.or_assoc]

/-- `Close` is called exactly when the close event has come and, for a redirected connection, the
done event as well, in either order and among any other events. -/
theorem finished_run_opened_iff (events : List Event) (held : Bool) :
    ((opened held).run env events).finished = true ↔
      .close ∈ events ∧ (held = true → .done ∈ events) := by
  rw [finished_run env events (by rfl)]
  cases held <;> simp [opened]

end

/-! ## The ledger of the processors -/

/-- The processor that `Close` would close. -/
def current (conn : Handler) : List Processor :=
  if conn.finished then [] else conn.streamProcessor.toList

/-- The processor whose place an event takes. -/
def replaced (conn : Handler) : Event → List Processor
  | .protocol protocol _ =>
    if conn.finished ∨ conn.Repeats protocol then [] else conn.streamProcessor.toList
  | _ => []

/-- Every processor is closed, the current one or lost. -/
structure Accounted (conn : Handler) (lost : List Processor) : Prop where
  ledger : Balanced conn.created conn.closed (conn.current ++ lost)
  fresh : ∀ processor ∈ conn.created, processor.number < conn.created.length

namespace Accounted

variable {conn : Handler} {lost : List Processor}

section

variable (haccounted : conn.Accounted lost)

include haccounted

theorem createStreamer (hopen : conn.finished = false) (env : Env) :
    (conn.createStreamer env).Accounted (lost ++ conn.streamProcessor.toList) := by
  have hledger : Balanced conn.created conn.closed (lost ++ conn.streamProcessor.toList) := by
    refine haccounted.ledger.rearrange ?_
    rw [current, hopen]
    exact perm_append_comm
  rw [Handler.createStreamer]
  split
  · refine ⟨?_, haccounted.fresh⟩
    rw [hopen]
    exact hledger
  next kind _ =>
    have hnumber : ∀ processor : Processor, some ⟨conn.created.length, kind⟩ = some processor →
          processor.number = conn.created.length ∧
            conn.created.length < conn.created.length + 1 := by
      intro processor hprocessor
      cases hprocessor
      exact ⟨rfl, Nat.lt_succ_self _⟩
    obtain ⟨hissued, hfresh⟩ := hledger.issue haccounted.fresh (Nat.le_succ _) hnumber
    constructor
    · refine hissued.rearrange ?_
      rw [hopen]
      exact perm_append_comm
    · rw [length_append]
      exact hfresh

theorem close (hopen : conn.finished = false) : conn.close.Accounted lost := by
  refine ⟨?_, haccounted.fresh⟩
  refine haccounted.ledger.release ?_
  rw [current, hopen]
  exact List.Perm.refl _

/-- A step that leaves the processors alone. -/
theorem keep {next : Handler} (hcreated : next.created = conn.created := by rfl)
    (hclosed : next.closed = conn.closed := by rfl)
    (hprocessor : next.streamProcessor = conn.streamProcessor := by rfl)
    (hfinished : next.finished = conn.finished := by rfl) : next.Accounted lost := by
  constructor
  · rw [hcreated, hclosed, current, hfinished, hprocessor]
    exact haccounted.ledger
  · rw [hcreated]
    exact haccounted.fresh

theorem processProtocolEvent (hopen : conn.finished = false)
    (env : Env) (protocol : Protocol) (isTLS : Bool) :
    (conn.processProtocolEvent env protocol isTLS).Accounted
      (lost ++ conn.replaced (.protocol protocol isTLS)) := by
  rw [Handler.processProtocolEvent, replaced]
  by_cases hrepeats : conn.Repeats protocol
  · rw [if_pos hrepeats, if_pos (.inr hrepeats), append_nil]
    exact haccounted.keep
  · have hreplaces : ¬ (conn.finished = true ∨ conn.Repeats protocol) := by
      rw [hopen]
      exact not_or.2 ⟨Bool.false_ne_true, hrepeats⟩
    have hannounced : Accounted { conn with protocol := protocol, isTLS := isTLS } lost :=
      haccounted.keep
    rw [if_neg hrepeats, if_neg hreplaces]
    exact hannounced.createStreamer hopen env

theorem processDataEvent (env : Env) : (conn.processDataEvent env).Accounted lost := by
  rw [Handler.processDataEvent]
  split
  · exact haccounted
  · split
    · exact haccounted.keep
    · exact haccounted

section

variable (hopen : conn.finished = false)

include hopen

theorem processCloseEvent : conn.processCloseEvent.Accounted lost := by
  have hmarked : Accounted { conn with closeEvent := true } lost :=
    haccounted.keep
  rw [Handler.processCloseEvent]
  split
  · exact hmarked
  · exact hmarked.close hopen

theorem processDoneEvent : conn.processDoneEvent.Accounted lost := by
  have hreleased : Accounted { conn with held := false } lost := haccounted.keep
  rw [Handler.processDoneEvent]
  split
  · exact hreleased.close hopen
  · exact hreleased

theorem processEvent (env : Env) (event : Event) :
    (conn.processEvent env event).Accounted (lost ++ conn.replaced event) := by
  cases event with
  | protocol protocol isTLS => exact haccounted.processProtocolEvent hopen env protocol isTLS
  | data =>
    change Accounted _ (lost ++ [])
    rw [append_nil]
    exact haccounted.processDataEvent env
  | close =>
    change Accounted _ (lost ++ [])
    rw [append_nil]
    exact haccounted.processCloseEvent hopen
  | done =>
    change Accounted _ (lost ++ [])
    rw [append_nil]
    exact haccounted.processDoneEvent hopen
  | _ =>
    change Accounted _ (lost ++ [])
    rw [append_nil]
    exact haccounted

end

theorem watch (env : Env) (event : Event) :
    (conn.watch env event).Accounted (lost ++ conn.replaced event) := by
  cases hfinished : conn.finished with
  | true =>
    have hnone : conn.replaced event = [] := by
      cases event <;> simp [replaced, hfinished]
    rw [hnone, append_nil, Handler.watch, if_pos hfinished]
    exact haccounted
  | false =>
    have hcounted : Accounted { conn with handled := conn.handled + 1 } lost :=
      haccounted.keep
    rw [Handler.watch, if_neg (ne_true_of_eq_false hfinished)]
    exact hcounted.processEvent hfinished env event

end

end Accounted

theorem replaced_eq_nil_iff {conn : Handler} {event : Event} :
    conn.replaced event = [] ↔ ∀ protocol isTLS, event = .protocol protocol isTLS →
      conn.finished = false → conn.Repeats protocol ∨ conn.streamProcessor = none := by
  cases event with
  | protocol protocol isTLS =>
    rw [replaced]
    split
    next hcases =>
      refine iff_of_true rfl ?_
      rintro _ _ hevent hopen
      cases hevent
      rw [hopen] at hcases
      exact .inl (hcases.resolve_left Bool.false_ne_true)
    next hcases =>
      rw [not_or, Bool.not_eq_true] at hcases
      rw [Option.toList_eq_nil_iff]
      constructor
      · rintro hnone _ _ - -
        exact .inr hnone
      · intro hall
        exact (hall protocol isTLS rfl hcases.1).resolve_left hcases.2
  | _ => exact iff_of_true rfl fun _ _ hevent => by cases hevent

/-- When `Close` has returned, every stream processor has been closed if and only if no other
protocol was announced while there was a stream processor. -/
theorem processors_closed_iff (env : Env) (held : Bool) (events : List Event)
    (hfinished : (run env events (opened held)).finished = true) :
    (∀ processor ∈ (run env events (opened held)).created,
        processor ∈ (run env events (opened held)).closed) ↔
      ∀ before protocol isTLS after, events = before ++ .protocol protocol isTLS :: after →
        (run env before (opened held)).finished = false →
          (run env before (opened held)).Repeats protocol ∨
            (run env before (opened held)).streamProcessor = none := by
  have hopened : (opened held).Accounted [] := ⟨Balanced.nil, nofun⟩
  have haccounted := losses_induction
    (fun conn event lost (hconn : conn.Accounted lost) => hconn.watch env event) hopened events
  have hledger := haccounted.ledger
  have hcurrent : (events.foldl (watch env) (opened held)).current = [] := if_pos hfinished
  rw [hcurrent] at hledger
  refine hledger.mem_closed_iff.trans ((losses_eq_nil_iff _ _).trans ?_)
  constructor
  · intro hnone before protocol isTLS after hsplit
    exact replaced_eq_nil_iff.1 (hnone before _ after hsplit) protocol isTLS rfl
  · intro hall before event after hsplit
    refine replaced_eq_nil_iff.2 fun protocol isTLS hevent => ?_
    exact hall before protocol isTLS after (hevent ▸ hsplit)

/-- A client connection whose domain has a stack for every protocol. -/
def everyStack : Env where
  source := .client
  dnsManager := true
  hasDomainStack := fun _ _ => true
  reply := fun _ _ => {}

/-- HTTP/1 and its upgrade to TLS, without a replacement. -/
def upgradedHttp1 : List Event := [.protocol .http1 false, .data, .protocol .http1 true, .close]

theorem processors_closed_iff_upgradedHttp1 :
    (run everyStack upgradedHttp1 (opened false)).created = [⟨0, .http1⟩] ∧
      ∀ before protocol isTLS after, upgradedHttp1 = before ++ .protocol protocol isTLS :: after →
        (run everyStack before (opened false)).finished = false →
          (run everyStack before (opened false)).Repeats protocol ∨
            (run everyStack before (opened false)).streamProcessor = none :=
  ⟨rfl, (processors_closed_iff everyStack false upgradedHttp1 rfl).1 (by decide)⟩

/-- The protocol is announced as HTTP/1 and then as HTTP/2: the first processor is never closed. -/
theorem not_closed_when_replaced :
    (run everyStack [.protocol .http1 false, .protocol .http2 false, .close]
        (opened false)).finished = true ∧
      (run everyStack [.protocol .http1 false, .protocol .http2 false, .close]
        (opened false)).created = [⟨0, .http1⟩, ⟨1, .http2⟩] ∧
      (run everyStack [.protocol .http1 false, .protocol .http2 false, .close]
        (opened false)).closed = [⟨1, .http2⟩] := by
  decide

end Handler

end Qtap.Connection.Processors
