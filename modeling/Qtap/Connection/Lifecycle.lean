import Qtap.Connection.Queue

/-!
# Closing a connection

Any number of goroutines push events; one goroutine, `watch`, takes them from the queue
and processes them.  `Close` is called by `watch` itself, from the processing of a close
or done event, so while it waits for the queue to drain nobody takes events.

Operations that hold the queue's mutex are single actions.  `accepted` counts the events
whose `Push` returned nil, `processed` those whose processing has begun.
-/

namespace Qtap.Connection

open Multiset Option Qtap.Core

/-- Where `Close` is: before `Drain` sets the flag, at the head of its loop, in its
`select`, behind it, and behind `queue.Close`. -/
inductive ClosePhase where
  | started
  | checking
  | waiting
  | drained
  | queueClosed
  deriving DecidableEq, Repr

/-- Where the watch goroutine is: at the head of `Next`, in its `select`, between `Next`
and `processEvent`, inside `Close`, or at its end. -/
inductive Watch where
  | next
  | waiting
  | processing (event : Event)
  | closing (phase : ClosePhase)
  | exited
  deriving DecidableEq, Repr

structure Conn where
  queue : Queue := {}
  watch : Watch := .next
  held : Bool
  closeEvent : Bool := false
  accepted : Multiset Event := 0
  processed : Multiset Event := 0
  /-- What had been processed when `streamProcessor.Close` was called. -/
  processedAtStreamClose : Option (Multiset Event) := none
  deriving DecidableEq

inductive Action where
  | push (event : Event)
  | next
  | wake
  | cancelled
  | process
  | beginDrain
  | checkDrained
  | drainWake
  | drainTimeout
  | closeQueue
  | closeStream
  deriving DecidableEq, Repr

namespace Conn

def push (conn : Conn) (event : Event) : Conn :=
  match conn.queue.push event with
  | some queue => { conn with queue := queue, accepted := event ::ₘ conn.accepted }
  | none => conn

/-- `Next` up to its `select`. -/
def next (conn : Conn) : Conn :=
  match conn.queue.pop with
  | some (event, queue) => { conn with queue := queue, watch := .processing event }
  | none => { conn with watch := if conn.queue.closed then .exited else .waiting }

/-- `processCloseEvent` and `processDoneEvent` up to the call of `Close`; the processing
of every other event ends without a change to what is modelled here. -/
def process (conn : Conn) (event : Event) : Conn :=
  let conn := { conn with processed := event ::ₘ conn.processed }
  match event.kind with
  | .close =>
    { conn with
      closeEvent := true
      watch := if conn.held then .next else .closing .started }
  | .done =>
    { conn with
      held := false
      watch := if conn.closeEvent then .closing .started else .next }
  | _ => { conn with watch := .next }

/-- `Drain` looks at the queue. -/
def checkDrained (conn : Conn) : Conn :=
  if conn.queue.items = [] ∨ conn.queue.closed then { conn with watch := .closing .drained }
  else { conn with watch := .closing .waiting }

def step (conn : Conn) : Action → Option Conn
  | .push event => some (conn.push event)
  | .next => if conn.watch = .next then some conn.next else none
  | .wake =>
    if conn.watch = .waiting ∧ conn.queue.notify then
      some { conn with queue := { conn.queue with notify := false }, watch := .next }
    else none
  | .cancelled =>
    if conn.watch = .waiting ∧ conn.queue.closed then some { conn with watch := .exited }
    else none
  | .process =>
    match conn.watch with
    | .processing event => some (conn.process event)
    | _ => none
  | .beginDrain =>
    if conn.watch = .closing .started then
      some { conn with
        queue := { conn.queue with draining := true }, watch := .closing .checking }
    else none
  | .checkDrained => if conn.watch = .closing .checking then some conn.checkDrained else none
  | .drainWake =>
    if conn.watch = .closing .waiting ∧ conn.queue.notify then
      some { conn with
        queue := { conn.queue with notify := false }, watch := .closing .checking }
    else none
  | .drainTimeout =>
    if conn.watch = .closing .waiting then some { conn with watch := .closing .drained }
    else none
  | .closeQueue =>
    if conn.watch = .closing .drained then
      some { conn with queue := conn.queue.close, watch := .closing .queueClosed }
    else none
  | .closeStream =>
    if conn.watch = .closing .queueClosed then
      some { conn with processedAtStreamClose := some conn.processed, watch := .next }
    else none

/-- A connection that was just opened; a redirected one is held. -/
def opened (held : Bool) : Conn := { held := held }

/-! ## What a step can do -/

/-- The event that was taken from the queue and is not processed yet. -/
def inHand (conn : Conn) : Multiset Event :=
  match conn.watch with
  | .processing event => {event}
  | _ => 0

/-- While the queue is open every accepted event is processed, in hand or queued and the
stream processor is open; once it is closed it stays empty and `watch` takes nothing. -/
structure Balanced (conn : Conn) : Prop where
  open_queue : conn.queue.closed = false →
    conn.accepted = conn.processed + conn.inHand + conn.queue.items
  closed_queue : conn.queue.closed = true → conn.queue.items = [] ∧ conn.inHand = 0
  closing : ∀ phase, conn.watch = .closing phase →
    (conn.queue.closed = true ↔ phase = .queueClosed)
  stream : conn.queue.closed = false → conn.processedAtStreamClose = none

theorem balanced_opened (held : Bool) : (opened held).Balanced where
  open_queue := fun _ => rfl
  closed_queue := by simp [opened]
  closing := by simp [opened]
  stream := fun _ => rfl

variable {conn after : Conn} {total : Multiset Event}

theorem Balanced.push (hbalanced : conn.Balanced) (event : Event) : (conn.push event).Balanced := by
  rw [Conn.push]
  cases hpush : conn.queue.push event with
  | none => exact hbalanced
  | some =>
    obtain ⟨_, hopen, rfl⟩ := Queue.push_eq_some_iff.1 hpush
    refine ⟨fun _ => ?_, fun hclosed => ?_, hbalanced.closing, hbalanced.stream⟩
    · change event ::ₘ conn.accepted = conn.processed + conn.inHand +
        (conn.queue.insert event : Multiset Event)
      rw [Queue.coe_insert, add_cons, hbalanced.open_queue hopen]
    · exact absurd (hopen.symm.trans hclosed) Bool.false_ne_true

theorem inHand_of_next (hwatch : conn.watch = .next) : conn.inHand = 0 := by
  rw [inHand, hwatch]

theorem Balanced.next (hbalanced : conn.Balanced) (hwatch : conn.watch = .next) :
    conn.next.Balanced := by
  have hhand := inHand_of_next hwatch
  rw [Conn.next, Queue.pop]
  cases hitems : conn.queue.items with
  | nil =>
    refine ⟨fun hopen => ?_, fun hclosed => ⟨hitems, ?_⟩, ?_, hbalanced.stream⟩
    · have haccepted := hbalanced.open_queue hopen
      rw [hhand] at haccepted
      split_ifs <;> exact haccepted
    · split_ifs <;> rfl
    · intro phase hphase
      split_ifs at hphase
  | cons =>
    have hopen : conn.queue.closed = false := by
      cases hclosed : conn.queue.closed with
      | false => rfl
      | true => exact absurd ((hbalanced.closed_queue hclosed).1.symm.trans hitems) (by simp)
    refine ⟨fun _ => ?_, fun hclosed => ?_, fun phase hphase => ?_, hbalanced.stream⟩
    · have haccepted := hbalanced.open_queue hopen
      rw [hhand, hitems, ← cons_coe, ← singleton_add, add_zero, ← add_assoc] at haccepted
      exact haccepted
    · exact absurd (hopen.symm.trans hclosed) Bool.false_ne_true
    · cases hphase

theorem Balanced.process (hbalanced : conn.Balanced) {event : Event}
    (hwatch : conn.watch = .processing event) : (conn.process event).Balanced := by
  have hhand : conn.inHand = {event} := by rw [inHand, hwatch]
  have hopen : conn.queue.closed = false := by
    cases hclosed : conn.queue.closed with
    | false => rfl
    | true =>
      have hnone := (hbalanced.closed_queue hclosed).2
      rw [hhand] at hnone
      exact absurd hnone (singleton_ne_zero event)
  have haccepted := hbalanced.open_queue hopen
  rw [hhand, add_comm conn.processed] at haccepted
  have hresult (watch : Watch) (held closeEvent : Bool)
      (hwatch : watch = .next ∨ watch = .closing .started) :
      Balanced { conn with
        processed := event ::ₘ conn.processed, watch := watch, held := held,
        closeEvent := closeEvent } := by
    refine ⟨fun _ => ?_, fun hclosed => ?_, fun phase hphase => ?_, hbalanced.stream⟩
    · rcases hwatch with rfl | rfl <;> simpa [inHand] using haccepted
    · exact absurd (hopen.symm.trans hclosed) Bool.false_ne_true
    · rcases hwatch with rfl | rfl
      · cases hphase
      · cases hphase
        simp [hopen]
  rw [Conn.process]
  cases event.kind with
  | close =>
    apply hresult
    cases conn.held <;> simp
  | done =>
    apply hresult
    cases conn.closeEvent <;> simp
  | _ => exact hresult .next _ _ (.inl rfl)

/-- A step of `watch` between two points where it holds no event. -/
theorem Balanced.move (hbalanced : conn.Balanced) (hhand : conn.inHand = 0) (queue : Queue)
    (watch : Watch) (hitems : queue.items = conn.queue.items := by rfl)
    (hclosed : queue.closed = conn.queue.closed := by rfl)
    (hwatch : ∀ event, watch ≠ .processing event := by simp)
    (hphase : ∀ phase, watch = .closing phase → (queue.closed = true ↔ phase = .queueClosed) :=
      by simp) :
    Balanced { conn with queue := queue, watch := watch } := by
  have hnone : ({ conn with queue := queue, watch := watch } : Conn).inHand = 0 := by
    cases watch with
    | processing event => exact absurd rfl (hwatch event)
    | _ => rfl
  refine ⟨fun hopen => ?_, fun hshut => ⟨?_, hnone⟩, hphase,
    fun hopen => hbalanced.stream (hclosed ▸ hopen)⟩
  · have haccepted := hbalanced.open_queue (hclosed ▸ hopen)
    rw [hhand] at haccepted
    rw [hnone]
    rw [hitems]
    exact haccepted
  · exact hitems.trans (hbalanced.closed_queue (hclosed ▸ hshut)).1

/-- A step of `Close` before it closes the queue. -/
theorem Balanced.advance (hbalanced : conn.Balanced) {phase next : ClosePhase}
    (hwatch : conn.watch = .closing phase) (hphase : phase ≠ .queueClosed := by nofun)
    (hnext : next ≠ .queueClosed := by simp) {queue : Queue}
    (hitems : queue.items = conn.queue.items := by rfl)
    (hclosed : queue.closed = conn.queue.closed := by rfl) :
    Balanced { conn with queue := queue, watch := .closing next } := by
  refine hbalanced.move (by rw [inHand, hwatch]) queue (.closing next) hitems hclosed nofun ?_
  rintro _ ⟨⟩
  rw [hclosed, hbalanced.closing phase hwatch]
  exact iff_of_false hphase hnext

theorem balanced_step (conn : Conn) (action : Action) (after : Conn)
    (hstep : conn.step action = some after) (hbalanced : conn.Balanced) : after.Balanced := by
  cases action with
  | push event =>
    cases hstep
    exact hbalanced.push event
  | next =>
    obtain ⟨hwatch, ⟨⟩⟩ := ite_none_right_eq_some.1 hstep
    exact hbalanced.next hwatch
  | wake =>
    obtain ⟨⟨hwatch, _⟩, ⟨⟩⟩ := ite_none_right_eq_some.1 hstep
    exact hbalanced.move (by rw [inHand, hwatch]) { conn.queue with notify := false }
      .next
  | cancelled =>
    obtain ⟨⟨hwatch, _⟩, ⟨⟩⟩ := ite_none_right_eq_some.1 hstep
    exact hbalanced.move (by rw [inHand, hwatch]) conn.queue .exited
  | process =>
    simp only [step] at hstep
    cases hwatch : conn.watch with
    | processing =>
      rw [hwatch] at hstep
      cases hstep
      exact hbalanced.process hwatch
    | _ => simp [hwatch] at hstep
  | beginDrain | drainTimeout =>
    obtain ⟨hwatch, ⟨⟩⟩ := ite_none_right_eq_some.1 hstep
    exact hbalanced.advance hwatch
  | checkDrained =>
    obtain ⟨hwatch, ⟨⟩⟩ := ite_none_right_eq_some.1 hstep
    rw [checkDrained]
    split_ifs <;> exact hbalanced.advance hwatch
  | drainWake =>
    obtain ⟨⟨hwatch, _⟩, ⟨⟩⟩ := ite_none_right_eq_some.1 hstep
    exact hbalanced.advance hwatch
  | closeQueue =>
    obtain ⟨_, ⟨⟩⟩ := ite_none_right_eq_some.1 hstep
    exact ⟨fun hopen => absurd hopen (by simp [Queue.close]), fun _ => ⟨rfl, rfl⟩,
      by simp [Queue.close], fun hopen => absurd hopen (by simp [Queue.close])⟩
  | closeStream =>
    obtain ⟨hwatch, ⟨⟩⟩ := ite_none_right_eq_some.1 hstep
    have hclosed := (hbalanced.closing _ hwatch).2 rfl
    have hmoved : Balanced { conn with queue := conn.queue, watch := .next } :=
      hbalanced.move (by rw [inHand, hwatch]) conn.queue .next
    exact ⟨hmoved.open_queue, hmoved.closed_queue, hmoved.closing,
      fun hopen => absurd (hopen.symm.trans hclosed) Bool.false_ne_true⟩

/-- From the beginning of `Close` on: nothing more is processed, and what the stream
processor was closed with is what had been processed then. -/
structure Closing (total : Multiset Event) (conn : Conn) : Prop where
  processed : conn.processed = total
  stream : ∀ processed, conn.processedAtStreamClose = some processed → processed = total
  watch : (∃ phase, conn.watch = .closing phase) ∨
    conn.queue.closed = true ∧ conn.queue.items = [] ∧ (conn.watch = .next ∨ conn.watch = .exited)

section

variable (hclosing : conn.Closing total)

include hclosing

theorem Closing.of_closing (hprocessed : after.processed = conn.processed)
    (hstream : after.processedAtStreamClose = conn.processedAtStreamClose) {phase : ClosePhase}
    (hwatch : after.watch = .closing phase) : after.Closing total where
  processed := hprocessed.trans hclosing.processed
  stream := fun processed hsome => hclosing.stream processed (hstream ▸ hsome)
  watch := .inl ⟨phase, hwatch⟩

theorem Closing.push (event : Event) : (conn.push event).Closing total := by
  rw [Conn.push]
  cases hpush : conn.queue.push event with
  | none => exact hclosing
  | some =>
    obtain ⟨_, hopen, rfl⟩ := Queue.push_eq_some_iff.1 hpush
    refine ⟨hclosing.processed, hclosing.stream, ?_⟩
    rcases hclosing.watch with hphase | ⟨hclosed, _⟩
    · exact .inl hphase
    · exact absurd (hopen.symm.trans hclosed) Bool.false_ne_true

theorem Closing.not_waiting : conn.watch ≠ .waiting := by
  intro hwaiting
  rcases hclosing.watch with ⟨_, hphase⟩ | ⟨_, _, hnext | hexited⟩
  · exact absurd (hwaiting.symm.trans hphase) (by simp)
  · exact absurd (hwaiting.symm.trans hnext) (by simp)
  · exact absurd (hwaiting.symm.trans hexited) (by simp)

theorem closing_step {action : Action} (hstep : conn.step action = some after)
    (hbalanced : conn.Balanced) : after.Closing total := by
  cases action with
  | push event =>
    cases hstep
    exact hclosing.push event
  | next =>
    obtain ⟨hwatch, ⟨⟩⟩ := ite_none_right_eq_some.1 hstep
    rcases hclosing.watch with ⟨phase, hphase⟩ | ⟨hclosed, hitems, _⟩
    · exact absurd (hwatch.symm.trans hphase) (by simp)
    · have hnext : conn.next = { conn with watch := .exited } := by
        rw [Conn.next, Queue.pop, hitems, hclosed]
        rfl
      rw [hnext]
      exact ⟨hclosing.processed, hclosing.stream, .inr ⟨hclosed, hitems, .inr rfl⟩⟩
  | wake | cancelled =>
    simp only [step, ite_none_right_eq_some] at hstep
    exact absurd hstep.1.1 hclosing.not_waiting
  | process =>
    simp only [step] at hstep
    rcases hclosing.watch with ⟨_, hphase⟩ | ⟨_, _, hnext | hexited⟩
    · simp [hphase] at hstep
    · simp [hnext] at hstep
    · simp [hexited] at hstep
  | beginDrain | drainWake | drainTimeout | closeQueue =>
    obtain ⟨_, ⟨⟩⟩ := ite_none_right_eq_some.1 hstep
    exact hclosing.of_closing rfl rfl rfl
  | checkDrained =>
    obtain ⟨_, ⟨⟩⟩ := ite_none_right_eq_some.1 hstep
    rw [checkDrained]
    split_ifs <;> exact hclosing.of_closing rfl rfl rfl
  | closeStream =>
    obtain ⟨hwatch, ⟨⟩⟩ := ite_none_right_eq_some.1 hstep
    have hclosed := (hbalanced.closing _ hwatch).2 rfl
    have hitems := (hbalanced.closed_queue hclosed).1
    refine ⟨hclosing.processed, fun processed hsome => ?_, .inr ⟨hclosed, hitems, .inl rfl⟩⟩
    exact (Option.some.inj hsome).symm.trans hclosing.processed

end

/-! ## Events behind the closing one -/

/-- `Close` begins: the processing of a close or done event calls it. -/
def BeginsClose (before after : Conn) : Prop :=
  before.step .process = some after ∧ after.watch = .closing .started

theorem BeginsClose.processing {before : Conn} (hbegins : BeginsClose before after) :
    ∃ event, before.watch = .processing event ∧ after = before.process event := by
  obtain ⟨hstep, _⟩ := hbegins
  simp only [step] at hstep
  cases hwatch : before.watch with
  | processing event =>
    rw [hwatch] at hstep
    exact ⟨event, rfl, (Option.some.inj hstep).symm⟩
  | _ => simp [hwatch] at hstep

theorem process_processed (conn : Conn) (event : Event) :
    (conn.process event).processed = event ::ₘ conn.processed ∧
      (conn.process event).processedAtStreamClose = conn.processedAtStreamClose := by
  rw [process]
  cases event.kind <;> exact ⟨rfl, rfl⟩

end Conn

open Conn in
/-- In every run in which a connection is closed, the events accepted before `Close` began
were all processed before the stream processor was closed if and only if the queue was
empty when `Close` began. -/
theorem accepted_processed_before_stream_close_iff (held : Bool) (actions : List Action)
    (before after : Conn) (hreached : runActions step (opened held) actions = some before)
    (hbegins : BeginsClose before after) (later : List Action) (final : Conn)
    (hlater : runActions step after later = some final) (processed : Multiset Event)
    (hstream : final.processedAtStreamClose = some processed) :
    before.accepted ≤ processed ↔ before.queue.items = [] := by
  have hbalanced := runActions.invariant Balanced balanced_step hreached (balanced_opened held)
  obtain ⟨event, hwatch, rfl⟩ := hbegins.processing
  have hhand : before.inHand = {event} := by rw [inHand, hwatch]
  have hopen : before.queue.closed = false := by
    cases hclosed : before.queue.closed with
    | false => rfl
    | true =>
      have hnone := (hbalanced.closed_queue hclosed).2
      exact absurd (hhand.symm.trans hnone) (Multiset.singleton_ne_zero event)
  have haccepted := hbalanced.open_queue hopen
  obtain ⟨hprocessed, hsame⟩ := process_processed before event
  have hclosing : (before.process event).Closing (event ::ₘ before.processed) :=
    ⟨hprocessed, by simp [hsame, hbalanced.stream hopen], .inl ⟨_, hbegins.2⟩⟩
  have hfinal := runActions.invariant
    (fun conn => conn.Balanced ∧ conn.Closing (event ::ₘ before.processed))
    (fun conn action next hstep hboth =>
      ⟨balanced_step conn action next hstep hboth.1, closing_step hboth.2 hstep hboth.1⟩)
    hlater ⟨hbalanced.process hwatch, hclosing⟩
  rw [hfinal.2.stream processed hstream, haccepted, hhand, add_comm before.processed,
    Multiset.singleton_add, add_le_iff_nonpos_right, Multiset.le_zero, Multiset.coe_eq_zero]

open Conn in
/-- A connection closed with nothing queued behind the close event. -/
theorem accepted_processed_before_stream_close_alone :
    ∃ before after final : Conn, ∃ processed,
      runActions step (opened false) [.push ⟨.data, 0⟩, .push ⟨.close, 1⟩, .next, .process, .next] =
          some before ∧
        BeginsClose before after ∧
        runActions step after [.beginDrain, .checkDrained, .closeQueue, .closeStream] = some final ∧
        final.processedAtStreamClose = some processed ∧
        (before.accepted ≤ processed ↔ before.queue.items = []) := by
  refine ⟨_, _, _, _, rfl, ⟨rfl, rfl⟩, rfl, rfl, ?_⟩
  exact accepted_processed_before_stream_close_iff false
    [.push ⟨.data, 0⟩, .push ⟨.close, 1⟩, .next, .process, .next] _ _ rfl ⟨rfl, rfl⟩
    [.beginDrain, .checkDrained, .closeQueue, .closeStream] _ rfl _ rfl

open Conn in
/-- A data event is accepted after `watch` took the close event and before `Close` began.
`Drain` then waits with nobody left to take events: only its timeout can fire, the queue
is discarded, and the stream processor is closed without the event. -/
theorem close_discards_accepted_event :
    ∃ before after stuck final : Conn, ∃ processed,
      runActions step (opened false) [.push ⟨.close, 0⟩, .next, .push ⟨.data, 1⟩] = some before ∧
        BeginsClose before after ∧
        runActions step after [.beginDrain, .checkDrained, .drainWake, .checkDrained] = some stuck ∧
        (∀ action, action ≠ .drainTimeout →
          stuck.step action = none ∨ stuck.step action = some stuck) ∧
        runActions step stuck [.drainTimeout, .closeQueue, .closeStream] = some final ∧
        final.processedAtStreamClose = some processed ∧
        ⟨.data, 1⟩ ∈ before.accepted ∧ ⟨.data, 1⟩ ∉ processed := by
  refine ⟨_, _, _, _, _, rfl, ⟨rfl, rfl⟩, rfl, ?_, rfl, rfl, by decide, by decide⟩
  intro action haction
  cases action with
  | push => exact .inr rfl
  | drainTimeout => exact absurd rfl haction
  | _ => exact .inl rfl

end Qtap.Connection
