import Qtap.Core.Transition

/-!
# The event queue of a connection

`synq.Queue` with the priorities of the connection's events.  Lower numbers come first,
events of one priority keep their order, and an event without a priority goes to the
end.
-/

namespace Qtap.Connection

inductive EventKind where
  | protocol
  | data
  | hostname
  | originalDestination
  | error
  | handlerType
  | close
  | done
  | tlsClientHello
  | tlsServerHello
  deriving DecidableEq, Repr

/-- An event; the number tells events of one kind apart. -/
structure Event where
  kind : EventKind
  number : ℕ
  deriving DecidableEq, Repr

/-- `QueuePriority`; `DoneEvent` has none. -/
def EventKind.queuePriority : EventKind → Option ℕ
  | protocol | error | handlerType | tlsClientHello | tlsServerHello => some 1
  | hostname | originalDestination => some 3
  | data => some 5
  | close => some 10
  | done => none

/-- Events without a priority have the lowest, `math.MaxInt`. -/
def getPriority (event : Event) : ℕ := event.kind.queuePriority.getD (2 ^ 63 - 1)

def insertWithPriority (priority : ℕ) (event : Event) : List Event → List Event
  | [] => [event]
  | head :: tail =>
    if priority < getPriority head then event :: head :: tail
    else head :: insertWithPriority priority event tail

/-- `notify` is the channel of capacity one; which operation it carries is never read. -/
structure Queue where
  items : List Event := []
  draining : Bool := false
  closed : Bool := false
  notify : Bool := false
  deriving DecidableEq, Repr

namespace Queue

def insert (queue : Queue) (event : Event) : List Event :=
  match event.kind.queuePriority with
  | some priority => insertWithPriority priority event queue.items
  | none => queue.items ++ [event]

/-- `Push`: `none` is one of the errors `ErrQueueDraining` and `ErrQueueClosed`. -/
def push (queue : Queue) (event : Event) : Option Queue :=
  if queue.draining then none
  else if queue.closed then none
  else some { queue with items := queue.insert event, notify := true }

/-- Take the first event; a waiting `Drain` is notified. -/
def pop (queue : Queue) : Option (Event × Queue) :=
  match queue.items with
  | [] => none
  | head :: tail =>
    some (head, { queue with items := tail, notify := queue.notify || queue.draining })

/-- `Close` discards what is left. -/
def close (queue : Queue) : Queue := { queue with items := [], closed := true }

theorem coe_insertWithPriority (priority : ℕ) (event : Event) (items : List Event) :
    (insertWithPriority priority event items : Multiset Event) =
      event ::ₘ (items : Multiset Event) := by
  induction items with
  | nil => rfl
  | cons head tail ih =>
    rw [insertWithPriority]
    split_ifs
    · rfl
    · rw [← Multiset.cons_coe, ih, Multiset.cons_swap, Multiset.cons_coe]

/-- Wherever an event is inserted, nothing else is lost or added. -/
theorem coe_insert (queue : Queue) (event : Event) :
    (queue.insert event : Multiset Event) = event ::ₘ (queue.items : Multiset Event) := by
  rw [insert]
  cases event.kind.queuePriority with
  | some priority => exact coe_insertWithPriority priority event queue.items
  | none =>
    rw [← Multiset.coe_add, Multiset.coe_singleton, add_comm, Multiset.singleton_add]

theorem push_eq_some_iff {queue next : Queue} {event : Event} :
    queue.push event = some next ↔ queue.draining = false ∧ queue.closed = false ∧
      next = { queue with items := queue.insert event, notify := true } := by
  rw [push]
  cases queue.draining <;> cases queue.closed <;> simp [eq_comm]

end Queue

end Qtap.Connection
