import Qtap.Core.Pool

/-!
# The queue and its consumers

`synq.Queue`: values in the order of their priorities, and a channel with room for one token that
tells waiting callers of a change.  `Next` takes the first value and waits for a token when there
is none; `Drain` waits for tokens until the queue is empty.  A token is taken by whoever waits,
and of several that are sent before one is taken only the first is kept.

What is done under the mutex is one step, and so is a receive from the channel.  The context of
the queue ends with `Close`.
-/

namespace Qtap.Synq

open Qtap.Core

/-- `notify` tells whether the channel holds a token; which operation it names is never read. -/
structure Queue (A : Type*) where
  items : List A := []
  draining : Bool := false
  closed : Bool := false
  notify : Bool := false
  deriving DecidableEq, Repr

namespace Queue

variable {A : Type*} (queuePriority : A → Option ℤ)

/-- Values without a priority have the lowest, `math.MaxInt`. -/
def getPriority (value : A) : ℤ := (queuePriority value).getD (2 ^ 63 - 1)

def insertWithPriority (priority : ℤ) (value : A) : List A → List A
  | [] => [value]
  | head :: tail =>
    if priority < getPriority queuePriority head then value :: head :: tail
    else head :: insertWithPriority priority value tail

/-- `push` of one value. -/
def insert (items : List A) (value : A) : List A :=
  match queuePriority value with
  | some priority => insertWithPriority queuePriority priority value items
  | none => items ++ [value]

/-- `Push`; one that returns an error changes nothing. -/
def push (queue : Queue A) (values : List A) : Queue A :=
  if queue.draining ∨ queue.closed then queue
  else { queue with items := values.foldl (insert queuePriority) queue.items, notify := true }

/-- Take the first value; a waiting `Drain` is told. -/
def pop (queue : Queue A) : Queue A :=
  match queue.items with
  | [] => queue
  | _ :: rest => { queue with items := rest, notify := queue.notify || queue.draining }

def close (queue : Queue A) : Queue A := { queue with items := [], closed := true }

/-- The calls that may wait. -/
inductive Loop where
  | next
  | drain
  deriving DecidableEq, Repr

/-- A call in its loop: about to look at the queue, or in its `select`. -/
structure Routine where
  loop : Loop
  waiting : Bool
  deriving DecidableEq, Repr

inductive Call (A : Type*) where
  | push (values : List A)
  | pop
  | next
  | drain
  | close
  deriving DecidableEq, Repr

/-- The cases of a `select`. -/
inductive Case where
  | notify
  | done
  deriving DecidableEq, Repr

def start (queue : Queue A) : Call A → Option (Queue A × List Routine)
  | .push values => some (queue.push queuePriority values, [])
  | .pop => some (queue.pop, [])
  | .next => some (queue, [⟨.next, false⟩])
  | .drain => some ({ queue with draining := true }, [⟨.drain, false⟩])
  | .close => some (queue.close, [])

/-- The body of the loop up to its `select`. -/
def look (queue : Queue A) : Loop → Queue A × List Routine
  | .next =>
    if queue.items ≠ [] then (queue.pop, [])
    else if queue.closed then (queue, [])
    else (queue, [⟨.next, true⟩])
  | .drain => if queue.items = [] ∨ queue.closed then (queue, []) else (queue, [⟨.drain, true⟩])

/-- `Drain` may run into its timeout at any time. -/
def resume (queue : Queue A) (routine : Routine) (case : Case) : Option (Queue A × List Routine) :=
  match routine.waiting, case with
  | false, _ => some (queue.look routine.loop)
  | true, .notify =>
    if queue.notify then some ({ queue with notify := false }, [⟨routine.loop, false⟩]) else none
  | true, .done => if routine.loop = .drain ∨ queue.closed then some (queue, []) else none

abbrev step :
    Pool (Queue A) Routine → Pool.Action (Call A) Case → Option (Pool (Queue A) Routine) :=
  Pool.step (start queuePriority) resume

/-- A wake-up is lost: a consumer waits in `Next` beside a value, and no call in flight does
anything but wait for a token that is not there. -/
structure Lost (pool : Pool (Queue A) Routine) : Prop where
  nonempty : pool.shared.items ≠ []
  stays_open : pool.shared.closed = false
  no_token : pool.shared.notify = false
  consumer : ⟨.next, true⟩ ∈ pool.routines
  waiting : ∀ routine ∈ pool.routines, routine.waiting = true

/-- `Next` and `Drain` are called only while no such call is in flight. -/
def Alone (pool : Pool (Queue A) Routine) : Pool.Action (Call A) Case → Prop
  | .call .next | .call .drain => pool.Idle
  | _ => True

/-- At most one call is in its loop, and a waiting consumer has nothing to wait for but a token. -/
structure Tended (pool : Pool (Queue A) Routine) : Prop where
  alone : pool.routines.length ≤ 1
  awake : ⟨.next, true⟩ ∈ pool.routines → pool.shared.items ≠ [] →
    pool.shared.notify = true ∨ pool.shared.closed = true

variable {queuePriority} {pool : Pool (Queue A) Routine} {queue : Queue A}

namespace Tended

/-- A call that ends at once keeps the consumer awake if it does so for every waiting one. -/
theorem shared (htended : Tended pool)
    (hqueue : queue.items ≠ [] → queue.notify = true ∨ queue.closed = true ∨
      pool.shared.items ≠ [] ∧ queue.closed = pool.shared.closed ∧
        (pool.shared.notify = true → queue.notify = true)) :
    Tended ⟨queue, pool.routines ++ []⟩ := by
  rw [List.append_nil]
  refine ⟨htended.alone, fun hmem hitems => ?_⟩
  rcases hqueue hitems with hnotify | hclosed | ⟨hbefore, hclosed, hnotify⟩
  · exact .inl hnotify
  · exact .inr hclosed
  · exact (htended.awake hmem hbefore).imp hnotify hclosed.trans

theorem call {call : Call A} {started : List Routine} (htended : Tended pool)
    (halone : Alone pool (.call call))
    (hstart : start queuePriority pool.shared call = some (queue, started)) :
    Tended ⟨queue, pool.routines ++ started⟩ := by
  cases call with
  | push =>
    cases hstart
    refine htended.shared fun hitems => ?_
    rw [push] at hitems ⊢
    split_ifs at hitems ⊢ with hrefused
    · exact .inr (.inr ⟨hitems, rfl, id⟩)
    · exact .inl rfl
  | pop =>
    cases hstart
    refine htended.shared fun hitems => ?_
    rw [pop] at hitems ⊢
    split at hitems
    · exact absurd ‹_› hitems
    · rename_i hbefore
      refine .inr (.inr ⟨by simp [hbefore], rfl, fun hnotify => ?_⟩)
      rw [hnotify, Bool.true_or]
  | close =>
    cases hstart
    exact htended.shared fun hitems => absurd rfl hitems
  | next | drain =>
    cases hstart
    rw [halone]
    exact ⟨le_rfl, fun hmem => by simp at hmem⟩

theorem advance {routine : Routine} {others rest : List Routine} {case : Case}
    (htended : Tended pool) (hperm : pool.routines.Perm (routine :: others))
    (hresume : resume pool.shared routine case = some (queue, rest)) :
    Tended ⟨queue, others ++ rest⟩ := by
  have hothers : others = [] := by
    have hlength := hperm.length_eq ▸ htended.alone
    exact List.length_eq_zero_iff.1 (Nat.le_zero.1 (Nat.le_of_succ_le_succ hlength))
  subst hothers
  obtain ⟨loop, waiting⟩ := routine
  cases waiting with
  | false =>
    have hlook : pool.shared.look loop = (queue, rest) := Option.some.inj hresume
    cases loop with
    | next =>
      rw [look] at hlook
      split_ifs at hlook with hitems hclosed <;> cases hlook
      · exact ⟨Nat.zero_le 1, nofun⟩
      · exact ⟨Nat.zero_le 1, nofun⟩
      · exact ⟨le_rfl, fun _ hmore => absurd hmore hitems⟩
    | drain =>
      rw [look] at hlook
      split_ifs at hlook with hdone <;> cases hlook
      · exact ⟨Nat.zero_le 1, nofun⟩
      · exact ⟨le_rfl, fun hmem => by simp at hmem⟩
  | true =>
    cases case with
    | notify =>
      obtain ⟨-, ⟨⟩⟩ := Option.ite_none_right_eq_some.1 hresume
      exact ⟨le_rfl, fun hmem => by simp at hmem⟩
    | done =>
      obtain ⟨-, ⟨⟩⟩ := Option.ite_none_right_eq_some.1 hresume
      exact ⟨Nat.zero_le 1, nofun⟩

theorem not_lost (htended : Tended pool) : ¬ Lost pool := by
  intro hlost
  rcases htended.awake hlost.consumer hlost.nonempty with hnotify | hclosed
  · exact Bool.false_ne_true (hlost.no_token.symm.trans hnotify)
  · exact Bool.false_ne_true (hlost.stays_open.symm.trans hclosed)

end Tended

end Queue

end Qtap.Synq
