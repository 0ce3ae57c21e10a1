import Qtap.Core.Transition

/-!
# Waiting for a process

`Await` returns a process that is known, and otherwise leaves a channel with the manager and waits
for it.  `addProc` stores a process and starts a goroutine that offers it on the channels that
were left for it.  The channels have no buffer and the goroutine does not wait: it reaches those
callers that are in their `select` already.

What is done while the manager is locked is one step.  A caller stands for its channel.  Contexts
are not cancelled; the steps that touch neither the processes nor the waiters are left out.
-/

namespace Qtap.Processes.Await

open Function List Qtap.Core

variable {P : Type*}

/-- Where a caller of `Await` is. -/
inductive Phase (P : Type*) where
  | idle
  | registered (pid : ℕ)
  | selecting (pid : ℕ)
  | returned (p : P)
  deriving DecidableEq, Repr

/-- The ID that a caller with a channel waits for. -/
def Phase.awaited? : Phase P → Option ℕ
  | idle => none
  | registered pid => some pid
  | selecting pid => some pid
  | returned _ => none

/-- The goroutine of `addProc`, with the waiters that are left to it. -/
structure Notifier (P : Type*) where
  process : P
  waiters : List ℕ
  deriving DecidableEq, Repr

/-- `adding` are the calls of `addProc` that have discovered their process, `removing` those of
`UnregisterProcess` that have found theirs. -/
structure State (P : Type*) where
  procs : ℕ → Option P
  processWaiters : ℕ → List ℕ
  phase : ℕ → Phase P
  adding : List (ℕ × P)
  removing : List ℕ
  notifiers : List (Notifier P)

/-- Steps of the calls and goroutines that are there. -/
inductive Advance where
  | select (caller : ℕ)
  | store (index : ℕ)
  | remove (index : ℕ)
  | offer (index : ℕ)
  deriving DecidableEq, Repr

inductive Action (P : Type*) where
  | await (caller pid : ℕ)
  | addProc (pid : ℕ) (p : P)
  | unregisterProcess (pid : ℕ)
  | advance (advance : Advance)
  deriving DecidableEq, Repr

namespace State

def initial : State P := ⟨fun _ => none, fun _ => [], fun _ => .idle, [], [], []⟩

/-- `Await` up to its `select`. -/
def await (state : State P) (caller pid : ℕ) : State P :=
  match state.procs pid with
  | some p => { state with phase := update state.phase caller (.returned p) }
  | none =>
    { state with
      processWaiters := update state.processWaiters pid (state.processWaiters pid ++ [caller])
      phase := update state.phase caller (.registered pid) }

/-- `addProc` from the lock on. -/
def store (state : State P) (pid : ℕ) (p : P) : State P :=
  { state with
    procs := update state.procs pid (some p)
    processWaiters := update state.processWaiters pid []
    notifiers :=
      if state.processWaiters pid = [] then state.notifiers
      else state.notifiers ++ [⟨p, state.processWaiters pid⟩] }

/-- A send that does not wait: without a receiver nothing happens. -/
def send (state : State P) (caller : ℕ) (p : P) : ℕ → Phase P :=
  match state.phase caller with
  | .selecting _ => update state.phase caller (.returned p)
  | _ => state.phase

def advance (state : State P) : Advance → Option (State P)
  | .select caller =>
    match state.phase caller with
    | .registered pid => some { state with phase := update state.phase caller (.selecting pid) }
    | _ => none
  | .store index =>
    match state.adding[index]? with
    | some (pid, p) => some { state.store pid p with adding := state.adding.eraseIdx index }
    | none => none
  | .remove index =>
    match state.removing[index]? with
    | some pid => some { state with
        procs := update state.procs pid none
        removing := state.removing.eraseIdx index }
    | none => none
  | .offer index =>
    match state.notifiers[index]? with
    | some ⟨p, caller :: waiters⟩ => some { state with
        phase := state.send caller p
        notifiers := state.notifiers.set index ⟨p, waiters⟩ }
    | _ => none

def step (state : State P) : Action P → Option (State P)
  | .await caller pid =>
    match state.phase caller with
    | .idle => some (state.await caller pid)
    | _ => none
  | .addProc pid p =>
    some { state with adding := state.adding ++ [(pid, (state.procs pid).getD p)] }
  | .unregisterProcess pid =>
    match state.procs pid with
    | some _ => some { state with removing := state.removing ++ [pid] }
    | none => none
  | .advance advance => state.advance advance

/-- A process is offered to callers that have come to their `select`. -/
def Ready (state : State P) : Action P → Prop
  | .advance (.offer index) => ∀ p caller waiters,
      state.notifiers[index]? = some ⟨p, caller :: waiters⟩ →
        ∀ pid, state.phase caller ≠ .registered pid
  | _ => True

/-! ## Who will be told -/

/-- A process is there only when nobody is left to be told of it, and a waiting caller is known
to the manager or to a goroutine. -/
structure Attended (state : State P) : Prop where
  absent : ∀ pid, state.procs pid ≠ none → state.processWaiters pid = []
  attended : ∀ caller pid, (state.phase caller).awaited? = some pid →
    caller ∈ state.processWaiters pid ∨
      ∃ notifier ∈ state.notifiers, caller ∈ notifier.waiters

theorem attended_initial : Attended (initial : State P) := ⟨fun _ => absurd rfl, nofun⟩

variable {state next : State P}

/-- Of two states with the same waiters, only the callers that wait count. -/
theorem Attended.of_phase (hattended : Attended state) {phase : ℕ → Phase P}
    (hphase : ∀ caller pid, (phase caller).awaited? = some pid →
      (state.phase caller).awaited? = some pid) : Attended { state with phase := phase } :=
  ⟨hattended.absent, fun caller pid hawaited =>
    hattended.attended caller pid (hphase caller pid hawaited)⟩

variable {caller pid : ℕ} {p : P}

theorem awaited_update {phase : Phase P}
    (hphase : ∀ pid, phase.awaited? = some pid → (state.phase caller).awaited? = some pid)
    {other : ℕ} (hawaited : (update state.phase caller phase other).awaited? = some pid) :
    (state.phase other).awaited? = some pid := by
  rcases eq_or_ne other caller with rfl | hne
  · rw [update_self] at hawaited
    exact hphase pid hawaited
  · rwa [update_of_ne hne] at hawaited

theorem send_of_selecting (hphase : state.phase caller = .selecting pid) :
    state.send caller p = update state.phase caller (.returned p) := by
  rw [send, hphase]

theorem send_of_awaited_eq_none (hphase : (state.phase caller).awaited? = none) :
    state.send caller p = state.phase := by
  rw [send]
  split
  next hselecting =>
    rw [hselecting] at hphase
    cases hphase
  · rfl

/-- Who waits after a send that was received waited before and is another caller. -/
theorem awaited_send (hready : ∀ pid, state.phase caller ≠ .registered pid) {other : ℕ}
    (hawaited : (state.send caller p other).awaited? = some pid) :
    other ≠ caller ∧ (state.phase other).awaited? = some pid := by
  cases hphase : state.phase caller with
  | registered pid => exact absurd hphase (hready pid)
  | selecting =>
    rw [send_of_selecting hphase] at hawaited
    rcases eq_or_ne other caller with rfl | hne
    · rw [update_self] at hawaited
      cases hawaited
    · rw [update_of_ne hne] at hawaited
      exact ⟨hne, hawaited⟩
  | idle | returned =>
    rw [send_of_awaited_eq_none (congrArg Phase.awaited? hphase)] at hawaited
    refine ⟨?_, hawaited⟩
    rintro rfl
    rw [hphase] at hawaited
    cases hawaited

namespace Attended

variable (hattended : Attended state)

include hattended

theorem await : Attended (state.await caller pid) := by
  rw [State.await]
  split
  · apply hattended.of_phase
    intro other awaited
    apply awaited_update
    intro _ hreturned
    cases hreturned
  next hnone =>
    constructor
    · intro other hother
      rcases eq_or_ne other pid with rfl | hne
      · exact absurd hnone hother
      · exact (update_of_ne hne _ _).trans (hattended.absent other hother)
    · intro other awaited hawaited
      dsimp only at hawaited ⊢
      rcases eq_or_ne other caller with rfl | hne
      · rw [update_self] at hawaited
        cases hawaited
        rw [update_self]
        exact .inl (mem_append_right _ (mem_singleton_self _))
      · rw [update_of_ne hne] at hawaited
        apply (hattended.attended other awaited hawaited).imp_left
        intro hwaiter
        rcases eq_or_ne awaited pid with rfl | hother
        · rw [update_self]
          exact mem_append_left _ hwaiter
        · rwa [update_of_ne hother]

theorem store : Attended (state.store pid p) := by
  constructor
  · intro other hother
    rcases eq_or_ne other pid with rfl | hne
    · exact update_self _ _ _
    · refine (update_of_ne hne _ _).trans (hattended.absent other ?_)
      exact (update_of_ne hne (some p) state.procs) ▸ hother
  · intro caller awaited hawaited
    dsimp only [State.store]
    rcases hattended.attended caller awaited hawaited with hwaiter | ⟨notifier, hnotifier, hmem⟩
    · rcases eq_or_ne awaited pid with rfl | hne
      · rw [if_neg (ne_nil_of_mem hwaiter)]
        exact .inr ⟨_, mem_append_right _ (mem_singleton_self _), hwaiter⟩
      · rw [update_of_ne hne]
        exact .inl hwaiter
    · refine .inr ⟨notifier, ?_, hmem⟩
      split
      · exact hnotifier
      · exact mem_append_left _ hnotifier

theorem remove : Attended { state with procs := update state.procs pid none } := by
  refine ⟨fun other hother => ?_, hattended.attended⟩
  rcases eq_or_ne other pid with rfl | hne
  · exact absurd (update_self _ _ _) hother
  · exact hattended.absent other ((update_of_ne hne none state.procs) ▸ hother)

theorem offer {index : ℕ} {waiters : List ℕ}
    (hnotifier : state.notifiers[index]? = some ⟨p, caller :: waiters⟩)
    (hready : ∀ pid, state.phase caller ≠ .registered pid) :
    Attended { state with
      phase := state.send caller p
      notifiers := state.notifiers.set index ⟨p, waiters⟩ } := by
  refine ⟨hattended.absent, fun other awaited hawaited => ?_⟩
  obtain ⟨hne, hbefore⟩ := awaited_send hready hawaited
  apply (hattended.attended other awaited hbefore).imp_right
  rintro ⟨notifier, hmem, hother⟩
  obtain ⟨place, hplace⟩ := mem_iff_getElem?.1 hmem
  rcases eq_or_ne index place with rfl | hapart
  · cases hnotifier.symm.trans hplace
    exact ⟨_, mem_set (List.getElem?_eq_some_iff.1 hnotifier).1 _,
      (mem_cons.1 hother).resolve_left hne⟩
  · exact ⟨notifier, mem_of_getElem? ((List.getElem?_set_ne hapart).trans hplace), hother⟩

theorem advance {advance : Advance} (hready : state.Ready (.advance advance))
    (hnext : state.advance advance = some next) : Attended next := by
  cases advance with
  | select =>
    rw [State.advance] at hnext
    split at hnext
    next hphase =>
      cases hnext
      apply hattended.of_phase
      intro other awaited
      apply awaited_update
      rw [hphase]
      exact fun _ => id
    · cases hnext
  | store =>
    rw [State.advance] at hnext
    split at hnext
    · cases hnext
      exact ⟨hattended.store.absent, hattended.store.attended⟩
    · cases hnext
  | remove =>
    rw [State.advance] at hnext
    split at hnext
    · cases hnext
      exact ⟨hattended.remove.absent, hattended.attended⟩
    · cases hnext
  | offer =>
    rw [State.advance] at hnext
    split at hnext
    next p caller waiters hnotifier =>
      cases hnext
      exact hattended.offer hnotifier (hready p caller waiters hnotifier)
    · cases hnext

theorem step {action : Action P} (hready : state.Ready action)
    (hnext : state.step action = some next) : Attended next := by
  cases action with
  | await =>
    rw [State.step] at hnext
    split at hnext
    · cases hnext
      exact hattended.await
    · cases hnext
  | addProc =>
    cases hnext
    exact ⟨hattended.absent, hattended.attended⟩
  | unregisterProcess =>
    rw [State.step] at hnext
    split at hnext
    · cases hnext
      exact ⟨hattended.absent, hattended.attended⟩
    · cases hnext
  | advance => exact hattended.advance hready hnext

end Attended

/-- When nothing is left to be done, the goroutines have no waiters left. -/
theorem waiters_eq_nil_of_quiescent (hquiescent : Quiescent State.advance state)
    {notifier : Notifier P} (hnotifier : notifier ∈ state.notifiers) : notifier.waiters = [] := by
  obtain ⟨index, hindex⟩ := mem_iff_getElem?.1 hnotifier
  obtain ⟨_, waiters⟩ := notifier
  cases waiters with
  | nil => rfl
  | cons =>
    have hnone := hquiescent (.offer index)
    rw [State.advance, hindex] at hnone
    cases hnone

theorem quiescent_of_done (hadding : state.adding = []) (hremoving : state.removing = [])
    (hnotifiers : ∀ notifier ∈ state.notifiers, notifier.waiters = [])
    (hphase : ∀ caller pid, state.phase caller ≠ .registered pid) :
    Quiescent State.advance state := by
  intro advance
  cases advance with
  | select caller =>
    rw [State.advance]
    split
    next pid hregistered => exact absurd hregistered (hphase caller pid)
    · rfl
  | store => rw [State.advance, hadding, List.getElem?_nil]
  | remove => rw [State.advance, hremoving, List.getElem?_nil]
  | offer =>
    rw [State.advance]
    split
    next hnotifier => cases hnotifiers _ (mem_of_getElem? hnotifier)
    · rfl

end State

/-- When processes are offered only to callers that have come to their `select`, no caller is left
waiting for a process that is there. -/
theorem await_never_misses {actions : List (Action P)} {state : State P}
    (hrun : runActions State.step State.initial actions = some state)
    (hready : runActions.Throughout State.step State.Ready State.initial actions)
    (hquiescent : Quiescent State.advance state) :
    ∀ caller pid, state.phase caller = .selecting pid → state.procs pid = none := by
  have hattended : state.Attended :=
    runActions.invariant_of_throughout State.Attended
      (fun _ _ _ haction hnext hbefore => hbefore.step haction hnext) hrun hready
      State.attended_initial
  intro caller pid hphase
  by_contra hpresent
  rcases hattended.attended caller pid (congrArg Phase.awaited? hphase) with hwaiter | hnotified
  · rw [hattended.absent pid hpresent] at hwaiter
    cases hwaiter
  · obtain ⟨_, hnotifier, hmem⟩ := hnotified
    rw [State.waiters_eq_nil_of_quiescent hquiescent hnotifier] at hmem
    cases hmem

/-- A caller in its `select` is reached; one that waits for another process goes on waiting. -/
theorem await_never_misses_received :
    ∃ state : State String, runActions State.step State.initial
        [.await 0 7, .advance (.select 0), .await 1 8, .addProc 7 "curl", .advance (.store 0),
          .advance (.offer 0), .advance (.select 1)] = some state ∧
      state.phase 0 = .returned "curl" ∧ state.phase 1 = .selecting 8 ∧
      Quiescent State.advance state ∧ state.procs 8 = none := by
  have hready : runActions.Throughout State.step State.Ready (State.initial : State String)
      [.await 0 7, .advance (.select 0), .await 1 8, .addProc 7 "curl", .advance (.store 0),
        .advance (.offer 0), .advance (.select 1)] := by
    refine .cons trivial rfl <| .cons trivial rfl <| .cons trivial rfl <| .cons trivial rfl <|
      .cons trivial rfl <| .cons ?_ rfl <| .cons trivial rfl trivial
    intro p caller waiters hnotifier pid
    obtain ⟨-, rfl, -⟩ := Notifier.mk.inj (Option.some.inj hnotifier)
    nofun
  refine ⟨_, rfl, rfl, rfl, (and_iff_left_of_imp fun hquiescent => ?_).2 ?_⟩
  · exact await_never_misses rfl hready hquiescent 1 8 rfl
  · refine State.quiescent_of_done rfl rfl (by decide) ?_
    rintro (_ | _ | caller) pid hphase <;> cases hphase

/-- A caller that comes to its `select` after the process was offered waits on, though the
process is there. -/
theorem await_misses_process :
    ∃ state : State String, runActions State.step State.initial
        [.await 0 7, .addProc 7 "curl", .advance (.store 0), .advance (.offer 0),
          .advance (.select 0)] = some state ∧
      Quiescent State.advance state ∧ state.phase 0 = .selecting 7 ∧
      state.procs 7 = some "curl" := by
  refine ⟨_, rfl, State.quiescent_of_done rfl rfl (by decide) ?_, rfl, rfl⟩
  rintro (_ | caller) pid hphase <;> cases hphase

end Qtap.Processes.Await
