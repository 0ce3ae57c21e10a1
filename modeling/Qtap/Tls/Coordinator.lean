import Qtap.Core.Table
import Qtap.Core.Transition

/-!
# Coordination of operations by key

`KeyedCoordinator` hands out tokens; each `Start` for a key raises its version, and a token
is valid while its version is the one of its key.  `Execute` runs a function under a valid
token, after the operation in flight for the key has ended; `Cleanup` forgets the key.
Each lock region of the code is one step here, so that a run is an interleaving of any
goroutines.

The number of the `Start` or `Cleanup` that was last seen for a key belongs to the
history and is not read by the code.
-/

namespace Qtap.Tls

open Function Qtap.Core

variable {K : Type*}

/-- A token; the history knows by which `Start` it was issued. -/
structure OpToken (K : Type*) where
  key : K
  version : ℕ
  issuedAt : ℕ
  deriving DecidableEq, Repr

/-- `KeyedCoordinator`; operations are numbered in the order of their creation. -/
structure Coordinator (K : Type*) where
  versions : K → Option ℕ
  inflight : K → Option ℕ
  created : ℕ
  done : ℕ → Bool
  cancelled : ℕ → Bool

namespace Coordinator

/-- `NewKeyedCoordinator`. -/
def empty : Coordinator K where
  versions := fun _ => none
  inflight := fun _ => none
  created := 0
  done := fun _ => false
  cancelled := fun _ => false

/-- A missing key reads as zero. -/
def version (coordinator : Coordinator K) (key : K) : ℕ := (coordinator.versions key).getD 0

/-- How the first lock region of `Execute` ends. -/
inductive Entry where
  | stale
  | blocked (old : ℕ)
  | begun (op : ℕ)
  deriving DecidableEq, Repr

variable [DecidableEq K]

/-- `Start`, apart from the token that it returns. -/
def start (coordinator : Coordinator K) (key : K) : Coordinator K :=
  { coordinator with
    versions := Function.update coordinator.versions key (some (coordinator.version key + 1)) }

def cancel (coordinator : Coordinator K) (op : ℕ) : Coordinator K :=
  { coordinator with cancelled := Function.update coordinator.cancelled op true }

def cleanup (coordinator : Coordinator K) (key : K) (cancelInflight : Bool) : Coordinator K :=
  let cancelled :=
    match coordinator.inflight key with
    | some op => if cancelInflight then coordinator.cancel op else coordinator
    | none => coordinator
  { cancelled with
    versions := Function.update coordinator.versions key none
    inflight := Function.update coordinator.inflight key none }

def isValid (coordinator : Coordinator K) (token : OpToken K) : Bool :=
  coordinator.version token.key = token.version

/-- A new operation in flight. -/
def install (coordinator : Coordinator K) (key : K) : Coordinator K :=
  { coordinator with
    inflight := Function.update coordinator.inflight key (some coordinator.created)
    created := coordinator.created + 1 }

/-- The first lock region of `Execute`. -/
def enter (coordinator : Coordinator K) (token : OpToken K) : Coordinator K × Entry :=
  if coordinator.isValid token then
    match coordinator.inflight token.key with
    | some old => (coordinator, .blocked old)
    | none => (coordinator.install token.key, .begun coordinator.created)
  else (coordinator, .stale)

/-- The lock region after the wait for the operation that was in flight. -/
def reenter (coordinator : Coordinator K) (token : OpToken K) : Coordinator K × Entry :=
  if coordinator.isValid token then
    (coordinator.install token.key, .begun coordinator.created)
  else (coordinator, .stale)

/-- `close(op.done)`. -/
def finish (coordinator : Coordinator K) (op : ℕ) : Coordinator K :=
  { coordinator with done := Function.update coordinator.done op true }

/-- The last lock region of `Execute`. -/
def leave (coordinator : Coordinator K) (key : K) (op : ℕ) : Coordinator K :=
  if coordinator.inflight key = some op then
    { coordinator with inflight := Function.update coordinator.inflight key none }
  else coordinator

section Versions

variable (coordinator : Coordinator K) (key : K) (op : ℕ) (token : OpToken K)

theorem version_start_self : (coordinator.start key).version key = coordinator.version key + 1 := by
  simp [version, start]

variable {other : K}

theorem version_start_of_ne (hother : other ≠ key) :
    (coordinator.start key).version other = coordinator.version other := by
  simp only [version, start, update_of_ne hother]

theorem version_cleanup_self (cancelInflight : Bool) :
    (coordinator.cleanup key cancelInflight).version key = 0 := by
  simp [version, cleanup]

theorem version_cleanup_of_ne (hother : other ≠ key) (cancelInflight : Bool) :
    (coordinator.cleanup key cancelInflight).version other = coordinator.version other := by
  simp only [version, cleanup, update_of_ne hother]

theorem version_enter : (coordinator.enter token).1.version = coordinator.version := by
  rw [enter]
  split
  · split <;> rfl
  · rfl

theorem version_reenter : (coordinator.reenter token).1.version = coordinator.version := by
  rw [reenter]
  split <;> rfl

theorem version_leave : (coordinator.leave key op).version = coordinator.version := by
  rw [leave]
  split <;> rfl

theorem created_leave : (coordinator.leave key op).created = coordinator.created := by
  rw [leave]
  split <;> rfl

theorem done_leave : (coordinator.leave key op).done = coordinator.done := by
  rw [leave]
  split <;> rfl

/-- The last lock region leaves the operations of others in flight. -/
theorem inflight_leave_of_ne {found : ℕ} (hfound : coordinator.inflight other = some found)
    (hne : found ≠ op) : (coordinator.leave key op).inflight other = some found := by
  rw [leave]
  split
  next hinflight =>
    have hother : other ≠ key := by
      rintro rfl
      exact hne (Option.some.inj (hfound.symm.trans hinflight))
    exact (update_of_ne hother _ _).trans hfound
  next => exact hfound

end Versions

theorem enter_cases (coordinator : Coordinator K) (token : OpToken K) :
    coordinator.enter token = (coordinator, .stale) ∨
      (∃ old, coordinator.inflight token.key = some old ∧
        coordinator.enter token = (coordinator, .blocked old)) ∨
      coordinator.isValid token = true ∧ coordinator.inflight token.key = none ∧
        coordinator.enter token = (coordinator.install token.key, .begun coordinator.created) := by
  rw [enter]
  split
  next hvalid =>
    split
    next old hinflight => exact .inr (.inl ⟨old, hinflight, rfl⟩)
    next hinflight => exact .inr (.inr ⟨hvalid, hinflight, rfl⟩)
  next => exact .inl rfl

end Coordinator

/-- Where a call of `Execute` stands. -/
inductive Phase where
  | superseding (old : ℕ)
  | waiting (old : ℕ)
  | running (op : ℕ)
  | closing (op : ℕ)
  | returning
  deriving DecidableEq, Repr

structure Call (K : Type*) where
  token : OpToken K
  phase : Phase
  deriving DecidableEq, Repr

/-- The coordinator, the tokens and the calls of `Execute` in progress; for the history, the
number of calls of `Start` and `Cleanup`, and for each key the last of them and the last
`Cleanup`. -/
structure State (K : Type*) where
  coordinator : Coordinator K
  tokens : List (OpToken K)
  calls : ℕ → Option (Call K)
  clock : ℕ
  touched : K → ℕ
  cleaned : K → ℕ

inductive Action (K : Type*) where
  | start (key : K)
  | cleanup (key : K) (cancelInflight : Bool)
  | execute (call : ℕ) (token : OpToken K)
  | supersede (call : ℕ)
  | resume (call : ℕ)
  | finish (call : ℕ)
  | leave (call : ℕ)
  | exit (call : ℕ)
  deriving DecidableEq, Repr

namespace State

def initial : State K where
  coordinator := .empty
  tokens := []
  calls := fun _ => none
  clock := 0
  touched := fun _ => 0
  cleaned := fun _ => 0

/-- A `Start` or a `Cleanup` for the key came after the token was issued. -/
def Superseded (state : State K) (token : OpToken K) : Prop :=
  token.issuedAt < state.touched token.key

/-- A `Cleanup` for the key came after the token was issued. -/
def Retired (state : State K) (token : OpToken K) : Prop :=
  token.issuedAt < state.cleaned token.key

/-- The function of the call is running, under this token. -/
def Runs (state : State K) (call : ℕ) (token : OpToken K) : Prop :=
  ∃ op, state.calls call = some ⟨token, .running op⟩

variable [DecidableEq K]

def setPhase (state : State K) (call : ℕ) (token : OpToken K) (phase : Phase) : State K :=
  { state with calls := Function.update state.calls call (some ⟨token, phase⟩) }

def endCall (state : State K) (call : ℕ) : State K :=
  { state with calls := Function.update state.calls call none }

/-- A stale call returns, another waits, and one that may begins. -/
def proceed (state : State K) (call : ℕ) (token : OpToken K)
    (entry : Coordinator K × Coordinator.Entry) : State K :=
  match entry.2 with
  | .stale => { state with coordinator := entry.1 }.endCall call
  | .blocked old => { state with coordinator := entry.1 }.setPhase call token (.superseding old)
  | .begun op => { state with coordinator := entry.1 }.setPhase call token (.running op)

def step (state : State K) : Action K → Option (State K)
  | .start key =>
    some { state with
      coordinator := state.coordinator.start key
      tokens := state.tokens ++ [⟨key, state.coordinator.version key + 1, state.clock + 1⟩]
      clock := state.clock + 1
      touched := Function.update state.touched key (state.clock + 1) }
  | .cleanup key cancelInflight =>
    some { state with
      coordinator := state.coordinator.cleanup key cancelInflight
      clock := state.clock + 1
      touched := Function.update state.touched key (state.clock + 1)
      cleaned := Function.update state.cleaned key (state.clock + 1) }
  | .execute call token =>
    if state.calls call = none ∧ token ∈ state.tokens then
      some (state.proceed call token (state.coordinator.enter token))
    else none
  | .supersede call =>
    match state.calls call with
    | some ⟨token, .superseding old⟩ =>
      some ({ state with coordinator := state.coordinator.cancel old }.setPhase call token
        (.waiting old))
    | _ => none
  | .resume call =>
    match state.calls call with
    | some ⟨token, .waiting old⟩ =>
      if state.coordinator.done old then
        some (state.proceed call token (state.coordinator.reenter token))
      else none
    | _ => none
  | .finish call =>
    match state.calls call with
    | some ⟨token, .running op⟩ =>
      some ({ state with coordinator := state.coordinator.finish op }.setPhase call token
        (.closing op))
    | _ => none
  | .leave call =>
    match state.calls call with
    | some ⟨token, .closing op⟩ =>
      some ({ state with coordinator := state.coordinator.leave token.key op }.setPhase call
        token .returning)
    | _ => none
  | .exit call =>
    match state.calls call with
    | some ⟨_, .returning⟩ => some (state.endCall call)
    | _ => none

/-! ## What each step does -/

/-- A call goes on under its token, with what that does to the coordinator. -/
inductive GoesOn (coordinator : Coordinator K) (token : OpToken K) :
    Phase → Coordinator K → Phase → Prop
  | supersede (old : ℕ) :
    GoesOn coordinator token (.superseding old) (coordinator.cancel old) (.waiting old)
  | finish (op : ℕ) : GoesOn coordinator token (.running op) (coordinator.finish op) (.closing op)
  | leave (op : ℕ) :
    GoesOn coordinator token (.closing op) (coordinator.leave token.key op) .returning

/-- A step of one call. -/
inductive CallStep (state : State K) : Action K → State K → Prop
  | execute {call : ℕ} {token : OpToken K} (htoken : token ∈ state.tokens) :
    CallStep state (.execute call token) (state.proceed call token (state.coordinator.enter token))
  | resume {call : ℕ} {token : OpToken K} {old : ℕ}
    (hcall : state.calls call = some ⟨token, .waiting old⟩)
    (hdone : state.coordinator.done old = true) :
    CallStep state (.resume call) (state.proceed call token (state.coordinator.reenter token))
  | goOn {action : Action K} {call : ℕ} {token : OpToken K} {before phase : Phase}
    {coordinator : Coordinator K} (hcall : state.calls call = some ⟨token, before⟩)
    (hgoes : GoesOn state.coordinator token before coordinator phase) :
    CallStep state action ({ state with coordinator := coordinator }.setPhase call token phase)
  | exit {call : ℕ} : CallStep state (.exit call) (state.endCall call)

theorem callStep_of_step {state next : State K} {action : Action K}
    (hstart : ∀ key, action ≠ .start key)
    (hcleanup : ∀ key cancelInflight, action ≠ .cleanup key cancelInflight)
    (hnext : state.step action = some next) : CallStep state action next := by
  cases action with
  | start key => exact absurd rfl (hstart key)
  | cleanup key cancelInflight => exact absurd rfl (hcleanup key cancelInflight)
  | execute =>
    obtain ⟨⟨_, htoken⟩, hnext⟩ := Option.ite_none_right_eq_some.1 hnext
    cases hnext
    exact .execute htoken
  | resume =>
    simp only [step] at hnext
    split at hnext
    next hcall =>
      obtain ⟨hdone, hnext⟩ := Option.ite_none_right_eq_some.1 hnext
      cases hnext
      exact .resume hcall hdone
    next => cases hnext
  | supersede | finish | leave =>
    simp only [step] at hnext
    split at hnext <;> cases hnext
    next hcall => exact .goOn hcall (by constructor)
  | exit =>
    simp only [step] at hnext
    split at hnext <;> cases hnext
    exact .exit

end State

end Qtap.Tls
