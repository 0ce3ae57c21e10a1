import Qtap.Tls.Coordinator

/-!
# Validity of tokens

A token that was superseded stays invalid as long as no `Start` hands out its version once
more.  `Cleanup` forgets the version of its key, so that the next `Start` counts from one
again and revives the tokens of that version.
-/

namespace Qtap.Tls.State

open Coordinator Function Qtap.Core

variable {K : Type*} [DecidableEq K] {state next : State K} {action : Action K}

/-- No token of the key has the version that the `Start` hands out. -/
def Fresh (state : State K) : Action K → Prop
  | .start key => ∀ token ∈ state.tokens, token.key = key →
      token.version ≠ state.coordinator.version key + 1
  | _ => True

/-- What the versions and the history have in common. -/
structure Settled (state : State K) : Prop where
  positive : ∀ token ∈ state.tokens, 0 < token.version
  invalid : ∀ token ∈ state.tokens, state.Superseded token →
    state.coordinator.version token.key ≠ token.version

omit [DecidableEq K] in
theorem settled_initial : (initial : State K).Settled := ⟨nofun, nofun⟩

/-- The versions, the tokens and the history are those of the state before. -/
structure SameTokens (state next : State K) : Prop where
  version : next.coordinator.version = state.coordinator.version
  tokens : next.tokens = state.tokens
  clock : next.clock = state.clock
  touched : next.touched = state.touched
  cleaned : next.cleaned = state.cleaned

omit [DecidableEq K] in
theorem proceed_sameTokens {call : ℕ} {token : OpToken K}
    {entry : Coordinator K × Coordinator.Entry}
    (hversion : entry.1.version = state.coordinator.version) :
    SameTokens state (state.proceed call token entry) := by
  rw [proceed]
  split <;> exact ⟨hversion, rfl, rfl, rfl, rfl⟩

theorem GoesOn.version {coordinator after : Coordinator K} {token : OpToken K}
    {before phase : Phase} (hgoes : GoesOn coordinator token before after phase) :
    after.version = coordinator.version := by
  cases hgoes with
  | leave => exact version_leave _ _ _
  | _ => rfl

/-- Only `Start` and `Cleanup` change versions. -/
theorem CallStep.sameTokens (hstep : CallStep state action next) : SameTokens state next := by
  cases hstep with
  | execute => exact proceed_sameTokens (version_enter _ _)
  | resume => exact proceed_sameTokens (version_reenter _ _)
  | goOn _ hgoes => exact ⟨hgoes.version, rfl, rfl, rfl, rfl⟩
  | exit => exact ⟨rfl, rfl, rfl, rfl, rfl⟩

omit [DecidableEq K] in
theorem SameTokens.settled (hsame : SameTokens state next) (hsettled : state.Settled) :
    next.Settled where
  positive := hsame.tokens ▸ hsettled.positive
  invalid := by
    rw [hsame.tokens, hsame.version]
    intro token htoken hsuperseded
    rw [Superseded, hsame.touched] at hsuperseded
    exact hsettled.invalid token htoken hsuperseded

theorem Settled.start {key : K} (hsettled : state.Settled) (hfresh : state.Fresh (.start key))
    (hnext : state.step (.start key) = some next) : next.Settled := by
  cases hnext
  constructor
  · exact List.forall_mem_append.2 ⟨hsettled.positive, List.forall_mem_singleton.2 (Nat.succ_pos _)⟩
  · intro token htoken hsuperseded
    rcases List.mem_append.1 htoken with htoken | htoken
    · by_cases hkey : token.key = key
      · rw [hkey, version_start_self]
        exact (hfresh token htoken hkey).symm
      · rw [version_start_of_ne _ _ hkey]
        apply hsettled.invalid token htoken
        simp only [Superseded, update_of_ne hkey] at hsuperseded
        exact hsuperseded
    · simp only [List.mem_singleton.1 htoken, Superseded, update_self] at hsuperseded
      exact absurd hsuperseded (Nat.lt_irrefl _)

theorem Settled.cleanup {key : K} {cancelInflight : Bool} (hsettled : state.Settled)
    (hnext : state.step (.cleanup key cancelInflight) = some next) : next.Settled := by
  cases hnext
  refine ⟨hsettled.positive, fun token htoken hsuperseded => ?_⟩
  by_cases hkey : token.key = key
  · rw [hkey, version_cleanup_self]
    exact (hsettled.positive token htoken).ne
  · rw [version_cleanup_of_ne _ _ hkey]
    apply hsettled.invalid token htoken
    simp only [Superseded, update_of_ne hkey] at hsuperseded
    exact hsuperseded

theorem Settled.step (hsettled : state.Settled) (hfresh : state.Fresh action)
    (hnext : state.step action = some next) : next.Settled := by
  cases action with
  | start => exact hsettled.start hfresh hnext
  | cleanup => exact hsettled.cleanup hnext
  | _ => exact (callStep_of_step nofun nofun hnext).sameTokens.settled hsettled

/-! ## Functions start under valid tokens -/

omit [DecidableEq K] in
theorem proceed_runs {call given : ℕ} {token running : OpToken K}
    {entry : Coordinator K × Coordinator.Entry}
    (hruns : (state.proceed call token entry).Runs given running)
    (hbefore : ¬ state.Runs given running) : running = token ∧ ∃ op, entry.2 = .begun op := by
  obtain ⟨op, hcall⟩ := hruns
  rw [proceed] at hcall
  split at hcall
  next => exact absurd ⟨op, update_none_eq_some hcall⟩ hbefore
  next =>
    rcases update_some_eq_some hcall with ⟨_, hinfo⟩ | hcall
    · cases hinfo
    · exact absurd ⟨op, hcall⟩ hbefore
  next begun hentry =>
    rcases update_some_eq_some hcall with ⟨_, hinfo⟩ | hcall
    · exact ⟨congrArg Call.token hinfo, begun, hentry⟩
    · exact absurd ⟨op, hcall⟩ hbefore

omit [DecidableEq K] in
/-- A call whose phase is set to another one than running does not start to run. -/
theorem not_starts_of_setPhase {call given : ℕ} {token running : OpToken K} {phase : Phase}
    (hruns : (state.setPhase call token phase).Runs given running)
    (hphase : ∀ op, phase ≠ .running op) : state.Runs given running := by
  obtain ⟨op, hcall⟩ := hruns
  rcases update_some_eq_some hcall with ⟨_, hinfo⟩ | hcall
  · exact absurd (congrArg Call.phase hinfo).symm (hphase op)
  · exact ⟨op, hcall⟩

section

variable {call : ℕ} {token : OpToken K} (hbefore : ¬ state.Runs call token)
  (hruns : next.Runs call token)

include hbefore hruns

theorem CallStep.starts_valid (hstep : CallStep state action next) :
    state.coordinator.isValid token = true := by
  cases hstep with
  | execute =>
    obtain ⟨rfl, op, hentry⟩ := proceed_runs hruns hbefore
    rcases state.coordinator.enter_cases token with hstale | ⟨_, _, hblocked⟩ | ⟨hvalid, -⟩
    · cases hstale ▸ hentry
    · cases hblocked ▸ hentry
    · exact hvalid
  | resume =>
    obtain ⟨rfl, op, hentry⟩ := proceed_runs hruns hbefore
    rw [reenter] at hentry
    by_contra hinvalid
    rw [if_neg hinvalid] at hentry
    cases hentry
  | goOn _ hgoes =>
    refine absurd (not_starts_of_setPhase hruns ?_) hbefore
    cases hgoes <;> simp
  | exit =>
    obtain ⟨op, hcall⟩ := hruns
    exact absurd ⟨op, update_none_eq_some hcall⟩ hbefore

theorem starts_valid (hnext : state.step action = some next) :
    state.coordinator.isValid token = true := by
  cases action with
  | start key | cleanup key cancelInflight =>
    cases hnext
    exact absurd hruns hbefore
  | _ => exact (callStep_of_step nofun nofun hnext).starts_valid hbefore hruns

end

/-- In a run in which no `Start` repeats a version, a superseded token is never valid again
and no function starts to run under it. -/
theorem superseded_never_valid {actions : List (Action K)}
    (hrun : runActions step initial actions = some state)
    (hfresh : runActions.Throughout step Fresh initial actions) :
    (∀ token ∈ state.tokens, state.Superseded token → state.coordinator.isValid token = false) ∧
    ∀ action next call, state.step action = some next → ∀ token ∈ state.tokens,
      state.Superseded token → next.Runs call token → state.Runs call token := by
  have hsettled : state.Settled := runActions.invariant_of_throughout Settled
    (fun _ _ _ haction hnext hbefore => hbefore.step haction hnext) hrun hfresh settled_initial
  have hinvalid : ∀ token ∈ state.tokens, state.Superseded token →
      state.coordinator.isValid token = false := by
    intro token htoken hsuperseded
    exact decide_eq_false (hsettled.invalid token htoken hsuperseded)
  refine ⟨hinvalid, fun action next call hnext token htoken hsuperseded hruns => ?_⟩
  by_contra hbefore
  have hvalid := starts_valid hbefore hruns hnext
  rw [hinvalid token htoken hsuperseded] at hvalid
  exact absurd hvalid Bool.false_ne_true

/-- Two operations, one after the other, and the end of the key. -/
def oneAfterAnother : List (Action ℕ) :=
  [.start 7, .execute 0 ⟨7, 1, 1⟩, .start 7, .execute 1 ⟨7, 2, 2⟩, .supersede 1, .finish 0,
    .resume 1, .cleanup 7 true]

theorem superseded_never_valid_oneAfterAnother :
    ∃ state : State ℕ, runActions step initial oneAfterAnother = some state ∧
      (∀ token ∈ state.tokens, state.Superseded token →
        state.coordinator.isValid token = false) ∧
      ∀ action next call, state.step action = some next → ∀ token ∈ state.tokens,
        state.Superseded token → next.Runs call token → state.Runs call token := by
  have hfresh : runActions.Throughout step Fresh (initial : State ℕ) oneAfterAnother := by
    refine .cons nofun rfl <| .cons trivial rfl <| .cons ?_ rfl <| .cons trivial rfl <|
      .cons trivial rfl <| .cons trivial rfl <| .cons trivial rfl <| .cons trivial rfl trivial
    intro token htoken _
    rw [List.mem_singleton.1 htoken]
    decide
  exact ⟨_, rfl, superseded_never_valid rfl hfresh⟩

/-- After a `Cleanup` the next `Start` revives the first token, and its function runs. -/
theorem superseded_valid_again :
    ∃ state next : State ℕ,
      runActions step initial [.start 7, .cleanup 7 true, .start 7] = some state ∧
      (⟨7, 1, 1⟩ : OpToken ℕ) ∈ state.tokens ∧ state.Superseded ⟨7, 1, 1⟩ ∧
      state.coordinator.isValid ⟨7, 1, 1⟩ = true ∧
      state.step (.execute 0 ⟨7, 1, 1⟩) = some next ∧ ¬ state.Runs 0 ⟨7, 1, 1⟩ ∧
      next.Runs 0 ⟨7, 1, 1⟩ :=
  ⟨_, _, rfl, List.mem_cons_self, (by decide : 1 < 3), rfl, rfl, nofun, ⟨0, rfl⟩⟩

end Qtap.Tls.State
