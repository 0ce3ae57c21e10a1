import Mathlib.Tactic

/-!
# Runs of labelled transition systems

A concurrent component is a partial step function: an action is enabled in a state when
the step is defined.  A run is a sequence of actions, so a statement about every run is
a statement about every interleaving of the parties whose actions they are.
-/

namespace Qtap.Core

variable {S A : Type*}

/-- Perform the actions one after another; `none` when one of them is not enabled. -/
def runActions (step : S → A → Option S) : S → List A → Option S
  | state, [] => some state
  | state, action :: actions => (step state action).bind fun next => runActions step next actions

variable {action : A} {actions : List A}

namespace runActions

variable {step : S → A → Option S} {state final : S}

@[simp]
theorem nil : runActions step state [] = some state := rfl

theorem cons_eq_some_iff :
    runActions step state (action :: actions) = some final ↔
      ∃ next, step state action = some next ∧ runActions step next actions = some final := by
  rw [runActions, Option.bind_eq_some_iff]

theorem append (first second : List A) :
    runActions step state (first ++ second) =
      (runActions step state first).bind fun middle => runActions step middle second := by
  induction first generalizing state with
  | nil => rfl
  | cons action actions ih =>
    rw [List.cons_append, runActions, runActions, Option.bind_assoc]
    congr 1
    funext next
    exact ih

/-- Every step of the run is taken in a state where it meets the condition. -/
def Throughout (step : S → A → Option S) (condition : S → A → Prop) : S → List A → Prop
  | _, [] => True
  | state, action :: actions =>
    condition state action ∧
      ∀ next, step state action = some next → Throughout step condition next actions

variable {condition : S → A → Prop}

theorem Throughout.cons {next : S} (haction : condition state action)
    (hnext : step state action = some next) (hactions : Throughout step condition next actions) :
    Throughout step condition state (action :: actions) := by
  refine ⟨haction, fun other hother => ?_⟩
  rw [hnext, Option.some.injEq] at hother
  exact hother ▸ hactions

/-- Actions that meet the condition in every state. -/
theorem Throughout.of_forall (hactions : ∀ state, ∀ action ∈ actions, condition state action) :
    Throughout step condition state actions := by
  induction actions generalizing state with
  | nil => trivial
  | cons action actions ih =>
    refine ⟨hactions state action List.mem_cons_self, fun next _ =>
      ih fun state other hother => ?_⟩
    exact hactions state other (List.mem_cons_of_mem _ hother)

theorem Throughout.append {first second : List A} (hfirst : Throughout step condition state first)
    (hsecond : ∀ middle, runActions step state first = some middle →
      Throughout step condition middle second) :
    Throughout step condition state (first ++ second) := by
  induction first generalizing state with
  | nil => exact hsecond state rfl
  | cons action actions ih =>
    refine ⟨hfirst.1, fun next hnext => ih (hfirst.2 next hnext) fun middle hmiddle => ?_⟩
    exact hsecond middle (cons_eq_some_iff.2 ⟨next, hnext, hmiddle⟩)

/-- What every step that meets the condition preserves, every such run preserves. -/
theorem invariant_of_throughout (holds : S → Prop)
    (hstep : ∀ state action next, condition state action → step state action = some next →
      holds state → holds next) (hrun : runActions step state actions = some final)
    (hactions : Throughout step condition state actions) (hstate : holds state) : holds final := by
  induction actions generalizing state with
  | nil =>
    rw [nil, Option.some.injEq] at hrun
    exact hrun ▸ hstate
  | cons action actions ih =>
    obtain ⟨next, hnext, hrest⟩ := cons_eq_some_iff.1 hrun
    exact ih hrest (hactions.2 next hnext) (hstep state action next hactions.1 hnext hstate)

/-- What every step preserves, every run preserves. -/
theorem invariant (holds : S → Prop)
    (hstep : ∀ state action next, step state action = some next → holds state → holds next)
    (hrun : runActions step state actions = some final) (hstate : holds state) : holds final :=
  invariant_of_throughout holds (fun state action next _ => hstep state action next) hrun
    (Throughout.of_forall fun _ _ _ => trivial) hstate

end runActions

/-- No action is enabled: a run that ends here cannot be continued. -/
def Quiescent (step : S → A → Option S) (state : S) : Prop := ∀ action, step state action = none

theorem runActions.of_quiescent {step : S → A → Option S} {state final : S}
    (hquiescent : Quiescent step state) (hrun : runActions step state actions = some final) :
    final = state := by
  cases actions with
  | nil => exact (Option.some.inj hrun).symm
  | cons action =>
    rw [runActions, hquiescent action] at hrun
    cases hrun

/-- If every step decreases a well-founded weight, every state runs to a quiescent one. -/
theorem exists_quiescent {W : Type*} [Preorder W] [WellFoundedLT W] {step : S → A → Option S}
    {weight : S → W}
    (hdecrease : ∀ state action next, step state action = some next → weight next < weight state)
    {state : S} : ∃ actions final, runActions step state actions = some final ∧
      Quiescent step final := by
  induction state using (InvImage.wf weight wellFounded_lt).induction with
  | _ state ih =>
    by_cases hquiescent : Quiescent step state
    · exact ⟨[], state, rfl, hquiescent⟩
    · obtain ⟨action, haction⟩ := not_forall.1 hquiescent
      obtain ⟨next, hnext⟩ := Option.ne_none_iff_exists'.1 haction
      obtain ⟨actions, final, hrun, hfinal⟩ := ih next (hdecrease state action next hnext)
      exact ⟨action :: actions, final, runActions.cons_eq_some_iff.2 ⟨next, hnext, hrun⟩, hfinal⟩

/-! ## Runs that stay in a set of states -/

/-- Only the steps into states that are kept. -/
def restrict (keep : S → Bool) (step : S → A → Option S) (state : S) (action : A) : Option S :=
  (step state action).filter keep

namespace restrict

variable {keep : S → Bool} {step : S → A → Option S} {state next final : S}

theorem eq_some_iff :
    restrict keep step state action = some next ↔
      step state action = some next ∧ keep next = true :=
  Option.filter_eq_some_iff

section

variable (hrun : runActions (restrict keep step) state actions = some final)

include hrun

theorem run : runActions step state actions = some final := by
  induction actions generalizing state with
  | nil => exact hrun
  | cons action actions ih =>
    obtain ⟨next, hnext, hrest⟩ := runActions.cons_eq_some_iff.1 hrun
    exact runActions.cons_eq_some_iff.2 ⟨next, (eq_some_iff.1 hnext).1, ih hrest⟩

theorem run_keep (hstate : keep state = true) : keep final = true :=
  runActions.invariant (fun state => keep state = true)
    (fun _ _ _ hnext _ => (eq_some_iff.1 hnext).2) hrun hstate

end

/-- At rest every step left leads out of the set. -/
theorem keep_eq_false (hquiescent : Quiescent (restrict keep step) state)
    (hnext : step state action = some next) : keep next = false := by
  rw [← Bool.not_eq_true]
  intro hkeep
  have hnone := hquiescent action
  rw [eq_some_iff.2 ⟨hnext, hkeep⟩] at hnone
  cases hnone

end restrict

end Qtap.Core
