import Mathlib.Tactic

/-!
# Rules about the order of events

A rule says what must have happened before an event; a trace keeps the rule when every
event of it does, given the events before it.  Appending events that keep the rule after
the trace keeps it.
-/

namespace Qtap.Core

open List

variable {A : Type*}

/-- Every event of the trace satisfies the rule with respect to the events before it. -/
def Keeps (rule : List A → A → Prop) (trace : List A) : Prop :=
  ∀ before event after, trace = before ++ event :: after → rule before event

namespace Keeps

variable {rule : List A → A → Prop} {trace : List A}

theorem nil : Keeps rule [] := by
  intro before event after htrace
  exact absurd htrace.symm (append_ne_nil_of_right_ne_nil _ (cons_ne_nil _ _))

theorem snoc {event : A} (htrace : Keeps rule trace) (hevent : rule trace event) :
    Keeps rule (trace ++ [event]) := by
  intro before other after hsplit
  rcases eq_nil_or_concat after with rfl | ⟨middle, last, rfl⟩
  · obtain ⟨rfl, hlast⟩ := append_inj' hsplit rfl
    rwa [← singleton_injective hlast]
  · rw [concat_eq_append, ← cons_append, ← append_assoc] at hsplit
    exact htrace before other middle (append_inj' hsplit rfl).1

/-- Events that keep a rule whose demands stay met. -/
theorem append (hmono : ∀ {before more : List A} {event : A}, rule before event →
    rule (before ++ more) event) {events : List A} (htrace : Keeps rule trace)
    (hevents : ∀ event ∈ events, rule trace event) : Keeps rule (trace ++ events) := by
  induction events using List.reverseRecOn with
  | nil => rwa [append_nil]
  | append_singleton events event ih =>
    rw [← append_assoc]
    apply snoc
    · exact ih fun other hother => hevents other (mem_append_left _ hother)
    · exact hmono (hevents event (mem_append_right _ (mem_singleton_self _)))

end Keeps

end Qtap.Core
