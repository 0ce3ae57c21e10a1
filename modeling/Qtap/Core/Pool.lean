import Qtap.Core.Transition

/-!
# Goroutines over shared state

A pool is shared state together with the goroutines and calls in flight.  A call may change the
shared state and starts some routines; a step takes one routine up to its next point where others
may come in between, and leaves what it goes on with and what it started.  What the routine meets
on the way from outside is a choice that comes with the step.  A run of the pool is an
interleaving of such steps.
-/

namespace Qtap.Core

open List

variable {G R C D : Type*}

structure Pool (G R : Type*) where
  shared : G
  routines : List R
  deriving DecidableEq, Repr

namespace Pool

inductive Action (C D : Type*) where
  | call (call : C)
  | advance (index : ℕ) (choice : D)
  deriving DecidableEq, Repr

variable (start : G → C → Option (G × List R)) (resume : G → R → D → Option (G × List R))

def advance (pool : Pool G R) (index : ℕ) (choice : D) : Option (Pool G R) :=
  match pool.routines[index]? with
  | some routine =>
    (resume pool.shared routine choice).map fun after =>
      ⟨after.1, pool.routines.eraseIdx index ++ after.2⟩
  | none => none

def step (pool : Pool G R) : Action C D → Option (Pool G R)
  | .call call => (start pool.shared call).map fun after => ⟨after.1, pool.routines ++ after.2⟩
  | .advance index choice => pool.advance resume index choice

/-- No call or goroutine is in flight. -/
def Idle (pool : Pool G R) : Prop := pool.routines = []

variable {start resume} {pool next : Pool G R}

/-- A step of the pool is the step of one routine, with those before and after it as they were. -/
theorem advance_eq_append {index : ℕ} {choice : D}
    (hnext : pool.advance resume index choice = some next) :
    ∃ before routine after shared rest, pool.routines[index]? = some routine ∧
      pool.routines = before ++ routine :: after ∧
      resume pool.shared routine choice = some (shared, rest) ∧
      next = ⟨shared, before ++ after ++ rest⟩ := by
  rw [advance] at hnext
  split at hnext
  next hroutine =>
    obtain ⟨⟨shared, rest⟩, hresume, rfl⟩ := Option.map_eq_some_iff.1 hnext
    obtain ⟨_, rfl⟩ := List.getElem?_eq_some_iff.1 hroutine
    refine ⟨pool.routines.take index, _, pool.routines.drop (index + 1), shared, rest, hroutine,
      ?_, hresume, ?_⟩
    · rw [getElem_cons_drop, take_append_drop]
    · rw [eraseIdx_eq_take_drop_succ]
  · cases hnext

theorem advance_eq_some {index : ℕ} {choice : D}
    (hnext : pool.advance resume index choice = some next) :
    ∃ routine others shared rest, pool.routines[index]? = some routine ∧
      pool.routines.Perm (routine :: others) ∧
      resume pool.shared routine choice = some (shared, rest) ∧
      next = ⟨shared, others ++ rest⟩ := by
  obtain ⟨before, routine, after, shared, rest, hroutine, hroutines, hresume, rfl⟩ :=
    advance_eq_append hnext
  refine ⟨routine, before ++ after, shared, rest, hroutine, ?_, hresume, rfl⟩
  rw [hroutines]
  exact perm_middle

theorem call_eq_some {call : C} (hnext : pool.step start resume (.call call) = some next) :
    ∃ shared started, start pool.shared call = some (shared, started) ∧
      next = ⟨shared, pool.routines ++ started⟩ := by
  obtain ⟨⟨shared, started⟩, hstart, rfl⟩ := Option.map_eq_some_iff.1 hnext
  exact ⟨shared, started, hstart, rfl⟩

/-! ## What the routines have in common -/

section Replace

variable {routine : R} {routines others rest : List R} {holds : R → Prop}

/-- Where the routines are of both kinds at once nothing is in flight. -/
theorem eq_nil_of_forall {kind : R → Bool} (htrue : ∀ routine ∈ routines, kind routine = true)
    (hfalse : ∀ routine ∈ routines, kind routine = false) : routines = [] :=
  eq_nil_iff_forall_not_mem.2 fun routine hroutine =>
    Bool.false_ne_true ((hfalse routine hroutine).symm.trans (htrue routine hroutine))

/-- A routine is still in flight when others are started. -/
theorem exists_mem_started (hroutines : ∃ routine ∈ routines, holds routine) :
    ∃ routine ∈ routines ++ rest, holds routine := by
  obtain ⟨routine, hroutine, hholds⟩ := hroutines
  exact ⟨routine, mem_append_left _ hroutine, hholds⟩

theorem forall_mem_started {started : R} (hroutines : ∀ routine ∈ routines, holds routine)
    (hstarted : holds started) : ∀ routine ∈ routines ++ [started], holds routine :=
  forall_mem_append.2 ⟨hroutines, forall_mem_singleton.2 hstarted⟩

theorem exists_mem_last {started : R} (hstarted : holds started) :
    ∃ routine ∈ routines ++ [started], holds routine :=
  ⟨started, mem_append_right _ mem_cons_self, hstarted⟩

variable {counts : R → Bool} {after other : R} (hperm : routines.Perm (routine :: others))

include hperm

theorem mem_of_stepped : routine ∈ routines :=
  hperm.mem_iff.2 mem_cons_self

theorem mem_of_other (hother : other ∈ others) : other ∈ routines :=
  hperm.mem_iff.2 (mem_cons_of_mem _ hother)

/-- What holds of the routines before a step and of what the step leaves holds after it. -/
theorem forall_mem_replace (hroutines : ∀ routine ∈ routines, holds routine)
    (hrest : ∀ routine ∈ rest, holds routine) : ∀ routine ∈ others ++ rest, holds routine :=
  forall_mem_append.2 ⟨fun other hbefore => hroutines other (mem_of_other hperm hbefore), hrest⟩

theorem forall_mem_replace_singleton (hroutines : ∀ routine ∈ routines, holds routine)
    (hafter : holds after) : ∀ routine ∈ others ++ [after], holds routine :=
  forall_mem_replace hperm hroutines (forall_mem_singleton.2 hafter)

/-- A routine of a kind is left when the step leaves one in place of one. -/
theorem exists_mem_replace (hrest : holds routine → ∃ routine ∈ rest, holds routine)
    (hroutines : ∃ routine ∈ routines, holds routine) :
    ∃ routine ∈ others ++ rest, holds routine := by
  obtain ⟨other, hother, hholds⟩ := hroutines
  rcases mem_cons.1 (hperm.mem_iff.1 hother) with rfl | hbefore
  · obtain ⟨started, hstarted, hholds⟩ := hrest hholds
    exact ⟨started, mem_append_right _ hstarted, hholds⟩
  · exact ⟨other, mem_append_left _ hbefore, hholds⟩

theorem exists_mem_replace_singleton
    (hafter : holds routine → holds after) (hroutines : ∃ routine ∈ routines, holds routine) :
    ∃ routine ∈ others ++ [after], holds routine :=
  exists_mem_replace hperm (fun hholds => ⟨after, mem_cons_self, hafter hholds⟩) hroutines

theorem countP_replace (counts : R → Bool) (rest : List R) :
    (others ++ rest).countP counts + (counts routine).toNat =
      routines.countP counts + rest.countP counts := by
  rw [hperm.countP_eq, countP_append, countP_cons, Bool.toNat, Bool.cond_eq_ite]
  omega

theorem countP_replace_singleton (hafter : counts after = counts routine) :
    (others ++ [after]).countP counts = routines.countP counts := by
  rw [hperm.countP_eq, countP_append, countP_singleton, countP_cons, hafter]

/-- Where at most one routine counts, the others do not count beside one that does. -/
theorem not_counts_of_other (hcount : routines.countP counts ≤ 1) (hroutine : counts routine = true)
    (hother : other ∈ others) : counts other = false := by
  rw [hperm.countP_eq, countP_cons_of_pos hroutine] at hcount
  have hnone : others.countP counts = 0 := Nat.le_zero.1 (Nat.le_of_succ_le_succ hcount)
  exact Bool.eq_false_of_not_eq_true (countP_eq_zero.1 hnone other hother)

/-- Where no routine counts, at most the one that a step leaves does. -/
theorem countP_replace_le_one (hnone : ∀ routine ∈ routines, counts routine = false) (after : R) :
    (others ++ [after]).countP counts ≤ 1 := by
  have hothers : others.countP counts = 0 := by
    refine countP_eq_zero.2 fun other hother => ?_
    rw [hnone other (mem_of_other hperm hother)]
    exact Bool.false_ne_true
  rw [countP_append, hothers, Nat.zero_add]
  exact countP_le_length

end Replace

/-- What the calls and the steps of the routines preserve under a condition, every run that meets
the condition preserves. -/
theorem invariant_of_throughout {condition : Pool G R → Action C D → Prop} (holds : Pool G R → Prop)
    (hcall : ∀ {pool call shared started}, holds pool → condition pool (.call call) →
      start pool.shared call = some (shared, started) → holds ⟨shared, pool.routines ++ started⟩)
    (hadvance : ∀ {pool index choice routine others shared rest}, holds pool →
      condition pool (.advance index choice) → pool.routines[index]? = some routine →
      pool.routines.Perm (routine :: others) →
      resume pool.shared routine choice = some (shared, rest) → holds ⟨shared, others ++ rest⟩)
    {actions : List (Action C D)} (hrun : runActions (step start resume) pool actions = some next)
    (hactions : runActions.Throughout (step start resume) condition pool actions)
    (hpool : holds pool) : holds next := by
  refine runActions.invariant_of_throughout holds ?_ hrun hactions hpool
  intro pool action next haction hnext hpool
  cases action with
  | call =>
    obtain ⟨_, _, hstart, rfl⟩ := call_eq_some hnext
    exact hcall hpool haction hstart
  | advance =>
    obtain ⟨_, _, _, _, hroutine, hperm, hresume, rfl⟩ := advance_eq_some hnext
    exact hadvance hpool haction hroutine hperm hresume

end Pool

end Qtap.Core
