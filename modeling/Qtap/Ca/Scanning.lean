import Qtap.Core.Pool

/-!
# The lock of a container

`Container.Scan` initialises the container under its mutex and looks for certificates without it.
When `Init` returns an error, `Scan` returns without giving the mutex up.
-/

namespace Qtap.Ca.Scanning

open Qtap.Core

inductive InjectStrategy where
  | inline
  | ebpf
  | manual
  deriving DecidableEq, Repr

/-- How the write test in `/tmp` ends; `readOnly` is an error that tells of permissions or of a
read-only file system. -/
inductive WriteTest where
  | written
  | readOnly
  | failed
  deriving DecidableEq, Repr

structure Container where
  strategy : InjectStrategy
  locked : Bool := false
  initialized : Bool := false
  readOnly : Bool := false

/-- A call of `Scan` stands before the lock, behind it or after it. -/
inductive Routine where
  | locking
  | initializing
  | scanning

/-- `Init`, and whether it succeeds; the container counts as initialised in any case. -/
def init (container : Container) (test : WriteTest) : Container × Bool :=
  if container.initialized then (container, true)
  else if container.strategy ≠ .ebpf then ({ container with initialized := true }, true)
  else ({ container with initialized := true, readOnly := test = .readOnly }, test ≠ .failed)

def start (container : Container) (_ : Unit) : Option (Container × List Routine) :=
  some (container, [.locking])

def resume (container : Container) (routine : Routine) (test : WriteTest) :
    Option (Container × List Routine) :=
  match routine with
  | .locking =>
    if container.locked then none else some ({ container with locked := true }, [.initializing])
  | .initializing =>
    match init container test with
    | (container, true) => some ({ container with locked := false }, [.scanning])
    | (container, false) => some (container, [])
  | .scanning => some (container, [])

/-- A call waits for the mutex, and no other call is in flight. -/
def Wedged (pool : Pool Container Routine) : Prop :=
  pool.routines = [.locking] ∧ pool.shared.locked = true

/-- No write test of `Init` fails in an unforeseen way. -/
def Foreseen (pool : Pool Container Routine) : Pool.Action Unit WriteTest → Prop
  | .call _ => True
  | .advance index test => pool.routines[index]? = some .initializing →
    pool.shared.initialized = false → pool.shared.strategy = .ebpf → test ≠ .failed

/-- Who holds the mutex is in `Init`. -/
def Held (pool : Pool Container Routine) : Prop :=
  pool.shared.locked = true → ∃ routine ∈ pool.routines, routine = .initializing

variable {pool : Pool Container Routine}

theorem Held.resume {index : ℕ} {routine : Routine} {others rest : List Routine}
    {container : Container} {test : WriteTest} (hheld : Held pool)
    (hforeseen : Foreseen pool (.advance index test))
    (hroutine : pool.routines[index]? = some routine)
    (hperm : pool.routines.Perm (routine :: others))
    (hresume : resume pool.shared routine test = some (container, rest)) :
    Held ⟨container, others ++ rest⟩ := by
  cases routine with
  | locking =>
    rw [Scanning.resume] at hresume
    split_ifs at hresume
    cases hresume
    exact fun _ => Pool.exists_mem_last rfl
  | initializing =>
    have hinit : (init pool.shared test).2 = true := by
      rw [init]
      split_ifs with hinitialized hstrategy
      · rfl
      · rfl
      · exact decide_eq_true (hforeseen hroutine (Bool.eq_false_of_not_eq_true hinitialized)
          (not_not.1 hstrategy))
    rw [Scanning.resume] at hresume
    split at hresume
    next => cases hresume; nofun
    next hfails => rw [hfails] at hinit; cases hinit
  | scanning =>
    cases hresume
    exact fun hlocked => Pool.exists_mem_replace hperm nofun (hheld hlocked)

/-- While no write test fails in an unforeseen way the mutex is never left locked. -/
theorem scan_never_wedges {strategy : InjectStrategy} {actions : List (Pool.Action Unit WriteTest)}
    (hrun : runActions (Pool.step start resume) ⟨{ strategy }, []⟩ actions = some pool)
    (hforeseen : runActions.Throughout (Pool.step start resume) Foreseen ⟨{ strategy }, []⟩
      actions) : ¬ Wedged pool := by
  have hheld : Held pool := by
    refine Pool.invariant_of_throughout Held ?_ Held.resume hrun hforeseen nofun
    intro pool _ _ _ hheld _ hstart
    cases hstart
    exact fun hlocked => Pool.exists_mem_started (hheld hlocked)
  rintro ⟨hroutines, hlocked⟩
  obtain ⟨routine, hroutine, rfl⟩ := hheld hlocked
  rw [hroutines] at hroutine
  cases List.mem_singleton.1 hroutine

def twoScans : List (Pool.Action Unit WriteTest) := [.call (), .advance 0 .written, .call ()]

/-- The second of two scans waits while the first one is in `Init`. -/
theorem scan_never_wedges_twoScans : ∃ pool,
    runActions (Pool.step start resume) ⟨{ strategy := .ebpf }, []⟩ twoScans = some pool ∧
      pool.shared.locked = true ∧ ¬ Wedged pool :=
  ⟨_, rfl, rfl, @scan_never_wedges _ .ebpf twoScans rfl
    (.cons trivial rfl (.cons nofun rfl (.cons trivial rfl trivial)))⟩

/-- The write test of the first scan fails, and the second scan waits for ever. -/
theorem failed_scan_wedges : ∃ pool,
    runActions (Pool.step start resume) ⟨{ strategy := .ebpf }, []⟩
      [.call (), .advance 0 .written, .advance 0 .failed, .call ()] = some pool ∧ Wedged pool :=
  ⟨_, rfl, rfl, rfl⟩

end Qtap.Ca.Scanning
