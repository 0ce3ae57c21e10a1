import Mathlib.Tactic

/-!
# Scans of a container

Each process of a container calls `containerStarted`, which scans the container unless that has
been done or tried often enough.  Scans of one container do not overlap, so the calls stand in an
order.  A scan that was canceled is taken for one that succeeded.
-/

namespace Qtap.Tls.ContainerScan

def maxContainerScanAttempts : ℕ := 3

/-- How a call ends; `canceled` is an error that is `context.Canceled`. -/
inductive Outcome where
  | success
  | error
  | canceled
  | superseded
  deriving DecidableEq, Repr

/-- `ScanContainer`, `ctx.Err()` and `AttachContainer` in one attempt. -/
structure Attempt where
  scan : Outcome
  ctx : Outcome
  attach : Outcome
  deriving DecidableEq, Repr

def scanAndAttachContainer (attempt : Attempt) : Outcome :=
  if attempt.scan ≠ .success then attempt.scan
  else if attempt.ctx ≠ .success then attempt.ctx
  else attempt.attach

/-- `containerState`; a container without an entry is one that was never tried. -/
structure ContainerState where
  scanned : Bool := false
  attempts : ℕ := 0
  deriving DecidableEq, Repr

namespace ContainerState

def isDone (state : ContainerState) : Bool :=
  state.scanned || decide (maxContainerScanAttempts ≤ state.attempts)

def containerStarted (state : ContainerState) (attempt : Attempt) : ContainerState :=
  if state.isDone then state
  else
    match scanAndAttachContainer attempt with
    | .error | .superseded => ⟨false, state.attempts + 1⟩
    | .success | .canceled => ⟨true, state.attempts + 1⟩

def run : ContainerState → List Attempt → ContainerState := List.foldl containerStarted

/-- The attempts that are made, of those that the calls would make. -/
def made : ContainerState → List Attempt → List Attempt
  | _, [] => []
  | state, attempt :: later =>
    if state.isDone then [] else attempt :: made (state.containerStarted attempt) later

/-- Once done with, a container is left alone. -/
theorem run_of_isDone {state : ContainerState} (hdone : state.isDone = true)
    (attempts : List Attempt) : state.run attempts = state ∧ state.made attempts = [] := by
  induction attempts with
  | nil => exact ⟨rfl, rfl⟩
  | cons attempt later ih =>
    rw [run, List.foldl_cons, containerStarted, if_pos hdone]
    exact ⟨ih.1, if_pos hdone⟩

end ContainerState

open ContainerState

/-- Both calls succeed, and the context is alive between them. -/
def Attempt.Succeeds (attempt : Attempt) : Prop :=
  attempt.scan = .success ∧ attempt.ctx = .success ∧ attempt.attach = .success

/-- Of the attempts that are left, the first that does not fail succeeds, if there is one. -/
def Uncanceled : ℕ → List Attempt → Prop
  | 0, _ | _, [] => True
  | left + 1, attempt :: later =>
    match scanAndAttachContainer attempt with
    | .success => True
    | .canceled => False
    | .error | .superseded => Uncanceled left later

/-- The container counts as scanned only after an attempt that succeeded. -/
def Sound (state : ContainerState) (attempts : List Attempt) : Prop :=
  (state.run attempts).scanned = true → ∃ attempt ∈ state.made attempts, attempt.Succeeds

theorem succeeds_iff {attempt : Attempt} :
    attempt.Succeeds ↔ scanAndAttachContainer attempt = .success := by
  rw [Attempt.Succeeds, scanAndAttachContainer]
  split_ifs <;> simp_all

theorem sound_iff_uncanceled {left : ℕ} {state : ContainerState} (hscanned : state.scanned = false)
    (hleft : state.attempts + left = maxContainerScanAttempts) (attempts : List Attempt) :
    (state.made attempts).length ≤ left ∧
      (Sound state attempts ↔ Uncanceled left attempts) := by
  induction attempts generalizing left state with
  | nil => cases left <;> simp [Sound, Uncanceled, run, made, hscanned]
  | cons attempt later ih =>
    cases left with
    | zero =>
      have hdone : state.isDone = true := by simp [isDone, ← hleft]
      simp [Sound, Uncanceled, run_of_isDone hdone, hscanned]
    | succ left =>
      have hopen : ¬ state.isDone = true := by simp [isDone, hscanned, ← hleft]
      have hrun : state.run (attempt :: later) = (state.containerStarted attempt).run later := rfl
      have hdone (attempts : ℕ) : (⟨true, attempts⟩ : ContainerState).isDone = true := rfl
      rw [Sound, hrun, made, if_neg hopen, containerStarted, if_neg hopen, Uncanceled]
      cases houtcome : scanAndAttachContainer attempt with
      | success | canceled =>
        simp [run_of_isDone (hdone _), succeeds_iff, houtcome]
      | error | superseded =>
        have hlater := @ih left ⟨false, state.attempts + 1⟩ rfl (by rw [← hleft]; simp; omega)
        rw [← hlater.2, Sound]
        simp [succeeds_iff, houtcome, hlater.1]

/-- At most the configured number of attempts is made, and the scans of a container are sound
exactly when the attempt that ends them is not canceled. -/
theorem container_scans_sound_iff (attempts : List Attempt) :
    (made {} attempts).length ≤ maxContainerScanAttempts ∧
      (Sound {} attempts ↔ Uncanceled maxContainerScanAttempts attempts) :=
  sound_iff_uncanceled rfl (Nat.zero_add _) attempts

/-- The scan is canceled, and the container counts as scanned. -/
theorem canceled_scan_counts :
    (({} : ContainerState).run [⟨.canceled, .success, .success⟩]).scanned = true ∧
      ¬ (⟨.canceled, .success, .success⟩ : Attempt).Succeeds :=
  ⟨rfl, nofun⟩

end Qtap.Tls.ContainerScan
