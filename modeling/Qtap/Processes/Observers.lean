import Qtap.Core.Pool

/-!
# Notifications of the process observers

`addProc` starts `initProcObservers`, which tells each observer of a new or replaced process in a
goroutine of its own, and `removeProc` marks the process as exited and tells each observer, again
in goroutines, that it has stopped.  Before it tells of a process a goroutine looks whether the
process has exited; the call itself comes later.

Processes and observers are objects of any kind.  What an observer does with a notification is
its own affair: here it is received when the method is called.
-/

namespace Qtap.Processes.Observers

open Function List Qtap.Core

variable {P O : Type*}

inductive Kind where
  | started
  | replaced
  | stopped
  deriving DecidableEq, Repr

structure Notification (P O : Type*) where
  observer : O
  process : P
  kind : Kind
  deriving DecidableEq, Repr

structure Shared (P O : Type*) where
  observers : List O
  procs : ℕ → Option P
  exited : P → Bool
  received : List (Notification P O)

inductive Routine (P O : Type*) where
  /-- `addProc` with a process that has been discovered. -/
  | adding (pid : ℕ) (p : P) (changed : Bool)
  /-- `initProcObservers`, and its loop over the observers. -/
  | initProcObservers (p : P) (replace : Bool)
  | dispatching (p : P) (replace : Bool) (observers : List O)
  /-- The goroutine for one observer, before and after it has looked at the process. -/
  | checking (p : P) (replace : Bool) (observer : O)
  | notifying (p : P) (replace : Bool) (observer : O)
  /-- `removeProc`, its loop over the observers, and the goroutine for one observer. -/
  | removing (pid : ℕ) (p : P)
  | stopping (pid : ℕ) (p : P) (observers : List O)
  | informing (p : P) (observer : O)
  deriving DecidableEq, Repr

inductive Call (P O : Type*) where
  | observe (observer : O)
  | registerProcess (pid : ℕ) (p : P) (changed : Bool)
  | unregisterProcess (pid : ℕ)
  deriving DecidableEq, Repr

/-- A process that is known already stays the same object; `changed` says whether its executable
or its arguments are others now. -/
def start (shared : Shared P O) : Call P O → Option (Shared P O × List (Routine P O))
  | .observe observer => some ({ shared with observers := shared.observers ++ [observer] }, [])
  | .registerProcess pid p changed =>
    match shared.procs pid with
    | some proc => some (shared, [.adding pid proc changed])
    | none => some (shared, [.adding pid p false])
  | .unregisterProcess pid =>
    match shared.procs pid with
    | some proc => some (shared, [.removing pid proc])
    | none => some (shared, [])

namespace Shared

def receive (shared : Shared P O) (observer : O) (p : P) (kind : Kind) : Shared P O :=
  { shared with received := shared.received ++ [⟨observer, p, kind⟩] }

end Shared

variable [DecidableEq P]

def resume (shared : Shared P O) (routine : Routine P O) (_ : Unit) :
    Option (Shared P O × List (Routine P O)) :=
  match routine with
  | .adding pid p changed =>
    some ({ shared with procs := update shared.procs pid (some p) }, [.initProcObservers p changed])
  | .initProcObservers p replace =>
    if shared.exited p then some (shared, [])
    else some (shared, [.dispatching p replace shared.observers])
  | .dispatching _ _ [] => some (shared, [])
  | .dispatching p replace (observer :: observers) =>
    some (shared, [.dispatching p replace observers, .checking p replace observer])
  | .checking p replace observer =>
    if shared.exited p then some (shared, [])
    else some (shared, [.notifying p replace observer])
  | .notifying p replace observer =>
    some (shared.receive observer p (if replace then .replaced else .started), [])
  | .removing pid p =>
    some ({ shared with exited := update shared.exited p true }, [.stopping pid p shared.observers])
  | .stopping pid _ [] => some ({ shared with procs := update shared.procs pid none }, [])
  | .stopping pid p (observer :: observers) =>
    some (shared, [.stopping pid p observers, .informing p observer])
  | .informing p observer => some (shared.receive observer p .stopped, [])

def initial : Pool (Shared P O) (Routine P O) := ⟨⟨[], fun _ => none, fun _ => false, []⟩, []⟩

/-- An observer is told that a process has stopped when nobody is about to tell it more. -/
def Prompt (pool : Pool (Shared P O) (Routine P O)) : Pool.Action (Call P O) Unit → Prop
  | .advance index _ => ∀ p observer, pool.routines[index]? = some (.informing p observer) →
      ∀ replace, .notifying p replace observer ∉ pool.routines
  | .call _ => True

/-- Of two notifications the first does not say that the process has stopped, unless the second
says so too. -/
def Follows (earlier later : Notification P O) : Prop :=
  earlier.kind = .stopped → later.observer = earlier.observer → later.process = earlier.process →
    later.kind = .stopped

/-! ## After the stop -/

/-- What a routine that is in flight knows. -/
def Fits (shared : Shared P O) : Routine P O → Prop
  | .stopping _ p _ => shared.exited p = true
  | .informing p _ => shared.exited p = true
  | .notifying p _ observer => ⟨observer, p, .stopped⟩ ∉ shared.received
  | _ => True

structure Ordered (pool : Pool (Shared P O) (Routine P O)) : Prop where
  follows : pool.shared.received.Pairwise Follows
  exited : ∀ notification ∈ pool.shared.received, notification.kind = .stopped →
    pool.shared.exited notification.process = true
  fits : ∀ routine ∈ pool.routines, Fits pool.shared routine

omit [DecidableEq P] in
theorem ordered_initial : Ordered (initial : Pool (Shared P O) (Routine P O)) :=
  ⟨List.Pairwise.nil, nofun, nofun⟩

variable {pool next : Pool (Shared P O) (Routine P O)}

omit [DecidableEq P] in
theorem Fits.mono {shared after : Shared P O} (hreceived : after.received = shared.received)
    (hexited : ∀ p, shared.exited p = true → after.exited p = true) {routine : Routine P O}
    (hfits : Fits shared routine) : Fits after routine := by
  cases routine with
  | stopping _ p | informing p => exact hexited p hfits
  | notifying =>
    rw [Fits, hreceived]
    exact hfits
  | _ => trivial

namespace Ordered

variable (hordered : Ordered pool)

include hordered

omit [DecidableEq P] in
/-- A step that notifies nobody. -/
theorem keep {shared : Shared P O} {others rest : List (Routine P O)}
    (hothers : ∀ routine ∈ others, routine ∈ pool.routines)
    (hrest : ∀ routine ∈ rest, Fits shared routine)
    (hexited : ∀ p, pool.shared.exited p = true → shared.exited p = true := by exact fun _ => id)
    (hreceived : shared.received = pool.shared.received := by rfl) :
    Ordered ⟨shared, others ++ rest⟩ := by
  constructor
  · exact hreceived.symm ▸ hordered.follows
  · intro notification hmem hkind
    exact hexited _ (hordered.exited notification (hreceived ▸ hmem) hkind)
  · refine forall_mem_append.2 ⟨fun routine hother => ?_, hrest⟩
    exact (hordered.fits routine (hothers routine hother)).mono hreceived hexited

omit [DecidableEq P] in
/-- A notification that may follow those before, when nobody is about to give one that may not
follow it. -/
theorem receive {observer : O} {p : P} {kind : Kind} {others : List (Routine P O)}
    (hothers : ∀ routine ∈ others, routine ∈ pool.routines)
    (hfollows : ∀ earlier ∈ pool.shared.received, Follows earlier ⟨observer, p, kind⟩)
    (hexited : kind = .stopped → pool.shared.exited p = true)
    (hquiet : kind = .stopped → ∀ replace, .notifying p replace observer ∉ others) :
    Ordered ⟨pool.shared.receive observer p kind, others ++ []⟩ := by
  rw [append_nil]
  constructor
  · rw [Shared.receive, pairwise_append]
    refine ⟨hordered.follows, pairwise_singleton _ _, fun earlier hearlier later hlater => ?_⟩
    rw [mem_singleton.1 hlater]
    exact hfollows earlier hearlier
  · intro notification hmem hkind
    rcases mem_append.1 hmem with hbefore | hnew
    · exact hordered.exited notification hbefore hkind
    · obtain rfl := mem_singleton.1 hnew
      exact hexited hkind
  · intro routine hmem
    have hfits := hordered.fits routine (hothers routine hmem)
    cases routine with
    | notifying other replace =>
      intro hreceived
      rcases mem_append.1 hreceived with hbefore | hnew
      · exact hfits hbefore
      · obtain ⟨rfl, rfl, rfl⟩ := Notification.mk.inj (mem_singleton.1 hnew)
        exact hquiet rfl replace hmem
    | _ => exact hfits

omit [DecidableEq P] in
theorem call {call : Call P O} {shared : Shared P O} {started : List (Routine P O)}
    (hstart : start pool.shared call = some (shared, started)) :
    Ordered ⟨shared, pool.routines ++ started⟩ := by
  cases call with
  | observe =>
    cases hstart
    exact hordered.keep (fun _ => id) nofun
  | registerProcess =>
    rw [start] at hstart
    split at hstart <;> cases hstart <;>
      exact hordered.keep (fun _ => id) (forall_mem_singleton.2 trivial)
  | unregisterProcess =>
    rw [start] at hstart
    split at hstart <;> cases hstart
    · exact hordered.keep (fun _ => id) (forall_mem_singleton.2 trivial)
    · exact hordered.keep (fun _ => id) nofun

theorem resume {routine : Routine P O} {shared : Shared P O} {others rest : List (Routine P O)}
    (hmem : routine ∈ pool.routines) (hothers : ∀ routine ∈ others, routine ∈ pool.routines)
    (hprompt : ∀ p observer, routine = .informing p observer →
      ∀ replace, .notifying p replace observer ∉ others)
    (hresume : Observers.resume pool.shared routine () = some (shared, rest)) :
    Ordered ⟨shared, others ++ rest⟩ := by
  have hfits := hordered.fits routine hmem
  cases routine with
  | adding =>
    cases hresume
    exact hordered.keep hothers (forall_mem_singleton.2 trivial)
  | initProcObservers =>
    rw [Observers.resume] at hresume
    split at hresume <;> cases hresume
    · exact hordered.keep hothers nofun
    · exact hordered.keep hothers (forall_mem_singleton.2 trivial)
  | dispatching p replace observers =>
    cases observers with
    | nil =>
      cases hresume
      exact hordered.keep hothers nofun
    | cons =>
      cases hresume
      exact hordered.keep hothers (forall_mem_cons.2 ⟨trivial, forall_mem_singleton.2 trivial⟩)
  | checking =>
    rw [Observers.resume] at hresume
    split at hresume <;> cases hresume
    · exact hordered.keep hothers nofun
    next hrunning =>
      exact hordered.keep hothers (forall_mem_singleton.2 fun hstopped =>
        hrunning (hordered.exited _ hstopped rfl))
  | notifying p replace =>
    cases hresume
    refine hordered.receive hothers ?_ ?_ ?_
    · rintro ⟨_, other, _⟩ hearlier hstopped htarget hother
      subst hstopped htarget hother
      exact absurd hearlier hfits
    · cases replace <;> nofun
    · cases replace <;> nofun
  | removing pid p =>
    cases hresume
    refine hordered.keep hothers (forall_mem_singleton.2 (update_self _ _ _)) fun other hother => ?_
    rcases eq_or_ne other p with rfl | hne
    · exact update_self _ _ _
    · exact (update_of_ne hne _ _).trans hother
  | stopping pid p observers =>
    cases observers with
    | nil =>
      cases hresume
      exact hordered.keep hothers nofun
    | cons =>
      cases hresume
      exact hordered.keep hothers (forall_mem_cons.2 ⟨hfits, forall_mem_singleton.2 hfits⟩)
  | informing p observer =>
    cases hresume
    exact hordered.receive hothers (fun _ _ _ _ _ => rfl) (fun _ => hfits)
      fun _ => hprompt p observer rfl

end Ordered

/-- When an observer is told of a stop only after the goroutines that had found the process
running have made their calls, nothing but stops follow the stop of a process. -/
theorem no_start_after_stop {actions : List (Pool.Action (Call P O) Unit)}
    (hrun : runActions (Pool.step start resume) initial actions = some pool)
    (hprompt : runActions.Throughout (Pool.step start resume) Prompt initial actions) :
    pool.shared.received.Pairwise Follows := by
  refine (Pool.invariant_of_throughout Ordered (fun hordered _ => hordered.call) ?_ hrun hprompt
    ordered_initial).follows
  intro pool _ _ _ _ _ _ hordered hprompt hindex hperm hresume
  refine hordered.resume (Pool.mem_of_stepped hperm) (fun _ => Pool.mem_of_other hperm) ?_ hresume
  rintro p observer rfl replace hnotifying
  exact hprompt p observer hindex replace (Pool.mem_of_other hperm hnotifying)

/-- One observer, and a process that is found, executes another file and exits. -/
def wholeLife : List (Pool.Action (Call ℕ ℕ) Unit) :=
  [.call (.observe 0), .call (.registerProcess 7 1 false), .advance 0 (), .advance 0 (),
    .advance 0 (), .advance 1 (), .advance 1 (), .call (.registerProcess 7 2 true), .advance 1 (),
    .advance 1 (), .advance 1 (), .advance 2 (), .advance 2 (), .call (.unregisterProcess 7),
    .advance 2 (), .advance 2 (), .advance 3 ()]

theorem no_start_after_stop_wholeLife :
    ∃ pool : Pool (Shared ℕ ℕ) (Routine ℕ ℕ),
      runActions (Pool.step start resume) initial wholeLife = some pool ∧
      pool.shared.received = [⟨0, 1, .started⟩, ⟨0, 1, .replaced⟩, ⟨0, 1, .stopped⟩] ∧
      pool.shared.received.Pairwise Follows := by
  have hprompt : runActions.Throughout (Pool.step start resume) Prompt
      (initial : Pool (Shared ℕ ℕ) (Routine ℕ ℕ)) wholeLife := by
    refine .cons trivial rfl <| .cons trivial rfl <| .cons nofun rfl <| .cons nofun rfl <|
      .cons nofun rfl <| .cons nofun rfl <| .cons nofun rfl <| .cons trivial rfl <|
      .cons nofun rfl <| .cons nofun rfl <| .cons nofun rfl <| .cons nofun rfl <| .cons nofun rfl <|
      .cons trivial rfl <| .cons nofun rfl <| .cons nofun rfl <| .cons ?_ rfl trivial
    intro p observer _ replace hmem
    have hroutines : Routine.notifying p replace observer ∈
        [.dispatching 1 false [], .dispatching 1 true [], .stopping 7 1 [], .informing 1 0] := hmem
    simp at hroutines
  exact ⟨_, rfl, rfl, no_start_after_stop rfl hprompt⟩

/-- The process exits between the look at it and the call: the start follows the stop. -/
theorem start_after_stop :
    ∃ pool : Pool (Shared ℕ ℕ) (Routine ℕ ℕ), runActions (Pool.step start resume) initial
        [.call (.observe 0), .call (.registerProcess 7 1 false), .advance 0 (), .advance 0 (),
          .advance 0 (), .advance 1 (), .call (.unregisterProcess 7), .advance 2 (), .advance 2 (),
          .advance 3 (), .advance 1 ()] = some pool ∧
      pool.shared.received = [⟨0, 1, .stopped⟩, ⟨0, 1, .started⟩] :=
  ⟨_, rfl, rfl⟩

end Qtap.Processes.Observers
