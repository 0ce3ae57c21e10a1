import Qtap.Tls.Custody

/-!
# Attachments are not leaked

When no handler is in flight, every closer was closed or is stored for a process that has
not stopped.  A handler drops its closer when its token is superseded between `Attach` and
the store, when the store meets an attachment that is still open, or when a detach deletes
what it did not close; handlers that do not overlap for one PID do none of this.
-/

namespace Qtap.Tls

open Option Qtap.Core

namespace Manager

variable {manager next : Manager} {handler : ℕ} {proc : Process}

def Idle (manager : Manager) : Prop := ∀ handler, manager.handlers handler = none

/-- The closer was closed, or is stored for a process that has not stopped. -/
def Accounted (manager : Manager) (closer : ℕ) : Prop :=
  manager.closed closer = true ∨
    ∃ proc, manager.procAttachments proc.pid = some ⟨proc, some closer⟩ ∧
      manager.stopped proc = false

/-- Each closer that leaves `procAttachments` has been closed. -/
def Retains (manager next : Manager) : Prop :=
  ∀ pid attachment closer, manager.procAttachments pid = some attachment →
    attachment.closer = some closer → next.procAttachments pid ≠ some attachment →
    next.closed closer = true

theorem tended_initial : initial.Tended where
  alone := nofun
  fit := nofun
  free := fun _ _ => rfl
  uncancelled := fun _ => rfl
  kept := fun _ hcloser => absurd hcloser (Nat.not_lt_zero _)

theorem tended_step {action : Action} (htended : manager.Tended) (horderly : manager.Orderly action)
    (hnext : manager.step action = some next) : next.Tended := by
  cases action with
  | call =>
    obtain ⟨hnone, rfl⟩ := call_eq_some hnext
    exact htended.call hnone horderly
  | advance handler answer =>
    obtain ⟨_, hinfo, hadvance⟩ := advance_eq_some hnext
    exact htended.advance hinfo hadvance

theorem Tended.accounted (htended : manager.Tended) (hidle : manager.Idle) {closer : ℕ}
    (hcloser : closer < manager.closers) : manager.Accounted closer := by
  cases htended.kept closer hcloser with
  | closed hclosed => exact .inl hclosed
  | held handler info hinfo => cases (hidle handler).symm.trans hinfo
  | stored proc hstored hopen =>
    rcases hopen with hrunning | ⟨handler, info, hinfo, _⟩
    · exact .inr ⟨proc, hstored, hrunning⟩
    · cases (hidle handler).symm.trans hinfo

/-! ## What leaves the map -/

section Attachments

variable (manager : Manager) (handler : ℕ) (proc : Process) (token : OpToken ℕ)

theorem executed_procAttachments (result : Result) :
    (manager.executed handler proc token result).procAttachments = manager.procAttachments := by
  cases result <;> rfl

theorem proceed_procAttachments (task : Task) (entry : Coordinator.Entry) :
    (manager.proceed handler proc token task entry).procAttachments = manager.procAttachments := by
  cases entry with
  | stale => exact executed_procAttachments manager handler proc token _
  | blocked => rfl
  | begun => rfl

theorem detached_procAttachments (token? : Option (OpToken ℕ)) :
    (manager.detached handler proc token?).procAttachments = manager.procAttachments := by
  cases token? <;> rfl

theorem detached_closed (token? : Option (OpToken ℕ)) :
    (manager.detached handler proc token?).closed = manager.closed := by
  cases token? <;> rfl

theorem begin_procAttachments (exe : String) (kind : Kind) :
    (manager.begin handler proc exe kind).procAttachments = manager.procAttachments := by
  cases kind with
  | started | replaced | stopped => rw [begin]; split <;> rfl

end Attachments

/-- The map changes only under the PID of a handler that found it vacant. -/
def Replaces (manager next : Manager) (proc : Process) (stage : Stage) : Prop :=
  next.procAttachments = manager.procAttachments ∨
    stage.vacant = true ∧ next.closed = manager.closed ∧
      ∃ attachment, next.procAttachments =
        Function.update manager.procAttachments proc.pid attachment

theorem execute_replaces {token : OpToken ℕ} {answer : Answer} {execution : Execution}
    (hnext : manager.execute handler proc token answer execution = some next) :
    manager.Replaces next proc (.executing token execution) := by
  cases execution with
  | entering =>
    cases hnext
    exact .inl (proceed_procAttachments _ _ _ _ _ _)
  | superseding task old | finishing op result | leaving op result =>
    cases hnext
    exact .inl rfl
  | waiting =>
    obtain ⟨-, hnext⟩ := ite_none_right_eq_some.1 hnext
    cases hnext
    exact .inl (proceed_procAttachments _ _ _ _ _ _)
  | running task =>
    cases hnext
    cases task with
    | attach => cases answer <;> exact .inl rfl
    | store => exact .inr ⟨rfl, rfl, _, rfl⟩
  | returning =>
    rw [execute, some.injEq] at hnext
    subst hnext
    split
    · exact .inl rfl
    · exact .inl (executed_procAttachments _ _ _ _ _)

theorem advance_replaces {answer : Answer} {stage : Stage}
    (hnext : manager.advance handler proc answer stage = some next) :
    manager.Replaces next proc stage := by
  cases stage with
  | checking token | scanning token =>
    rw [advance, some.injEq] at hnext
    subst hnext
    split <;> exact .inl rfl
  | loading token? =>
    rw [advance, some.injEq] at hnext
    subst hnext
    split
    · exact .inl (detached_procAttachments _ _ _ _)
    · exact .inl rfl
  | closing token? found =>
    rw [advance, some.injEq] at hnext
    subst hnext
    split
    · exact .inl rfl
    · split <;> exact .inl rfl
  | deleting token? =>
    cases hnext
    exact .inr ⟨rfl, detached_closed _ _ _ _, none, detached_procAttachments _ _ _ _⟩
  | executing => exact execute_replaces hnext

theorem Tended.retains {action : Action} (htended : manager.Tended)
    (hnext : manager.step action = some next) : manager.Retains next := by
  intro pid attachment closer hattachment hcloser hleft
  cases action with
  | call =>
    obtain ⟨-, rfl⟩ := call_eq_some hnext
    rw [begin_procAttachments] at hleft
    exact absurd hattachment hleft
  | advance handler =>
    obtain ⟨info, hinfo, hadvance⟩ := advance_eq_some hnext
    rcases advance_replaces hadvance with hsame | ⟨hvacant, hclosed, stored, hstored⟩
    · rw [hsame] at hleft
      exact absurd hattachment hleft
    · have hpid : pid = info.proc.pid := by
        by_contra hne
        rw [hstored, Function.update_of_ne hne] at hleft
        exact hleft hattachment
      rw [hclosed]
      by_contra hopen
      exact (htended.fit handler info hinfo).vacant hvacant
        ⟨attachment, closer, hpid ▸ hattachment, hcloser, Bool.eq_false_of_not_eq_true hopen⟩

/-! ## Whole runs -/

/-- When the handlers for one PID come one after another, no closer is leaked. -/
theorem attachments_never_leaked {reached : Manager} {actions : List Action}
    (hrun : runActions step initial actions = some reached)
    (horderly : runActions.Throughout step Orderly initial actions) :
    (reached.Idle → ∀ closer, closer < reached.closers → reached.Accounted closer) ∧
      ∀ action next, reached.step action = some next → reached.Retains next := by
  have htended : reached.Tended :=
    runActions.invariant_of_throughout Tended
      (fun _ _ _ haction hnext hbefore => tended_step hbefore haction hnext) hrun horderly
      tended_initial
  exact ⟨fun hidle _ hcloser => htended.accounted hidle hcloser,
    fun _ _ hnext => htended.retains hnext⟩

/-- `ProcessStarted` up to the end of the attach. -/
def attachRun (handler : ℕ) (proc : Process) : List Action :=
  .call handler .started proc "/bin/server" :: List.replicate 7 (.advance handler .ok)

/-- A process starts, is attached to, and stops. -/
def startAndStop : List Action :=
  attachRun 0 ⟨7, 0⟩ ++ List.replicate 5 (.advance 0 .ok) ++
    [.call 1 .stopped ⟨7, 0⟩ "/bin/server", .advance 1 .ok, .advance 1 .ok, .advance 1 .ok]

theorem attachments_never_leaked_startAndStop :
    ∃ reached, runActions step initial startAndStop = some reached ∧ reached.Idle ∧
      0 < reached.closers ∧ reached.Accounted 0 := by
  have hadvances : ∀ handler count (manager : Manager), runActions.Throughout step Orderly manager
      (List.replicate count (.advance handler .ok)) := by
    intro handler count manager
    apply runActions.Throughout.of_forall
    intro _ action haction
    rw [List.eq_of_mem_replicate haction]
    trivial
  have horderly : runActions.Throughout step Orderly initial startAndStop := by
    refine .append (.append (.cons ⟨nofun, rfl, nofun⟩ rfl (hadvances 0 7 _)) fun _ _ =>
      hadvances 0 5 _) fun middle hmiddle => ?_
    cases hmiddle
    refine .cons ⟨?_, nofun⟩ rfl (hadvances 1 3 _)
    intro handler info hinfo
    match handler with
    | 0 => cases hinfo
    | _ + 1 => cases hinfo
  refine ⟨_, rfl, (and_iff_left_of_imp fun hidle => ⟨Nat.zero_lt_one, ?_⟩).2 ?_⟩
  · intro handler
    match handler with
    | 0 => rfl
    | 1 => rfl
    | _ + 2 => rfl
  · exact (attachments_never_leaked rfl horderly).1 hidle 0 Nat.zero_lt_one

/-- `ProcessStopped` between the attach and the store: the closer is dropped. -/
theorem attachment_dropped :
    ∃ reached, runActions step initial (attachRun 0 ⟨7, 0⟩ ++
        [.call 1 .stopped ⟨7, 0⟩ "/bin/server", .advance 1 .ok, .advance 0 .ok]) = some reached ∧
      reached.Idle ∧ 0 < reached.closers ∧ ¬ reached.Accounted 0 := by
  refine ⟨_, rfl, ?_, Nat.zero_lt_one, ?_⟩
  · intro handler
    match handler with
    | 0 => rfl
    | 1 => rfl
    | _ + 2 => rfl
  · rintro (hclosed | ⟨proc, hstored, _⟩)
    · cases hclosed
    · cases hstored

end Manager

end Qtap.Tls
