import Qtap.Tls.Manager

/-!
# Custody of the closers

A closer that `Attach` returned is in the hands of its handler, then in `procAttachments`,
then closed.  Handlers that do not overlap for one PID pass each closer on: the token of a
handler stays current, no operation of another is in flight, and a store meets no closer
that is still open.
-/

namespace Qtap.Tls

open Coordinator Option Function Qtap.Core

namespace Manager

variable {manager next : Manager} {handler : ℕ} {proc : Process}

/-- A closer that was not closed is stored under the PID. -/
def Holds (manager : Manager) (pid : ℕ) : Prop :=
  ∃ attachment closer, manager.procAttachments pid = some attachment ∧
    attachment.closer = some closer ∧ manager.closed closer = false

/-- The handlers for one PID come one after another, `ProcessStarted` when no open closer is
stored and none but `ProcessStopped` for a process that has stopped. -/
def Orderly (manager : Manager) : Action → Prop
  | .call _ kind proc exe =>
    (∀ other info, manager.handlers other = some info → info.proc.pid ≠ proc.pid) ∧
      match kind with
      | .started => manager.stopped proc = false ∧ ¬ manager.Holds proc.pid
      | .replaced => manager.stopped proc = false
      | .stopped => exe = "" → ¬ manager.Holds proc.pid
  | .advance _ _ => True

end Manager

/-! ## The places of a closer -/

def Task.held : Task → Option ℕ
  | .attach => none
  | .store closer => closer

def Result.held : Result → Option ℕ
  | .attached closer => closer
  | _ => none

namespace Execution

def held : Execution → Option ℕ
  | entering task => task.held
  | superseding task _ => task.held
  | waiting task _ => task.held
  | running task _ => task.held
  | finishing _ result => result.held
  | leaving _ result => result.held
  | returning _ result => result.held

/-- The operation that the call has in flight. -/
def op? : Execution → Option ℕ
  | running _ op => some op
  | finishing op _ => some op
  | leaving op _ => some op
  | _ => none

def waits : Execution → Bool
  | superseding _ _ => true
  | waiting _ _ => true
  | _ => false

/-- The store is yet to come. -/
def vacant : Execution → Bool
  | finishing _ result => result ≠ .stored
  | leaving _ result => result ≠ .stored
  | returning _ result => result ≠ .stored
  | _ => true

end Execution

namespace Stage

/-- The closer in the hands of the handler. -/
def held : Stage → Option ℕ
  | executing _ execution => execution.held
  | _ => none

def op? : Stage → Option ℕ
  | executing _ execution => execution.op?
  | _ => none

def waits : Stage → Bool
  | executing _ execution => execution.waits
  | _ => false

/-- The handler is going to close what is stored. -/
def detaches : Stage → Bool
  | loading _ => true
  | closing _ _ => true
  | _ => false

/-- No open closer may be stored. -/
def vacant : Stage → Bool
  | loading _ => false
  | closing _ _ => false
  | executing _ execution => execution.vacant
  | _ => true

def token? : Stage → Option (OpToken ℕ)
  | checking token => some token
  | loading token => token
  | closing token _ => token
  | deleting token => token
  | scanning token => some token
  | executing token _ => some token

def found? : Stage → Option ProcAttachment
  | closing _ found => some found
  | _ => none

end Stage

namespace Coordinator

/-- An operation on one key that cancels nothing. -/
structure Within (before after : Coordinator ℕ) (key : ℕ) : Prop where
  version : ∀ other, other ≠ key → after.version other = before.version other
  inflight : ∀ other, other ≠ key → after.inflight other = before.inflight other
  cancelled : after.cancelled = before.cancelled

variable (coordinator : Coordinator ℕ) (key op : ℕ)

theorem within_refl : coordinator.Within coordinator key :=
  ⟨fun _ _ => rfl, fun _ _ => rfl, rfl⟩

theorem within_start : coordinator.Within (coordinator.start key) key where
  version := fun _ hother => version_start_of_ne coordinator key hother
  inflight := fun _ _ => rfl
  cancelled := rfl

theorem cleanup_cancelled_of_inflight_none (hinflight : coordinator.inflight key = none) :
    (coordinator.cleanup key true).cancelled = coordinator.cancelled := by
  simp only [cleanup, hinflight]

theorem within_cleanup (hinflight : coordinator.inflight key = none) :
    coordinator.Within (coordinator.cleanup key true) key where
  version := fun _ hother => version_cleanup_of_ne coordinator key hother true
  inflight := fun _ hother => update_of_ne hother _ _
  cancelled := cleanup_cancelled_of_inflight_none coordinator key hinflight

theorem within_install : coordinator.Within (coordinator.install key) key where
  version := fun _ _ => rfl
  inflight := fun _ hother => update_of_ne hother _ _
  cancelled := rfl

theorem within_finish : coordinator.Within (coordinator.finish op) key where
  version := fun _ _ => rfl
  inflight := fun _ _ => rfl
  cancelled := rfl

theorem leave_of_inflight (hinflight : coordinator.inflight key = some op) :
    coordinator.leave key op =
      { coordinator with inflight := update coordinator.inflight key none } := by
  rw [leave, if_pos hinflight]

theorem within_leave (hinflight : coordinator.inflight key = some op) :
    coordinator.Within (coordinator.leave key op) key := by
  rw [leave_of_inflight coordinator key op hinflight]
  exact ⟨fun _ _ => rfl, fun _ hother => update_of_ne hother _ _, rfl⟩

/-- A current token meets no operation in flight. -/
theorem enter_of_free {token : OpToken ℕ} (hversion : coordinator.version token.key = token.version)
    (hinflight : coordinator.inflight token.key = none) :
    coordinator.enter token = (coordinator.install token.key, .begun coordinator.created) := by
  have hvalid : coordinator.isValid token = true := by
    rw [isValid, decide_eq_true_eq]
    exact hversion
  rw [enter, if_pos hvalid, hinflight]

end Coordinator

namespace Manager

variable {manager next : Manager} {handler : ℕ} {proc : Process}

/-- The handler is about to close what is stored under the PID. -/
def Detaching (manager : Manager) (pid : ℕ) : Prop :=
  ∃ handler info, manager.handlers handler = some info ∧ info.proc.pid = pid ∧
    info.stage.detaches = true

/-- Someone will close the closer, or did. -/
inductive Kept (manager : Manager) (closer : ℕ) : Prop where
  | closed (hclosed : manager.closed closer = true)
  | stored (proc : Process) (hstored : manager.procAttachments proc.pid = some ⟨proc, some closer⟩)
      (hopen : manager.stopped proc = false ∨ manager.Detaching proc.pid)
  | held (handler : ℕ) (info : Handler) (hinfo : manager.handlers handler = some info)
      (hheld : info.stage.held = some closer)

/-- What a handler that overlaps with no other relies on. -/
structure Fit (manager : Manager) (info : Handler) : Prop where
  key : ∀ token, info.stage.token? = some token → token.key = info.proc.pid
  current : ∀ token, info.stage.token? = some token →
    manager.procCoordinator.version info.proc.pid = token.version
  running : ∀ token, info.stage.token? = some token → manager.stopped info.proc = false
  inflight : manager.procCoordinator.inflight info.proc.pid = info.stage.op?
  unhindered : info.stage.waits = false
  vacant : info.stage.vacant = true → ¬ manager.Holds info.proc.pid
  found : ∀ found, info.stage.found? = some found →
    manager.procAttachments info.proc.pid = some found

structure Tended (manager : Manager) : Prop where
  alone : ∀ handler info other otherInfo, manager.handlers handler = some info →
    manager.handlers other = some otherInfo → info.proc.pid = otherInfo.proc.pid →
    handler = other
  fit : ∀ handler info, manager.handlers handler = some info → manager.Fit info
  free : ∀ pid, (∀ handler info, manager.handlers handler = some info → info.proc.pid ≠ pid) →
    manager.procCoordinator.inflight pid = none
  uncancelled : ∀ op, manager.procCoordinator.cancelled op = false
  kept : ∀ closer, closer < manager.closers → manager.Kept closer

/-! ## A step of one handler -/

/-- A step of the handler leaves what belongs to other handlers and other PIDs. -/
structure Moves (manager next : Manager) (handler : ℕ) (proc : Process) : Prop where
  handlers : ∀ other, other ≠ handler → next.handlers other = manager.handlers other
  attachments : ∀ pid, pid ≠ proc.pid → next.procAttachments pid = manager.procAttachments pid
  coordinator : manager.procCoordinator.Within next.procCoordinator proc.pid
  closed : ∀ closer, manager.closed closer = true → next.closed closer = true
  stopped : ∀ other : Process, other.pid ≠ proc.pid → next.stopped other = manager.stopped other

namespace Moves

theorem refl (manager : Manager) (handler : ℕ) (proc : Process) :
    Moves manager manager handler proc where
  handlers := fun _ _ => rfl
  attachments := fun _ _ => rfl
  coordinator := within_refl _ _
  closed := fun _ hclosed => hclosed
  stopped := fun _ _ => rfl

section

variable (hmoves : Moves manager next handler proc)

include hmoves

theorem setStage (stage : Stage) : Moves manager (next.setStage handler proc stage) handler proc :=
  { hmoves with
    handlers := fun other hother =>
      (update_of_ne hother _ _).trans (hmoves.handlers other hother) }

theorem exit : Moves manager (next.exit handler) handler proc :=
  { hmoves with
    handlers := fun other hother =>
      (update_of_ne hother _ _).trans (hmoves.handlers other hother) }

theorem store (attachment : Option ProcAttachment) :
    Moves manager (next.store proc.pid attachment) handler proc :=
  { hmoves with
    attachments := fun pid hpid =>
      (update_of_ne hpid _ _).trans (hmoves.attachments pid hpid) }

theorem halt : Moves manager (next.halt proc) handler proc :=
  { hmoves with
    stopped := fun other hother =>
      (update_of_ne (ne_of_apply_ne Process.pid hother) _ _).trans
        (hmoves.stopped other hother) }

end

theorem coordinate {coordinator : Coordinator ℕ}
    (hwithin : manager.procCoordinator.Within coordinator proc.pid) :
    Moves manager (manager.coordinate coordinator) handler proc :=
  { Moves.refl manager handler proc with coordinator := hwithin }

theorem close (closer : ℕ) : Moves manager (manager.close closer) handler proc :=
  { Moves.refl manager handler proc with
    closed := by
      intro other hclosed
      rcases eq_or_ne other closer with rfl | hother
      · exact update_self _ _ _
      · exact (update_of_ne hother _ _).trans hclosed }

variable (hmoves : Moves manager next handler proc)

include hmoves

theorem holds {pid : ℕ} (hpid : pid ≠ proc.pid) (hholds : next.Holds pid) : manager.Holds pid := by
  obtain ⟨attachment, closer, hattachment, hcloser, hopen⟩ := hholds
  rw [hmoves.attachments pid hpid] at hattachment
  refine ⟨attachment, closer, hattachment, hcloser, ?_⟩
  rw [← Bool.not_eq_true] at hopen ⊢
  exact fun hclosed => hopen (hmoves.closed closer hclosed)

theorem fit {info : Handler} (hpid : info.proc.pid ≠ proc.pid) (hfit : manager.Fit info) :
    next.Fit info where
  key := hfit.key
  current := fun token htoken =>
    (hmoves.coordinator.version _ hpid).trans (hfit.current token htoken)
  running := fun token htoken => (hmoves.stopped _ hpid).trans (hfit.running token htoken)
  inflight := (hmoves.coordinator.inflight _ hpid).trans hfit.inflight
  unhindered := hfit.unhindered
  vacant := fun hvacant hholds => hfit.vacant hvacant (hmoves.holds hpid hholds)
  found := fun found hfound => (hmoves.attachments _ hpid).trans (hfit.found found hfound)

end Moves

/-- After the step the handler is done, or fit for its next one. -/
def Settled (next : Manager) (handler : ℕ) (proc : Process) : Prop :=
  (next.handlers handler = none ∧ next.procCoordinator.inflight proc.pid = none) ∨
    ∃ stage, next.handlers handler = some ⟨proc, stage⟩ ∧ next.Fit ⟨proc, stage⟩

/-- The closers that the step may touch are kept. -/
structure Passes (manager next : Manager) (handler : ℕ) (proc : Process) : Prop where
  stored : ∀ owner closer, owner.pid = proc.pid →
    manager.procAttachments owner.pid = some ⟨owner, some closer⟩ →
    (manager.stopped owner = false ∨
      ∃ info, manager.handlers handler = some info ∧ info.stage.detaches = true) →
    next.Kept closer
  held : ∀ info closer, manager.handlers handler = some info → info.stage.held = some closer →
    next.Kept closer
  fresh : ∀ closer, manager.closers ≤ closer → closer < next.closers → next.Kept closer

/-- No other handler is for the PID of the process. -/
structure Alone (manager : Manager) (handler : ℕ) (proc : Process) : Prop where
  own : ∀ info, manager.handlers handler = some info → info.proc = proc
  others : ∀ other info, other ≠ handler → manager.handlers other = some info →
    info.proc.pid ≠ proc.pid

namespace Moves

variable (hmoves : Moves manager next handler proc) (halone : manager.Alone handler proc)

include hmoves halone

theorem kept {closer : ℕ} (hpasses : Passes manager next handler proc)
    (hkept : manager.Kept closer) : next.Kept closer := by
  cases hkept with
  | closed hclosed => exact .closed (hmoves.closed closer hclosed)
  | held other info hinfo hheld =>
    rcases eq_or_ne other handler with rfl | hother
    · exact hpasses.held info closer hinfo hheld
    · exact .held other info ((hmoves.handlers other hother).trans hinfo) hheld
  | stored owner hstored hopen =>
    rcases eq_or_ne owner.pid proc.pid with hpid | hpid
    · apply hpasses.stored owner closer hpid hstored
      apply hopen.imp_right
      rintro ⟨other, info, hinfo, hinfoPid, hdetaches⟩
      rcases eq_or_ne other handler with rfl | hother
      · exact ⟨info, hinfo, hdetaches⟩
      · exact absurd (hinfoPid.trans hpid) (halone.others other info hother hinfo)
    · apply Kept.stored owner ((hmoves.attachments _ hpid).trans hstored)
      refine hopen.imp (hmoves.stopped owner hpid).trans ?_
      rintro ⟨other, info, hinfo, hinfoPid, hdetaches⟩
      have hother : other ≠ handler := by
        rintro rfl
        exact hpid (hinfoPid.symm.trans (congrArg Process.pid (halone.own info hinfo)))
      exact ⟨other, info, (hmoves.handlers other hother).trans hinfo, hinfoPid, hdetaches⟩

end Moves

variable {info : Handler}

theorem Settled.of_mem (hsettled : next.Settled handler proc)
    (hinfo : next.handlers handler = some info) : info.proc = proc ∧ next.Fit info := by
  rcases hsettled with ⟨hnone, _⟩ | ⟨stage, hstage, hfit⟩
  · cases hnone.symm.trans hinfo
  · cases hstage.symm.trans hinfo
    exact ⟨rfl, hfit⟩

namespace Tended

variable (htended : manager.Tended)

include htended

theorem moves (hmoves : Moves manager next handler proc) (halone : manager.Alone handler proc)
    (hsettled : next.Settled handler proc) (hpasses : Passes manager next handler proc) :
    next.Tended where
  alone := by
    -- a handler for the PID of the one that moved is that one
    have hself : ∀ other info, next.handlers other = some info → info.proc.pid = proc.pid →
        other = handler := by
      intro other info hinfo hpid
      by_contra hother
      rw [hmoves.handlers other hother] at hinfo
      exact halone.others other info hother hinfo hpid
    intro first info second secondInfo hinfo hsecond hpid
    rcases eq_or_ne info.proc.pid proc.pid with heq | hne
    · exact (hself first info hinfo heq).trans
        (hself second secondInfo hsecond (hpid.symm.trans heq)).symm
    · have hfirst : first ≠ handler := by
        rintro rfl
        exact hne (congrArg Process.pid (hsettled.of_mem hinfo).1)
      have hother : second ≠ handler := by
        rintro rfl
        exact hne (hpid.trans (congrArg Process.pid (hsettled.of_mem hsecond).1))
      rw [hmoves.handlers _ hfirst] at hinfo
      rw [hmoves.handlers _ hother] at hsecond
      exact htended.alone first info second secondInfo hinfo hsecond hpid
  fit := by
    intro other info hinfo
    rcases eq_or_ne other handler with rfl | hother
    · exact (hsettled.of_mem hinfo).2
    · rw [hmoves.handlers other hother] at hinfo
      exact hmoves.fit (halone.others other info hother hinfo) (htended.fit other info hinfo)
  free := by
    intro pid hfree
    rcases eq_or_ne pid proc.pid with rfl | hpid
    · rcases hsettled with ⟨_, hinflight⟩ | ⟨stage, hstage, _⟩
      · exact hinflight
      · exact absurd rfl (hfree handler _ hstage)
    · rw [hmoves.coordinator.inflight pid hpid]
      apply htended.free
      intro other info hinfo
      rcases eq_or_ne other handler with rfl | hother
      · rw [halone.own info hinfo]
        exact hpid.symm
      · exact hfree other info ((hmoves.handlers other hother).trans hinfo)
  uncancelled := fun op => (congrFun hmoves.coordinator.cancelled op).trans (htended.uncancelled op)
  kept := by
    intro closer hcloser
    rcases lt_or_ge closer manager.closers with hold | hnew
    · exact hmoves.kept halone hpasses (htended.kept closer hold)
    · exact hpasses.fresh closer hnew hcloser

theorem aloneOf (hinfo : manager.handlers handler = some info) :
    manager.Alone handler info.proc where
  own := fun _ hother => congrArg Handler.proc (some.inj (hother.symm.trans hinfo))
  others := fun other _ hother hotherInfo hpid =>
    hother (htended.alone other _ handler info hotherInfo hinfo hpid)

end Tended

/-! ## The stages of a handler -/

section Stages

variable {stage after : Stage} {token : OpToken ℕ} {result : Result} {op : ℕ} {answer : Answer}

theorem setStage_self {manager : Manager} {handler : ℕ} {proc : Process} {stage : Stage} :
    (manager.setStage handler proc stage).handlers handler = some ⟨proc, stage⟩ :=
  update_self _ _ _

theorem settled_setStage (hfit : (next.setStage handler proc stage).Fit ⟨proc, stage⟩) :
    (next.setStage handler proc stage).Settled handler proc :=
  .inr ⟨stage, setStage_self, hfit⟩

theorem settled_exit (hinflight : next.procCoordinator.inflight proc.pid = none) :
    (next.exit handler).Settled handler proc :=
  .inl ⟨update_self _ _ _, hinflight⟩

theorem kept_setStage {closer : ℕ} (hheld : stage.held = some closer) :
    (next.setStage handler proc stage).Kept closer :=
  .held handler ⟨proc, stage⟩ (setStage_self) hheld

/-- The handler goes on to a stage that relies on no more than the last one. -/
theorem Fit.restage (hfit : manager.Fit ⟨proc, stage⟩)
    (hinflight : next.procCoordinator.inflight proc.pid = after.op?)
    (hvacant : after.vacant = true → ¬ next.Holds proc.pid)
    (hfound : ∀ found, after.found? = some found → next.procAttachments proc.pid = some found)
    (htoken : ∀ token, after.token? = some token → stage.token? = some token)
    (hversion : next.procCoordinator.version proc.pid = manager.procCoordinator.version proc.pid)
    (hstopped : next.stopped = manager.stopped) (hwaits : after.waits = false) :
    next.Fit ⟨proc, after⟩ where
  key := fun token hafter => hfit.key token (htoken token hafter)
  current := fun token hafter => hversion.trans (hfit.current token (htoken token hafter))
  running := fun token hafter =>
    (congrFun hstopped proc).trans (hfit.running token (htoken token hafter))
  inflight := hinflight
  unhindered := hwaits
  vacant := hvacant
  found := hfound

/-- A step that leaves the attachments and creates no closer. -/
theorem Passes.quiet (hinfo : manager.handlers handler = some ⟨proc, stage⟩)
    (hdetaches : stage.detaches = false)
    (hattachments : next.procAttachments = manager.procAttachments)
    (hstopped : next.stopped = manager.stopped) (hclosers : next.closers = manager.closers)
    (hheld : ∀ closer, stage.held = some closer → next.Kept closer) :
    Passes manager next handler proc where
  stored := by
    intro owner closer _ hstored hopen
    rw [← hattachments] at hstored
    apply Kept.stored owner hstored
    rcases hopen with hrunning | ⟨info, hother, hdetaching⟩
    · exact .inl ((congrFun hstopped owner).trans hrunning)
    · cases hinfo.symm.trans hother
      cases hdetaches.symm.trans hdetaching
  held := by
    intro info closer hother
    cases hinfo.symm.trans hother
    exact hheld closer
  fresh := fun closer hge hlt => absurd (hclosers ▸ hlt) (Nat.not_lt.2 hge)

/-- A step of a handler for whose PID no open closer is stored. -/
theorem Passes.vacant (hinfo : manager.handlers handler = some ⟨proc, stage⟩)
    (hvacant : ¬ manager.Holds proc.pid) (hmoves : Moves manager next handler proc)
    (hheld : ∀ closer, stage.held = some closer → next.Kept closer)
    (hfresh : ∀ closer, manager.closers ≤ closer → closer < next.closers → next.Kept closer) :
    Passes manager next handler proc where
  stored := by
    intro owner closer hpid hstored _
    rw [hpid] at hstored
    apply Kept.closed
    apply hmoves.closed
    by_contra hopen
    exact hvacant ⟨_, closer, hstored, rfl, Bool.eq_false_of_not_eq_true hopen⟩
  held := by
    intro info closer hother
    cases hinfo.symm.trans hother
    exact hheld closer
  fresh := hfresh

namespace Tended

variable (htended : manager.Tended) (hinfo : manager.handlers handler = some ⟨proc, stage⟩)

include htended hinfo

/-- The handler returns with nothing in its hands. -/
theorem exits (hdetaches : stage.detaches = false) (hheld : stage.held = none)
    (hop : stage.op? = none) : (manager.exit handler).Tended := by
  have hfit := htended.fit handler _ hinfo
  apply htended.moves (Moves.refl manager handler proc).exit (htended.aloneOf hinfo)
  · exact settled_exit (hfit.inflight.trans hop)
  · refine .quiet hinfo hdetaches rfl rfl rfl ?_
    intro closer hcloser
    cases hheld.symm.trans hcloser

/-- The handler goes on within the coordinator. -/
theorem goesOn {coordinator : Coordinator ℕ}
    (hwithin : manager.procCoordinator.Within coordinator proc.pid)
    (hinflight : coordinator.inflight proc.pid = after.op?)
    (hvacant : after.vacant = true → stage.vacant = true)
    (hversion : coordinator.version proc.pid = manager.procCoordinator.version proc.pid)
    (htoken : ∀ token, after.token? = some token → stage.token? = some token)
    (hheld : ∀ closer, stage.held = some closer → after.held = some closer)
    (hwaits : after.waits = false) (hfound : after.found? = none) (hdetaches : stage.detaches = false) :
    ((manager.coordinate coordinator).setStage handler proc after).Tended := by
  have hfit := htended.fit handler _ hinfo
  apply htended.moves (Moves.coordinate hwithin |>.setStage after) (htended.aloneOf hinfo)
  · apply settled_setStage
    refine hfit.restage hinflight (fun hafter => hfit.vacant (hvacant hafter)) ?_ htoken hversion
      rfl hwaits
    intro found hsome
    cases hfound.symm.trans hsome
  · exact .quiet hinfo hdetaches rfl rfl rfl fun closer hcloser =>
      kept_setStage (hheld closer hcloser)

end Tended

namespace Tended

variable (htended : manager.Tended)

include htended

/-- Both stages go on to another one or return. -/
theorem checking_or_scanning (hstage : stage = .checking token ∨ stage = .scanning token)
    (hinfo : manager.handlers handler = some ⟨proc, stage⟩)
    (hnext : manager.advance handler proc answer stage = some next) : next.Tended := by
  rcases hstage with rfl | rfl
  all_goals
    have hinflight := (htended.fit handler _ hinfo).inflight
    rw [advance, some.injEq] at hnext
    subst hnext
    split
    · exact htended.goesOn hinfo (within_refl _ _) hinflight id rfl (fun _ => id) nofun rfl rfl rfl
    · exact htended.exits hinfo rfl rfl rfl

variable {token? : Option (OpToken ℕ)}

/-- After the detach nothing is left under the PID. -/
theorem detached (hinfo : manager.handlers handler = some ⟨proc, stage⟩)
    (htoken : stage.token? = token?) (hop : stage.op? = none) (hheld : stage.held = none)
    (hvacant : ¬ manager.Holds proc.pid) :
    ((manager.store proc.pid none).detached handler proc token?).Tended := by
  have hfit := htended.fit handler _ hinfo
  have hmoves := (Moves.refl manager handler proc).store none
  have hpasses : ∀ left : Manager, left.closers = manager.closers →
      Moves manager left handler proc → Passes manager left handler proc := by
    intro left hclosers hleft
    apply Passes.vacant hinfo hvacant hleft
    · rw [hheld]
      nofun
    · intro closer hge hlt
      exact absurd (hclosers ▸ hlt) (Nat.not_lt.2 hge)
  cases token? with
  | none =>
    exact htended.moves hmoves.exit (htended.aloneOf hinfo)
      (settled_exit (hfit.inflight.trans hop)) (hpasses _ rfl hmoves.exit)
  | some =>
    apply htended.moves (hmoves.setStage _) (htended.aloneOf hinfo) _
      (hpasses _ rfl (hmoves.setStage _))
    apply settled_setStage
    refine hfit.restage (hfit.inflight.trans hop) ?_ nofun (fun _ hother => htoken.trans hother)
      rfl rfl rfl
    rintro - ⟨attachment, closer, hattachment, _⟩
    cases (update_self _ _ _).symm.trans hattachment

theorem loading (hinfo : manager.handlers handler = some ⟨proc, .loading token?⟩)
    (hnext : manager.advance handler proc answer (.loading token?) = some next) : next.Tended := by
  have hfit := htended.fit handler _ hinfo
  rw [advance, some.injEq] at hnext
  subst hnext
  split
  next hnone =>
    have hsame : manager.store proc.pid none = manager := by
      rw [store, ← hnone, update_eq_self]
    have hdetached := htended.detached hinfo rfl rfl rfl fun ⟨_, _, hsome, _⟩ =>
      some_ne_none _ (hsome.symm.trans hnone)
    rwa [hsame] at hdetached
  next hfound =>
    apply htended.moves ((Moves.refl manager handler proc).setStage _) (htended.aloneOf hinfo)
    · apply settled_setStage
      refine hfit.restage hfit.inflight nofun ?_ (fun _ => id) rfl rfl rfl
      rintro _ ⟨⟩
      exact hfound
    · refine ⟨?_, ?_, fun closer hge hlt => absurd hlt (Nat.not_lt.2 hge)⟩
      · intro owner closer hpid hstored _
        exact .stored owner hstored (.inr ⟨handler, _, setStage_self, hpid.symm, rfl⟩)
      · intro info closer hother
        cases hinfo.symm.trans hother
        nofun

theorem closing {found : ProcAttachment}
    (hinfo : manager.handlers handler = some ⟨proc, .closing token? found⟩)
    (hnext : manager.advance handler proc answer (.closing token? found) = some next) :
    next.Tended := by
  have hfit := htended.fit handler _ hinfo
  have hfound := hfit.found found rfl
  -- what is stored under the PID is the attachment that was found
  have hpasses : ∀ left : Manager, left.closers = manager.closers →
      (∀ closer, found.closer = some closer → left.closed closer = true) →
      Passes manager left handler proc := by
    intro left hclosers hclosed
    refine ⟨?_, ?_, fun closer hge hlt => absurd (hclosers ▸ hlt) (Nat.not_lt.2 hge)⟩
    · intro owner closer hpid hstored _
      rw [hpid, hfound, some.injEq] at hstored
      exact .closed (hclosed closer (congrArg ProcAttachment.closer hstored))
    · intro info closer hother
      cases hinfo.symm.trans hother
      nofun
  have hfits : ∀ left : Manager, left.procCoordinator = manager.procCoordinator →
      left.procAttachments = manager.procAttachments → left.stopped = manager.stopped →
      (∀ closer, found.closer = some closer → left.closed closer = true) →
      left.Fit ⟨proc, .deleting token?⟩ := by
    intro left hcoordinator hattachments hstopped hclosed
    refine hfit.restage (by rw [hcoordinator]; exact hfit.inflight) ?_ nofun (fun _ => id)
      (by rw [hcoordinator]) hstopped rfl
    rintro - ⟨attachment, closer, hattachment, hcloser, hopen⟩
    rw [hattachments, hfound, some.injEq] at hattachment
    subst hattachment
    rw [hclosed closer hcloser] at hopen
    cases hopen
  rw [advance, some.injEq] at hnext
  subst hnext
  split
  next hnone =>
    have hclosed : ∀ closer, found.closer = some closer → manager.closed closer = true := by
      rw [hnone]
      nofun
    exact htended.moves ((Moves.refl manager handler proc).setStage _) (htended.aloneOf hinfo)
      (settled_setStage (hfits _ rfl rfl rfl hclosed)) (hpasses _ rfl hclosed)
  next closer hcloser =>
    have hclosed : ∀ other, found.closer = some other →
        (manager.close closer).closed other = true := by
      rw [hcloser]
      rintro _ ⟨⟩
      exact update_self _ _ _
    split
    · exact htended.moves ((Moves.close closer).setStage _) (htended.aloneOf hinfo)
        (settled_setStage (hfits _ rfl rfl rfl hclosed)) (hpasses _ rfl hclosed)
    · exact htended.moves (Moves.close closer).exit (htended.aloneOf hinfo)
        (settled_exit hfit.inflight) (hpasses _ rfl hclosed)

theorem deleting (hinfo : manager.handlers handler = some ⟨proc, .deleting token?⟩)
    (hnext : manager.advance handler proc answer (.deleting token?) = some next) : next.Tended := by
  rw [advance, some.injEq] at hnext
  subst hnext
  exact htended.detached hinfo rfl rfl rfl ((htended.fit handler _ hinfo).vacant rfl)

theorem entering {task : Task}
    (hinfo : manager.handlers handler = some ⟨proc, .executing token (.entering task)⟩) :
    ((manager.coordinate (manager.procCoordinator.enter token).1).proceed handler proc token task
      (manager.procCoordinator.enter token).2).Tended := by
  have hfit := htended.fit handler _ hinfo
  have hkey : token.key = proc.pid := hfit.key token rfl
  rw [manager.procCoordinator.enter_of_free (hkey ▸ hfit.current token rfl) (hkey ▸ hfit.inflight),
    hkey]
  exact htended.goesOn hinfo (within_install _ _) (update_self _ _ _) id rfl (fun _ => id)
    (fun _ => id) rfl rfl rfl

/-- `Attach` leaves its closer in the hands of the handler. -/
theorem attaches (hinfo : manager.handlers handler =
      some ⟨proc, .executing token (.running .attach op)⟩) :
    ((manager.perform proc answer .attach).1.setStage handler proc
      (.executing token (.finishing op (manager.perform proc answer .attach).2))).Tended := by
  have hfit := htended.fit handler _ hinfo
  have hvacant : ¬ manager.Holds proc.pid := hfit.vacant rfl
  cases answer with
  | ok =>
    have hmoves : Moves manager { manager with closers := manager.closers + 1 } handler proc :=
      { Moves.refl manager handler proc with }
    apply htended.moves (hmoves.setStage _) (htended.aloneOf hinfo)
    · apply settled_setStage
      exact hfit.restage hfit.inflight (fun _ => hvacant) nofun (fun _ => id) rfl rfl rfl
    · apply Passes.vacant hinfo hvacant (hmoves.setStage _) nofun
      intro closer hge hlt
      apply kept_setStage
      exact congrArg some (Nat.le_antisymm hge (Nat.le_of_lt_succ hlt))
  | nothing | failed =>
    exact htended.goesOn hinfo (within_refl _ _) hfit.inflight (fun _ => rfl) rfl (fun _ => id)
      nofun rfl rfl rfl

/-- The closer goes from the hands of the handler to `procAttachments`. -/
theorem stores {closer? : Option ℕ} (hinfo : manager.handlers handler =
      some ⟨proc, .executing token (.running (.store closer?) op)⟩) :
    ((manager.store proc.pid (some ⟨proc, closer?⟩)).setStage handler proc
      (.executing token (.finishing op .stored))).Tended := by
  have hfit := htended.fit handler _ hinfo
  have hmoves := ((Moves.refl manager handler proc).store (some ⟨proc, closer?⟩)).setStage
    (.executing token (.finishing op .stored))
  apply htended.moves hmoves (htended.aloneOf hinfo)
  · apply settled_setStage
    exact hfit.restage hfit.inflight nofun nofun (fun _ => id) rfl rfl rfl
  · apply Passes.vacant hinfo (hfit.vacant rfl) hmoves
    · intro closer hcloser
      obtain rfl : closer? = some closer := hcloser
      exact .stored proc (update_self _ _ _) (.inl (hfit.running token rfl))
    · exact fun closer hge hlt => absurd hlt (Nat.not_lt.2 hge)

theorem returning
    (hinfo : manager.handlers handler = some ⟨proc, .executing token (.returning op result)⟩) :
    (manager.executed handler proc token result).Tended := by
  have hinflight := (htended.fit handler _ hinfo).inflight
  cases result with
  | attached =>
    exact htended.goesOn hinfo (within_refl _ _) hinflight (fun _ => rfl) rfl (fun _ => id)
      (fun _ => id) rfl rfl rfl
  | stored | failed => exact htended.exits hinfo rfl rfl rfl

theorem executing {execution : Execution}
    (hinfo : manager.handlers handler = some ⟨proc, .executing token execution⟩)
    (hnext : manager.execute handler proc token answer execution = some next) : next.Tended := by
  have hfit := htended.fit handler _ hinfo
  have hkey : token.key = proc.pid := hfit.key token rfl
  cases execution with
  | entering =>
    cases hnext
    exact htended.entering hinfo
  | superseding => cases hfit.unhindered
  | waiting => cases hfit.unhindered
  | running task =>
    cases hnext
    cases task with
    | attach => exact htended.attaches hinfo
    | store => exact htended.stores hinfo
  | finishing =>
    cases hnext
    exact htended.goesOn hinfo (within_finish _ _ _) hfit.inflight id rfl (fun _ => id)
      (fun _ => id) rfl rfl rfl
  | leaving op =>
    cases hnext
    have hop : manager.procCoordinator.inflight proc.pid = some op := hfit.inflight
    rw [hkey]
    refine htended.goesOn hinfo (within_leave _ _ _ hop) ?_ id
      (congrFun (version_leave _ _ _) _) (fun _ => id) (fun _ => id) rfl rfl rfl
    rw [leave_of_inflight _ _ _ hop]
    exact update_self _ _ _
  | returning op =>
    rw [execute, htended.uncancelled op] at hnext
    cases hnext
    exact htended.returning hinfo

theorem advance (hinfo : manager.handlers handler = some info)
    (hnext : manager.advance handler info.proc answer info.stage = some next) : next.Tended := by
  obtain ⟨_, stage⟩ := info
  cases stage with
  | checking => exact htended.checking_or_scanning (.inl rfl) hinfo hnext
  | loading token? => exact htended.loading hinfo hnext
  | closing token? found => exact htended.closing hinfo hnext
  | deleting token? => exact htended.deleting hinfo hnext
  | scanning => exact htended.checking_or_scanning (.inr rfl) hinfo hnext
  | executing => exact htended.executing hinfo hnext

end Tended

end Stages

/-! ## The calls of the handlers -/

namespace Tended

variable (htended : manager.Tended) (hnone : manager.handlers handler = none)
  (halone : ∀ other info, manager.handlers other = some info → info.proc.pid ≠ proc.pid)

include hnone in
/-- A new handler has nothing in its hands. -/
theorem passes_call (hclosers : next.closers = manager.closers)
    (hstored : ∀ owner closer, owner.pid = proc.pid →
      manager.procAttachments owner.pid = some ⟨owner, some closer⟩ →
      manager.stopped owner = false → next.Kept closer) : Passes manager next handler proc where
  stored := by
    intro owner closer hpid hattachment hopen
    rcases hopen with hrunning | ⟨info, hinfo, _⟩
    · exact hstored owner closer hpid hattachment hrunning
    · cases hnone.symm.trans hinfo
  held := fun info closer hinfo => absurd (hnone.symm.trans hinfo) (some_ne_none _).symm
  fresh := fun closer hge hlt => absurd (hclosers ▸ hlt) (Nat.not_lt.2 hge)

include hnone halone in
theorem alone_call : manager.Alone handler proc where
  own := fun _ hinfo => absurd (hnone.symm.trans hinfo) (some_ne_none _).symm
  others := fun other info _ hinfo => halone other info hinfo

include htended hnone halone

/-- `Start` and the first stage under the new token. -/
theorem starts {stage : Stage} (hrunning : manager.stopped proc = false)
    (htoken : stage.token? = some (manager.nextToken handler proc.pid))
    (hop : stage.op? = none) (hwaits : stage.waits = false) (hfound : stage.found? = none)
    (hvacant : stage.vacant = true → ¬ manager.Holds proc.pid) :
    ((manager.coordinate (manager.procCoordinator.start proc.pid)).setStage handler proc
      stage).Tended := by
  have hmoves := (Moves.coordinate (within_start manager.procCoordinator proc.pid)
    : Moves manager _ handler proc).setStage stage
  apply htended.moves hmoves (alone_call hnone halone)
  · apply settled_setStage
    constructor
    · intro token hsome
      cases htoken.symm.trans hsome
      rfl
    · intro token hsome
      cases htoken.symm.trans hsome
      exact version_start_self _ _
    · exact fun _ _ => hrunning
    · exact (htended.free proc.pid halone).trans hop.symm
    · exact hwaits
    · exact hvacant
    · intro found hsome
      cases hfound.symm.trans hsome
  · refine passes_call hnone rfl ?_
    intro owner closer _ hstored howner
    exact .stored owner hstored (.inl howner)

theorem stops :
    (((manager.halt proc).coordinate (manager.procCoordinator.cleanup proc.pid true)).setStage
      handler proc (.loading none)).Tended := by
  have hinflight := htended.free proc.pid halone
  have hmoves : Moves manager ((manager.halt proc).coordinate
      (manager.procCoordinator.cleanup proc.pid true)) handler proc :=
    { (Moves.refl manager handler proc).halt with
      coordinator := within_cleanup _ _ hinflight }
  apply htended.moves (hmoves.setStage _) (alone_call hnone halone)
  · apply settled_setStage
    exact ⟨nofun, nofun, nofun, update_self _ _ _, rfl, nofun, nofun⟩
  · refine passes_call hnone rfl ?_
    intro owner closer hpid hstored _
    exact .stored owner hstored (.inr ⟨handler, _, setStage_self, hpid.symm, rfl⟩)

/-- The manager takes no notice of a process without an executable. -/
theorem halts (hvacant : ¬ manager.Holds proc.pid) : (manager.halt proc).Tended := by
  have hinflight := htended.free proc.pid halone
  apply htended.moves (Moves.refl manager handler proc).halt (alone_call hnone halone)
  · exact .inl ⟨hnone, hinflight⟩
  · refine passes_call hnone rfl ?_
    intro owner closer hpid hstored _
    rw [hpid] at hstored
    apply Kept.closed
    by_contra hopen
    exact hvacant ⟨_, closer, hstored, rfl, Bool.eq_false_of_not_eq_true hopen⟩

omit halone

theorem call {kind : Kind} {exe : String}
    (horderly : manager.Orderly (.call handler kind proc exe)) :
    (manager.begin handler proc exe kind).Tended := by
  obtain ⟨halone, horderly⟩ := horderly
  cases kind with
  | started =>
    rw [begin]
    split
    · exact htended
    · exact htended.starts hnone halone horderly.1 rfl rfl rfl rfl fun _ => horderly.2
  | replaced =>
    rw [begin]
    split
    · exact htended
    · exact htended.starts hnone halone horderly rfl rfl rfl rfl nofun
  | stopped =>
    rw [begin]
    split
    next hexe => exact htended.halts hnone halone (horderly hexe)
    next => exact htended.stops hnone halone

end Tended

end Manager

end Qtap.Tls
