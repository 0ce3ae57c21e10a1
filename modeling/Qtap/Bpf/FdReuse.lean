import Qtap.Core.Table
import Qtap.Bpf.SockPidFd

/-!
# Reuse of file descriptors

The cleanup after a file goes by the pair of process and descriptor that the file was
installed at, and so does the cleanup after a close call.  Neither looks whether the pair
has another tenant by now.  They spare the newer tenants as long as a descriptor is not
installed again before the cleanup after its former tenants is done.
-/

namespace Qtap.Bpf.SockPidFd

open State Option Function List Qtap.Core

/-! ## The property -/

/-- The steps that release what a tenancy has left. -/
def Releases (state : State) : Action → ℕ → Prop
  | .fput _ file, tenancy => ∃ id, state.activeFileToPidFdMap file = some ⟨id, tenancy⟩
  | .exitClose thread, tenancy => ∃ id, state.activeFdArgsMap thread = some ⟨id, tenancy⟩
  | _, _ => False

/-- Nothing of a newer tenancy is removed or closed. -/
structure Spares (tenancy : ℕ) (state next : State) : Prop where
  sockets : ∀ {id entry}, state.pidFdToSockMap id = some entry → tenancy < entry.owner →
    next.pidFdToSockMap id = some entry
  connections : ∀ {id ref owner}, state.kernel.connInfoMap id = some ref →
    state.connOwner[ref]? = some owner → tenancy < owner → next.kernel.connInfoMap id = some ref
  closes : ∃ entries, next.kernel.log = state.kernel.log ++ entries ∧ ∀ entry ∈ entries,
    ∃ (ref : ℕ) (conn : ConnInfo) (owner : ℕ), state.kernel.records[ref]? = some conn ∧
      state.connOwner[ref]? = some owner ∧ owner ≤ tenancy ∧ entry.event ∈ submitCloseEvent conn

/-- A descriptor is installed only when no file that was installed there before awaits its
release and no close call on it is yet to return. -/
def Prompt (state : State) : Action → Prop
  | .fdInstall id _ =>
    (∀ file entry, state.activeFileToPidFdMap file = some entry → entry.value ≠ id) ∧
      ∀ thread entry, state.activeFdArgsMap thread = some entry → entry.value ≠ id
  | _ => True

/-! ## The connection map -/

/-- A program that leaves the connection map alone. -/
structure SameConnections (kernel next : Kernel) : Prop where
  connInfoMap : next.connInfoMap = kernel.connInfoMap
  length : next.records.length = kernel.records.length

theorem SameConnections.refl (kernel : Kernel) : SameConnections kernel kernel := ⟨rfl, rfl⟩

theorem update_sameConnections (kernel : Kernel) (ref : ℕ)
    (program : ConnInfo → ConnInfo × List Event) :
    SameConnections kernel (kernel.update ref program) := by
  rw [Kernel.update]
  split
  · exact .refl kernel
  · exact ⟨rfl, length_set⟩

theorem lookup_sameConnections (kernel : Kernel) (id : PidFd)
    (program : ConnInfo → ConnInfo × List Event) :
    SameConnections kernel (kernel.lookup id program) := by
  rw [Kernel.lookup]
  split
  · exact .refl kernel
  · exact update_sameConnections kernel _ program

theorem processData_sameConnections (kernel : Kernel) (env : Env) (call : DataCall) :
    SameConnections kernel (kernel.processData env call) := by
  rw [Kernel.processData]
  split_ifs
  · split
    · exact .refl kernel
    · split
      · exact .refl kernel
      · exact ⟨rfl, length_set⟩
  · exact .refl kernel

variable {state next : State} {id : PidFd} {slot : Slot} {tenancy : ℕ}

theorem step_sameConnections {action : Bpf.Action} (hnext : state.step (.hook action) = some next) :
    ∃ kernel, next = { state with kernel := kernel } ∧ SameConnections state.kernel kernel := by
  cases action with
  | connect => cases hnext
  | close => cases hnext
  | resume env index =>
    obtain ⟨kernel, hkernel, rfl⟩ := map_eq_some_iff.1 hnext
    obtain ⟨task, -, rfl⟩ := map_eq_some_iff.1 hkernel
    refine ⟨_, rfl, ?_⟩
    let erased := { state.kernel with tasks := state.kernel.tasks.eraseIdx index }
    cases task with
    | opening ctx =>
      have hsame := lookup_sameConnections erased ctx.id (submitOpenEvent env ctx)
      exact ⟨hsame.connInfoMap, hsame.length⟩
    | submitting call ref findings =>
      have hsame := update_sameConnections erased ref (finishData env call findings)
      exact ⟨hsame.connInfoMap, hsame.length⟩
  | init =>
    cases hnext
    refine ⟨_, rfl, ?_⟩
    split_ifs
    · exact lookup_sameConnections _ _ _
    · exact .refl _
  | data =>
    cases hnext
    exact ⟨_, rfl, processData_sameConnections _ _ _⟩

/-- What `process_close` submits belongs to the record that it removes. -/
theorem processClose_log (kernel : Kernel) (ctx : SocketCtx) :
    ∃ entries, (kernel.processClose ctx).log = kernel.log ++ entries ∧ ∀ entry ∈ entries,
      ∃ (ref : ℕ) (conn : ConnInfo), kernel.connInfoMap ctx.id = some ref ∧
        kernel.records[ref]? = some conn ∧ entry.event ∈ submitCloseEvent conn := by
  rw [Kernel.processClose, Kernel.lookup]
  cases href : kernel.connInfoMap ctx.id with
  | none => exact ⟨[], (append_nil _).symm, nofun⟩
  | some ref =>
    simp only [Kernel.update]
    cases hconn : kernel.records[ref]? with
    | none => exact ⟨[], (append_nil _).symm, nofun⟩
    | some conn =>
      refine ⟨_, rfl, forall_mem_map.2 fun _ hevent => ?_⟩
      exact ⟨ref, conn, rfl, hconn, hevent⟩

theorem processClose_length (kernel : Kernel) (ctx : SocketCtx) :
    (kernel.processClose ctx).records.length = kernel.records.length :=
  (lookup_sameConnections kernel ctx.id _).length

/-! ## What holds between the steps -/

/-- The tenancy holds the descriptor, or its release is yet to come. -/
def Present (state : State) (id : PidFd) (tenancy : ℕ) : Prop :=
  (∃ file, state.fdTable id = some ⟨file, tenancy⟩) ∨
    (∃ file, state.activeFileToPidFdMap file = some ⟨id, tenancy⟩) ∨
      ∃ thread, state.activeFdArgsMap thread = some ⟨id, tenancy⟩

/-- Nothing at the descriptor is newer than the tenancy. -/
structure Latest (state : State) (id : PidFd) (tenancy : ℕ) : Prop where
  slot : ∀ {slot}, state.fdTable id = some slot → slot.tenancy ≤ tenancy
  socket : ∀ {entry}, state.pidFdToSockMap id = some entry → entry.owner ≤ tenancy
  connection : ∀ {ref owner}, state.kernel.connInfoMap id = some ref →
    state.connOwner[ref]? = some owner → owner ≤ tenancy

structure InTurn (state : State) : Prop where
  length : state.connOwner.length = state.kernel.records.length
  refs : ∀ {id ref}, state.kernel.connInfoMap id = some ref → ref < state.connOwner.length
  slots : ∀ {id slot}, state.fdTable id = some slot → slot.tenancy < state.tenancies
  sockets : ∀ {id entry}, state.pidFdToSockMap id = some entry → entry.owner < state.tenancies
  owners : ∀ owner ∈ state.connOwner, owner < state.tenancies
  latest : ∀ {id tenancy}, Present state id tenancy → Latest state id tenancy

theorem InTurn.initial : InTurn initial := by
  refine ⟨rfl, nofun, nofun, nofun, nofun, ?_⟩
  rintro id tenancy (⟨_, hnone⟩ | ⟨_, hnone⟩ | ⟨_, hnone⟩) <;> cases hnone

/-- A step that only takes entries away. -/
structure Shrinks (state next : State) : Prop where
  length : next.kernel.records.length = state.kernel.records.length := by rfl
  connOwner : next.connOwner = state.connOwner := by rfl
  tenancies : next.tenancies = state.tenancies := by rfl
  connections : ∀ {id ref}, next.kernel.connInfoMap id = some ref →
    state.kernel.connInfoMap id = some ref := by intros; assumption
  slots : ∀ {id slot}, next.fdTable id = some slot → state.fdTable id = some slot := by
    intros; assumption
  sockets : ∀ {id entry}, next.pidFdToSockMap id = some entry →
    state.pidFdToSockMap id = some entry := by intros; assumption
  present : ∀ {id tenancy}, Present next id tenancy → Present state id tenancy := by
    intros; assumption

theorem InTurn.shrink (hstate : InTurn state) (hshrinks : Shrinks state next) : InTurn next where
  length := by rw [hshrinks.connOwner, hshrinks.length, hstate.length]
  refs := fun href => by rw [hshrinks.connOwner]; exact hstate.refs (hshrinks.connections href)
  slots := fun hslot => by rw [hshrinks.tenancies]; exact hstate.slots (hshrinks.slots hslot)
  sockets := fun hentry => by
    rw [hshrinks.tenancies]
    exact hstate.sockets (hshrinks.sockets hentry)
  owners := by rw [hshrinks.connOwner, hshrinks.tenancies]; exact hstate.owners
  latest := by
    intro id tenancy htenancy
    have hlatest := hstate.latest (hshrinks.present htenancy)
    refine ⟨fun hslot => hlatest.slot (hshrinks.slots hslot),
      fun hentry => hlatest.socket (hshrinks.sockets hentry), fun href => ?_⟩
    rw [hshrinks.connOwner]
    exact hlatest.connection (hshrinks.connections href)

theorem giveUp_present {other : PidFd} (hpresent : Present (state.giveUp id slot) other tenancy) :
    Present state other tenancy :=
  hpresent.imp_left fun ⟨file, hslot⟩ => ⟨file, update_none_eq_some hslot⟩

theorem InTurn.giveUp (hstate : InTurn state) (id : PidFd) (slot : Slot) :
    InTurn (state.giveUp id slot) :=
  hstate.shrink { slots := update_none_eq_some, present := giveUp_present }

/-- The tenancy of a descriptor is followed by the close call on it. -/
theorem InTurn.enter (hstate : InTurn state) (hslot : state.fdTable id = some slot)
    (thread : Thread) (args : PidFd → Bool) :
    InTurn { state with
      activeFdArgsMap := update state.activeFdArgsMap thread (some ⟨id, slot.tenancy⟩)
      activeCloseArgsMap := args } := by
  refine hstate.shrink { present := ?_ }
  rintro other tenancy (hpresent | hpresent | ⟨closing, hclosing⟩)
  · exact .inl hpresent
  · exact .inr (.inl hpresent)
  · rcases update_some_eq_some hclosing with ⟨-, hentry⟩ | hclosing
    · obtain ⟨rfl, rfl⟩ := Owned.mk.inj hentry
      exact .inl ⟨slot.file, hslot⟩
    · exact .inr (.inr ⟨closing, hclosing⟩)

theorem InTurn.connect (hstate : InTurn state) {ctx : SocketCtx}
    (hslot : state.fdTable ctx.id = some slot) (env : Env) (address : ℕ)
    (function : ConnectionType) :
    InTurn { state with
      kernel := state.kernel.processSyscallAddr env ctx address function
      connOwner := state.connOwner ++ [slot.tenancy] } := by
  have hnew : ∀ {id ref},
      (state.kernel.processSyscallAddr env ctx address function).connInfoMap id =
      some ref → id = ctx.id ∧ ref = state.connOwner.length ∨
        state.kernel.connInfoMap id = some ref := by
    intro id ref href
    rw [hstate.length]
    exact update_some_eq_some href
  constructor
  · simp [Kernel.processSyscallAddr, hstate.length]
  · intro id ref href
    simp only [length_append, length_singleton]
    rcases hnew href with ⟨-, rfl⟩ | href
    · exact Nat.lt_succ_self _
    · exact Nat.lt_succ_of_lt (hstate.refs href)
  · exact hstate.slots
  · exact hstate.sockets
  · exact forall_mem_append.2 ⟨hstate.owners, forall_mem_singleton.2 (hstate.slots hslot)⟩
  · intro id tenancy hpresent
    have hlatest : Latest state id tenancy := hstate.latest hpresent
    refine ⟨hlatest.slot, hlatest.socket, ?_⟩
    intro ref owner href howner
    rcases hnew href with ⟨rfl, rfl⟩ | href
    · simp only [List.getElem?_concat_length, some.injEq] at howner
      rw [← howner]
      exact hlatest.slot hslot
    · simp only [List.getElem?_append_left (hstate.refs href)] at howner
      exact hlatest.connection href howner

/-- The entries that `track_fd_install_entry` makes, if it makes any. -/
structure Tracked (state next : State) (id : PidFd) (tenancy : ℕ) : Prop where
  kernel : next.kernel = state.kernel
  connOwner : next.connOwner = state.connOwner
  tenancies : next.tenancies = state.tenancies
  fdTable : next.fdTable = state.fdTable
  closing : next.activeFdArgsMap = state.activeFdArgsMap
  sockets : ∀ {other entry}, next.pidFdToSockMap other = some entry →
    other = id ∧ entry.owner = tenancy ∨ state.pidFdToSockMap other = some entry
  files : ∀ {file entry}, next.activeFileToPidFdMap file = some entry →
    entry = ⟨id, tenancy⟩ ∨ state.activeFileToPidFdMap file = some entry

theorem trackFdInstallEntry_tracked (state : State) (id : PidFd) (file tenancy : ℕ) :
    Tracked state (state.trackFdInstallEntry id file tenancy) id tenancy := by
  rw [trackFdInstallEntry]
  split
  · exact ⟨rfl, rfl, rfl, rfl, rfl, .inr, .inr⟩
  · refine ⟨rfl, rfl, rfl, rfl, rfl, ?_, ?_⟩
    · intro other entry hentry
      exact (update_some_eq_some hentry).imp_left (And.imp_right (congrArg Owned.owner))
    · intro other entry hentry
      exact (update_some_eq_some hentry).imp_left And.right

/-- The state behind `fd_install`, before the probe sees it. -/
def installed (state : State) (id : PidFd) (file : ℕ) : State :=
  { state with
    fdTable := update state.fdTable id (some ⟨file, state.tenancies⟩)
    references := update state.references file (state.references file + 1)
    tenancies := state.tenancies + 1 }

/-- A new tenancy is the only one present at its descriptor. -/
theorem present_of_install {other : PidFd} {file : ℕ} (hprompt : Prompt state (.fdInstall id file))
    (hfree : state.fdTable id = none)
    (htracked : Tracked (installed state id file) next id state.tenancies)
    (hpresent : Present next other tenancy) :
    other = id ∧ tenancy = state.tenancies ∨ other ≠ id ∧ Present state other tenancy := by
  rcases hpresent with ⟨holder, hslot⟩ | ⟨recorded, hrecorded⟩ | ⟨thread, hclosing⟩
  · rw [htracked.fdTable] at hslot
    rcases update_some_eq_some hslot with ⟨hid, hnew⟩ | hheld
    · exact .inl ⟨hid, (Slot.mk.inj hnew).2⟩
    · refine .inr ⟨?_, .inl ⟨holder, hheld⟩⟩
      intro hid
      rw [hid, hfree] at hheld
      cases hheld
  · rcases htracked.files hrecorded with hentry | hrecorded
    · exact .inl (Owned.mk.inj hentry)
    · exact .inr ⟨hprompt.1 recorded _ hrecorded, .inr (.inl ⟨recorded, hrecorded⟩)⟩
  · rw [htracked.closing] at hclosing
    exact .inr ⟨hprompt.2 thread _ hclosing, .inr (.inr ⟨thread, hclosing⟩)⟩

theorem InTurn.install (hstate : InTurn state) {file : ℕ}
    (hprompt : Prompt state (.fdInstall id file)) (hfree : state.fdTable id = none) :
    InTurn ((installed state id file).trackFdInstallEntry id file state.tenancies) := by
  have htracked := trackFdInstallEntry_tracked (installed state id file) id file state.tenancies
  generalize trackFdInstallEntry _ id file state.tenancies = next at htracked
  have hslots : ∀ {other slot}, next.fdTable other = some slot →
      other = id ∧ slot.tenancy = state.tenancies ∨ state.fdTable other = some slot := by
    intro other slot hslot
    rw [htracked.fdTable] at hslot
    exact (update_some_eq_some hslot).imp_left (And.imp_right (congrArg Slot.tenancy))
  have hslotsLt : ∀ {other slot}, next.fdTable other = some slot →
      slot.tenancy < state.tenancies + 1 := by
    intro other slot hslot
    rcases hslots hslot with ⟨-, htenancy⟩ | hslot
    · exact htenancy ▸ Nat.lt_succ_self _
    · exact Nat.lt_succ_of_lt (hstate.slots hslot)
  have hsocketsLt : ∀ {other entry}, next.pidFdToSockMap other = some entry →
      entry.owner < state.tenancies + 1 := by
    intro other entry hentry
    rcases htracked.sockets hentry with ⟨-, howner⟩ | hentry
    · exact howner ▸ Nat.lt_succ_self _
    · exact Nat.lt_succ_of_lt (hstate.sockets hentry)
  constructor
  · rw [htracked.connOwner, htracked.kernel]
    exact hstate.length
  · rw [htracked.connOwner, htracked.kernel]
    exact hstate.refs
  · rw [htracked.tenancies]
    exact hslotsLt
  · rw [htracked.tenancies]
    exact hsocketsLt
  · rw [htracked.connOwner, htracked.tenancies]
    exact fun owner howner => Nat.lt_succ_of_lt (hstate.owners owner howner)
  · intro other tenancy hpresent
    rcases present_of_install hprompt hfree htracked hpresent with ⟨rfl, rfl⟩ | ⟨hother, hpresent⟩
    · refine ⟨fun hslot => Nat.le_of_lt_succ (hslotsLt hslot),
        fun hentry => Nat.le_of_lt_succ (hsocketsLt hentry), ?_⟩
      rw [htracked.connOwner]
      exact fun _ howner => (hstate.owners _ (mem_of_getElem? howner)).le
    · have hlatest := hstate.latest hpresent
      refine ⟨?_, ?_, ?_⟩
      · intro slot hslot
        exact hlatest.slot ((hslots hslot).resolve_left fun hnew => hother hnew.1)
      · intro entry hentry
        exact hlatest.socket ((htracked.sockets hentry).resolve_left fun hnew => hother hnew.1)
      · rw [htracked.connOwner, htracked.kernel]
        exact hlatest.connection

theorem closeKnown_eq_processClose (kernel : Kernel) (ctx : SocketCtx) :
    closeKnown kernel ctx = kernel.processClose ctx := by
  rw [closeKnown]
  split
  · next hnone =>
      have hmap : update kernel.connInfoMap ctx.id none = kernel.connInfoMap := by
        rw [← hnone, update_eq_self]
      rw [Kernel.processClose, Kernel.lookup, hmap, hnone]
  · rfl

theorem InTurn.processClose (hstate : InTurn state) (ctx : SocketCtx) :
    InTurn { state with kernel := state.kernel.processClose ctx } :=
  hstate.shrink { length := processClose_length _ _, connections := update_none_eq_some }

theorem InTurn.cleanup (hstate : InTurn state) (thread : Thread) (file : ℕ) :
    InTurn (state.cleanupPidFdFileEntries thread file) := by
  rw [cleanupPidFdFileEntries]
  split
  · exact hstate
  · rw [closeKnown_eq_processClose]
    refine (hstate.processClose _).shrink { sockets := update_none_eq_some, present := ?_ }
    exact Or.imp_right (Or.imp_left fun ⟨other, hother⟩ => ⟨other, update_none_eq_some hother⟩)

theorem InTurn.exitClose (hstate : InTurn state) (thread : Thread) :
    InTurn (state.syscallProbeRetClose thread) := by
  rw [syscallProbeRetClose]
  split
  · exact hstate
  · have hexit : ∀ {id tenancy}, Present { state with
        activeFdArgsMap := update state.activeFdArgsMap thread none } id tenancy →
          Present state id tenancy :=
      Or.imp_right (Or.imp_right fun ⟨other, hother⟩ => ⟨other, update_none_eq_some hother⟩)
    simp only
    split_ifs
    · exact (hstate.processClose _).shrink { present := hexit }
    · exact hstate.shrink { present := hexit }

theorem InTurn.step {action : Action} (hprompt : Prompt state action)
    (hnext : state.step action = some next) (hstate : InTurn state) : InTurn next := by
  cases action with
  | allocFile =>
    rw [State.step] at hnext
    split_ifs at hnext
    cases hnext
    exact hstate.shrink {}
  | fdInstall =>
    rw [State.step] at hnext
    split_ifs at hnext with hfree
    cases hnext
    exact hstate.install hprompt (isNone_iff_eq_none.1 hfree.2)
  | connect env ctx address function =>
    obtain ⟨slot, hslot, rfl⟩ := map_eq_some_iff.1 hnext
    exact hstate.connect hslot env address function
  | hook =>
    obtain ⟨_, rfl, hsame⟩ := step_sameConnections hnext
    refine hstate.shrink { length := hsame.length, connections := ?_ }
    intro id ref href
    rwa [← hsame.connInfoMap]
  | enterClose thread =>
    rw [State.step] at hnext
    split at hnext
    · next hslot _ =>
        cases hnext
        exact (hstate.enter hslot thread _).giveUp _ _
    · cases hnext
  | exitClose thread =>
    cases hnext
    exact hstate.exitClose thread
  | dropFd id =>
    obtain ⟨slot, -, rfl⟩ := map_eq_some_iff.1 hnext
    exact hstate.giveUp id slot
  | fput thread file =>
    rw [State.step] at hnext
    split_ifs at hnext
    cases hnext
    exact (hstate.cleanup thread file).shrink {}

/-! ## Releases -/

/-- `process_close` at a descriptor of which the tenancy is the latest. -/
theorem Latest.spares {tid : ℕ} (hlatest : Latest state id tenancy) (hstate : InTurn state)
    (hkernel : next.kernel = state.kernel.processClose ⟨id, tid⟩)
    (hsockets : ∀ other, other ≠ id → next.pidFdToSockMap other = state.pidFdToSockMap other) :
    Spares tenancy state next := by
  constructor
  · intro other entry hentry howner
    rw [hsockets other, hentry]
    rintro rfl
    exact absurd (hlatest.socket hentry) (not_le.2 howner)
  · intro other ref owner href howner htenancy
    have hother : other ≠ id := by
      rintro rfl
      exact absurd (hlatest.connection href howner) (not_le.2 htenancy)
    rw [hkernel, ← href]
    exact update_of_ne hother _ _
  · obtain ⟨entries, hlog, hentries⟩ := processClose_log state.kernel ⟨id, tid⟩
    refine ⟨entries, hkernel ▸ hlog, ?_⟩
    intro entry hentry
    obtain ⟨ref, conn, href, hconn, hevent⟩ := hentries entry hentry
    have howner := List.getElem?_eq_getElem (hstate.refs href)
    exact ⟨ref, conn, _, hconn, howner, hlatest.connection href howner, hevent⟩

theorem Spares.of_same (hkernel : next.kernel = state.kernel)
    (hsockets : next.pidFdToSockMap = state.pidFdToSockMap) : Spares tenancy state next where
  sockets := fun hentry _ => by rw [hsockets, hentry]
  connections := fun href _ _ => by rw [hkernel, href]
  closes := ⟨[], by rw [hkernel, append_nil], nofun⟩

/-- In every run in which descriptors are installed again only after the cleanup, the
release of a tenancy spares all newer ones. -/
theorem release_spares_newer {actions : List Action} {state next : State} {action : Action}
    {tenancy : ℕ} (hrun : runActions State.step State.initial actions = some state)
    (hprompt : runActions.Throughout State.step Prompt State.initial actions)
    (hnext : state.step action = some next) (hrelease : Releases state action tenancy) :
    Spares tenancy state next := by
  have hstate : InTurn state :=
    runActions.invariant_of_throughout InTurn (fun _ _ _ => InTurn.step) hrun hprompt InTurn.initial
  cases action with
  | fput thread file =>
    obtain ⟨id, hkey⟩ := hrelease
    have hlatest := hstate.latest (.inr (.inl ⟨file, hkey⟩))
    have hcleanup : Spares tenancy state (state.cleanupPidFdFileEntries thread file) := by
      rw [cleanupPidFdFileEntries, hkey]
      exact hlatest.spares hstate (closeKnown_eq_processClose _ _) fun other hother =>
        update_of_ne hother _ _
    rw [step] at hnext
    split_ifs at hnext
    cases hnext
    exact ⟨hcleanup.sockets, hcleanup.connections, hcleanup.closes⟩
  | exitClose thread =>
    obtain ⟨_, hargs⟩ := hrelease
    have hlatest := hstate.latest (.inr (.inr ⟨thread, hargs⟩))
    cases hnext
    rw [syscallProbeRetClose, hargs]
    simp only
    split_ifs
    · exact hlatest.spares hstate rfl fun _ _ => rfl
    · exact .of_same rfl rfl
  | _ => cases hrelease

/-- Socket 200 is installed at descriptor 5 of process 100, and closed. -/
def firstTenancy : List Action :=
  [.allocFile 10 200, .fdInstall ⟨100, 5⟩ 10, .enterClose ⟨100, 1⟩ 5]

/-- Socket 201 is installed there as well, and connected. -/
def secondTenancy : List Action :=
  [.allocFile 11 201, .fdInstall ⟨100, 5⟩ 11, .connect default ⟨⟨100, 5⟩, 2⟩ 0 .client]

/-- Two sockets at two descriptors, of which the first is closed. -/
def separateTenancies : List Action :=
  [.allocFile 10 200, .fdInstall ⟨100, 5⟩ 10, .allocFile 11 201, .fdInstall ⟨100, 6⟩ 11,
    .enterClose ⟨100, 1⟩ 5]

theorem separateTenancies_prompt :
    runActions.Throughout step Prompt initial separateTenancies := by
  refine .cons trivial rfl <| .cons ⟨nofun, nofun⟩ rfl <| .cons trivial rfl <|
    .cons ⟨fun file entry hentry => ?_, nofun⟩ rfl <| .cons trivial rfl trivial
  rcases update_some_eq_some hentry with ⟨-, rfl⟩ | hentry
  · decide
  · cases hentry

theorem release_spares_newer_separate :
    ∃ state next, runActions State.step State.initial separateTenancies = some state ∧
      state.step (.fput ⟨100, 1⟩ 10) = some next ∧
      Releases state (.fput ⟨100, 1⟩ 10) 0 ∧ Spares 0 state next := by
  exact ⟨_, _, rfl, rfl, ⟨_, rfl⟩, release_spares_newer rfl separateTenancies_prompt
      (rfl : step _ (.fput ⟨100, 1⟩ 10) = _) ⟨_, rfl⟩⟩

/-- The release of the first file, or the return from closing it, takes away what belongs
to the second. -/
theorem release_hits_newer :
    (∃ state next, runActions State.step State.initial (firstTenancy ++ secondTenancy) =
      some state ∧
      state.step (.fput ⟨100, 1⟩ 10) = some next ∧ Releases state (.fput ⟨100, 1⟩ 10) 0 ∧
      ¬ Spares 0 state next) ∧
    ∃ state next, runActions State.step State.initial (firstTenancy ++ secondTenancy) = some state ∧
      state.step (.exitClose ⟨100, 1⟩) = some next ∧ Releases state (.exitClose ⟨100, 1⟩) 0 ∧
      ¬ Spares 0 state next := by
  refine ⟨⟨_, _, rfl, rfl, ⟨_, rfl⟩, fun hspares => ?_⟩,
    ⟨_, _, rfl, rfl, ⟨_, rfl⟩, fun hspares => ?_⟩⟩
  · have hsocket := @Spares.sockets _ _ _ hspares ⟨100, 5⟩ ⟨201, 1⟩ rfl (by decide)
    cases hsocket
  · have hconnection := @Spares.connections _ _ _ hspares ⟨100, 5⟩ 0 1 rfl rfl (by decide)
    cases hconnection

end Qtap.Bpf.SockPidFd
