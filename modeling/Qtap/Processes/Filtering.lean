import Qtap.Core.Transition
import Qtap.Processes.Filter

/-!
# Filters of the known processes

The process manager evaluates the filters when it discovers a process and again for all known
processes when the configuration changes.  The eventer, which keeps the filters for the kernel
side, hears of a process through the notifier of that process; the processes that were there
before have none and are reported once, when they are loaded.

The manager handles one event after another here.  Environment variables, observers and the
other metadata of a process play no part and are left out.
-/

namespace Qtap.Processes

open Function Qtap.Core

/-- What `Discover` meets: the executable cannot be read, or a later part fails, or it comes to
the notifier, which may refuse. -/
inductive Discovery where
  | unreadable
  | incomplete (exe : String)
  | complete (exe : String) (accepted : Bool)
  deriving DecidableEq, Repr

namespace Discovery

def exe? : Discovery → Option String
  | unreadable => none
  | incomplete exe => some exe
  | complete exe _ => some exe

def isComplete : Discovery → Bool
  | complete _ _ => true
  | _ => false

end Discovery

namespace Process

/-- `NewProcess`, with `SetNotifier` for one that comes from an event. -/
def new (pid : ℕ) (notifier : Bool) : Process := ⟨pid, "", 0, notifier, none⟩

/-- `SetMeta` of the eventer. -/
def setMeta (p : Process) : Process := { p with notified := some p.filter }

def notify (p : Process) : Process := if p.notifier then p.setMeta else p

/-- The filters are evaluated for the executable that was read. -/
def filtered (host : Host) (filters : List Filter) (exe : String) (p : Process) : Process :=
  { p with exe := exe, filter := applyFilters host filters { p with exe := exe } }

/-- The process and whether `Discover` succeeds. -/
def discover (host : Host) (filters : List Filter) (p : Process) : Discovery → Process × Bool
  | .unreadable => (p, false)
  | .incomplete exe => (p.filtered host filters exe, false)
  | .complete exe accepted => ((p.filtered host filters exe).notify, !p.notifier || accepted)

/-- What `updateFilters` does with a known process. -/
def update (host : Host) (filters : List Filter) (p : Process) : Process :=
  if applyFilters host filters p ≠ 0 then
    { p with filter := applyFilters host filters p }.notify
  else p

end Process

/-- The filters and the known processes, with the configuration that the filters are from. -/
structure State where
  filters : List Filter
  procs : ℕ → Option Process
  tap : TapFilters

inductive Action where
  | registerProcess (pid : ℕ) (discovery : Discovery)
  | preloadProc (pid : ℕ) (discovery : Discovery)
  | unregisterProcess (pid : ℕ)
  | setConfig (tap : Option TapFilters)
  deriving DecidableEq, Repr

namespace State

def initial : State := ⟨[], fun _ => none, ⟨[], []⟩⟩

/-- A process that is known is discovered in place, whatever becomes of it. -/
def addProc (host : Host) (state : State) (p : Process) (discovery : Discovery) : State :=
  match state.procs p.pid with
  | some proc =>
    { state with
      procs := update state.procs p.pid (some (proc.discover host state.filters discovery).1) }
  | none =>
    if (p.discover host state.filters discovery).2 then
      { state with
        procs := update state.procs p.pid (some (p.discover host state.filters discovery).1) }
    else state

/-- `SetMeta` for the process with this ID, if it was added. -/
def setMeta (state : State) (pid : ℕ) : State :=
  { state with procs := update state.procs pid ((state.procs pid).map Process.setMeta) }

/-- One round of `preloadProcs`. -/
def preloadProc (host : Host) (state : State) (pid : ℕ) (discovery : Discovery) : State :=
  match state.procs pid with
  | some _ => state
  | none => (state.addProc host (.new pid false) discovery).setMeta pid

/-- `SetConfig`; without a tap section nothing is done to the filters. -/
def setConfig (host : Host) (state : State) : Option TapFilters → State
  | none => state
  | some tap =>
    { filters := Filter.load host tap
      procs := fun pid => (state.procs pid).map (Process.update host (Filter.load host tap))
      tap := tap }

def step (host : Host) (state : State) : Action → Option State
  | .registerProcess pid discovery => some (state.addProc host (.new pid true) discovery)
  | .preloadProc pid discovery => some (state.preloadProc host pid discovery)
  | .unregisterProcess pid => some { state with procs := update state.procs pid none }
  | .setConfig tap => some (state.setConfig host tap)

/-- Each process has the mask of the first filter that matches it, and the eventer knows. -/
def FollowsConfig (host : Host) (state : State) : Prop :=
  ∀ pid p, state.procs pid = some p →
    p.filter =
      (((Filter.load host state.tap).find? (Filter.matches? host p)).map Filter.bitmask).getD 0 ∧
    p.notified = some p.filter

/-- The filter of a known process stays as it is, or the process has a notifier and the
discovery comes to it or the new filters match. -/
def Settled (host : Host) (state : State) : Action → Prop
  | .registerProcess pid discovery => ∀ p, state.procs pid = some p →
      ∀ exe, discovery.exe? = some exe →
        applyFilters host state.filters { p with exe := exe } = p.filter ∨
          p.notifier = true ∧ discovery.isComplete = true
  | .setConfig (some tap) => ∀ pid p, state.procs pid = some p →
      applyFilters host (Filter.load host tap) p = p.filter ∨
        p.notifier = true ∧ ∃ filter ∈ Filter.load host tap, filter.matches? host p = true
  | _ => True

end State

/-! ## One process -/

variable {p : Process} {discovery : Discovery} {pid : ℕ}

theorem evaluate_congr {host : Host} {filter : Filter} {q : Process} (hpid : p.pid = q.pid)
    (hexe : p.exe = q.exe) : filter.evaluate host p = filter.evaluate host q := by
  cases filter <;> simp only [Filter.evaluate, hpid, hexe]

theorem applyFilters_congr {host : Host} {filters : List Filter} {q : Process}
    (hpid : p.pid = q.pid) (hexe : p.exe = q.exe) :
    applyFilters host filters p = applyFilters host filters q := by
  induction filters with
  | nil => rfl
  | cons filter filters ih => rw [applyFilters, applyFilters, evaluate_congr hpid hexe, ih]

namespace Process

/-- The process has the mask of the filters, and the eventer knows. -/
def Follows (host : Host) (filters : List Filter) (p : Process) : Prop :=
  p.filter = applyFilters host filters p ∧ p.notified = some p.filter

variable {host : Host} {filters : List Filter} {p : Process}

theorem follows_setMeta_filtered {exe : String} :
    (p.filtered host filters exe).setMeta.Follows host filters :=
  ⟨applyFilters_congr rfl rfl, rfl⟩

theorem follows_filtered_iff {exe : String} (hnotified : p.notified = some p.filter) :
    (p.filtered host filters exe).Follows host filters ↔
      applyFilters host filters { p with exe := exe } = p.filter := by
  constructor
  · intro hfollows
    exact (Option.some.inj (hnotified.symm.trans hfollows.2)).symm
  · intro hmask
    exact ⟨applyFilters_congr rfl rfl, hnotified.trans (congrArg some hmask.symm)⟩

/-- A discovery is followed exactly if nothing changes or the notifier is called. -/
theorem follows_discover_iff (hfollows : p.Follows host filters) :
    (p.discover host filters discovery).1.Follows host filters ↔
      ∀ exe, discovery.exe? = some exe →
        applyFilters host filters { p with exe := exe } = p.filter ∨
          p.notifier = true ∧ discovery.isComplete = true := by
  cases discovery with
  | unreadable => exact iff_of_true hfollows nofun
  | incomplete =>
    rw [discover, follows_filtered_iff hfollows.2]
    simp [Discovery.exe?, Discovery.isComplete]
  | complete =>
    rw [discover, notify]
    split
    next hnotifier =>
      exact iff_of_true follows_setMeta_filtered fun _ _ => .inr ⟨hnotifier, rfl⟩
    next hnotifier =>
      have hnone : ¬ p.notifier = true := hnotifier
      rw [follows_filtered_iff hfollows.2]
      simp [Discovery.exe?, hnone]

/-- A new process with a notifier is known to the eventer when its discovery succeeds, one
without when it has been reported. -/
theorem follows_discover_new {notifier : Bool}
    (hsuccess : ((new pid notifier).discover host filters discovery).2 = true) :
    (match notifier, ((new pid notifier).discover host filters discovery).1 with
      | true, p => p
      | false, p => p.setMeta).Follows host filters := by
  cases discovery with
  | unreadable | incomplete exe => cases hsuccess
  | complete => cases notifier <;> exact follows_setMeta_filtered

/-- New filters are followed exactly if the mask stays or there is one and a notifier. -/
theorem follows_update_iff (hnotified : p.notified = some p.filter) :
    (p.update host filters).Follows host filters ↔
      applyFilters host filters p = p.filter ∨
        p.notifier = true ∧ applyFilters host filters p ≠ 0 := by
  rw [update]
  split
  next hmask =>
    rw [notify]
    split
    next hnotifier =>
      exact iff_of_true ⟨applyFilters_congr rfl rfl, rfl⟩ (.inr ⟨hnotifier, hmask⟩)
    next hnotifier =>
      have hnone : ¬ p.notifier = true := hnotifier
      rw [or_iff_left fun h => hnone h.1]
      exact follows_filtered_iff hnotified
  next hmask =>
    rw [or_iff_left fun h => hmask h.2]
    exact ⟨fun hfollows => hfollows.1.symm, fun hfilter => ⟨hfilter.symm, hnotified⟩⟩

end Process

/-! ## All processes -/

namespace State

/-- The filters are those of the configuration, and each process follows them. -/
structure Following (host : Host) (state : State) : Prop where
  filters : state.filters = Filter.load host state.tap
  follows : ∀ pid p, state.procs pid = some p → p.Follows host state.filters

variable {host : Host} {state next : State}

theorem followsConfig_iff (hfilters : state.filters = Filter.load host state.tap) :
    state.FollowsConfig host ↔ Following host state := by
  constructor
  · intro hfollows
    refine ⟨hfilters, fun pid p hp => ?_⟩
    rw [Process.Follows, hfilters, applyFilters_eq_find?]
    exact hfollows pid p hp
  · intro hfollowing pid p hp
    rw [← applyFilters_eq_find?, ← hfilters]
    exact hfollowing.follows pid p hp

theorem following_initial : Following host initial := ⟨rfl, nofun⟩

theorem addProc_of_none (hnone : state.procs p.pid = none) :
    state.addProc host p discovery =
      if (p.discover host state.filters discovery).2 then
        { state with
          procs := update state.procs p.pid (some (p.discover host state.filters discovery).1) }
      else state := by
  rw [addProc, hnone]

theorem setMeta_update :
    { state with procs := update state.procs pid (some p) }.setMeta pid =
      { state with procs := update state.procs pid (some p.setMeta) } := by
  simp [setMeta]

theorem filters_step (hfilters : state.filters = Filter.load host state.tap) {action : Action}
    (hnext : state.step host action = some next) : next.filters = Filter.load host next.tap := by
  cases action with
  | registerProcess =>
    cases hnext
    rw [addProc]
    split
    · exact hfilters
    · split <;> exact hfilters
  | preloadProc =>
    cases hnext
    rw [preloadProc]
    split
    · exact hfilters
    next hnone =>
      rw [addProc_of_none hnone]
      split <;> exact hfilters
  | unregisterProcess => exact Option.some.inj hnext ▸ hfilters
  | setConfig tap =>
    cases hnext
    cases tap with
    | none => exact hfilters
    | some => rfl

namespace Following

variable (hfollowing : Following host state)

include hfollowing

theorem replace {entry : Option Process} (hentry : ∀ p ∈ entry, p.Follows host state.filters) :
    Following host { state with procs := update state.procs pid entry } where
  filters := hfollowing.filters
  follows := (forall_update_iff state.procs fun _ entry => ∀ p, entry = some p → Process.Follows
    host state.filters p).2 ⟨hentry, fun other _ => hfollowing.follows other⟩

/-- With one process replaced, all depends on that process. -/
theorem update_iff :
    Following host { state with procs := update state.procs pid (some p) } ↔
      p.Follows host state.filters := by
  constructor
  · intro hupdated
    exact hupdated.follows pid p (update_self _ _ _)
  · intro hp
    exact hfollowing.replace fun _ hq => Option.some.inj hq ▸ hp

theorem remove : Following host { state with procs := update state.procs pid none } :=
  hfollowing.replace nofun

theorem addProc_iff :
    Following host (state.addProc host (.new pid true) discovery) ↔
      state.Settled host (.registerProcess pid discovery) := by
  rw [addProc]
  split
  next proc hproc =>
    rw [hfollowing.update_iff, Process.follows_discover_iff (hfollowing.follows pid proc hproc)]
    constructor
    · intro hsettled p hp
      cases hproc.symm.trans hp
      exact hsettled
    · exact fun hsettled => hsettled proc hproc
  next hnone =>
    refine iff_of_true ?_ fun p hp => nomatch hnone.symm.trans hp
    split
    next hsuccess =>
      rw [hfollowing.update_iff]
      exact Process.follows_discover_new hsuccess
    · exact hfollowing

theorem preloadProc : Following host (state.preloadProc host pid discovery) := by
  rw [State.preloadProc]
  split
  · exact hfollowing
  next hnone =>
    rw [addProc_of_none hnone]
    split
    next hsuccess =>
      change Following host (State.setMeta { state with procs := update state.procs pid _ } pid)
      rw [setMeta_update, hfollowing.update_iff]
      exact Process.follows_discover_new hsuccess
    · rw [setMeta, hnone]
      exact hfollowing.remove

theorem setConfig_iff {tap : Option TapFilters} :
    Following host (state.setConfig host tap) ↔ state.Settled host (.setConfig tap) := by
  cases tap with
  | none => exact iff_of_true hfollowing trivial
  | some =>
    simp only [Settled, ← applyFilters_load_ne_zero]
    constructor
    · intro hnext pid p hp
      rw [← Process.follows_update_iff (hfollowing.follows pid p hp).2]
      exact hnext.follows pid _ (congrArg (Option.map _) hp)
    · intro hsettled
      refine ⟨rfl, fun pid p hp => ?_⟩
      obtain ⟨before, hbefore, rfl⟩ := Option.map_eq_some_iff.1 hp
      exact (Process.follows_update_iff (hfollowing.follows pid before hbefore).2).2
        (hsettled pid before hbefore)

theorem step_iff {action : Action} (hnext : state.step host action = some next) :
    Following host next ↔ state.Settled host action := by
  cases action with
  | registerProcess => exact Option.some.inj hnext ▸ hfollowing.addProc_iff
  | preloadProc =>
    exact iff_of_true (Option.some.inj hnext ▸ hfollowing.preloadProc) trivial
  | unregisterProcess => exact iff_of_true (Option.some.inj hnext ▸ hfollowing.remove) trivial
  | setConfig => exact Option.some.inj hnext ▸ hfollowing.setConfig_iff

end Following

end State

/-- When the filter of a known process changes only with a notification, each known process has
the mask of the first filter of the last configuration that matches it, and the eventer was told.
The next event keeps this up exactly if it is of that kind again. -/
theorem filters_follow_config {host : Host} {actions : List Action} {state : State}
    (hrun : runActions (State.step host) State.initial actions = some state)
    (hsettled : runActions.Throughout (State.step host) (State.Settled host)
      State.initial actions) :
    state.FollowsConfig host ∧ ∀ action next, state.step host action = some next →
      (next.FollowsConfig host ↔ state.Settled host action) := by
  have hfollowing : State.Following host state :=
    runActions.invariant_of_throughout (State.Following host)
      (fun _ _ _ haction hnext hbefore => (hbefore.step_iff hnext).2 haction) hrun hsettled
      State.following_initial
  refine ⟨(State.followsConfig_iff hfollowing.filters).2 hfollowing, fun action next hnext => ?_⟩
  rw [State.followsConfig_iff (State.filters_step hfollowing.filters hnext)]
  exact hfollowing.step_iff hnext

/-- No regular expressions, and lower case only. -/
def plainHost : Host := ⟨id, fun _ => .error "no regular expressions", 1⟩

def skipFilter (exe : String) (only : List FilterLevel) : TapFilter := ⟨exe, .suffixMatch, only⟩

/-- A process that is found while one filter matches it and keeps being matched by another. -/
theorem filters_follow_config_replaced :
    ∃ state : State, runActions (State.step plainHost) State.initial
        [.setConfig (some ⟨[], [skipFilter "/curl" []]⟩),
          .registerProcess 7 (.complete "/usr/bin/curl" true),
          .setConfig (some ⟨[], [skipFilter "/bin/curl" [.dns], skipFilter "/curl" []]⟩)] =
        some state ∧ state.FollowsConfig plainHost ∧
      (state.procs 7).map Process.filter = some skipDNSFlag := by
  have hsettled : runActions.Throughout (State.step plainHost) (State.Settled plainHost)
      State.initial
      [.setConfig (some ⟨[], [skipFilter "/curl" []]⟩),
        .registerProcess 7 (.complete "/usr/bin/curl" true),
        .setConfig (some ⟨[], [skipFilter "/bin/curl" [.dns], skipFilter "/curl" []]⟩)] := by
    refine .cons nofun rfl <| .cons nofun rfl <| .cons ?_ rfl trivial
    intro pid p hp
    rcases eq_or_ne pid 7 with rfl | hne
    · obtain rfl := Option.some.inj hp
      exact .inr ⟨rfl, _, List.mem_cons_self, rfl⟩
    · cases (update_of_ne hne _ _).symm.trans hp
  exact ⟨_, rfl, (filters_follow_config rfl hsettled).1, rfl⟩

/-- The filter is taken out of the configuration: the process keeps its mask. -/
theorem removed_filter_kept :
    ∃ state : State, runActions (State.step plainHost) State.initial
        [.setConfig (some ⟨[], [skipFilter "/curl" []]⟩),
          .registerProcess 7 (.complete "/usr/bin/curl" true), .setConfig (some ⟨[], []⟩)] =
        some state ∧
      state.procs 7 = some ⟨7, "/usr/bin/curl", skipAllFlag, true, some skipAllFlag⟩ ∧
      Filter.load plainHost state.tap = [] :=
  ⟨_, rfl, rfl, rfl⟩

end Qtap.Processes
