import Qtap.Core.Transition

/-!
# The connection reporter

A goroutine saves reports of a connection at a first deadline and then at intervals, and `Close`
cancels it and saves a final one.  A report is skipped when another holds the lock or when the
connection has no domain.

The connection is changed by its own event handlers, in any way until `Close` is called: by then
its event queue has been closed and its close event is there, since `Connection.Close` reads it.
Of a report only the fields that tell it from others are kept.
-/

namespace Qtap.Services.Reporter

open Qtap.Core

structure CloseEvent where
  wrBytes : ℤ
  rdBytes : ℤ
  deriving DecidableEq, Repr

structure Conn where
  domain : String
  closeEvent : Option CloseEvent
  deriving DecidableEq, Repr

structure Report where
  part : ℕ
  finalized : Bool
  endpointID : String
  bytesReceived : ℕ
  bytesSent : ℕ
  deriving DecidableEq, Repr

def toUInt64 (value : ℤ) : ℕ := (value % 2 ^ 64).toNat

def toEventStoreConnection (conn : Conn) (part : ℕ) : Report :=
  match conn.closeEvent with
  | some event => ⟨part, true, conn.domain, toUInt64 event.rdBytes, toUInt64 event.wrBytes⟩
  | none => ⟨part, false, conn.domain, 0, 0⟩

/-- Who makes a report. -/
inductive Party where
  | periodic
  | close
  deriving DecidableEq, Repr

structure Service where
  firstReportDeadline : ℕ
  reportInterval : ℕ
  conn : Conn
  cancelled : Bool
  locked : Bool
  reportCount : ℕ
  saved : List (Party × Report)
  deriving DecidableEq, Repr

/-- The points of `report` between which others may come. -/
inductive Phase where
  | trying
  | examining
  | saving (report : Report)
  | counting
  | unlocking
  deriving DecidableEq, Repr

namespace Service

/-- One step of `report`; no phase is left when it returns. -/
def report (service : Service) (party : Party) : Phase → Service × Option Phase
  | .trying =>
    if service.locked then (service, none)
    else ({ service with locked := true }, some .examining)
  | .examining =>
    if service.conn.domain = "" then (service, some .unlocking)
    else (service, some (.saving (toEventStoreConnection service.conn service.reportCount)))
  | .saving report => ({ service with saved := service.saved ++ [(party, report)] }, some .counting)
  | .counting =>
    ({ service with reportCount := (service.reportCount + 1) % 2 ^ 32 }, some .unlocking)
  | .unlocking => ({ service with locked := false }, none)

end Service

/-- The goroutine of `start`. -/
inductive Ticker where
  | starting
  | awaiting
  | reporting (first : Bool) (phase : Phase)
  | recurring
  | ticking
  | returned
  deriving DecidableEq, Repr

inductive Closer where
  | idle
  | cancelling
  | reporting (phase : Phase)
  | returned
  deriving DecidableEq, Repr

/-- The case that a select takes. -/
inductive Ready where
  | done
  | timer
  deriving DecidableEq, Repr

namespace Ticker

def resume (first : Bool) : Option Phase → Ticker
  | some phase => .reporting first phase
  | none => if first then .recurring else .ticking

def advance (service : Service) : Ticker → Ready → Option (Service × Ticker)
  | .starting, _ =>
    some (service, if 0 < service.firstReportDeadline then .awaiting else .recurring)
  | .awaiting, .done => if service.cancelled then some (service, .returned) else none
  | .awaiting, .timer => some (service, .reporting true .trying)
  | .reporting first phase, _ =>
    some ((service.report .periodic phase).1, resume first (service.report .periodic phase).2)
  | .recurring, _ =>
    some (service, if service.reportInterval = 0 ∨ service.cancelled then .returned else .ticking)
  | .ticking, .done => if service.cancelled then some (service, .returned) else none
  | .ticking, .timer => some (service, .reporting false .trying)
  | .returned, _ => none

end Ticker

namespace Closer

def resume : Option Phase → Closer
  | some phase => .reporting phase
  | none => .returned

def advance (service : Service) : Closer → Option (Service × Closer)
  | .idle => none
  | .cancelling => some ({ service with cancelled := true }, .reporting .trying)
  | .reporting phase =>
    some ((service.report .close phase).1, resume (service.report .close phase).2)
  | .returned => none

end Closer

structure State where
  service : Service
  ticker : Ticker
  closer : Closer
  deriving DecidableEq, Repr

inductive Action where
  | update (conn : Conn)
  | close
  | ticker (ready : Ready)
  | closer
  deriving DecidableEq, Repr

def step (state : State) : Action → Option State
  | .update conn =>
    if state.closer = .idle then
      some { state with service := { state.service with conn := conn } }
    else none
  | .close =>
    if state.closer = .idle ∧ state.service.conn.closeEvent.isSome then
      some { state with closer := .cancelling }
    else none
  | .ticker ready =>
    (state.ticker.advance state.service ready).map fun after =>
      { state with service := after.1, ticker := after.2 }
  | .closer =>
    (state.closer.advance state.service).map fun after =>
      { state with service := after.1, closer := after.2 }

def initial (firstReportDeadline reportInterval : ℕ) (conn : Conn) : State where
  service := ⟨firstReportDeadline, reportInterval, conn, false, false, 0, []⟩
  ticker := .starting
  closer := .idle

/-- The report of `Close` finds the lock free and a domain, and no periodic report begins after
it. -/
def Orderly (state : State) : Action → Prop
  | .closer =>
    (state.closer = .reporting .trying → state.service.locked = false) ∧
      (state.closer = .reporting .examining → state.service.conn.domain ≠ "")
  | .ticker _ => ∀ first, state.ticker = .reporting first .trying → state.closer ≠ .returned
  | _ => True

/-! ## The lock -/

def Phase.inside : Phase → Bool
  | .trying => false
  | _ => true

def Ticker.inside : Ticker → Bool
  | .reporting _ phase => phase.inside
  | _ => false

def Closer.inside : Closer → Bool
  | .reporting phase => phase.inside
  | _ => false

/-- The closer has or has had the lock. -/
def Closer.past (closer : Closer) : Bool := closer.inside || closer == .returned

/-- The last report saved is one of `Close` and shows the connection as it is. -/
def Service.Final (service : Service) : Prop :=
  ∃ part, service.saved.getLast? = some (.close, toEventStoreConnection service.conn part)

/-- What the closer has done so far. -/
def Closer.Reported (service : Service) : Closer → Prop
  | .reporting (.saving report) => ∃ part, report = toEventStoreConnection service.conn part
  | .reporting .counting | .reporting .unlocking | .returned => service.Final
  | _ => True

structure Guarded (state : State) : Prop where
  held : state.ticker.inside = true → state.service.locked = true
  lock : state.closer.inside = true → state.service.locked = true
  apart : state.closer.past = true → state.ticker.inside = false
  closed : state.closer ≠ .idle → state.service.conn.closeEvent.isSome = true
  reported : state.closer.Reported state.service

theorem guarded_initial (firstReportDeadline reportInterval : ℕ) (conn : Conn) :
    Guarded (initial firstReportDeadline reportInterval conn) :=
  ⟨nofun, nofun, nofun, fun hidle => absurd rfl hidle, trivial⟩

variable {closer : Closer} {service : Service}

theorem Closer.past_of_inside (hinside : closer.inside = true) : closer.past = true := by
  rw [Closer.past, hinside, Bool.true_or]

/-- Before it has the lock the closer has reported nothing. -/
theorem Closer.reported_of_not_past (hpast : closer.past = false) : closer.Reported service := by
  cases closer with
  | idle => trivial
  | cancelling => trivial
  | reporting phase =>
    cases phase with
    | trying => trivial
    | examining | saving report | counting | unlocking => cases hpast
  | returned => cases hpast

theorem Ticker.inside_resume_none {first : Bool} : (Ticker.resume first none).inside = false := by
  cases first <;> rfl

namespace Guarded

variable {state next : State} (hguarded : Guarded state)

include hguarded

theorem not_past (hinside : state.ticker.inside = true) : state.closer.past = false := by
  rw [← Bool.not_eq_true]
  intro hpast
  rw [hguarded.apart hpast] at hinside
  cases hinside

/-- A step of the ticker outside `report`. -/
theorem outside {ticker : Ticker} (hinside : ticker.inside = false) :
    Guarded { state with ticker := ticker } := by
  refine ⟨fun hticker => ?_, hguarded.lock, fun _ => hinside, hguarded.closed, hguarded.reported⟩
  cases hinside.symm.trans hticker

/-- A step of the ticker that has the lock. -/
theorem withLock {ticker : Ticker} (hinside : state.ticker.inside = true)
    (hconn : service.conn = state.service.conn)
    (hheld : ticker.inside = true → service.locked = true) :
    Guarded { state with service := service, ticker := ticker } := by
  have hpast := hguarded.not_past hinside
  refine ⟨hheld, fun hcloser => ?_, fun hcloser => ?_, fun hidle => ?_,
    Closer.reported_of_not_past hpast⟩
  · rw [Closer.past_of_inside hcloser] at hpast
    cases hpast
  · cases hpast.symm.trans hcloser
  · rw [hconn]
    exact hguarded.closed hidle

theorem tickerReport {first : Bool} {phase : Phase}
    (hticker : state.ticker = .reporting first phase)
    (horderly : phase = .trying → state.closer ≠ .returned) :
    Guarded { state with
      service := (state.service.report .periodic phase).1
      ticker := Ticker.resume first (state.service.report .periodic phase).2 } := by
  have hinside : phase.inside = true → state.ticker.inside = true := by
    intro hphase
    rw [hticker]
    exact hphase
  cases phase with
  | trying =>
    rw [Service.report]
    split
    · exact hguarded.outside Ticker.inside_resume_none
    next hfree =>
      -- nobody else has the lock, and the closer has not had it
      have hpast : state.closer.past = false := by
        rw [Closer.past, Bool.or_eq_false_iff, beq_eq_false_iff_ne]
        refine ⟨?_, horderly rfl⟩
        rw [← Bool.not_eq_true]
        exact fun hcloser => hfree (hguarded.lock hcloser)
      refine ⟨fun _ => rfl, fun _ => rfl, fun hcloser => ?_, hguarded.closed,
        Closer.reported_of_not_past hpast⟩
      cases hpast.symm.trans hcloser
  | examining =>
    have hlocked := hguarded.held (hinside rfl)
    rw [Service.report]
    split <;> exact hguarded.withLock (hinside rfl) rfl fun _ => hlocked
  | saving | counting =>
    exact hguarded.withLock (hinside rfl) rfl fun _ => hguarded.held (hinside rfl)
  | unlocking =>
    refine hguarded.withLock (hinside rfl) rfl fun hticker => ?_
    rw [Service.report, Ticker.inside_resume_none] at hticker
    cases hticker

theorem ticker {ready : Ready} (horderly : Orderly state (.ticker ready))
    (hnext : step state (.ticker ready) = some next) : Guarded next := by
  obtain ⟨_, hadvance, rfl⟩ := Option.map_eq_some_iff.1 hnext
  cases hticker : state.ticker with
  | starting | recurring =>
    rw [hticker] at hadvance
    cases hadvance
    refine hguarded.outside ?_
    split <;> rfl
  | awaiting | ticking =>
    rw [hticker] at hadvance
    cases ready with
    | done =>
      rw [Ticker.advance] at hadvance
      split at hadvance <;> cases hadvance
      exact hguarded.outside rfl
    | timer =>
      cases hadvance
      exact hguarded.outside rfl
  | reporting first =>
    rw [hticker] at hadvance
    cases hadvance
    exact hguarded.tickerReport hticker fun hphase => horderly first (hphase ▸ hticker)
  | returned =>
    rw [hticker] at hadvance
    cases hadvance

/-- A step of the closer that has the lock and keeps it. -/
theorem keepLock (hinside : state.closer.inside = true) (hconn : service.conn = state.service.conn)
    (hlocked : service.locked = state.service.locked) (hreported : closer.Reported service) :
    Guarded { state with service := service, closer := closer } := by
  have hapart := hguarded.apart (Closer.past_of_inside hinside)
  refine ⟨fun hticker => ?_, fun _ => hlocked.trans (hguarded.lock hinside), fun _ => hapart,
    fun _ => ?_, hreported⟩
  · exact hlocked.trans (hguarded.held hticker)
  · rw [hconn]
    refine hguarded.closed fun hidle => ?_
    rw [hidle] at hinside
    cases hinside

theorem closerReport {phase : Phase} (hcloser : state.closer = .reporting phase)
    (horderly : Orderly state .closer) :
    Guarded { state with
      service := (state.service.report .close phase).1
      closer := Closer.resume (state.service.report .close phase).2 } := by
  have hclosed : state.service.conn.closeEvent.isSome = true :=
    hguarded.closed (by rw [hcloser]; nofun)
  have hreported := hguarded.reported
  have hinside : phase.inside = true → state.closer.inside = true := by
    intro hphase
    rw [hcloser]
    exact hphase
  rw [hcloser] at hreported
  cases phase with
  | trying =>
    have hfree := horderly.1 hcloser
    have hapart : state.ticker.inside = false := by
      rw [← Bool.not_eq_true]
      intro hticker
      rw [hguarded.held hticker] at hfree
      cases hfree
    rw [Service.report, hfree]
    exact ⟨fun _ => rfl, fun _ => rfl, fun _ => hapart, fun _ => hclosed, trivial⟩
  | examining =>
    rw [Service.report, if_neg (horderly.2 hcloser)]
    exact hguarded.keepLock (hinside rfl) rfl rfl ⟨_, rfl⟩
  | saving =>
    obtain ⟨part, rfl⟩ := hreported
    exact hguarded.keepLock (hinside rfl) rfl rfl ⟨part, List.getLast?_concat⟩
  | counting => exact hguarded.keepLock (hinside rfl) rfl rfl hreported
  | unlocking =>
    have hapart := hguarded.apart (Closer.past_of_inside (hinside rfl))
    refine ⟨fun hticker => ?_, nofun, fun _ => hapart, fun _ => hclosed, hreported⟩
    cases hapart.symm.trans hticker

theorem step {action : Action} (horderly : Orderly state action)
    (hnext : Reporter.step state action = some next) : Guarded next := by
  cases action with
  | update =>
    rw [Reporter.step] at hnext
    split at hnext <;> cases hnext
    next hidle =>
      refine ⟨hguarded.held, hguarded.lock, hguarded.apart, fun hcloser => ?_, ?_⟩
      · exact absurd hidle hcloser
      · rw [hidle]
        trivial
  | close =>
    rw [Reporter.step] at hnext
    split at hnext <;> cases hnext
    next hclose => exact ⟨hguarded.held, nofun, nofun, fun _ => hclose.2, trivial⟩
  | ticker => exact hguarded.ticker horderly hnext
  | closer =>
    obtain ⟨_, hadvance, rfl⟩ := Option.map_eq_some_iff.1 hnext
    cases hcloser : state.closer with
    | idle | returned =>
      rw [hcloser] at hadvance
      cases hadvance
    | cancelling =>
      rw [hcloser] at hadvance
      cases hadvance
      refine ⟨hguarded.held, nofun, nofun, fun _ => hguarded.closed ?_, trivial⟩
      rw [hcloser]
      nofun
    | reporting =>
      rw [hcloser] at hadvance
      cases hadvance
      exact hguarded.closerReport hcloser horderly

end Guarded

/-- `Close` waits for nobody. -/
theorem exists_closer {state : State} (hidle : state.closer ≠ .idle)
    (hreturned : state.closer ≠ .returned) : ∃ next, step state .closer = some next := by
  cases hcloser : state.closer with
  | idle => exact absurd hcloser hidle
  | cancelling | reporting phase => exact ⟨_, by rw [step, hcloser]; rfl⟩
  | returned => exact absurd hcloser hreturned

variable {state : State}

/-- When the report of `Close` finds the lock free and a domain, and no periodic report begins
after it, it is saved as the last one, with the counters of the close event. -/
theorem final_report_last {firstReportDeadline reportInterval : ℕ} {conn : Conn}
    {actions : List Action}
    (hrun : runActions step (initial firstReportDeadline reportInterval conn) actions = some state)
    (horderly : runActions.Throughout step Orderly
      (initial firstReportDeadline reportInterval conn) actions) :
    (state.closer ≠ .idle → state.closer ≠ .returned → ∃ next, step state .closer = some next) ∧
    (state.closer = .returned → ∃ event part, state.service.conn.closeEvent = some event ∧
      state.service.saved.getLast? = some (.close, ⟨part, true, state.service.conn.domain,
        toUInt64 event.rdBytes, toUInt64 event.wrBytes⟩)) := by
  have hguarded : Guarded state := runActions.invariant_of_throughout Guarded
    (fun _ _ _ haction hnext hbefore => hbefore.step haction hnext) hrun horderly
    (guarded_initial firstReportDeadline reportInterval conn)
  refine ⟨exists_closer, fun hreturned => ?_⟩
  obtain ⟨event, hevent⟩ := Option.isSome_iff_exists.1 (hguarded.closed (by rw [hreturned]; nofun))
  have hreported := hguarded.reported
  rw [hreturned] at hreported
  obtain ⟨part, hlast⟩ := hreported
  rw [toEventStoreConnection, hevent] at hlast
  exact ⟨event, part, hevent, hlast⟩

/-- A first report, one at the interval, and one at the close. -/
def threeReports : List Action :=
  [.ticker .timer, .ticker .timer, .ticker .timer, .ticker .timer, .ticker .timer, .ticker .timer,
    .ticker .timer, .ticker .timer, .ticker .timer, .ticker .timer, .ticker .timer, .ticker .timer,
    .update ⟨"example.com", some ⟨7, 5⟩⟩, .ticker .timer, .ticker .timer, .close, .closer, .closer,
    .closer, .closer, .closer, .closer, .ticker .done]

theorem final_report_last_threeReports :
    ∃ state, runActions step (initial 1 1 ⟨"example.com", none⟩) threeReports = some state ∧
      state.ticker = .returned ∧ state.service.saved =
        [(.periodic, ⟨0, false, "example.com", 0, 0⟩), (.periodic, ⟨1, false, "example.com", 0, 0⟩),
          (.close, ⟨2, true, "example.com", 5, 7⟩)] ∧
      ∃ event part, state.service.conn.closeEvent = some event ∧
        state.service.saved.getLast? = some (.close, ⟨part, true, state.service.conn.domain,
          toUInt64 event.rdBytes, toUInt64 event.wrBytes⟩) := by
  have horderly : runActions.Throughout step Orderly (initial 1 1 ⟨"example.com", none⟩)
      threeReports :=
    .cons nofun rfl <| .cons nofun rfl <| .cons nofun rfl <| .cons nofun rfl <| .cons nofun rfl <|
      .cons nofun rfl <| .cons nofun rfl <| .cons nofun rfl <| .cons nofun rfl <| .cons nofun rfl <|
      .cons nofun rfl <| .cons nofun rfl <| .cons trivial rfl <| .cons nofun rfl <|
      .cons nofun rfl <| .cons trivial rfl <| .cons ⟨nofun, nofun⟩ rfl <|
      .cons ⟨fun _ => rfl, nofun⟩ rfl <| .cons ⟨nofun, fun _ => by decide⟩ rfl <|
      .cons ⟨nofun, nofun⟩ rfl <| .cons ⟨nofun, nofun⟩ rfl <| .cons ⟨nofun, nofun⟩ rfl <|
      .cons nofun rfl trivial
  exact ⟨_, rfl, rfl, rfl, (final_report_last rfl horderly).2 rfl⟩

/-- Without a domain nothing is saved; a report in progress that has looked at the connection
before it was closed makes `Close` skip its own; and a periodic report may follow the final one. -/
theorem final_report_missed :
    (∃ state, runActions step (initial 1 1 ⟨"", some ⟨7, 5⟩⟩)
      [.close, .closer, .closer, .closer, .closer] = some state ∧
      state.closer = .returned ∧ state.service.saved = []) ∧
    (∃ state, runActions step (initial 1 1 ⟨"example.com", none⟩)
      [.ticker .timer, .ticker .timer, .ticker .timer, .ticker .timer,
        .update ⟨"example.com", some ⟨7, 5⟩⟩, .close, .closer, .closer, .ticker .timer,
        .ticker .timer, .ticker .timer, .ticker .timer] = some state ∧
      state.closer = .returned ∧ state.ticker = .returned ∧
      state.service.saved = [(.periodic, ⟨0, false, "example.com", 0, 0⟩)]) ∧
    ∃ state, runActions step (initial 1 1 ⟨"example.com", some ⟨7, 5⟩⟩)
      [.ticker .timer, .close, .closer, .closer, .closer, .closer, .closer, .closer,
        .ticker .timer, .ticker .timer, .ticker .timer, .ticker .timer] = some state ∧
      state.closer = .returned ∧ state.service.saved =
        [(.close, ⟨0, true, "example.com", 5, 7⟩), (.periodic, ⟨1, true, "example.com", 5, 7⟩)] :=
  ⟨⟨_, rfl, rfl, rfl⟩, ⟨_, rfl, rfl, rfl, rfl⟩, _, rfl, rfl, rfl⟩

end Qtap.Services.Reporter
