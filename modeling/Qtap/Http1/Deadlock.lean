import Qtap.Http1.Moves

/-!
# When the caller of an HTTP/1 stream can block for ever

A goroutine leaves its pipe unread after a head that it cannot parse, while it waits for
a 100 response, and after a 101 response.  The caller is never stuck in a write as long
as no bytes and no events follow such a head on the same pipe.
-/

namespace Qtap.Http1

open Qtap.Core Qtap.Connection

/-! ## Which heads end the reading -/

/-- What a goroutine does with its pipe after a byte of a head. -/
inductive Verdict where
  | readOn (reader : HeadReader)
  | stop
  | free
  deriving DecidableEq, Repr

/-- The request goroutine waits for a 100 response before it reads the body. -/
def waits (request : Request) : Bool := expectsRequestBody request && expectsContinue request

def requestVerdict (library : Library) : HeadResult → Verdict
  | .more reader => .readOn reader
  | .failed _ => .stop
  | .complete headers =>
    match readRequest library headers with
    | .error _ => .stop
    | .ok request =>
      if waits request then .stop else .free

def responseVerdict (library : Library) : HeadResult → Verdict
  | .more reader => .readOn reader
  | .failed _ => .stop
  | .complete headers =>
    match readResponse library headers with
    | .error _ => .stop
    | .ok response =>
      if System.isInterim response then
        if response.statusCode = 101 then .stop else .readOn {}
      else .free

/-- Nothing follows a byte of the chunk that ends the reading. -/
def safeChunk (verdict : HeadResult → Verdict) (last : Bool) (next : HeadReader → Bool) :
    List Byte → HeadReader → Bool
  | [], reader => next reader
  | byte :: bytes, reader =>
    match verdict (reader.read byte) with
    | .readOn reader => safeChunk verdict last next bytes reader
    | .stop => bytes.isEmpty && last
    | .free => true

/-- Nothing follows a byte that ends the reading, neither in its chunk nor behind it. -/
def safe (verdict : HeadResult → Verdict) : List (List Byte) → HeadReader → Bool
  | [], _ => true
  | chunk :: chunks, reader =>
    safeChunk verdict chunks.isEmpty (safe verdict chunks) chunk reader

/-- What is left of a write after its first bytes were taken. -/
def leftover (data : List Byte) : List (List Byte) := if data = [] then [] else [data]

theorem safe_leftover (verdict : HeadResult → Verdict) (data : List Byte)
    (chunks : List (List Byte)) (reader : HeadReader) :
    safe verdict (leftover data ++ chunks) reader = safe verdict (data :: chunks) reader := by
  unfold leftover
  by_cases hdata : data = []
  · rw [hdata]
    rfl
  · rw [if_neg hdata]
    rfl

variable {byte : Byte} {bytes data : List Byte} {chunks : List (List Byte)} {reader : HeadReader}
  {count : ℕ}

theorem safe_readOn {verdict : HeadResult → Verdict} {next : HeadReader}
    (hsafe : safe verdict ((byte :: bytes) :: chunks) reader = true)
    (hnext : verdict (reader.read byte) = .readOn next) :
    safe verdict (leftover bytes ++ chunks) next = true := by
  rw [safe_leftover]
  simpa only [safe, safeChunk, hnext] using hsafe

theorem safe_stop {verdict : HeadResult → Verdict}
    (hsafe : safe verdict ((byte :: bytes) :: chunks) reader = true)
    (hstop : verdict (reader.read byte) = .stop) : leftover bytes ++ chunks = [] := by
  simp only [safe, safeChunk, hstop, Bool.and_eq_true, List.isEmpty_iff] at hsafe
  rw [hsafe.1, hsafe.2]
  rfl

namespace System

variable {env : Env} {system : System env}

/-! ## What is still to be read -/

/-- The writes of a phase that have not been read completely, the current one first. -/
def unread (system : System env) (phase : Phase) : List (List Byte) :=
  (system.offered phase).toList ++
    (system.pending.filter fun event => event.phase = phase).map Event.data

variable {phase : Phase}

section

variable (hoffered : system.offered phase = some data)

include hoffered

theorem unread_eq :
    system.unread phase =
      data :: (system.pending.filter fun event => event.phase = phase).map Event.data := by
  rw [unread, hoffered]
  rfl

theorem unread_take_self (count : ℕ) :
    (system.take count).unread phase = leftover (data.drop count) ++
      (system.pending.filter fun event => event.phase = phase).map Event.data := by
  have hwriting := offered_eq_some hoffered
  unfold unread take leftover
  rw [hwriting]
  dsimp only
  split_ifs with hdone
  · rfl
  · simp [offered]

theorem unread_take_other (other : Phase) (hother : other ≠ phase) (count : ℕ) :
    (system.take count).unread other = system.unread other := by
  have hwriting := offered_eq_some hoffered
  unfold unread take
  rw [hwriting]
  dsimp only
  split_ifs with hdone <;> simp [offered, hwriting, hother.symm]

end

@[simp]
theorem unread_setSession (transaction : Transaction env) (phase : Phase) :
    (system.setSession transaction).unread phase = system.unread phase := rfl

@[simp]
theorem session_take (count : ℕ) : (system.take count).session = system.session := by
  unfold take
  split
  · split_ifs <;> rfl
  · rfl

end System

/-! ## The invariant -/

variable {env : Env}

/-- While the goroutine reads a head, what it has still to read is safe; once it may have
stopped, there is nothing to read. -/
def RequestOk (expecting : Bool) : RequestControl env → List (List Byte) → Prop
  | .head reader, unread => safe (requestVerdict env.library) unread reader = true
  | .failed _, unread => unread = []
  | .parsed request, unread => waits request = true → unread = []
  | .stored request, unread =>
    (waits request = true → unread = []) ∧ (expecting = true → expectsContinue request = true)
  | .notified request, unread =>
    (waits request = true → unread = []) ∧ (expecting = true → expectsContinue request = true)
  | .waiting _, unread => unread = []
  | .body _, _ => True
  | .discard, _ => True
  | .exited, unread => unread = []

def ResponseOk : ResponseControl env → List (List Byte) → Prop
  | .head reader, unread => safe (responseVerdict env.library) unread reader = true
  | .failed _, unread => unread = []
  | .parsed response, unread =>
    if System.isInterim response then
      if response.statusCode = 101 then unread = []
      else safe (responseVerdict env.library) unread {} = true
    else True
  | .awaiting, unread => unread = []
  | .closing, unread => unread = []
  | .body _, _ => True
  | .discard, _ => True
  | .exited, unread => unread = []

structure Transaction.Ok (transaction : Transaction env) (request response : List (List Byte)) :
    Prop where
  request_ok : RequestOk transaction.expectingContinue transaction.request request
  response_ok : ResponseOk transaction.response response
  cancelled_exited : transaction.cancelled = true →
    transaction.request = .exited ∨ transaction.response = .exited
  closed_stopped : transaction.closed = true →
    transaction.request = .exited ∧ transaction.response = .closing

variable {transaction : Transaction env} {control : RequestControl env}

namespace System

/-- Both pipes are safe for the goroutines of the current session, or for those of the
first one. -/
def Safe (system : System env) : Prop :=
  match system.session with
  | some transaction => transaction.Ok (system.unread .request) (system.unread .response)
  | none =>
    system.writing = none ∧
      safe (requestVerdict env.library) (system.unread .request) {} = true ∧
      safe (responseVerdict env.library) (system.unread .response) {} = true

theorem safe_of_session {system : System env} (hsession : system.session = some transaction) :
    system.Safe ↔ transaction.Ok (system.unread .request) (system.unread .response) := by
  rw [Safe, hsession]

end System

theorem RequestOk.released {expecting : Bool} {unread : List (List Byte)}
    (hok : RequestOk expecting control unread) : RequestOk false control unread := by
  cases control with
  | stored => exact ⟨hok.1, nofun⟩
  | notified => exact ⟨hok.1, nofun⟩
  | head reader | failed silent | parsed request | waiting request | body state | discard
  | exited => exact hok

/-- The request goroutine after a byte of a head. -/
theorem headRequest_ok (expecting : Bool)
    (hsafe : safe (requestVerdict env.library) ((byte :: bytes) :: chunks) reader = true) :
    RequestOk expecting (System.headRequest env (reader.read byte)) (leftover bytes ++ chunks) := by
  cases hread : reader.read byte with
  | more => exact safe_readOn hsafe (by rw [hread]; rfl)
  | failed => exact safe_stop hsafe (by rw [hread]; rfl)
  | complete headers =>
    cases hrequest : readRequest env.library headers with
    | error =>
      simp only [System.headRequest, hrequest]
      exact safe_stop hsafe (by rw [hread, requestVerdict, hrequest])
    | ok =>
      simp only [System.headRequest, hrequest]
      intro hwaits
      exact safe_stop hsafe (by simp only [hread, requestVerdict, hrequest, hwaits, if_true])

/-- The response goroutine after a byte of a head. -/
theorem headResponse_ok
    (hsafe : safe (responseVerdict env.library) ((byte :: bytes) :: chunks) reader = true) :
    ResponseOk (System.headResponse env (reader.read byte)) (leftover bytes ++ chunks) := by
  cases hread : reader.read byte with
  | more => exact safe_readOn hsafe (by rw [hread]; rfl)
  | failed => exact safe_stop hsafe (by rw [hread]; rfl)
  | complete headers =>
    cases hresponse : readResponse env.library headers with
    | error =>
      simp only [System.headResponse, hresponse]
      exact safe_stop hsafe (by rw [hread, responseVerdict, hresponse])
    | ok response =>
      simp only [System.headResponse, hresponse, ResponseOk]
      split_ifs with hinterim hswitch
      · refine safe_stop hsafe ?_
        rw [hread]
        simp only [responseVerdict, hresponse]
        rw [if_pos hinterim, if_pos hswitch]
      · refine safe_readOn hsafe ?_
        rw [hread]
        simp only [responseVerdict, hresponse]
        rw [if_pos hinterim, if_neg hswitch]

/-! ## Steps of the goroutines -/

namespace Transaction

variable {transaction next : Transaction env} {request response unread : List (List Byte)}

theorem Ok.withRequest (hok : transaction.Ok request response) {control : RequestControl env}
    (hcontrol : transaction.request = control)
    (hrequest : RequestOk next.expectingContinue next.request unread)
    (hcancelled : next.cancelled = transaction.cancelled ∨ next.request = .exited := by simp)
    (hrunning : control ≠ .exited := by simp)
    (hresponse : next.response = transaction.response := by rfl)
    (hclosed : next.closed = transaction.closed := by rfl) : next.Ok unread response := by
  subst hcontrol
  refine ⟨hrequest, ?_, ?_, ?_⟩
  · rw [hresponse]
    exact hok.response_ok
  · intro hcancel
    rcases hcancelled with hsame | hexited
    · rw [hsame] at hcancel
      rcases hok.cancelled_exited hcancel with hexited | hexited
      · exact absurd hexited hrunning
      · rw [hresponse]
        exact .inr hexited
    · exact .inl hexited
  · intro hclose
    rw [hclosed] at hclose
    exact absurd (hok.closed_stopped hclose).1 hrunning

theorem Ok.withResponse (hok : transaction.Ok request response) {control : ResponseControl env}
    (hcontrol : transaction.response = control) (hresponse : ResponseOk next.response unread)
    (hexpecting : next.expectingContinue = transaction.expectingContinue ∨
      next.expectingContinue = false := by simp)
    (hcancelled : next.cancelled = transaction.cancelled ∨ next.response = .exited := by simp)
    (hrunning : control ≠ .exited ∧ control ≠ .closing := by simp)
    (hrequest : next.request = transaction.request := by rfl)
    (hclosed : next.closed = transaction.closed := by rfl) : next.Ok request unread := by
  subst hcontrol
  refine ⟨?_, hresponse, ?_, ?_⟩
  · rw [hrequest]
    rcases hexpecting with hsame | hreleased
    · rw [hsame]
      exact hok.request_ok
    · rw [hreleased]
      exact hok.request_ok.released
  · intro hcancel
    rcases hcancelled with hsame | hexited
    · rw [hsame] at hcancel
      rcases hok.cancelled_exited hcancel with hexited | hexited
      · rw [hrequest]
        exact .inl hexited
      · exact absurd hexited hrunning.1
    · exact .inr hexited
  · intro hclose
    rw [hclosed] at hclose
    exact absurd (hok.closed_stopped hclose).2 hrunning.2

end Transaction

theorem RequestWork.ok {after : Transaction env} {callbacks : List Callback}
    {request response : List (List Byte)} (hwork : RequestWork transaction callbacks after)
    (hok : transaction.Ok request response) : after.Ok request response := by
  have hrequest := hok.request_ok
  cases hwork with
  | store hcontrol =>
    rw [hcontrol] at hrequest
    exact hok.withRequest hcontrol ⟨hrequest, id⟩
  | fail hcontrol | notify hcontrol | cancel hcontrol =>
    rw [hcontrol] at hrequest
    exact hok.withRequest hcontrol hrequest
  | branch hcontrol =>
    rw [hcontrol] at hrequest
    refine hok.withRequest hcontrol ?_
    dsimp only [System.afterNotified]
    split_ifs with hbody hexpecting
    · refine hrequest.1 ?_
      rw [waits, hbody, hrequest.2 hexpecting]
      rfl
    · trivial
    · trivial
  | resume hcontrol | complain hcontrol =>
    exact hok.withRequest hcontrol trivial
  | yield hcontrol =>
    refine hok.withRequest hcontrol ?_
    split_ifs <;> trivial
  | endHead hcontrol hclosed | endBody hcontrol hpoll hclosed
  | endDiscard hcontrol hclosed => cases hcontrol.symm.trans (hok.closed_stopped hclosed).1

theorem RequestRead.ok {next : RequestControl env} {expecting : Bool}
    (hread : RequestRead control data count next)
    (hok : RequestOk expecting control (data :: chunks)) :
    RequestOk expecting next (leftover (data.drop count) ++ chunks) := by
  cases hread with
  | skip => exact hok
  | byte => exact headRequest_ok expecting hok
  | body => trivial
  | discard => trivial

theorem ResponseWork.ok {after : Transaction env} {callbacks : List Callback}
    {request response : List (List Byte)} (hwork : ResponseWork transaction callbacks after)
    (hok : transaction.Ok request response) : after.Ok request response := by
  have hresponse := hok.response_ok
  cases hwork with
  | fail hcontrol =>
    rw [hcontrol] at hresponse
    exact hok.withResponse hcontrol hresponse
  | switch hcontrol hinterim hswitch =>
    rw [hcontrol, ResponseOk, if_pos hinterim, if_pos hswitch] at hresponse
    exact hok.withResponse hcontrol hresponse
  | interim hcontrol hinterim hswitch =>
    rw [hcontrol, ResponseOk, if_pos hinterim, if_neg hswitch] at hresponse
    unfold System.continueSignal
    split_ifs <;> exact hok.withResponse hcontrol hresponse
  | final hcontrol hinterim hnext =>
    refine hok.withResponse hcontrol ?_
    rcases hnext with hnext | hnext
    · rw [hnext]
      trivial
    · rw [hnext]
      trivial
  | close hcontrol hcancelled =>
    rw [hcontrol] at hresponse
    have hexited : transaction.request = .exited :=
      (hok.cancelled_exited hcancelled).resolve_right (by rw [hcontrol]; nofun)
    exact ⟨hok.request_ok, hresponse, fun _ => .inl hexited, fun _ => ⟨hexited, rfl⟩⟩
  | complain hcontrol =>
    exact hok.withResponse hcontrol trivial
  | yield hcontrol =>
    refine hok.withResponse hcontrol ?_
    split_ifs <;> trivial
  | endHead hcontrol hclosed | endBody hcontrol hpoll hclosed
  | endDiscard hcontrol hclosed => cases hcontrol.symm.trans (hok.closed_stopped hclosed).2

theorem ResponseRead.ok {control next : ResponseControl env}
    (hread : ResponseRead control data count next) (hok : ResponseOk control (data :: chunks)) :
    ResponseOk next (leftover (data.drop count) ++ chunks) := by
  cases hread with
  | skip => exact hok
  | byte => exact headResponse_ok hok
  | body => trivial
  | discard => trivial

theorem RequestRead.running {next : RequestControl env}
    (hread : RequestRead control data count next) : control ≠ .exited := by
  cases hread <;> nofun

theorem ResponseRead.running {control next : ResponseControl env}
    (hread : ResponseRead control data count next) : control ≠ .exited ∧ control ≠ .closing := by
  cases hread <;> exact ⟨nofun, nofun⟩

namespace System

variable {system : System env} {transaction : Transaction env}

theorem unread_start (next : System env) {event : Event} {rest : List Event}
    (hwriting : system.writing = none) (hpending : system.pending = event :: rest)
    (hwriting' : next.writing = some event) (hpending' : next.pending = rest) (phase : Phase) :
    next.unread phase = system.unread phase := by
  unfold unread offered
  rw [hwriting, hpending, hwriting', hpending']
  by_cases hphase : event.phase = phase <;> simp [hphase]

theorem unread_ne_nil {event : Event} {rest : List Event}
    (hpending : system.pending = event :: rest) : system.unread event.phase ≠ [] := by
  simp [unread, hpending]

/-- A closed session has nothing left to read. -/
theorem closed_unread (hok : transaction.Ok (system.unread .request) (system.unread .response))
    (hclosed : transaction.closed = true) : ∀ phase, system.unread phase = [] := by
  have hstopped := hok.closed_stopped hclosed
  have hrequest := hok.request_ok
  have hresponse := hok.response_ok
  rw [hstopped.1] at hrequest
  rw [hstopped.2] at hresponse
  intro phase
  cases phase with
  | request => exact hrequest
  | response => exact hresponse

theorem move_safe (system next : System env) (hmove : Move system next) (hsafe : system.Safe) :
    next.Safe := by
  cases hmove with
  | write hwriting hpending hsession =>
    unfold Safe at hsafe ⊢
    rw [hsession] at hsafe ⊢
    rw [unread_start _ hwriting hpending rfl rfl .request,
      unread_start _ hwriting hpending rfl rfl .response]
    exact hsafe
  | begin hwriting hpending hclosed =>
    rw [safe_of_session rfl, unread_start _ hwriting hpending rfl rfl .request,
      unread_start _ hwriting hpending rfl rfl .response]
    unfold Safe at hsafe
    cases hsession : system.session with
    | none =>
      rw [hsession] at hsafe
      exact ⟨hsafe.2.1, hsafe.2.2, nofun, nofun⟩
    | some transaction =>
      rw [hsession] at hsafe
      exact absurd (closed_unread hsafe (hclosed transaction hsession) _) (unread_ne_nil hpending)
  | error hwriting hsession hclosed =>
    rw [safe_of_session hsession] at hsafe
    have hunread := closed_unread hsafe hclosed
    rw [hunread, hunread] at hsafe
    rw [hsession]
    exact hsafe
  | requestWork hsession hwork | responseWork hsession hwork =>
    rw [safe_of_session hsession] at hsafe
    exact hwork.ok hsafe
  | requestRead hsession hoffered hread =>
    rw [safe_of_session hsession] at hsafe
    have hrequest := hsafe.request_ok
    rw [unread_eq hoffered] at hrequest
    rw [safe_of_session rfl, unread_setSession, unread_setSession, unread_take_self hoffered,
      unread_take_other hoffered .response nofun]
    exact hsafe.withRequest rfl (hread.ok hrequest) (.inl rfl) hread.running
  | responseRead hsession hoffered hread =>
    rw [safe_of_session hsession] at hsafe
    have hresponse := hsafe.response_ok
    rw [unread_eq hoffered] at hresponse
    rw [safe_of_session rfl, unread_setSession, unread_setSession, unread_take_self hoffered,
      unread_take_other hoffered .request nofun]
    exact hsafe.withResponse rfl (hread.ok hresponse) (.inl rfl) (.inl rfl) hread.running

/-! ## No deadlock -/

theorem Safe.not_deadlocked (hsafe : system.Safe) : ¬ system.Deadlocked := by
  rintro ⟨hwriting, hstuck⟩
  unfold Safe at hsafe
  cases hsession : system.session with
  | none =>
    rw [hsession] at hsafe
    exact hwriting hsafe.1
  | some transaction =>
    rw [hsession] at hsafe
    obtain ⟨event, hevent⟩ := Option.ne_none_iff_exists'.1 hwriting
    have hoffered : system.offered event.phase = some event.data := by
      simp [offered, hevent]
    cases hphase : event.phase with
    | request =>
      rw [hphase] at hoffered
      have hnone : system.requestStep transaction = none := by
        simpa only [step, hsession, Option.bind_some] using hstuck .requestStep
      have hrequest := hsafe.request_ok
      rw [unread_eq hoffered] at hrequest
      rcases requestStep_stuck hoffered hnone with hcontrol | ⟨request, hcontrol⟩
      · rw [hcontrol] at hrequest
        cases hrequest
      · rw [hcontrol] at hrequest
        cases hrequest
    | response =>
      rw [hphase] at hoffered
      have hnone : system.responseStep transaction = none := by
        simpa only [step, hsession, Option.bind_some] using hstuck .responseStep
      have hresponse := hsafe.response_ok
      rw [unread_eq hoffered] at hresponse
      rcases responseStep_stuck hoffered hnone with hcontrol | hcontrol | hcontrol
      all_goals
        rw [hcontrol] at hresponse
        cases hresponse

end System

/-- The bytes of the events of one phase. -/
def written (source : Source) (events : List DataEvent) (phase : Phase) : List (List Byte) :=
  (events.filter fun event => phaseOf source event.direction = phase).map DataEvent.data

theorem unread_initial (source : Source) (events : List DataEvent) (phase : Phase) :
    (initial env source events).unread phase = written source events phase := by
  simp [System.unread, System.offered, initial, written, List.filter_map, Function.comp_def]

/-- Some interleaving leads to a state with the caller blocked in a write for ever. -/
def CanDeadlock (env : Env) (source : Source) (events : List DataEvent) : Prop :=
  ∃ actions final,
    runActions System.step (initial env source events) actions = some final ∧ final.Deadlocked

/-- As long as no bytes follow, on the same pipe, a head that ends the reading, no
interleaving leaves the caller blocked in a write while no party can move. -/
theorem never_deadlocked_of_safe (env : Env) (source : Source) (events : List DataEvent)
    (hrequest : safe (requestVerdict env.library) (written source events .request) {} = true)
    (hresponse : safe (responseVerdict env.library) (written source events .response) {} = true) :
    ¬ CanDeadlock env source events := by
  rintro ⟨_, _, hrun, hdeadlocked⟩
  have hinitial : (initial env source events).Safe := by
    refine ⟨rfl, ?_, ?_⟩
    · rw [unread_initial]
      exact hrequest
    · rw [unread_initial]
      exact hresponse
  have hfinal := System.run_invariant System.Safe System.move_safe hrun hinitial
  exact hfinal.not_deadlocked hdeadlocked

def lengthEnv : Env := { library := asciiLibrary, reader := lengthReader }

def sent (data : String) : DataEvent := { direction := .egress, data := ascii data }

def received (data : String) : DataEvent := { direction := .ingress, data := ascii data }

/-- A request with a body and its response, each cut inside its head. -/
theorem never_deadlocked_of_safe_exchange :
    ¬ CanDeadlock lengthEnv .client [sent "PUT / HTTP/1.1\r\nContent-", sent "Length: 2\r\n\r\nok",
        received "HTTP/1.1 200", received " OK\r\n\r\n"] :=
  never_deadlocked_of_safe _ _ _ (by decide) (by decide)

theorem canDeadlock_of_run {source : Source} {events : List DataEvent} (actions : List Action)
    (hrun : (runActions System.step (initial env source events) actions).any
      System.deadlocked = true) : CanDeadlock env source events := by
  obtain ⟨final, hfinal, hdeadlocked⟩ := Option.any_eq_true _ _ |>.1 hrun
  exact ⟨actions, final, hfinal, (System.deadlocked_iff final).1 hdeadlocked⟩

/-- The caller blocks for ever behind a head that cannot be parsed, behind a request that
expects a 100 response when none comes, and behind a 101 response. -/
theorem caller_can_deadlock :
    CanDeadlock lengthEnv .client [sent "X\n\nY"] ∧
      CanDeadlock lengthEnv .client
        [sent "PUT / HTTP/1.1\nExpect: 100-continue\nContent-Length: 1\n\nY"] ∧
      CanDeadlock lengthEnv .client
        [sent "GET / HTTP/1.1\n\n", received "HTTP/1.1 101 S\n\nY"] := by
  refine ⟨?_, ?_, ?_⟩
  · exact canDeadlock_of_run (.callerStart :: List.replicate 4 .requestStep) (by decide)
  · exact canDeadlock_of_run (.callerStart :: List.replicate 58 .requestStep) (by decide)
  · exact canDeadlock_of_run (.callerStart :: List.replicate 19 .requestStep ++
      .callerStart :: List.replicate 17 .responseStep) (by decide)

end Qtap.Http1
