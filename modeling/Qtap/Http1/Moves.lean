import Qtap.Http1.System

/-!
# What a step of the HTTP/1 system can do

A goroutine either works, which touches the shared state and the callbacks, or reads from
its pipe, which moves its own control only.  Every step of the system is one of these, or
a step of the caller.
-/

namespace Qtap.Http1

open Option Qtap.Core Qtap.Connection Qtap.Http1.System

variable {env : Env}

/-- A move of the request goroutine off its pipe, with the callbacks it makes. -/
inductive RequestWork (transaction : Transaction env) : List Callback → Transaction env → Prop
  | fail {silent : Bool} (hcontrol : transaction.request = .failed silent) :
      RequestWork transaction (errorCallbacks silent)
        { transaction with request := .exited, cancelled := true }
  | store {request : Request} (hcontrol : transaction.request = .parsed request) :
      RequestWork transaction []
        { transaction with
          request := .stored request, current := some request,
          expectingContinue := expectsContinue request }
  | notify {request : Request} (hcontrol : transaction.request = .stored request) :
      RequestWork transaction [.onRequest request (!expectsRequestBody request)]
        { transaction with request := .notified request }
  | branch {request : Request} (hcontrol : transaction.request = .notified request) :
      RequestWork transaction [] { transaction with request := afterNotified transaction request }
  | resume {request : Request} (hcontrol : transaction.request = .waiting request)
      (hreceived : transaction.continueReceived = true) :
      RequestWork transaction []
        { transaction with request := .body (env.reader.start request.headers) }
  | cancel {request : Request} (hcontrol : transaction.request = .waiting request)
      (hcancelled : transaction.cancelled = true) :
      RequestWork transaction [] { transaction with request := .exited }
  | complain {state next : env.reader.State} (hcontrol : transaction.request = .body state)
      (hpoll : env.reader.poll state = .complain next) :
      RequestWork transaction [.onError] { transaction with request := .body next }
  | yield {state next : env.reader.State} {data : List Byte} {status : ReadStatus}
      (hcontrol : transaction.request = .body state)
      (hpoll : env.reader.poll state = .yield data status next) :
      RequestWork transaction
        ((bodyChunks data status).map (fun chunk => .onRequestBody chunk.1 chunk.2) ++
          bodyErrors status)
        { transaction with request := if status = .ok then .body next else .discard }
  | endHead {reader : HeadReader} (hcontrol : transaction.request = .head reader)
      (hclosed : transaction.closed = true) :
      RequestWork transaction [] { transaction with request := headRequest env reader.atEnd }
  | endBody {state : env.reader.State} {limit : ℕ} (hcontrol : transaction.request = .body state)
      (hpoll : env.reader.poll state = .need limit) (hclosed : transaction.closed = true) :
      RequestWork transaction [] { transaction with request := .body (env.reader.hangup state) }
  | endDiscard (hcontrol : transaction.request = .discard) (hclosed : transaction.closed = true) :
      RequestWork transaction [] { transaction with request := .exited }

/-- A read of the request goroutine: its control, the bytes offered, how many it takes at
most, and its control afterwards. -/
inductive RequestRead : RequestControl env → List Byte → ℕ → RequestControl env → Prop
  | skip (reader : HeadReader) : RequestRead (.head reader) [] 0 (.head reader)
  | byte (reader : HeadReader) (byte : Byte) (bytes : List Byte) :
      RequestRead (.head reader) (byte :: bytes) 1 (headRequest env (reader.read byte))
  | body {state : env.reader.State} {limit : ℕ} (data : List Byte)
      (hpoll : env.reader.poll state = .need limit) :
      RequestRead (.body state) data limit (.body (env.reader.supply state (data.take limit)))
  | discard (data : List Byte) : RequestRead .discard data discardSize .discard

/-- A move of the response goroutine off its pipe. -/
inductive ResponseWork (transaction : Transaction env) : List Callback → Transaction env → Prop
  | fail {silent : Bool} (hcontrol : transaction.response = .failed silent) :
      ResponseWork transaction (errorCallbacks silent)
        { transaction with response := .exited, cancelled := true }
  | switch {response : Response} (hcontrol : transaction.response = .parsed response)
      (hinterim : isInterim response = true) (hswitch : response.statusCode = 101) :
      ResponseWork transaction [.onInterimResponse { response with isInterim := true },
          .onResponse { response with isInterim := true } true, .onDone]
        { transaction with response := .awaiting }
  | interim {response : Response} (hcontrol : transaction.response = .parsed response)
      (hinterim : isInterim response = true) (hswitch : response.statusCode ≠ 101) :
      ResponseWork transaction [.onInterimResponse { response with isInterim := true }]
        { continueSignal transaction { response with isInterim := true } with response := .head {} }
  | final {response : Response} {noBody : Bool} {control : ResponseControl env}
      (hcontrol : transaction.response = .parsed response) (hinterim : isInterim response = false)
      (hnext : control = .body (env.reader.start response.headers) ∨ control = .discard) :
      ResponseWork transaction [.onResponse response noBody]
        { transaction with response := control }
  | close (hcontrol : transaction.response = .awaiting)
      (hcancelled : transaction.cancelled = true) :
      ResponseWork transaction [] { transaction with response := .closing, closed := true }
  | complain {state next : env.reader.State} (hcontrol : transaction.response = .body state)
      (hpoll : env.reader.poll state = .complain next) :
      ResponseWork transaction [.onError] { transaction with response := .body next }
  | yield {state next : env.reader.State} {data : List Byte} {status : ReadStatus}
      (hcontrol : transaction.response = .body state)
      (hpoll : env.reader.poll state = .yield data status next) :
      ResponseWork transaction
        ((bodyChunks data status).map (fun chunk => .onResponseBody chunk.1 chunk.2) ++
          bodyErrors status)
        { transaction with response := if status = .ok then .body next else .discard }
  | endHead {reader : HeadReader} (hcontrol : transaction.response = .head reader)
      (hclosed : transaction.closed = true) :
      ResponseWork transaction [] { transaction with response := headResponse env reader.atEnd }
  | endBody {state : env.reader.State} {limit : ℕ} (hcontrol : transaction.response = .body state)
      (hpoll : env.reader.poll state = .need limit) (hclosed : transaction.closed = true) :
      ResponseWork transaction [] { transaction with response := .body (env.reader.hangup state) }
  | endDiscard (hcontrol : transaction.response = .discard) (hclosed : transaction.closed = true) :
      ResponseWork transaction [.onDone] { transaction with response := .exited }

inductive ResponseRead : ResponseControl env → List Byte → ℕ → ResponseControl env → Prop
  | skip (reader : HeadReader) : ResponseRead (.head reader) [] 0 (.head reader)
  | byte (reader : HeadReader) (byte : Byte) (bytes : List Byte) :
      ResponseRead (.head reader) (byte :: bytes) 1 (headResponse env (reader.read byte))
  | body {state : env.reader.State} {limit : ℕ} (data : List Byte)
      (hpoll : env.reader.poll state = .need limit) :
      ResponseRead (.body state) data limit (.body (env.reader.supply state (data.take limit)))
  | discard (data : List Byte) : ResponseRead .discard data discardSize .discard

inductive Move (system : System env) : System env → Prop
  | write {event : Event} {rest : List Event} {transaction : Transaction env}
      (hwriting : system.writing = none) (hpending : system.pending = event :: rest)
      (hsession : system.session = some transaction) (hopen : transaction.closed = false) :
      Move system { system with pending := rest, writing := some event }
  | begin {event : Event} {rest : List Event}
      (hwriting : system.writing = none) (hpending : system.pending = event :: rest)
      (hclosed : ∀ transaction, system.session = some transaction → transaction.closed = true) :
      Move system
        { system with
          pending := rest, writing := some event, session := some {},
          sessions := system.sessions + 1 }
  | error {event : Event} {transaction : Transaction env} (hwriting : system.writing = some event)
      (hsession : system.session = some transaction) (hclosed : transaction.closed = true) :
      Move system { system with writing := none, pending := [] }
  | requestWork {transaction after : Transaction env} {callbacks : List Callback}
      (hsession : system.session = some transaction)
      (hwork : RequestWork transaction callbacks after) :
      Move system ((system.report callbacks).setSession after)
  | requestRead {transaction : Transaction env} {data : List Byte} {count : ℕ}
      {control : RequestControl env} (hsession : system.session = some transaction)
      (hoffered : system.offered .request = some data)
      (hread : RequestRead transaction.request data count control) :
      Move system ((system.take count).setSession { transaction with request := control })
  | responseWork {transaction after : Transaction env} {callbacks : List Callback}
      (hsession : system.session = some transaction)
      (hwork : ResponseWork transaction callbacks after) :
      Move system ((system.report callbacks).setSession after)
  | responseRead {transaction : Transaction env} {data : List Byte} {count : ℕ}
      {control : ResponseControl env} (hsession : system.session = some transaction)
      (hoffered : system.offered .response = some data)
      (hread : ResponseRead transaction.response data count control) :
      Move system ((system.take count).setSession { transaction with response := control })

/-! ## Every step is a move -/

namespace System

variable {system next : System env} {transaction : Transaction env}

theorem offered_eq_some {phase : Phase} {data : List Byte}
    (hoffered : system.offered phase = some data) :
    system.writing = some { phase := phase, data := data } := by
  unfold offered at hoffered
  split at hoffered
  · rename_i event hwriting
    split_ifs at hoffered with hphase
    rw [hwriting, ← hphase, ← Option.some.inj hoffered]
  · cases hoffered

theorem setSession_take (hsession : system.session = some transaction) (count : ℕ) :
    (system.take count).setSession transaction = system.take count := by
  unfold take setSession
  rw [← hsession]
  split
  · split_ifs <;> rfl
  · rfl

theorem report_nil : system.report [] = system := by
  unfold report
  rw [List.map_nil, List.append_nil]

/-- A move of a goroutine: it works or it reads. -/
def Goes {C : Type} (system : System env) (phase : Phase)
    (works : List Callback → Transaction env → Prop) (reads : List Byte → ℕ → C → Prop)
    (resumed : C → Transaction env) (next : System env) : Prop :=
  (∃ callbacks after, works callbacks after ∧ next = (system.report callbacks).setSession after) ∨
  ∃ data count control, system.offered phase = some data ∧ reads data count control ∧
    next = (system.take count).setSession (resumed control)

def RequestMove (system : System env) (transaction : Transaction env) : System env → Prop :=
  system.Goes .request (RequestWork transaction) (RequestRead transaction.request)
    fun control => { transaction with request := control }

def ResponseMove (system : System env) (transaction : Transaction env) : System env → Prop :=
  system.Goes .response (ResponseWork transaction) (ResponseRead transaction.response)
    fun control => { transaction with response := control }

namespace Goes

variable {C : Type} {phase : Phase} {works : List Callback → Transaction env → Prop}
  {reads : List Byte → ℕ → C → Prop} {resumed : C → Transaction env}
  {callbacks : List Callback} {after : Transaction env} {data : List Byte} {count : ℕ}

theorem work (hwork : works callbacks after) :
    system.Goes phase works reads resumed ((system.report callbacks).setSession after) :=
  .inl ⟨callbacks, after, hwork, rfl⟩

/-- A work step without callbacks. -/
theorem quiet (hwork : works [] after) :
    system.Goes phase works reads resumed (system.setSession after) :=
  .inl ⟨[], after, hwork, by rw [report_nil]⟩

theorem read {control : C} (hoffered : system.offered phase = some data)
    (hread : reads data count control) :
    system.Goes phase works reads resumed ((system.take count).setSession (resumed control)) :=
  .inr ⟨data, count, control, hoffered, hread, rfl⟩

/-- A read that leaves the goroutine where it is. -/
theorem drop (hsession : system.session = some transaction)
    (hoffered : system.offered phase = some data) (control : C) (hread : reads data count control)
    (hsame : resumed control = transaction) :
    system.Goes phase works reads resumed (system.take count) := by
  rw [← setSession_take hsession, ← hsame]
  exact .read hoffered hread

end Goes

theorem RequestMove.move (hmove : system.RequestMove transaction next)
    (hsession : system.session = some transaction) : Move system next := by
  rcases hmove with ⟨_, _, hwork, rfl⟩ | ⟨data, count, control, hoffered, hread, rfl⟩
  · exact .requestWork hsession hwork
  · exact .requestRead hsession hoffered hread

theorem ResponseMove.move (hmove : system.ResponseMove transaction next)
    (hsession : system.session = some transaction) : Move system next := by
  rcases hmove with ⟨_, _, hwork, rfl⟩ | ⟨data, count, control, hoffered, hread, rfl⟩
  · exact .responseWork hsession hwork
  · exact .responseRead hsession hoffered hread

theorem requestStep_move (hsession : system.session = some transaction)
    (hstep : system.requestStep transaction = some next) : system.RequestMove transaction next := by
  unfold requestStep at hstep
  split at hstep
  next reader hcontrol =>
    split at hstep
    · cases hstep
    next hoffered =>
      cases hstep
      exact .drop hsession hoffered transaction.request (by rw [hcontrol]; exact .skip reader) rfl
    next byte bytes hoffered =>
      cases hstep
      exact .read hoffered (hcontrol ▸ .byte reader byte bytes)
  next hcontrol =>
    cases hstep
    exact .work (.fail hcontrol)
  next hcontrol =>
    cases hstep
    exact .quiet (.store hcontrol)
  next hcontrol =>
    cases hstep
    exact .work (.notify hcontrol)
  next hcontrol =>
    cases hstep
    exact .quiet (.branch hcontrol)
  next hcontrol =>
    split_ifs at hstep with hreceived
    cases hstep
    exact .quiet (.resume hcontrol hreceived)
  next hcontrol =>
    split at hstep
    next hpoll =>
      obtain ⟨data, hoffered, rfl⟩ := map_eq_some_iff.1 hstep
      exact .read hoffered (hcontrol ▸ .body data hpoll)
    next hpoll =>
      cases hstep
      exact .work (.complain hcontrol hpoll)
    next hpoll =>
      cases hstep
      exact .work (.yield hcontrol hpoll)
  next hcontrol =>
    obtain ⟨data, hoffered, rfl⟩ := map_eq_some_iff.1 hstep
    exact .drop hsession hoffered transaction.request (by rw [hcontrol]; exact .discard data) rfl
  · cases hstep

theorem requestCancel_move (hstep : system.requestCancel transaction = some next) :
    system.RequestMove transaction next := by
  unfold requestCancel at hstep
  split at hstep
  next hcontrol =>
    split_ifs at hstep with hcancelled
    cases hstep
    exact .quiet (.cancel hcontrol hcancelled)
  · cases hstep

theorem requestEOF_move (hstep : system.requestEOF transaction = some next) :
    system.RequestMove transaction next := by
  unfold requestEOF at hstep
  split_ifs at hstep with hclosed
  split at hstep
  next hcontrol =>
    cases hstep
    exact .quiet (.endHead hcontrol hclosed)
  next hcontrol =>
    split at hstep
    next hpoll =>
      cases hstep
      exact .quiet (.endBody hcontrol hpoll hclosed)
    · cases hstep
  next hcontrol =>
    cases hstep
    exact .quiet (.endDiscard hcontrol hclosed)
  · cases hstep

theorem handleResponse_move {response : Response}
    (hcontrol : transaction.response = .parsed response) :
    system.ResponseMove transaction (system.handleResponse transaction response) := by
  unfold handleResponse
  by_cases hinterim : isInterim response = true
  · dsimp only
    split_ifs with hswitch
    · exact .work (.switch hcontrol hinterim hswitch)
    · exact .work (.interim hcontrol hinterim hswitch)
  · rw [if_neg hinterim]
    rw [Bool.not_eq_true] at hinterim
    dsimp only
    split_ifs with hexpects
    · exact .work (.final hcontrol hinterim (.inl rfl))
    · exact .work (.final hcontrol hinterim (.inr rfl))

theorem responseStep_move (hsession : system.session = some transaction)
    (hstep : system.responseStep transaction = some next) :
    system.ResponseMove transaction next := by
  unfold responseStep at hstep
  split at hstep
  next reader hcontrol =>
    split at hstep
    · cases hstep
    next hoffered =>
      cases hstep
      exact .drop hsession hoffered transaction.response (by rw [hcontrol]; exact .skip reader) rfl
    next byte bytes hoffered =>
      cases hstep
      exact .read hoffered (hcontrol ▸ .byte reader byte bytes)
  next hcontrol =>
    cases hstep
    exact .work (.fail hcontrol)
  next hcontrol =>
    cases hstep
    exact handleResponse_move hcontrol
  next hcontrol =>
    split_ifs at hstep with hcancelled
    cases hstep
    exact .quiet (.close hcontrol hcancelled)
  · cases hstep
  next hcontrol =>
    split at hstep
    next hpoll =>
      obtain ⟨data, hoffered, rfl⟩ := map_eq_some_iff.1 hstep
      exact .read hoffered (hcontrol ▸ .body data hpoll)
    next hpoll =>
      cases hstep
      exact .work (.complain hcontrol hpoll)
    next hpoll =>
      cases hstep
      exact .work (.yield hcontrol hpoll)
  next hcontrol =>
    obtain ⟨data, hoffered, rfl⟩ := map_eq_some_iff.1 hstep
    exact .drop hsession hoffered transaction.response (by rw [hcontrol]; exact .discard data) rfl
  · cases hstep

theorem responseEOF_move (hstep : system.responseEOF transaction = some next) :
    system.ResponseMove transaction next := by
  unfold responseEOF at hstep
  split_ifs at hstep with hclosed
  split at hstep
  next hcontrol =>
    cases hstep
    exact .quiet (.endHead hcontrol hclosed)
  next hcontrol =>
    split at hstep
    next hpoll =>
      cases hstep
      exact .quiet (.endBody hcontrol hpoll hclosed)
    · cases hstep
  next hcontrol =>
    cases hstep
    exact .work (.endDiscard hcontrol hclosed)
  · cases hstep

theorem callerStart_move (hstep : system.callerStart = some next) : Move system next := by
  unfold callerStart at hstep
  split at hstep
  next hwriting hpending =>
    split at hstep
    next hsession =>
      split_ifs at hstep with hclosed
      · cases hstep
        refine .begin hwriting hpending fun other hother => ?_
        cases hsession.symm.trans hother
        exact hclosed
      · cases hstep
        exact .write hwriting hpending hsession (Bool.eq_false_of_not_eq_true hclosed)
    next hsession =>
      cases hstep
      refine .begin hwriting hpending fun other hother => ?_
      cases hsession.symm.trans hother
  · cases hstep

theorem callerError_move (hsession : system.session = some transaction)
    (hstep : system.callerError transaction = some next) : Move system next := by
  unfold callerError at hstep
  split_ifs at hstep with hclosed
  obtain ⟨_, hwriting⟩ := isSome_iff_exists.1 hclosed.2
  cases hstep
  exact .error hwriting hsession hclosed.1

theorem step_move {action : Action} (hstep : system.step action = some next) :
    Move system next := by
  cases action
  case callerStart => exact callerStart_move hstep
  all_goals obtain ⟨transaction, hsession, hstep⟩ := bind_eq_some_iff.1 hstep
  case callerError => exact callerError_move hsession hstep
  case requestStep => exact (requestStep_move hsession hstep).move hsession
  case requestCancel => exact (requestCancel_move hstep).move hsession
  case requestEOF => exact (requestEOF_move hstep).move hsession
  case responseStep => exact (responseStep_move hsession hstep).move hsession
  case responseEOF => exact (responseEOF_move hstep).move hsession

/-- What every move preserves, every run preserves. -/
theorem run_invariant (holds : System env → Prop)
    (hmove : ∀ system next, Move system next → holds system → holds next) {actions : List Action}
    (hrun : runActions step system actions = some next) (hsystem : holds system) : holds next :=
  runActions.invariant holds (fun _ _ _ hstep => hmove _ _ (step_move hstep)) hrun hsystem

/-! ## When a goroutine cannot move -/

theorem requestStep_stuck {data : List Byte} (hoffered : system.offered .request = some data)
    (hstuck : system.requestStep transaction = none) :
    transaction.request = .exited ∨ ∃ request, transaction.request = .waiting request := by
  unfold requestStep at hstuck
  cases hcontrol : transaction.request with
  | waiting request => exact .inr ⟨request, rfl⟩
  | exited => exact .inl rfl
  | head => cases data <;> simp [hcontrol, hoffered] at hstuck
  | body state =>
    cases hpoll : env.reader.poll state <;> simp [hcontrol, hpoll, hoffered] at hstuck
  | _ => simp [hcontrol, hoffered] at hstuck

theorem responseStep_stuck {data : List Byte} (hoffered : system.offered .response = some data)
    (hstuck : system.responseStep transaction = none) :
    transaction.response = .awaiting ∨ transaction.response = .closing ∨
      transaction.response = .exited := by
  unfold responseStep at hstuck
  cases hcontrol : transaction.response with
  | awaiting => exact .inl rfl
  | closing => exact .inr (.inl rfl)
  | exited => exact .inr (.inr rfl)
  | head => cases data <;> simp [hcontrol, hoffered] at hstuck
  | body state =>
    cases hpoll : env.reader.poll state <;> simp [hcontrol, hpoll, hoffered] at hstuck
  | _ => simp [hcontrol, hoffered] at hstuck

end System

end Qtap.Http1
