import Qtap.Http1.Deadlock
import Qtap.Http1.Progress
import Qtap.Http1.Scan

/-!
# Where the goroutines are in their streams

At every moment of a run the control of a goroutine, and what it has reported, is what its
byte stream says up to the bytes that it has taken.
-/

namespace Qtap.Http1

open Function Qtap.Core Qtap.Connection Qtap.Http1.System

variable {env : Env}

/-! ## Bytes taken off the pipes -/

def bytesOf (events : List Event) (phase : Phase) : List Byte :=
  ((events.filter fun event => event.phase = phase).map Event.data).flatten

theorem bytesOf_append (first second : List Event) (phase : Phase) :
    bytesOf (first ++ second) phase = bytesOf first phase ++ bytesOf second phase := by
  rw [bytesOf, List.filter_append, List.map_append, List.flatten_append]
  rfl

theorem bytesOf_singleton (event : Event) (phase : Phase) :
    bytesOf [event] phase = if event.phase = phase then event.data else [] := by
  by_cases hphase : event.phase = phase <;> simp [bytesOf, hphase]

/-- The events are those done, the one being written, of which `part` is taken, and the
pending ones. -/
structure Taken (events : List Event) (system : System env) (taken : Phase → List Byte) : Prop where
  split : ∃ done part, events = done ++ (system.writing.map fun event =>
      { event with data := part ++ event.data }).toList ++ system.pending ∧
    (∀ phase, taken phase = bytesOf (done ++ (system.writing.map fun event =>
      { event with data := part }).toList) phase) ∧
    ∀ event, system.writing = some event → event.data = [] → part = []

variable {data first taken : List Byte} {callbacks : List Callback}
  {transaction after : Transaction env} {control : RequestControl env} {reports : List Request}
  {count : ℕ} {response : Response} {events : List Event} {system : System env}

namespace Taken

variable {events : List Event} {system next : System env} {taken : Phase → List Byte}

theorem of_pending (hwriting : system.writing = none) :
    Taken system.pending system fun _ => [] := by
  refine ⟨[], [], ?_, fun phase => ?_, fun _ _ _ => rfl⟩
  · rw [hwriting]
    rfl
  · rw [hwriting]
    rfl

section

variable (htaken : Taken events system taken)

include htaken

theorem congr (hwriting : next.writing = system.writing)
    (hpending : next.pending = system.pending) : Taken events next taken := by
  obtain ⟨done, part, hevents, hbytes, hempty⟩ := htaken.split
  refine ⟨done, part, ?_, ?_, ?_⟩
  · rw [hwriting, hpending]
    exact hevents
  · rw [hwriting]
    exact hbytes
  · rw [hwriting]
    exact hempty

theorem start {event : Event} {rest : List Event} (hwriting : system.writing = none)
    (hpending : system.pending = event :: rest) (hwriting' : next.writing = some event)
    (hpending' : next.pending = rest) : Taken events next taken := by
  obtain ⟨done, _, hevents, hbytes, -⟩ := htaken.split
  rw [hwriting] at hevents hbytes
  refine ⟨done, [], ?_, fun phase => ?_, fun _ _ _ => rfl⟩
  · rw [hevents, hwriting', hpending', hpending]
    simp
  · rw [hbytes]
    simp [bytesOf]

theorem take {phase : Phase} (hoffered : system.offered phase = some data) (count : ℕ) :
    Taken events (system.take count) (update taken phase (taken phase ++ data.take count)) := by
  obtain ⟨done, part, hevents, hbytes, -⟩ := htaken.split
  have hwriting := offered_eq_some hoffered
  rw [hwriting] at hevents hbytes
  have hupdate : ∀ other, update taken phase (taken phase ++ data.take count) other =
      bytesOf (done ++ [{ phase := phase, data := part ++ data.take count }]) other := by
    intro other
    by_cases hother : other = phase
    · rw [hother, hbytes]
      simp [bytesOf]
    · rw [update_of_ne hother, hbytes]
      simp [bytesOf, Ne.symm hother]
  have hpending : (system.take count).pending = system.pending := by
    simp only [System.take, hwriting]
    split_ifs <;> rfl
  by_cases hdone : data.drop count = []
  · have htake : data.take count = data := by
      have happend := List.take_append_drop count data
      rwa [hdone, List.append_nil] at happend
    have hnext : (system.take count).writing = none := by
      simp [System.take, hwriting, hdone]
    refine ⟨done ++ [{ phase := phase, data := part ++ data }], [], ?_, fun other => ?_,
      fun _ _ _ => rfl⟩
    · rw [hnext, hpending, hevents]
      simp
    · rw [hnext, hupdate, htake]
      simp
  · have hnext : (system.take count).writing =
        some { phase := phase, data := data.drop count } := by
      simp [System.take, hwriting, hdone]
    refine ⟨done, part ++ data.take count, ?_, fun other => ?_, fun event hevent hdata => ?_⟩
    · rw [hnext, hpending, hevents]
      simp
    · rw [hnext, hupdate]
      simp
    · cases hnext.symm.trans hevent
      exact absurd hdata hdone

/-- What is taken and what is unread make up the stream. -/
theorem bytes_eq (phase : Phase) :
    bytesOf events phase = taken phase ++ (system.unread phase).flatten := by
  obtain ⟨_, _, hevents, hbytes, -⟩ := htaken.split
  rw [hevents, hbytes, unread, offered]
  cases system.writing with
  | none => simp [bytesOf]
  | some event =>
    by_cases hphase : event.phase = phase <;> simp [bytesOf, hphase]

end

end Taken

/-! ## Reported heads -/

def requestsIn (callbacks : List Callback) : List Request :=
  callbacks.filterMap fun callback =>
    match callback with
    | .onRequest request _ => some request
    | _ => none

def responsesIn (callbacks : List Callback) : List Response :=
  callbacks.filterMap fun callback =>
    match callback with
    | .onResponse response _ => some response
    | _ => none

namespace System

/-- The callbacks of one session. -/
def callbacksOf (system : System env) (session : ℕ) : List Callback :=
  (system.callbacks.filter fun entry => entry.1 = session).map Prod.snd

def requestsOf (system : System env) (session : ℕ) : List Request :=
  requestsIn (system.callbacksOf session)

def responsesOf (system : System env) (session : ℕ) : List Response :=
  responsesIn (system.callbacksOf session)

theorem callbacksOf_report {system : System env} (hsessions : system.sessions = 1)
    (callbacks : List Callback) (transaction : Transaction env) :
    ((system.report callbacks).setSession transaction).callbacksOf 1 =
      system.callbacksOf 1 ++ callbacks := by
  simp [callbacksOf, report, setSession, hsessions, List.filter_map, Function.comp_def]

end System

theorem requestsIn_append (first second : List Callback) :
    requestsIn (first ++ second) = requestsIn first ++ requestsIn second :=
  List.filterMap_append

theorem responsesIn_append (first second : List Callback) :
    responsesIn (first ++ second) = responsesIn first ++ responsesIn second :=
  List.filterMap_append

/-- Callbacks that report no head. -/
def Headless (callbacks : List Callback) : Prop :=
  requestsIn callbacks = [] ∧ responsesIn callbacks = []

theorem headless_errorCallbacks (silent : Bool) : Headless (errorCallbacks silent) := by
  cases silent with
  | _ => exact ⟨rfl, rfl⟩

theorem headless_bodyCallbacks {wrap : List Byte × Bool → Callback}
    (hwrap : ∀ chunk, Headless [wrap chunk]) (status : ReadStatus) :
    Headless ((bodyChunks data status).map wrap ++ bodyErrors status) := by
  have herrors : Headless (bodyErrors status) := by
    cases status with
    | _ => exact ⟨rfl, rfl⟩
  have hchunks : Headless ((bodyChunks data status).map wrap) := by
    unfold bodyChunks
    split_ifs
    · exact hwrap _
    · exact hwrap _
    · exact ⟨rfl, rfl⟩
  rw [Headless, requestsIn_append, responsesIn_append, hchunks.1, hchunks.2]
  exact herrors

theorem RequestWork.responsesIn (hwork : RequestWork transaction callbacks after) :
    responsesIn callbacks = [] := by
  cases hwork with
  | fail => exact (headless_errorCallbacks _).2
  | yield => exact (headless_bodyCallbacks (fun _ => ⟨rfl, rfl⟩) _).2
  | _ => rfl

theorem ResponseWork.requestsIn (hwork : ResponseWork transaction callbacks after) :
    requestsIn callbacks = [] := by
  cases hwork with
  | fail => exact (headless_errorCallbacks _).1
  | yield => exact (headless_bodyCallbacks (fun _ => ⟨rfl, rfl⟩) _).1
  | _ => rfl

/-! ## The request goroutine -/

/-- Where the request goroutine gets to on a stream, and what it leaves of it. -/
def requestScan (env : Env) (bytes : List Byte) : RequestControl env × List Byte :=
  (headRequest env (({} : HeadReader).scan bytes).1, (({} : HeadReader).scan bytes).2)

theorem headRequest_cases {env : Env} {result : HeadResult} :
    (∃ reader, result = .more reader ∧ headRequest env result = .head reader) ∨
      (∃ silent, headRequest env result = .failed silent) ∨
      ∃ request, headRequest env result = .parsed request := by
  cases result with
  | more reader => exact .inl ⟨reader, rfl, rfl⟩
  | failed silent => exact .inr (.inl ⟨silent, rfl⟩)
  | complete headers =>
    cases hparse : readRequest env.library headers with
    | error silent => exact .inr (.inl ⟨silent, by simp only [headRequest, hparse]⟩)
    | ok request => exact .inr (.inr ⟨request, by simp only [headRequest, hparse]⟩)

theorem headRequest_eq_head {result : HeadResult} {reader : HeadReader}
    (hhead : headRequest env result = .head reader) : result = .more reader := by
  rcases headRequest_cases with ⟨_, hresult, hnext⟩ | ⟨silent, hnext⟩ |
    ⟨request, hnext⟩
  · cases hnext.symm.trans hhead
    exact hresult
  · cases hnext.symm.trans hhead
  · cases hnext.symm.trans hhead

theorem requestScan_append_head {rest : List Byte} {reader : HeadReader}
    (hscan : requestScan env first = (.head reader, rest)) (byte : Byte) :
    requestScan env (first ++ [byte]) = (headRequest env (reader.read byte), []) := by
  obtain ⟨hhead, hrest⟩ := Prod.mk.inj hscan
  have hmore : ({} : HeadReader).scan first = (.more reader, rest) :=
    Prod.ext (headRequest_eq_head hhead) hrest
  rw [requestScan, HeadReader.scan_append_more hmore, HeadReader.scan_singleton]

theorem requestScan_append_done {rest : List Byte} (hscan : requestScan env first = (control, rest))
    (hdone : ∀ reader, control ≠ .head reader) (second : List Byte) :
    requestScan env (first ++ second) = (control, rest ++ second) := by
  obtain ⟨hcontrol, hrest⟩ := Prod.mk.inj hscan
  have hresult : ∀ next, (({} : HeadReader).scan first).1 ≠ .more next := by
    intro next hmore
    rw [hmore] at hcontrol
    exact hdone next hcontrol.symm
  rw [requestScan, HeadReader.scan_append_done rfl hresult, hrest, hcontrol]

/-- The state of the request goroutine after the bytes it has taken. -/
def RequestAt (transaction : Transaction env) (taken : List Byte) (reports : List Request) : Prop :=
  match transaction.request with
  | .failed silent => requestScan env taken = (.failed silent, []) ∧ reports = []
  | .head reader =>
    requestScan env taken = (.head reader, []) ∧ reports = [] ∧
      transaction.expectingContinue = false ∧ transaction.continueReceived = false
  | .parsed request =>
    requestScan env taken = (.parsed request, []) ∧ reports = [] ∧
      transaction.expectingContinue = false ∧ transaction.continueReceived = false
  | .stored request =>
    requestScan env taken = (.parsed request, []) ∧ reports = [] ∧
      (transaction.expectingContinue = true → expectsContinue request = true)
  | .notified request =>
    requestScan env taken = (.parsed request, []) ∧ reports = [request] ∧
      (transaction.expectingContinue = true → expectsContinue request = true)
  | .waiting request =>
    requestScan env taken = (.parsed request, []) ∧ reports = [request] ∧ waits request = true
  | .body _ => ∃ request rest, requestScan env taken = (.parsed request, rest) ∧ reports = [request]
  | .discard => ∃ request rest, requestScan env taken = (.parsed request, rest) ∧
      reports = [request]
  | .exited =>
    (∃ silent rest, requestScan env taken = (.failed silent, rest) ∧ reports = []) ∨
      transaction.cancelled = true ∧
        ∃ request rest, requestScan env taken = (.parsed request, rest) ∧ reports = [request]

theorem RequestWork.requestAt (hwork : RequestWork transaction callbacks after)
    (hopen : transaction.closed = false) (hat : RequestAt transaction taken reports) :
    RequestAt after taken (reports ++ Http1.requestsIn callbacks) := by
  unfold RequestAt at hat
  cases hwork with
  | @fail silent hcontrol =>
    rw [hcontrol] at hat
    refine .inl ⟨silent, [], hat.1, ?_⟩
    rw [hat.2, (headless_errorCallbacks silent).1, List.append_nil]
  | store hcontrol =>
    rw [hcontrol] at hat
    refine ⟨hat.1, ?_, id⟩
    rw [hat.2.1]
    rfl
  | notify hcontrol =>
    rw [hcontrol] at hat
    refine ⟨hat.1, ?_, hat.2.2⟩
    rw [hat.2.1]
    rfl
  | @branch request hcontrol =>
    rw [hcontrol] at hat
    have hreports : reports ++ Http1.requestsIn [] = [request] := by
      rw [hat.2.1]
      rfl
    rw [hreports]
    unfold RequestAt afterNotified
    split_ifs with hbody hexpecting
    · refine ⟨hat.1, rfl, ?_⟩
      rw [waits, hbody, hat.2.2 hexpecting]
      rfl
    · exact ⟨request, [], hat.1, rfl⟩
    · exact ⟨request, [], hat.1, rfl⟩
  | @resume request hcontrol =>
    rw [hcontrol] at hat
    refine ⟨request, [], hat.1, ?_⟩
    rw [hat.2.1]
    rfl
  | @cancel request hcontrol hcancelled =>
    rw [hcontrol] at hat
    refine .inr ⟨hcancelled, request, [], hat.1, ?_⟩
    rw [hat.2.1]
    rfl
  | complain hcontrol =>
    rw [hcontrol] at hat
    obtain ⟨request, rest, hscan, hreports⟩ := hat
    refine ⟨request, rest, hscan, ?_⟩
    rw [hreports]
    rfl
  | @yield state next data status hcontrol hpoll =>
    rw [hcontrol] at hat
    rw [(headless_bodyCallbacks (fun _ => ⟨rfl, rfl⟩) status).1, List.append_nil]
    split_ifs <;> exact hat
  | endHead hcontrol hclosed | endBody hcontrol hpoll hclosed
  | endDiscard hcontrol hclosed => cases hopen.symm.trans hclosed

theorem RequestRead.requestAt (hread : RequestRead transaction.request data count control)
    (hat : RequestAt transaction taken reports) :
    RequestAt { transaction with request := control } (taken ++ data.take count) reports := by
  unfold RequestAt at hat
  generalize hcontrol : transaction.request = before at hread hat
  cases hread with
  | skip =>
    rw [List.take_nil, List.append_nil]
    exact hat
  | byte reader byte =>
    have hscan := requestScan_append_head hat.1 byte
    rcases headRequest_cases with
      ⟨next, -, hnext⟩ | ⟨silent, hnext⟩ | ⟨request, hnext⟩
    · rw [hnext] at hscan ⊢
      exact ⟨hscan, hat.2⟩
    · rw [hnext] at hscan ⊢
      exact ⟨hscan, hat.2.1⟩
    · rw [hnext] at hscan ⊢
      exact ⟨hscan, hat.2⟩
  | body data hpoll | discard data =>
    obtain ⟨request, _, hscan, hreports⟩ := hat
    exact ⟨request, _, requestScan_append_done hscan nofun _, hreports⟩

/-- What the response goroutine changes in the shared state does not take the request
goroutine off its stream. -/
theorem ResponseWork.requestAt (hwork : ResponseWork transaction callbacks after)
    (hat : RequestAt transaction taken reports) : RequestAt after taken reports := by
  have hsame : after.request = transaction.request := hwork.decreases.2
  have hcancelled : transaction.cancelled = true → after.cancelled = true := by
    cases hwork with
    | fail => exact fun _ => rfl
    | interim => exact (continueSignal_frame transaction _).2.1.trans
    | _ => exact id
  have hexpecting : after.expectingContinue = true → transaction.expectingContinue = true := by
    cases hwork with
    | @interim response =>
      unfold continueSignal
      split_ifs
      · exact nofun
      · exact id
    | _ => exact id
  have hreceived : transaction.expectingContinue = false →
      after.continueReceived = transaction.continueReceived := by
    intro hnot
    cases hwork with
    | @interim response =>
      unfold continueSignal
      rw [hnot, if_neg (by simp)]
    | _ => rfl
  have hfresh : transaction.expectingContinue = false ∧ transaction.continueReceived = false →
      after.expectingContinue = false ∧ after.continueReceived = false := by
    rintro ⟨hnot, hcontinue⟩
    refine ⟨?_, (hreceived hnot).trans hcontinue⟩
    rw [← Bool.not_eq_true]
    intro hexpects
    rw [hexpecting hexpects] at hnot
    cases hnot
  unfold RequestAt at hat ⊢
  rw [hsame]
  generalize transaction.request = control at hat ⊢
  cases control with
  | head reader | parsed request => exact ⟨hat.1, hat.2.1, hfresh hat.2.2⟩
  | stored request | notified request =>
    exact ⟨hat.1, hat.2.1, fun hexpects => hat.2.2 (hexpecting hexpects)⟩
  | exited => exact hat.imp_right fun hexit => ⟨hcancelled hexit.1, hexit.2⟩
  | _ => exact hat

/-! ## The response goroutine -/

/-- The state of the response goroutine after the bytes it has taken. -/
def ResponseAt (control : ResponseControl env) (taken : List Byte) (reports : List Response) :
    Prop :=
  match control with
  | .head reader => responseScan env {} taken = (.head reader, []) ∧ reports = []
  | .failed silent => responseScan env {} taken = (.failed silent, []) ∧ reports = []
  | .parsed response =>
    responseScan env {} taken = (afterByte (.parsed response), []) ∧ reports = []
  | .awaiting => False
  | .closing => False
  | .body _ =>
    ∃ response rest, responseScan env {} taken = (.parsed response, rest) ∧ reports = [response]
  | .discard =>
    ∃ response rest, responseScan env {} taken = (.parsed response, rest) ∧ reports = [response]
  | .exited => ∃ silent rest, responseScan env {} taken = (.failed silent, rest) ∧ reports = []

/-- The stream does not get to a 101 response. -/
def Unswitched (env : Env) (bytes : List Byte) : Prop :=
  ∀ response rest, responseScan env {} bytes = (.parsed response, rest) →
    isInterim response = false

theorem Unswitched.of_append {second : List Byte} (hunswitched : Unswitched env (first ++ second)) :
    Unswitched env first :=
  fun response rest hscan =>
    hunswitched response (rest ++ second) (responseScan_append_done hscan nofun second)

theorem isSkipped_of_not_interim (hinterim : isInterim response = false) :
    isSkipped response = false := by
  rw [isSkipped, hinterim, Bool.false_and]

theorem afterByte_skipped (hskipped : isSkipped response = true) :
    afterByte (.parsed response : ResponseControl env) = .head {} := if_pos hskipped

theorem afterByte_kept (hskipped : isSkipped response = false) :
    afterByte (.parsed response : ResponseControl env) = .parsed response :=
  if_neg (by rw [hskipped]; exact Bool.false_ne_true)

theorem responseScan_singleton (reader : HeadReader) (byte : Byte) :
    responseScan env reader [byte] = (afterByte (headResponse env (reader.read byte)), []) := by
  rw [responseScan_cons]
  cases afterByte (headResponse env (reader.read byte)) with
  | _ => rfl

theorem headResponse_cases (env : Env) (result : HeadResult) :
    (∃ reader, headResponse env result = .head reader) ∨
      (∃ silent, headResponse env result = .failed silent) ∨
      ∃ response, headResponse env result = .parsed response := by
  cases result with
  | more reader => exact .inl ⟨reader, rfl⟩
  | failed silent => exact .inr (.inl ⟨silent, rfl⟩)
  | complete headers =>
    cases hparse : readResponse env.library headers with
    | error silent => exact .inr (.inl ⟨silent, by simp only [headResponse, hparse]⟩)
    | ok response => exact .inr (.inr ⟨response, by simp only [headResponse, hparse]⟩)

theorem ResponseWork.responseAt {reports : List Response}
    (hwork : ResponseWork transaction callbacks after) (hopen : transaction.closed = false)
    (hunswitched : Unswitched env taken) (hat : ResponseAt transaction.response taken reports) :
    ResponseAt after.response taken (reports ++ Http1.responsesIn callbacks) := by
  cases hwork with
  | @fail silent hcontrol =>
    rw [hcontrol] at hat
    refine ⟨silent, [], hat.1, ?_⟩
    rw [hat.2, (headless_errorCallbacks silent).2, List.append_nil]
  | @switch response hcontrol hinterim hswitch =>
    rw [hcontrol] at hat
    have hskipped : isSkipped response = false := by
      simp [isSkipped, hswitch]
    have hscan := hat.1
    rw [afterByte_kept hskipped] at hscan
    cases hinterim.symm.trans (hunswitched response [] hscan)
  | @interim response hcontrol hinterim hswitch =>
    rw [hcontrol] at hat
    have hskipped : isSkipped response = true := by
      simp [isSkipped, hinterim, hswitch]
    have hscan := hat.1
    rw [afterByte_skipped hskipped] at hscan
    refine ⟨hscan, ?_⟩
    rw [hat.2]
    rfl
  | @final response noBody control hcontrol hinterim hnext =>
    rw [hcontrol] at hat
    have hscan := hat.1
    rw [afterByte_kept (isSkipped_of_not_interim hinterim)] at hscan
    rcases hnext with hnext | hnext
    · rw [hnext]
      exact ⟨response, [], hscan, by rw [hat.2]; rfl⟩
    · rw [hnext]
      exact ⟨response, [], hscan, by rw [hat.2]; rfl⟩
  | close hcontrol =>
    rw [hcontrol] at hat
    exact hat.elim
  | complain hcontrol =>
    rw [hcontrol] at hat
    obtain ⟨response, rest, hscan, hreports⟩ := hat
    refine ⟨response, rest, hscan, ?_⟩
    rw [hreports]
    rfl
  | @yield state next data status hcontrol hpoll =>
    rw [hcontrol] at hat
    rw [(headless_bodyCallbacks (fun _ => ⟨rfl, rfl⟩) status).2, List.append_nil]
    split_ifs <;> exact hat
  | endHead hcontrol hclosed | endBody hcontrol hpoll hclosed
  | endDiscard hcontrol hclosed => cases hopen.symm.trans hclosed

theorem ResponseRead.responseAt {control next : ResponseControl env} {reports : List Response}
    (hread : ResponseRead control data count next) (hat : ResponseAt control taken reports) :
    ResponseAt next (taken ++ data.take count) reports := by
  cases hread with
  | skip =>
    rw [List.take_nil, List.append_nil]
    exact hat
  | byte reader byte =>
    have hscan := responseScan_append_head hat.1 [byte]
    rw [responseScan_singleton] at hscan
    rcases headResponse_cases env (reader.read byte) with
      ⟨next, hnext⟩ | ⟨silent, hnext⟩ | ⟨response, hnext⟩
    all_goals
      rw [hnext] at hscan ⊢
      exact ⟨hscan, hat.2⟩
  | body data hpoll | discard data =>
    obtain ⟨response, _, hscan, hreports⟩ := hat
    exact ⟨response, _, responseScan_append_done hscan nofun _, hreports⟩

/-! ## The whole system -/

/-- A goroutine has given up on its stream. -/
def Refused (env : Env) (request response : List Byte) : Prop :=
  (∃ silent rest, requestScan env request = (.failed silent, rest)) ∨
    ∃ silent rest, responseScan env {} response = (.failed silent, rest)

theorem Refused.append {request response : List Byte} (hrefused : Refused env request response)
    (more more' : List Byte) : Refused env (request ++ more) (response ++ more') := by
  rcases hrefused with ⟨silent, rest, hscan⟩ | ⟨silent, rest, hscan⟩
  · exact .inl ⟨silent, _, requestScan_append_done hscan nofun more⟩
  · exact .inr ⟨silent, _, responseScan_append_done hscan nofun more'⟩

structure Follows (events : List Event) (system : System env) (transaction : Transaction env)
    (taken : Phase → List Byte) : Prop where
  account : Taken events system taken
  request : RequestAt transaction (taken .request) (system.requestsOf 1)
  response : ResponseAt transaction.response (taken .response) (system.responsesOf 1)
  cancelled : transaction.cancelled = true → Refused env (taken .request) (taken .response)
  closed : transaction.closed = false
  sessions : system.sessions = 1

/-- There is no session yet, or the only one follows its streams. -/
def Tracked (events : List Event) (system : System env) : Prop :=
  match system.session with
  | none =>
    system.writing = none ∧ system.pending = events ∧ system.sessions = 0 ∧ system.callbacks = []
  | some transaction => ∃ taken, Follows events system transaction taken

theorem tracked_of_session (hsession : system.session = some transaction) :
    Tracked events system ↔ ∃ taken, Follows events system transaction taken := by
  rw [Tracked, hsession]

theorem RequestWork.cancelled (hwork : RequestWork transaction callbacks after)
    (hcancelled : after.cancelled = true) :
    transaction.cancelled = true ∨ ∃ silent, transaction.request = .failed silent := by
  cases hwork with
  | @fail silent hcontrol => exact .inr ⟨silent, hcontrol⟩
  | _ => exact .inl hcancelled

theorem RequestWork.closed (hwork : RequestWork transaction callbacks after) :
    after.closed = transaction.closed := by
  cases hwork <;> rfl

theorem ResponseWork.cancelled (hwork : ResponseWork transaction callbacks after)
    (hcancelled : after.cancelled = true) :
    transaction.cancelled = true ∨ ∃ silent, transaction.response = .failed silent := by
  cases hwork with
  | @fail silent hcontrol => exact .inr ⟨silent, hcontrol⟩
  | interim => exact .inl ((continueSignal_frame transaction _).2.1.symm.trans hcancelled)
  | _ => exact .inl hcancelled

theorem ResponseWork.closed (hwork : ResponseWork transaction callbacks after)
    (hawaiting : transaction.response ≠ .awaiting) : after.closed = transaction.closed := by
  cases hwork with
  | close hcontrol => exact absurd hcontrol hawaiting
  | interim => exact (continueSignal_frame transaction _).2.2
  | _ => rfl

namespace Follows

variable {events : List Event} {system : System env} {transaction after : Transaction env}
  {taken : Phase → List Byte} {callbacks : List Callback}

theorem requestWork (hfollows : Follows events system transaction taken)
    (hwork : RequestWork transaction callbacks after) :
    Follows events ((system.report callbacks).setSession after) after taken where
  account := hfollows.account.congr rfl rfl
  request := by
    rw [requestsOf, callbacksOf_report hfollows.sessions, requestsIn_append]
    exact hwork.requestAt hfollows.closed hfollows.request
  response := by
    rw [responsesOf, callbacksOf_report hfollows.sessions, responsesIn_append, hwork.responsesIn,
      List.append_nil, hwork.decreases.2]
    exact hfollows.response
  cancelled hcancelled := by
    rcases hwork.cancelled hcancelled with hbefore | ⟨silent, hcontrol⟩
    · exact hfollows.cancelled hbefore
    · have hrequest := hfollows.request
      rw [RequestAt, hcontrol] at hrequest
      exact .inl ⟨silent, [], hrequest.1⟩
  closed := hwork.closed.trans hfollows.closed
  sessions := hfollows.sessions

theorem responseWork (hfollows : Follows events system transaction taken)
    (hunswitched : Unswitched env (taken .response))
    (hwork : ResponseWork transaction callbacks after) :
    Follows events ((system.report callbacks).setSession after) after taken where
  account := hfollows.account.congr rfl rfl
  request := by
    rw [requestsOf, callbacksOf_report hfollows.sessions, requestsIn_append, hwork.requestsIn,
      List.append_nil]
    exact hwork.requestAt hfollows.request
  response := by
    rw [responsesOf, callbacksOf_report hfollows.sessions, responsesIn_append]
    exact hwork.responseAt hfollows.closed hunswitched hfollows.response
  cancelled hcancelled := by
    rcases hwork.cancelled hcancelled with hbefore | ⟨silent, hcontrol⟩
    · exact hfollows.cancelled hbefore
    · have hresponse := hfollows.response
      rw [hcontrol] at hresponse
      exact .inr ⟨silent, [], hresponse.1⟩
  closed := by
    refine (hwork.closed ?_).trans hfollows.closed
    intro hcontrol
    have hresponse := hfollows.response
    rw [hcontrol] at hresponse
    exact hresponse
  sessions := hfollows.sessions

end Follows

theorem callbacks_take {system : System env} {count : ℕ} :
    (system.take count).callbacks = system.callbacks ∧
      (system.take count).sessions = system.sessions := by
  unfold take
  split
  · split_ifs <;> exact ⟨rfl, rfl⟩
  · exact ⟨rfl, rfl⟩

theorem callbacksOf_take (system : System env) (count : ℕ) (transaction : Transaction env) :
    ((system.take count).setSession transaction).callbacksOf 1 = system.callbacksOf 1 := by
  rw [callbacksOf, callbacksOf, setSession, callbacks_take.1]

/-- A goroutine takes bytes from its pipe. -/
theorem Follows.take {taken : Phase → List Byte} {after : Transaction env} {phase : Phase}
    (hfollows : Follows events system transaction taken)
    (hoffered : system.offered phase = some data) (count : ℕ)
    (hcancelled : after.cancelled = transaction.cancelled)
    (hclosed : after.closed = transaction.closed)
    (hrequest : RequestAt after (update taken phase (taken phase ++ data.take count) .request)
      (system.requestsOf 1))
    (hresponse : ResponseAt after.response
      (update taken phase (taken phase ++ data.take count) .response) (system.responsesOf 1)) :
    Follows events ((system.take count).setSession after) after
      (update taken phase (taken phase ++ data.take count)) where
  account := (hfollows.account.take hoffered count).congr rfl rfl
  request := by
    rw [requestsOf, callbacksOf_take]
    exact hrequest
  response := by
    rw [responsesOf, callbacksOf_take]
    exact hresponse
  cancelled hcancel := by
    have hrefused := hfollows.cancelled (hcancelled ▸ hcancel)
    cases phase with
    | request => simpa using hrefused.append (data.take count) []
    | response => simpa using hrefused.append [] (data.take count)
  closed := hclosed.trans hfollows.closed
  sessions := callbacks_take.2.trans hfollows.sessions

theorem move_tracked (hunswitched : Unswitched env (bytesOf events .response))
    (system next : System env) (hmove : Move system next) (htracked : Tracked events system) :
    Tracked events next := by
  have hquiet : ∀ {taken : Phase → List Byte}, Taken events system taken →
      Unswitched env (taken .response) := by
    intro taken htaken
    rw [htaken.bytes_eq .response] at hunswitched
    exact hunswitched.of_append
  cases hmove with
  | write hwriting hpending hsession =>
    obtain ⟨taken, hfollows⟩ := (tracked_of_session hsession).1 htracked
    rw [hsession]
    exact ⟨taken, { hfollows with account := hfollows.account.start hwriting hpending rfl rfl }⟩
  | begin hwriting hpending hclosed =>
    unfold Tracked at htracked
    cases hsession : system.session with
    | some transaction =>
      rw [hsession] at htracked
      obtain ⟨taken, hfollows⟩ := htracked
      cases hfollows.closed.symm.trans (hclosed transaction hsession)
    | none =>
      rw [hsession] at htracked
      obtain ⟨-, hevents, hsessions, hcallbacks⟩ := htracked
      have htaken : Taken events system fun _ => [] := hevents ▸ Taken.of_pending hwriting
      refine (tracked_of_session rfl).2 ⟨fun _ => [], ?_⟩
      exact
        { account := htaken.start hwriting hpending rfl rfl
          request := by
            rw [hcallbacks]
            exact ⟨rfl, rfl, rfl, rfl⟩
          response := by
            rw [hcallbacks]
            exact ⟨rfl, rfl⟩
          cancelled := nofun
          closed := rfl
          sessions := congrArg (· + 1) hsessions }
  | error hwriting hsession hclosed =>
    obtain ⟨taken, hfollows⟩ := (tracked_of_session hsession).1 htracked
    cases hfollows.closed.symm.trans hclosed
  | requestWork hsession hwork =>
    obtain ⟨taken, hfollows⟩ := (tracked_of_session hsession).1 htracked
    exact (tracked_of_session rfl).2 ⟨taken, hfollows.requestWork hwork⟩
  | requestRead hsession hoffered hread =>
    obtain ⟨taken, hfollows⟩ := (tracked_of_session hsession).1 htracked
    exact (tracked_of_session rfl).2 ⟨_, hfollows.take hoffered _ rfl rfl
      (hread.requestAt hfollows.request) hfollows.response⟩
  | responseWork hsession hwork =>
    obtain ⟨taken, hfollows⟩ := (tracked_of_session hsession).1 htracked
    exact (tracked_of_session rfl).2 ⟨taken, hfollows.responseWork (hquiet hfollows.account) hwork⟩
  | responseRead hsession hoffered hread =>
    obtain ⟨_, hfollows⟩ := (tracked_of_session hsession).1 htracked
    exact (tracked_of_session rfl).2 ⟨_, hfollows.take hoffered _ rfl rfl hfollows.request
      (hread.responseAt hfollows.response)⟩

theorem run_tracked {next : System env} {actions : List Action}
    (hunswitched : Unswitched env (bytesOf events .response))
    (hrun : runActions step system actions = some next) (htracked : Tracked events system) :
    Tracked events next :=
  run_invariant (Tracked events) (move_tracked hunswitched) hrun htracked

end Qtap.Http1
