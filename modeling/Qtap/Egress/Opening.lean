import Qtap.Egress.Forwarder

/-!
# The forwarder and the openings of its clients

Until it relays, the forwarder sends nothing to the client, so that the client stays in its
opening: what it sends before it waits for a first answer.  The forwarder gets on when the
openings are long enough to be recognised.  A shorter opening is held back although the
server would answer it.
-/

namespace Qtap.Egress

open Function Option Qtap.Core Qtap.Connection Qtap.L7Detect

/-- The handler needs no more than these bytes to dial the server, or to shake hands. -/
def Setting.Decided (setting : Setting) (bytes : List Byte) : Prop :=
  (detectTLS ⟨bytes, false⟩ = some (.ok true) ∧
      detectClientHello setting.parseClientHello ⟨bytes, false⟩ ≠ none) ∨
    (detectTLS ⟨bytes, false⟩ = some (.ok false) ∧ detectProtocol ⟨bytes, false⟩ ≠ none)

/-- Whenever the program waits for a first answer it has sent enough. -/
def OpensWith (program : Program Byte) (enough : List Byte → Prop) : Prop :=
  ∀ state sent, program.Opening state sent → program.IsReceiving state → enough sent

/-- A plain client opens with bytes that are recognised; a TLS client sends a whole ClientHello,
and where TLS is terminated its program opens with bytes that are recognised. -/
def Forthcoming (programs : Side → Program Byte) (setting : Setting) : Prop :=
  match setting.transport with
  | .plain => OpensWith (programs .client) setting.Decided
  | .tls clientHello =>
    setting.Decided clientHello ∧ (setting.tlsTerminationSafe = true →
      OpensWith (programs .client) fun sent => detectProtocol ⟨sent, false⟩ ≠ none)

namespace World

variable {programs : Side → Program Byte} {setting : Setting} {world next : World programs}

def Late (world : World programs) : Prop := world.phase = .relaying ∨ world.phase = .returned

/-- The client is in its opening and the handler has only looked at it. -/
structure Early (setting : Setting) (world : World programs) : Prop where
  silent : (world.relay.outbound .client).dry = true
  untouched : (world.relay.inbound .client).taken = 0
  opening : (world.relay.inbound .client).ended = true ∨
    (programs .client).Opening (world.program .client) (world.relay.inbound .client).written
  plain : setting.transport = .plain → world.started .client = true ∧ world.phase ≠ .detectInner
  hello : ∀ clientHello, setting.transport = .tls clientHello → world.phase ≠ .detectInner →
    world.started .client = false ∧ world.relay.inbound .client = Conduit.empty
  isTLS : world.phase = .clientHello → detectTLS (world.outer setting) = some (.ok true)
  notTLS : world.phase = .detectProtocol → detectTLS (world.outer setting) = some (.ok false)
  safe : world.phase = .dialTLS ∨ world.phase = .handshake ∨ world.phase = .detectInner →
    setting.tlsTerminationSafe = true
  inside : world.phase = .detectInner → world.started .client = true

theorem early_initial : (initial programs setting).Early setting where
  silent := rfl
  untouched := rfl
  opening := .inr .start
  plain := fun hplain => ⟨by rw [initial, hplain], nofun⟩
  hello := fun _ htls _ => ⟨by rw [initial, htls], rfl⟩
  isTLS := nofun
  notTLS := nofun
  safe := by rintro (hphase | hphase | hphase) <;> cases hphase
  inside := nofun

/-! ## Steps of the programs -/

variable {count : ℕ} {request answer : List Byte}

theorem run_eq_some {side : Side} (hnext : world.run side count = some next) :
    world.started side = true ∧ ∃ after,
      (programs side).advance (world.program side) (world.relay.outbound side)
        (world.relay.inbound side) count = some after ∧
      next = { world with
        program := update world.program side after.1
        relay := { world.relay with
          outbound := update world.relay.outbound side after.2.1
          inbound := update world.relay.inbound side after.2.2 } } := by
  rw [run, ite_none_right_eq_some, map_eq_some_iff] at hnext
  obtain ⟨hstarted, after, hafter, rfl⟩ := hnext
  exact ⟨hstarted, after, hafter, rfl⟩

/-- Nothing that concerns the client has changed. -/
theorem Early.of_eq (hearly : world.Early setting) (hphase : next.phase = world.phase)
    (hprogram : next.program .client = world.program .client)
    (hstarted : next.started .client = world.started .client)
    (hinbound : next.relay.inbound .client = world.relay.inbound .client)
    (houtbound : next.relay.outbound .client = world.relay.outbound .client) :
    next.Early setting := by
  have houter : next.outer setting = world.outer setting := by
    rw [outer, outer, hinbound]
  constructor
  · rw [houtbound]
    exact hearly.silent
  · rw [hinbound]
    exact hearly.untouched
  · rw [hinbound, hprogram]
    exact hearly.opening
  · rw [hstarted, hphase]
    exact hearly.plain
  · rw [hstarted, hphase, hinbound]
    exact hearly.hello
  · rw [houter, hphase]
    exact hearly.isTLS
  · rw [houter, hphase]
    exact hearly.notTLS
  · rw [hphase]
    exact hearly.safe
  · rw [hphase, hstarted]
    exact hearly.inside

theorem pending_of_untouched {conduit : Conduit Byte} (huntouched : conduit.taken = 0) :
    conduit.pending = conduit.written := by
  rw [Conduit.pending, huntouched, List.drop_zero]

section

variable (hearly : world.Early setting)

include hearly

theorem Early.run {side : Side}
    (hnext : world.run side count = some next) : next.Early setting := by
  obtain ⟨hstarted, after, hafter, rfl⟩ := run_eq_some hnext
  cases side with
  | server =>
    have hne : Side.client ≠ .server := nofun
    exact hearly.of_eq rfl (update_of_ne hne after.1 _) rfl
      (update_of_ne hne after.2.2 _) (update_of_ne hne after.2.1 _)
  | client =>
    obtain ⟨hinput, htaken, ⟨chunk, hwritten⟩, hopening⟩ :=
      Program.Opening.advance hearly.opening hearly.silent hafter
    have huntouched : after.2.2.taken = 0 := htaken.trans hearly.untouched
    -- more bytes do not change what was recognised
    have hrecognised : ∀ isTLS, detectTLS (world.outer setting) = some (.ok isTLS) →
        detectTLS ⟨setting.transport.hello ++ after.2.2.pending, after.2.2.ended⟩ =
          some (.ok isTLS) := by
      intro isTLS hdetect
      rw [pending_of_untouched huntouched, hwritten, ← List.append_assoc]
      rw [outer, pending_of_untouched hearly.untouched] at hdetect
      exact detectTLS_append chunk _ hdetect
    constructor
    · simp only [update_self, hinput]
      exact hearly.silent
    · exact huntouched
    · exact hopening
    · exact hearly.plain
    · intro clientHello htls hphase
      rw [(hearly.hello clientHello htls hphase).1] at hstarted
      exact absurd hstarted Bool.false_ne_true
    · intro hphase
      exact hrecognised true (hearly.isTLS hphase)
    · intro hphase
      exact hrecognised false (hearly.notTLS hphase)
    · exact hearly.safe
    · exact hearly.inside

/-! ## Steps of the handler -/

/-- The handler goes from one phase to the next without touching the client. -/
theorem Early.enter {phase : Phase} (hphase : world.phase = phase)
    (hisTLS : next.phase = .clientHello → detectTLS (world.outer setting) = some (.ok true) :=
      by nofun)
    (hnotTLS : next.phase = .detectProtocol →
      detectTLS (world.outer setting) = some (.ok false) := by nofun)
    (hsafe : next.phase = .dialTLS ∨ next.phase = .handshake →
      setting.tlsTerminationSafe = true := by simp)
    (hstarted : next.started .client = world.started .client := by rfl)
    (hprogram : next.program = world.program := by rfl) (hrelay : next.relay = world.relay := by rfl)
    (hfrom : phase ≠ .detectInner := by decide) (hto : next.phase ≠ .detectInner := by nofun) :
    next.Early setting where
  silent := by
    rw [hrelay]
    exact hearly.silent
  untouched := by
    rw [hrelay]
    exact hearly.untouched
  opening := by
    rw [hrelay, hprogram]
    exact hearly.opening
  plain := fun hplain => ⟨hstarted.trans (hearly.plain hplain).1, hto⟩
  hello := by
    intro clientHello htls _
    rw [hstarted, hrelay]
    exact hearly.hello clientHello htls (hphase.trans_ne hfrom)
  isTLS := by
    rw [outer, hrelay]
    exact hisTLS
  notTLS := by
    rw [outer, hrelay]
    exact hnotTLS
  safe := by
    rintro (hphase | hphase | hphase)
    · exact hsafe (.inl hphase)
    · exact hsafe (.inr hphase)
    · exact absurd hphase hto
  inside := fun hphase => absurd hphase hto

/-- The handshake starts the program of a TLS client. -/
theorem Early.shakeHands {succeeds : Bool} (hphase : world.phase = .handshake) :
    (world.shakeHands setting succeeds).Late ∨
      (world.shakeHands setting succeeds).Early setting := by
  unfold World.shakeHands
  split
  next htls =>
    right
    constructor
    · exact hearly.silent
    · exact hearly.untouched
    · exact hearly.opening
    · intro hplain
      cases htls.symm.trans hplain
    · exact fun _ _ hinner => absurd rfl hinner
    · nofun
    · nofun
    · exact fun _ => hearly.safe (.inr (.inl hphase))
    · exact fun _ => update_self Side.client true world.started
  next => exact .inl (.inr rfl)

theorem Early.handle {succeeds : Bool}
    (hnext : world.handle setting succeeds = some next) : next.Late ∨ next.Early setting := by
  rw [World.handle] at hnext
  cases hphase : world.phase with
  | detectTLS =>
    simp only [hphase, map_eq_some_iff] at hnext
    obtain ⟨result, hdetect, rfl⟩ := hnext
    match result with
    | .error _ => exact .inl (.inr rfl)
    | .ok true => exact .inr (hearly.enter hphase fun _ => hdetect)
    | .ok false => exact .inr (hearly.enter hphase nofun fun _ => hdetect)
  | clientHello =>
    simp only [hphase, map_eq_some_iff] at hnext
    obtain ⟨result, _, rfl⟩ := hnext
    match result with
    | .error _ => exact .inl (.inr rfl)
    | .ok hello =>
      cases hsafe : setting.tlsTerminationSafe with
      | true => exact .inr (hearly.enter hphase nofun nofun fun _ => hsafe)
      | false => exact .inr (hearly.enter hphase)
  | dialTLS =>
    cases succeeds with
    | true =>
      simp only [hphase, if_true, Option.some.injEq] at hnext
      obtain rfl := hnext
      have hclient : update world.started .server true .client =
          world.started .client := update_of_ne (by decide) _ _
      exact .inr (hearly.enter hphase nofun nofun (fun _ => hearly.safe (.inl hphase)) hclient)
    | false =>
      simp only [hphase, Bool.false_eq_true, if_false, Option.some.injEq] at hnext
      exact .inl (.inr (hnext ▸ rfl))
  | handshake =>
    simp only [hphase, Option.some.injEq] at hnext
    obtain rfl := hnext
    exact hearly.shakeHands hphase
  | detectInner =>
    simp only [hphase, map_eq_some_iff] at hnext
    obtain ⟨protocol, _, rfl⟩ := hnext
    exact .inl (.inl rfl)
  | detectProtocol =>
    simp only [hphase, map_eq_some_iff] at hnext
    obtain ⟨_, _, rfl⟩ := hnext
    exact .inr (hearly.enter hphase)
  | dial =>
    cases succeeds with
    | true =>
      simp only [hphase, if_true, Option.some.injEq] at hnext
      exact .inl (.inl (hnext ▸ rfl))
    | false =>
      simp only [hphase, Bool.false_eq_true, if_false, Option.some.injEq] at hnext
      exact .inl (.inr (hnext ▸ rfl))
  | relaying | returned =>
    simp only [hphase] at hnext
    cases hnext

end

/-! ## Runs -/

theorem forward_eq_some {work : Work} (hnext : world.forward setting work = some next) :
    world.phase = .relaying ∧ next.phase = .relaying := by
  cases work with
  | receive => cases hnext
  | _ =>
    simp only [World.forward, ite_none_right_eq_some, map_eq_some_iff] at hnext
    obtain ⟨hphase, _, _, rfl⟩ := hnext
    exact ⟨hphase, hphase⟩

theorem Late.step {action : Action} (hlate : world.Late)
    (hnext : world.step setting action = some next) : next.Late := by
  cases action with
  | run =>
    obtain ⟨_, _, _, rfl⟩ := run_eq_some hnext
    exact hlate
  | handle =>
    rcases hlate with hphase | hphase <;>
      simp [World.step, World.handle, hphase] at hnext
  | forward => exact .inl (forward_eq_some hnext).2

theorem late_or_early_step {action : Action} (hworld : world.Late ∨ world.Early setting)
    (hnext : world.step setting action = some next) : next.Late ∨ next.Early setting := by
  rcases hworld with hlate | hearly
  · exact .inl (hlate.step hnext)
  · cases action with
    | run => exact .inr (hearly.run hnext)
    | handle => exact hearly.handle hnext
    | forward => exact .inl (.inl (forward_eq_some hnext).2)

theorem Blocked.not_late (hblocked : world.Blocked setting) : ¬ world.Late := by
  rintro (hphase | hphase) <;> rw [Blocked, hphase] at hblocked <;> exact hblocked

/-- The end of the client's stream ends every wait. -/
theorem Blocked.not_ended (hblocked : world.Blocked setting) :
    (world.relay.inbound .client).ended = false := by
  rw [← Bool.not_eq_true]
  intro hended
  rw [Blocked] at hblocked
  cases hphase : world.phase with
  | detectTLS =>
    rw [hphase] at hblocked
    exact detectTLS_ne_none hended hblocked
  | clientHello =>
    rw [hphase] at hblocked
    exact detectClientHello_ne_none _ hended hblocked
  | detectInner | detectProtocol =>
    rw [hphase] at hblocked
    exact detectProtocol_ne_none (fun _ _ => peek_ne_blocks hended) hblocked
  | _ =>
    rw [hphase] at hblocked
    exact hblocked

/-- What is decided ends the wait for it. -/
theorem Early.not_blocked_of_decided (hearly : world.Early setting)
    (hopen : (world.relay.inbound .client).ended = false) (hinner : world.phase ≠ .detectInner)
    (hdecided : setting.Decided
      (setting.transport.hello ++ (world.relay.inbound .client).written)) :
    ¬ world.Blocked setting := by
  have houter : world.outer setting =
      ⟨setting.transport.hello ++ (world.relay.inbound .client).written, false⟩ := by
    rw [outer, pending_of_untouched hearly.untouched, hopen]
  rw [Setting.Decided, ← houter] at hdecided
  intro hblocked
  rw [Blocked] at hblocked
  cases hphase : world.phase with
  | detectTLS =>
    rw [hphase] at hblocked
    rcases hdecided with ⟨hdetect, _⟩ | ⟨hdetect, _⟩ <;> rw [hblocked] at hdetect <;>
      cases hdetect
  | clientHello =>
    rw [hphase] at hblocked
    rcases hdecided with ⟨_, hready⟩ | ⟨hdetect, _⟩
    · exact hready hblocked
    · rw [hearly.isTLS hphase] at hdetect
      cases hdetect
  | detectProtocol =>
    rw [hphase] at hblocked
    rcases hdecided with ⟨hdetect, _⟩ | ⟨_, hready⟩
    · rw [hearly.notTLS hphase] at hdetect
      cases hdetect
    · exact hready hblocked
  | detectInner => exact hinner hphase
  | _ =>
    rw [hphase] at hblocked
    exact hblocked

theorem Early.not_wedged (hearly : world.Early setting)
    (hforthcoming : Forthcoming programs setting) : ¬ world.Wedged setting := by
  rintro ⟨hwaits, hblocked⟩
  have hopen := hblocked.not_ended
  have hopening := hearly.opening.resolve_left (ne_true_of_eq_false hopen)
  rw [Forthcoming] at hforthcoming
  cases htransport : setting.transport with
  | plain =>
    rw [htransport] at hforthcoming
    obtain ⟨hstarted, hinner⟩ := hearly.plain htransport
    have hdecided := hforthcoming _ _ hopening (hwaits .client hstarted).1
    apply hearly.not_blocked_of_decided hopen hinner _ hblocked
    rw [htransport]
    exact hdecided
  | tls clientHello =>
    rw [htransport] at hforthcoming
    by_cases hinner : world.phase = .detectInner
    · have hready := hforthcoming.2 (hearly.safe (.inr (.inr hinner))) _ _ hopening
        (hwaits .client (hearly.inside hinner)).1
      rw [Blocked, hinner] at hblocked
      apply hready
      rw [inner, pending_of_untouched hearly.untouched, hopen] at hblocked
      exact hblocked
    · apply hearly.not_blocked_of_decided hopen hinner _ hblocked
      rw [htransport, (hearly.hello clientHello htransport hinner).2]
      simpa [Transport.hello] using hforthcoming.1

/-- When the client's opening is long enough to be recognised, the forwarder never holds back
what both ends wait for. -/
theorem forwarder_never_wedged {actions : List Action} (hforthcoming : Forthcoming programs setting)
    (hrun : runActions (step setting) (initial programs setting) actions = some world) :
    ¬ world.Wedged setting := by
  have hworld : world.Late ∨ world.Early setting :=
    runActions.invariant (fun world => world.Late ∨ world.Early setting)
      (fun _ _ _ hnext hbefore => late_or_early_step hbefore hnext) hrun (.inr early_initial)
  rcases hworld with hlate | hearly
  · exact fun hwedged => hwedged.2.not_late hlate
  · exact hearly.not_wedged hforthcoming

/-! ## A short opening -/

inductive Stage where
  | first
  | second
  | third

/-- A client that sends one request and waits for the answer. -/
def askOnce (request : List Byte) : Program Byte where
  State := Stage
  start := .first
  act := fun
    | .first => .send request .second
    | .second => .receive fun _ => .third
    | .third => .stop

/-- A server that answers the first bytes it receives. -/
def answerOnce (answer : List Byte) : Program Byte where
  State := Stage
  start := .first
  act := fun
    | .first => .receive fun _ => .second
    | .second => .send answer .third
    | .third => .stop

def exchange (request answer : List Byte) : Side → Program Byte
  | .client => askOnce request
  | .server => answerOnce answer

theorem askOnce_opening {sent : List Byte} {state : (askOnce request).State}
    (hopening : (askOnce request).Opening state sent) :
    (state = Stage.first ∧ sent = []) ∨ (state = Stage.second ∧ sent = request) := by
  induction hopening with
  | start => exact .inl ⟨rfl, rfl⟩
  | send _ hact ih =>
    rcases ih with ⟨rfl, rfl⟩ | ⟨rfl, rfl⟩
    · cases hact
      exact .inr ⟨rfl, rfl⟩
    · cases hact

theorem askOnce_opensWith {enough : List Byte → Prop} (hrequest : enough request) :
    OpensWith (askOnce request) enough := by
  intro state sent hopening hreceiving
  rcases askOnce_opening hopening with ⟨rfl, rfl⟩ | ⟨rfl, rfl⟩
  · obtain ⟨_, hact⟩ := hreceiving
    cases hact
  · exact hrequest

theorem askOnce_advance {state : (askOnce request).State} {input output : Conduit Byte}
    {after : (askOnce request).State × Conduit Byte × Conduit Byte}
    (hafter : (askOnce request).advance state input output count = some after) :
    (output.ended = false ∧ after.2.2 = output.write request) ∨ after.1 = Stage.third := by
  rw [Program.advance] at hafter
  cases state with
  | first =>
    obtain ⟨hopen, heq⟩ := ite_none_left_eq_some.1 hafter
    exact .inl ⟨Bool.not_eq_true _ ▸ hopen, Option.some.inj heq ▸ rfl⟩
  | second =>
    right
    simp only [askOnce] at hafter
    split at hafter
    · exact Option.some.inj hafter ▸ rfl
    · obtain ⟨_, _, rfl⟩ := map_eq_some_iff.1 hafter
      rfl
  | third => cases hafter

theorem answerOnce_advance {state : (answerOnce answer).State} {input output : Conduit Byte}
    {after : (answerOnce answer).State × Conduit Byte × Conduit Byte}
    (hafter : (answerOnce answer).advance state input output count = some after) :
    after.1 ≠ Stage.first := by
  rw [Program.advance] at hafter
  cases state with
  | first =>
    simp only [answerOnce] at hafter
    split at hafter
    · cases hafter
      rintro ⟨⟩
    · obtain ⟨_, _, rfl⟩ := map_eq_some_iff.1 hafter
      rintro ⟨⟩
  | second =>
    obtain ⟨_, heq⟩ := ite_none_left_eq_some.1 hafter
    cases heq
    rintro ⟨⟩
  | third => cases hafter

/-- While the client waits and the server has not received, the request is on its way. -/
def InTransit {request answer : List Byte} (state : Direct (exchange request answer)) : Prop :=
  state.program .client = Stage.second → state.program .server = Stage.first →
    (state.stream .client).pending ≠ []

theorem InTransit.step (hrequest : request ≠ []) {state next : Direct (exchange request answer)}
    {action : Side × ℕ} (hnext : state.step Side.other action = some next) : InTransit next := by
  obtain ⟨side, _⟩ := action
  rw [Direct.step, map_eq_some_iff] at hnext
  obtain ⟨after, hafter, rfl⟩ := hnext
  intro hclient hserver
  cases side with
  | client =>
    rcases askOnce_advance hafter with ⟨hopen, hwrite⟩ | hthird
    · simp only [update_self, hwrite]
      exact Conduit.pending_write_ne_nil hopen hrequest
    · have hsecond := (update_self Side.client after.1 state.program).symm.trans hclient
      cases hthird.symm.trans hsecond
  | server =>
    exact absurd ((update_self Side.server after.1 state.program).symm.trans hserver)
      (answerOnce_advance hafter)

/-- Directly connected, the two never both wait. -/
theorem exchange_never_stuck (hrequest : request ≠ []) {actions : List (Side × ℕ)}
    {state : Direct (exchange request answer)}
    (hrun : runActions (Direct.step Side.other) (Direct.initial (exchange request answer)) actions =
      some state) : ¬ state.Stuck Side.other := by
  have hstate : InTransit state :=
    runActions.invariant InTransit (fun _ _ _ hnext _ => InTransit.step hrequest hnext) hrun nofun
  intro hstuck
  obtain ⟨⟨_, hclient⟩, _⟩ := hstuck .client
  obtain ⟨⟨_, hserver⟩, hdry⟩ := hstuck .server
  have hsecond : state.program .client = Stage.second := by
    cases hstage : state.program .client with
    | second => rfl
    | _ =>
      rw [hstage] at hclient
      cases hclient
  have hfirst : state.program .server = Stage.first := by
    cases hstage : state.program .server with
    | first => rfl
    | _ =>
      rw [hstage] at hserver
      cases hserver
  exact hstate hsecond hfirst (Conduit.dry_eq_true_iff.1 hdry).1

/-- A request of an HTTP client, and the answer. -/
def getOk : Side → Program Byte :=
  exchange (ascii "GET / HTTP/1.1\r\nHost: a\r\n\r\n") (ascii "HTTP/1.1 200 OK\r\n\r\n")

/-- `PING` as a Redis client sends it, and the answer. -/
def pingPong : Side → Program Byte :=
  exchange (ascii "*1\r\n$4\r\nPING\r\n") (ascii "+PONG\r\n")

def plainSetting : Setting where
  transport := .plain
  tlsTerminationSafe := false
  connEvents := true
  Hello := Unit
  parseClientHello := fun _ => none

theorem forwarder_never_wedged_get :
    ∃ world, runActions (step plainSetting) (initial getOk plainSetting)
        [.run .client 0, .handle true, .handle true, .handle true] = some world ∧
      ¬ world.Wedged plainSetting := by
  have hforthcoming : Forthcoming getOk plainSetting :=
    askOnce_opensWith (.inr ⟨rfl, detectProtocol_ne_none_of_length (by decide)⟩)
  exact ⟨_, rfl, forwarder_never_wedged hforthcoming
    (rfl : runActions (step _) _ [.run .client 0, .handle true, .handle true, .handle true] = _)⟩

/-- The client and the server of a `PING` get on directly.  Through the forwarder both wait,
the forwarder for ten more bytes. -/
theorem forwarder_wedged_by_ping :
    (∀ actions state, runActions (Direct.step Side.other) (Direct.initial pingPong) actions =
      some state → ¬ state.Stuck Side.other) ∧
    ∃ world, runActions (step plainSetting) (initial pingPong plainSetting)
        [.run .client 0, .handle true] = some world ∧ world.Wedged plainSetting := by
  refine ⟨fun actions state hrun => exchange_never_stuck (by decide) hrun, _, rfl, ?_, ?_⟩
  · intro side hstarted
    cases side with
    | client => exact ⟨⟨_, rfl⟩, rfl⟩
    | server => cases hstarted
  · rfl

end World

end Qtap.Egress
