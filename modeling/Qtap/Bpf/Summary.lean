import Qtap.Bpf.Socket

/-!
# What the socket programs do to a record

One statement for each program on how it leaves the flags of a connection and what kinds
of events it submits.  Statements about runs rest on these and not on the programs.
-/

namespace Qtap.Bpf

open List

def Event.IsData : Event → Prop
  | .data _ _ _ _ _ => True
  | _ => False

/-- A program that detects no protocol and submits no data. -/
structure Quiet (old new : ConnInfo) (events : List Event) : Prop where
  protocol : new.protocol = old.protocol
  stable : old.isOpen = true → new.isOpen = true ∧ new.cookie = old.cookie
  opened : new.isOpen = true → old.isOpen = true ∨
    ∃ connPidId remote isRedirected, .opened connPidId new.cookie remote isRedirected ∈ events
  ignore : old.ignore = true → new.ignore = true
  noData : ∀ event ∈ events, ¬ event.IsData

theorem Quiet.refl (conn : ConnInfo) : Quiet conn conn [] where
  protocol := rfl
  stable := fun hopen => ⟨hopen, rfl⟩
  opened := .inl
  ignore := id
  noData := nofun

theorem Quiet.trans {first second third : ConnInfo} {events more : List Event}
    (hfirst : Quiet first second events) (hsecond : Quiet second third more) :
    Quiet first third (events ++ more) where
  protocol := hsecond.protocol.trans hfirst.protocol
  stable := by
    intro hopen
    have hmiddle := hfirst.stable hopen
    have hlast := hsecond.stable hmiddle.1
    exact ⟨hlast.1, hlast.2.trans hmiddle.2⟩
  opened := by
    intro hopen
    rcases hsecond.opened hopen with hmiddle | ⟨connPidId, remote, isRedirected, hevent⟩
    · rcases hfirst.opened hmiddle with hold | ⟨connPidId, remote, isRedirected, hevent⟩
      · exact .inl hold
      · rw [← (hsecond.stable hmiddle).2] at hevent
        exact .inr ⟨connPidId, remote, isRedirected, mem_append_left _ hevent⟩
    · exact .inr ⟨connPidId, remote, isRedirected, mem_append_right _ hevent⟩
  ignore := hsecond.ignore ∘ hfirst.ignore
  noData := forall_mem_append.2 ⟨hfirst.noData, hsecond.noData⟩

/-- The end of `submit_open_event`, for whatever it has found. -/
theorem report_quiet {conn : ConnInfo} (hopen : ¬ conn.isOpen = true) (cookie : ℕ)
    (ignored isRedirected : Bool) (remote : NetAddr) :
    let new := { conn with cookie := cookie, ignore := conn.ignore || ignored }
    let result : ConnInfo × List Event :=
      if new.ignore ∨ new.cookie = 0 then (new, [])
      else ({ new with isOpen := true }, [.opened new.connPidId new.cookie remote isRedirected])
    Quiet conn result.1 result.2 := by
  intro new result
  by_cases hsilent : new.ignore ∨ new.cookie = 0
  · rw [show result = (new, []) from if_pos hsilent]
    exact ⟨rfl, fun h => absurd h hopen, .inl, fun hignore => by simp [new, hignore], nofun⟩
  · rw [show result = _ from if_neg hsilent]
    refine ⟨rfl, fun h => absurd h hopen, fun _ => .inr ⟨_, _, _, mem_singleton_self _⟩,
      fun hignore => by simp [new, hignore], ?_⟩
    simp [Event.IsData]

theorem submitOpenEvent_quiet (env : Env) (ctx : SocketCtx) (conn : ConnInfo) :
    Quiet conn (submitOpenEvent env ctx conn).1 (submitOpenEvent env ctx conn).2 := by
  rw [submitOpenEvent]
  split
  · exact .refl conn
  next hopen =>
    split
    · exact ⟨rfl, fun h => absurd h hopen, .inl, fun _ => rfl, nofun⟩
    · exact report_quiet hopen _ _ _ _

theorem submitProtoEvent_noData (conn : ConnInfo) :
    ∀ event ∈ submitProtoEvent conn, ¬ event.IsData := by
  rw [submitProtoEvent]
  split_ifs <;> simp [Event.IsData]

theorem detectTls_quiet (memory : Memory) (info : BufInfo) (count : ℕ) (conn : ConnInfo) :
    Quiet conn (detectTls memory info count conn) [] := by
  rw [detectTls]
  split
  · exact .refl conn
  · split_ifs
    · exact ⟨rfl, fun hopen => ⟨hopen, rfl⟩, .inl, id, nofun⟩
    · exact .refl conn

/-- The events of a quiet program may be followed by others that carry no data. -/
theorem Quiet.append {old new : ConnInfo} {events : List Event} (hquiet : Quiet old new events)
    {more : List Event} (hmore : ∀ event ∈ more, ¬ event.IsData) : Quiet old new (events ++ more) :=
  hquiet.trans ⟨rfl, fun hopen => ⟨hopen, rfl⟩, .inl, id, hmore⟩

theorem Quiet.upgrade {old new : ConnInfo} {events : List Event} (hquiet : Quiet old new events)
    (pending : Bool) : Quiet old { new with tlsUpgradePending := pending } events := by
  rw [← append_nil events]
  exact hquiet.trans ⟨rfl, fun hopen => ⟨hopen, rfl⟩, .inl, id, nofun⟩

theorem initConn_quiet (env : Env) (ctx : SocketCtx) (direction : Direction) (args : DataArgs)
    (bytes : ℕ) (conn : ConnInfo) :
    Quiet conn (initConn env ctx direction args bytes conn).1
      (initConn env ctx direction args bytes conn).2 := by
  rw [initConn]
  by_cases hignore : hasStrategy env ctx.id.pid .ignore
  · rw [if_pos hignore]
    exact ⟨rfl, fun hopen => ⟨hopen, rfl⟩, .inl, fun _ => rfl, nofun⟩
  · generalize hresult : (if conn.cookie = 0 ∧
        (env.pidFdToSock ctx.id).any (fun sock => 0 < sock.cookie) then
      submitOpenEvent env ctx conn else (conn, [])) = result
    obtain ⟨new, opened⟩ := result
    have hopened : Quiet conn new opened := by
      split_ifs at hresult
      · have hquiet := submitOpenEvent_quiet env ctx conn
        rwa [hresult] at hquiet
      · obtain ⟨rfl, rfl⟩ := Prod.mk.inj hresult
        exact .refl conn
    dsimp only
    have htls := hopened.trans (detectTls_quiet env.memory args.bufInfo bytes new)
    rw [append_nil] at htls
    split_ifs
    · exact (htls.upgrade _).append (submitProtoEvent_noData _)
    · exact (htls.upgrade _).append (forall_mem_nil _)
    · refine (((htls.upgrade _).append (submitProtoEvent_noData _)).append ?_).append ?_ <;>
        simp [Event.IsData]
    · refine (((htls.upgrade _).append (forall_mem_nil _)).append ?_).append ?_ <;>
        simp [Event.IsData]
    · exact hopened

theorem submitCloseEvent_quiet (conn : ConnInfo) : Quiet conn conn (submitCloseEvent conn) := by
  have hnoData : ∀ event ∈ submitCloseEvent conn, ¬ event.IsData := by
    rw [submitCloseEvent]
    split_ifs <;> simp [Event.IsData]
  exact (Quiet.refl conn).append hnoData

/-- The first part of `process_data`: only an open connection that is not ignored gets to
the second part, and a protocol that is known stays. -/
structure Begun (old new : ConnInfo) (findings : Option Findings) : Prop where
  isOpen : new.isOpen = old.isOpen
  cookie : new.cookie = old.cookie
  known : old.protocol ≠ .unknown → new.protocol = old.protocol
  ignore : old.ignore = true → new.ignore = true
  found : ∀ found, findings = some found →
    old.isOpen = true ∧ old.ignore = false ∧ found.wasUnknown = decide (old.protocol = .unknown)
  silent : findings = none → old.isOpen = true →
    new.protocol = old.protocol ∨ new.ignore = true

theorem tracking_eq {conn : ConnInfo} {ssl : Bool} {direction : Direction} {bytes : ℕ} :
    ∃ wrBytes rdBytes, (if ssl then conn else updateBandwidthTracking conn direction bytes) =
      { conn with wrBytes := wrBytes, rdBytes := rdBytes } := by
  split_ifs
  · exact ⟨_, _, rfl⟩
  · cases direction <;> exact ⟨_, _, rfl⟩

theorem beginData_begun (env : Env) (call : DataCall) (conn : ConnInfo) :
    Begun conn (beginData env call conn).1 (beginData env call conn).2 := by
  rw [beginData]
  by_cases hopen : conn.isOpen = true
  · rw [if_neg (by simp [hopen])]
    obtain ⟨_, _, htracked⟩ :=
      tracking_eq
    rw [htracked]
    dsimp only
    split_ifs with hignore _ _ _ hunknown
    · exact ⟨rfl, rfl, fun _ => rfl, id, nofun, fun _ _ => .inl rfl⟩
    · exact ⟨rfl, rfl, fun _ => rfl, fun _ => rfl, nofun, fun _ _ => .inr rfl⟩
    · exact ⟨rfl, rfl, fun _ => rfl, id, nofun, fun _ _ => .inl rfl⟩
    · exact ⟨rfl, rfl, fun _ => rfl, id, nofun, fun _ _ => .inl rfl⟩
    · exact ⟨rfl, rfl, fun h => absurd (of_decide_eq_true hunknown) h, fun _ => rfl, nofun,
        fun _ _ => .inr rfl⟩
    · exact ⟨rfl, rfl, fun h => absurd (of_decide_eq_true hunknown) h, id,
        fun _ hfound => ⟨hopen, eq_false_of_ne_true hignore, (Option.some.inj hfound) ▸ rfl⟩, nofun⟩
    · exact ⟨rfl, rfl, fun _ => rfl, fun _ => rfl, nofun, fun _ _ => .inr rfl⟩
    · exact ⟨rfl, rfl, fun _ => rfl, id,
        fun _ hfound => ⟨hopen, eq_false_of_ne_true hignore, (Option.some.inj hfound) ▸ rfl⟩, nofun⟩
  · rw [if_pos (by simp [hopen])]
    split_ifs with hunknown
    · exact ⟨rfl, rfl, fun h => absurd hunknown h, id, nofun, fun _ h => absurd h hopen⟩
    · exact ⟨rfl, rfl, fun _ => rfl, id, nofun, fun _ _ => .inl rfl⟩

/-- An event with data of the connection. -/
def Event.CarriesData (cookie : ℕ) : Event → Prop
  | .data _ other _ _ _ => other = cookie
  | _ => False

theorem submitBuffer_carriesData (memory : Memory) (direction : Direction) (buf size : ℕ)
    (conn : ConnInfo) :
    ∀ event ∈ submitBuffer memory direction buf size conn, event.CarriesData conn.cookie :=
  forall_mem_map.2 fun _ _ => rfl

theorem submitIovecs_carriesData (memory : Memory) (direction : Direction) (args : DataArgs)
    (bytes : ℕ) (conn : ConnInfo) (rounds i bytesSent : ℕ) :
    ∀ event ∈ submitIovecs memory direction args bytes conn rounds i bytesSent,
      event.CarriesData conn.cookie := by
  induction rounds generalizing i bytesSent with
  | zero => nofun
  | succ rounds ih =>
    rw [submitIovecs]
    split_ifs
    · exact forall_mem_append.2 ⟨submitBuffer_carriesData _ _ _ _ _, ih _ _⟩
    · nofun

theorem submitData_carriesData (memory : Memory) (direction : Direction) (args : DataArgs)
    (bytes : ℕ) (conn : ConnInfo) :
    ∀ event ∈ submitData memory direction args bytes conn, event.CarriesData conn.cookie := by
  rw [submitData]
  split_ifs
  · exact submitIovecs_carriesData _ _ _ _ _ _ _ _
  · exact submitBuffer_carriesData _ _ _ _ _

theorem announce_noData (findings : Findings) (conn : ConnInfo) :
    ∀ event ∈ announce findings conn, ¬ event.IsData := by
  refine forall_mem_append.2 ⟨?_, ?_⟩ <;> split_ifs
  · exact submitProtoEvent_noData conn
  · nofun
  · exact submitProtoEvent_noData conn
  · nofun

/-- The second part of `process_data`: protocol events, then data where the protocol is
known. -/
structure Finished (findings : Findings) (old new : ConnInfo) (events : List Event) : Prop where
  isOpen : new.isOpen = old.isOpen
  cookie : new.cookie = old.cookie
  protocol : new.protocol = old.protocol
  ignore : old.ignore = true → new.ignore = true
  events : ∃ datas, events = announce findings old ++ datas ∧
    ∀ event ∈ datas, event.CarriesData old.cookie ∧ old.protocol ≠ .unknown

theorem finishData_finished (env : Env) (call : DataCall) (findings : Findings) (conn : ConnInfo) :
    Finished findings conn (finishData env call findings conn).1
      (finishData env call findings conn).2 := by
  rw [finishData]
  split_ifs with hunknown
  · exact ⟨rfl, rfl, rfl, id, [], (append_nil _).symm, nofun⟩
  · exact ⟨rfl, rfl, rfl, id, _, rfl, fun event hevent =>
      ⟨submitData_carriesData _ _ _ _ _ event hevent, hunknown⟩⟩
  · exact ⟨rfl, rfl, rfl, fun _ => rfl, [], (append_nil _).symm, nofun⟩

end Qtap.Bpf
