import Qtap.Bpf.Run
import Qtap.Bpf.Summary

/-!
# Open and protocol events come before data

User space builds the processor of a connection from its open and its protocol event, so
data must not be submitted before them.  This holds as long as no protocol is recognised
on a connection whose open event is still missing, since that protocol is never announced,
and as long as no data hook overtakes the one that has just recognised the protocol.
-/

namespace Qtap.Bpf

open Option List Qtap.Core

/-! ## The rule -/

def Opened (log : List Entry) (cookie : ℕ) : Prop :=
  ∃ entry ∈ log, ∃ connPidId remote isRedirected,
    entry.event = .opened connPidId cookie remote isRedirected

def Announced (log : List Entry) (cookie : ℕ) (protocol : Protocol) : Prop :=
  ∃ entry ∈ log, ∃ connPidId isSsl, entry.event = .proto connPidId cookie protocol isSsl

/-- Data for a cookie comes after its open event and after a protocol event with the
protocol recorded for the connection. -/
def DataRule (before : List Entry) (entry : Entry) : Prop :=
  match entry.event with
  | .data _ cookie _ _ _ => Opened before cookie ∧ Announced before cookie entry.recorded
  | _ => True

/-- The task of a data hook that found the protocol of the record unknown. -/
def Task.Announces (ref : ℕ) : Task → Prop
  | .opening _ => False
  | .submitting _ other findings => other = ref ∧ findings.wasUnknown = true

/-- A data hook recognises no protocol on a connection that is not open yet, and does not
go on to submit its data while the hook that recognised the protocol is yet to do so. -/
def Orderly (kernel : Kernel) : Action → Prop
  | .data env call =>
    hasData call.args call.bytes = true → ∀ ref conn,
      kernel.connInfoMap call.ctx.id = some ref → kernel.records[ref]? = some conn →
        conn.isOpen = false → conn.protocol = .unknown →
          detectedProtocol env.memory call.args.bufInfo call.bytes conn = .unknown
  | .resume _ index =>
    ∀ call ref findings, kernel.tasks[index]? = some (.submitting call ref findings) →
      findings.wasUnknown = false → ∀ task ∈ kernel.tasks, ¬ task.Announces ref
  | _ => True

variable {log more : List Entry} {cookie ref index : ℕ} {kernel : Kernel} {events : List Event}
  {recorded : Protocol}

theorem Opened.append (hopened : Opened log cookie) : Opened (log ++ more) cookie := by
  obtain ⟨entry, hentry, hevent⟩ := hopened
  exact ⟨entry, mem_append_left _ hentry, hevent⟩

theorem Announced.append {protocol : Protocol} (hannounced : Announced log cookie protocol) :
    Announced (log ++ more) cookie protocol := by
  obtain ⟨entry, hentry, hevent⟩ := hannounced
  exact ⟨entry, mem_append_left _ hentry, hevent⟩

theorem DataRule.append {entry : Entry} (hrule : DataRule log entry) :
    DataRule (log ++ more) entry := by
  rw [DataRule] at hrule ⊢
  cases hevent : entry.event with
  | data =>
    rw [hevent] at hrule
    exact ⟨hrule.1.append, hrule.2.append⟩
  | _ => trivial

/-! ## What holds between the steps -/

/-- The protocol of the record is announced, or a hook is about to do so. -/
def Covered (log : List Entry) (tasks : List Task) (ref : ℕ) (conn : ConnInfo) : Prop :=
  Announced log conn.cookie conn.protocol ∨ ∃ task ∈ tasks, task.Announces ref

structure RecordInOrder (log : List Entry) (tasks : List Task) (ref : ℕ) (conn : ConnInfo) :
    Prop where
  opened : conn.isOpen = true → Opened log conn.cookie
  isOpen : conn.protocol ≠ .unknown → conn.isOpen = true
  covered : conn.protocol ≠ .unknown → conn.ignore = true ∨ Covered log tasks ref conn

def TaskInOrder (kernel : Kernel) : Task → Prop
  | .opening _ => True
  | .submitting _ ref findings =>
    ∃ conn, kernel.records[ref]? = some conn ∧ conn.isOpen = true ∧
      (findings.wasUnknown = false →
        conn.protocol ≠ .unknown ∧ Covered kernel.log kernel.tasks ref conn)

structure InOrder (kernel : Kernel) : Prop where
  records : ∀ ref conn, kernel.records[ref]? = some conn →
    RecordInOrder kernel.log kernel.tasks ref conn
  tasks : ∀ task ∈ kernel.tasks, TaskInOrder kernel task
  rule : Keeps DataRule kernel.log

/-- A step that replaces one record. -/
theorem InOrder.replace {next : Kernel} (horder : InOrder kernel) {old new : ConnInfo}
    (hold : kernel.records[ref]? = some old) (hrecords : next.records = kernel.records.set ref new)
    (hopened : ∀ cookie, Opened kernel.log cookie → Opened next.log cookie)
    (hcovered : ∀ other conn, other ≠ ref → Covered kernel.log kernel.tasks other conn →
      Covered next.log next.tasks other conn)
    (hcoveredRef : old.protocol ≠ .unknown → Covered kernel.log kernel.tasks ref old →
      Covered next.log next.tasks ref new) (hnew : RecordInOrder next.log next.tasks ref new)
    (hisOpen : old.isOpen = true → new.isOpen = true)
    (hknown : old.protocol ≠ .unknown → new.protocol ≠ .unknown)
    (htasks : ∀ task ∈ next.tasks, task ∈ kernel.tasks ∨ TaskInOrder next task)
    (hrule : Keeps DataRule next.log) : InOrder next := by
  have hlength : ref < kernel.records.length := (List.getElem?_eq_some_iff.1 hold).1
  have hself : next.records[ref]? = some new := by
    rw [hrecords, List.getElem?_set_self hlength]
  have hother : ∀ other, other ≠ ref → next.records[other]? = kernel.records[other]? := by
    intro other hne
    rw [hrecords, List.getElem?_set_ne hne.symm]
  refine ⟨?_, ?_, hrule⟩
  · intro other conn hconn
    by_cases hne : other = ref
    · subst hne
      rw [hself, some.injEq] at hconn
      exact hconn ▸ hnew
    · rw [hother other hne] at hconn
      have hrecord := horder.records other conn hconn
      exact ⟨fun hopen => hopened _ (hrecord.opened hopen), hrecord.isOpen,
        fun hprotocol => (hrecord.covered hprotocol).imp_right (hcovered other conn hne)⟩
  · intro task htask
    rcases htasks task htask with htask | htask
    · cases task with
      | opening => trivial
      | submitting call other =>
        obtain ⟨conn, hconn, hopen, hunannounced⟩ := horder.tasks _ htask
        by_cases hne : other = ref
        · subst hne
          rw [hold, some.injEq] at hconn
          subst hconn
          refine ⟨new, hself, hisOpen hopen, fun hwas => ?_⟩
          obtain ⟨hprotocol, hcover⟩ := hunannounced hwas
          exact ⟨hknown hprotocol, hcoveredRef hprotocol hcover⟩
        · refine ⟨conn, (hother other hne).trans hconn, hopen, fun hwas => ?_⟩
          obtain ⟨hprotocol, hcover⟩ := hunannounced hwas
          exact ⟨hprotocol, hcovered other conn hne hcover⟩
    · exact htask

/-! ## Steps -/

theorem mem_eraseIdx_of_ne {tasks : List Task} {done task : Task}
    (hdone : tasks[index]? = some done) (htask : task ∈ tasks) (hne : task ≠ done) :
    task ∈ tasks.eraseIdx index := by
  obtain ⟨i, hi⟩ := mem_iff_getElem?.1 htask
  refine mem_eraseIdx_iff_getElem?.2 ⟨i, ?_, hi⟩
  rintro rfl
  exact hne (some.inj (hi.symm.trans hdone))

theorem Covered.mono {tasks later : List Task} {conn : ConnInfo}
    (hcovered : Covered log tasks ref conn)
    (htasks : ∀ task ∈ tasks, task.Announces ref → task ∈ later) :
    Covered (log ++ more) later ref conn :=
  hcovered.imp Announced.append fun ⟨task, htask, hannounces⟩ =>
    ⟨task, htasks task htask hannounces, hannounces⟩

/-- The entries of the log for the events of a program. -/
def entries (events : List Event) (recorded : Protocol) : List Entry :=
  events.map fun event => ⟨event, recorded⟩

theorem keeps_entries_of_noData (hlog : Keeps DataRule log)
    (hevents : ∀ event ∈ events, ¬ event.IsData) (recorded : Protocol) :
    Keeps DataRule (log ++ entries events recorded) := by
  apply hlog.append DataRule.append
  intro entry hentry
  obtain ⟨event, hevent, rfl⟩ := mem_map.1 hentry
  have hnoData := hevents event hevent
  cases event with
  | data => exact absurd trivial hnoData
  | _ => trivial

theorem keeps_entries_of_carriesData (hlog : Keeps DataRule log)
    (hevents : ∀ event ∈ events, event.CarriesData cookie)
    (hready : events ≠ [] → Opened log cookie ∧ Announced log cookie recorded) :
    Keeps DataRule (log ++ entries events recorded) := by
  apply hlog.append DataRule.append
  intro entry hentry
  obtain ⟨event, hevent, rfl⟩ := mem_map.1 hentry
  have hcarries := hevents event hevent
  cases event with
  | data =>
    cases hcarries
    exact hready (ne_nil_of_mem hevent)
  | _ => trivial

section

variable (horder : InOrder kernel)

include horder

theorem InOrder.update_quiet (ref : ℕ) {program : ConnInfo → ConnInfo × List Event}
    (hprogram : ∀ conn, Quiet conn (program conn).1 (program conn).2) :
    InOrder (kernel.update ref program) := by
  rw [Kernel.update]
  cases hold : kernel.records[ref]? with
  | none => exact horder
  | some old =>
    have hrecord := horder.records ref old hold
    have hquiet := hprogram old
    have hcoveredRef : old.protocol ≠ .unknown → Covered kernel.log kernel.tasks ref old →
        Covered (kernel.log ++ entries (program old).2 (program old).1.protocol) kernel.tasks ref
          (program old).1 := by
      intro hprotocol hcovered
      rw [Covered, hquiet.protocol, (hquiet.stable (hrecord.isOpen hprotocol)).2]
      exact hcovered.mono fun _ htask _ => htask
    apply horder.replace hold rfl (fun _ hopened => hopened.append)
      (fun _ _ _ hcovered => hcovered.mono fun _ htask _ => htask) hcoveredRef
    · constructor
      · intro hopen
        rcases hquiet.opened hopen with hopen | ⟨connPidId, remote, isRedirected, hevent⟩
        · rw [(hquiet.stable hopen).2]
          exact (hrecord.opened hopen).append
        · exact ⟨_, mem_append_right _ (mem_map_of_mem hevent), _, _, _, rfl⟩
      · rw [hquiet.protocol]
        exact fun hprotocol => (hquiet.stable (hrecord.isOpen hprotocol)).1
      · intro hprotocol
        rw [hquiet.protocol] at hprotocol
        exact (hrecord.covered hprotocol).imp hquiet.ignore (hcoveredRef hprotocol)
    · exact fun hopen => (hquiet.stable hopen).1
    · rw [hquiet.protocol]
      exact id
    · exact fun task htask => .inl htask
    · exact keeps_entries_of_noData horder.rule hquiet.noData _

theorem InOrder.lookup_quiet (id : PidFd) {program : ConnInfo → ConnInfo × List Event}
    (hprogram : ∀ conn, Quiet conn (program conn).1 (program conn).2) :
    InOrder (kernel.lookup id program) := by
  rw [Kernel.lookup]
  split
  · exact horder
  · exact horder.update_quiet _ hprogram

theorem InOrder.processSyscallAddr (env : Env) (ctx : SocketCtx) (address : ℕ)
    (function : ConnectionType) : InOrder (kernel.processSyscallAddr env ctx address function) := by
  have hcovered : ∀ ref conn, Covered kernel.log kernel.tasks ref conn →
      Covered kernel.log (kernel.tasks ++ [.opening ctx]) ref conn := by
    intro ref conn hcovered
    rw [← append_nil kernel.log]
    exact hcovered.mono fun task htask _ => mem_append_left _ htask
  refine ⟨?_, ?_, horder.rule⟩
  · intro ref conn hconn
    have hconn : (kernel.records ++ [newConnInfo env ctx address function])[ref]? = some conn :=
      hconn
    by_cases hlength : ref < kernel.records.length
    · rw [List.getElem?_append_left hlength] at hconn
      have hrecord := horder.records ref conn hconn
      exact ⟨hrecord.opened, hrecord.isOpen,
        fun hprotocol => (hrecord.covered hprotocol).imp_right (hcovered ref conn)⟩
    · rw [List.getElem?_append_right (not_lt.1 hlength)] at hconn
      obtain rfl := mem_singleton.1 (mem_of_getElem? hconn)
      exact ⟨nofun, fun hprotocol => absurd rfl hprotocol, fun hprotocol => absurd rfl hprotocol⟩
  · intro task htask
    rcases mem_append.1 htask with htask | htask
    · cases task with
      | opening => trivial
      | submitting call ref =>
        obtain ⟨conn, hconn, hopen, hwas⟩ := horder.tasks _ htask
        refine ⟨conn, ?_, hopen, fun h => (hwas h).imp_right (hcovered ref conn)⟩
        exact (List.getElem?_append_left (List.getElem?_eq_some_iff.1 hconn).1).trans hconn
    · rw [mem_singleton.1 htask]
      trivial

theorem InOrder.finish (env : Env) {call : DataCall} {findings : Findings}
    (htask : kernel.tasks[index]? = some (.submitting call ref findings))
    (horderly : findings.wasUnknown = false → ∀ task ∈ kernel.tasks, ¬ task.Announces ref) :
    InOrder ({ kernel with tasks := kernel.tasks.eraseIdx index }.update ref
      (finishData env call findings)) := by
  obtain ⟨conn, hconn, hopen, hwas⟩ := horder.tasks _ (mem_of_getElem? htask)
  have hfinished := finishData_finished env call findings conn
  obtain ⟨datas, hevents, hdatas⟩ := hfinished.events
  have hannounced : conn.protocol ≠ .unknown → ∀ recorded,
      Announced (kernel.log ++ entries (announce findings conn) recorded) conn.cookie
        conn.protocol := by
    intro hprotocol recorded
    cases hunknown : findings.wasUnknown with
    | false =>
      rcases (hwas hunknown).2 with hannounced | ⟨task, htask, hannounces⟩
      · exact hannounced.append
      · exact absurd hannounces (horderly hunknown task htask)
    | true =>
      have hevent : .proto conn.connPidId conn.cookie conn.protocol conn.isSsl ∈
          announce findings conn := by
        rw [announce, if_pos hunknown, submitProtoEvent, if_neg hprotocol]
        exact mem_append_left _ (mem_singleton_self _)
      exact ⟨_, mem_append_right _ (mem_map_of_mem hevent), _, _, rfl⟩
  rw [Kernel.update]
  simp only [hconn]
  rw [hfinished.protocol, hevents]
  have hlog : kernel.log ++ (announce findings conn ++ datas).map
      (fun event => (⟨event, conn.protocol⟩ : Entry)) =
      kernel.log ++ entries (announce findings conn) conn.protocol ++
        entries datas conn.protocol := by
    rw [append_assoc, entries, entries, ← map_append]
  rw [hlog]
  have hcover : conn.protocol ≠ .unknown → ∀ tasks,
      Covered (kernel.log ++ entries (announce findings conn) conn.protocol ++
        entries datas conn.protocol) tasks ref (finishData env call findings conn).1 := by
    intro hprotocol tasks
    rw [Covered, hfinished.cookie, hfinished.protocol]
    exact .inl (hannounced hprotocol conn.protocol).append
  apply horder.replace hconn rfl (fun _ hopened => hopened.append.append)
  · intro other record hne hcovered
    rw [append_assoc]
    apply hcovered.mono
    intro task hmem hannounces
    apply mem_eraseIdx_of_ne htask hmem
    rintro rfl
    exact hne hannounces.1.symm
  · exact fun hprotocol _ => hcover hprotocol _
  · constructor
    · rw [hfinished.cookie]
      exact fun _ => ((horder.records ref conn hconn).opened hopen).append.append
    · rw [hfinished.isOpen]
      exact fun _ => hopen
    · rw [hfinished.protocol]
      exact fun hprotocol => .inr (hcover hprotocol _)
  · rw [hfinished.isOpen]
    exact id
  · rw [hfinished.protocol]
    exact id
  · exact fun task hmem => .inl (mem_of_mem_eraseIdx hmem)
  · apply keeps_entries_of_carriesData
      (keeps_entries_of_noData horder.rule (announce_noData findings conn) _)
      (fun event hevent => (hdatas event hevent).1)
    intro hne
    obtain ⟨event, hevent⟩ := exists_mem_of_ne_nil _ hne
    exact ⟨((horder.records ref conn hconn).opened hopen).append,
      hannounced (hdatas event hevent).2 _⟩

end

theorem beginData_protocol_of_not_open (env : Env) (call : DataCall) {conn : ConnInfo}
    (hopen : conn.isOpen = false) (hunknown : conn.protocol = .unknown) :
    (beginData env call conn).1.protocol =
      detectedProtocol env.memory call.args.bufInfo call.bytes conn := by
  rw [beginData, if_pos (by rw [hopen, Bool.not_false]), if_pos hunknown]
  rfl

theorem InOrder.begin (horder : InOrder kernel) (call : DataCall) {old new : ConnInfo}
    {findings : Option Findings} (hold : kernel.records[ref]? = some old)
    (hbegun : Begun old new findings) (hopen : new.protocol ≠ .unknown → old.isOpen = true) :
    InOrder { kernel with
      records := kernel.records.set ref new
      tasks := kernel.tasks ++ (findings.map (Task.submitting call ref)).toList } := by
  have hrecord := horder.records ref old hold
  have hmono : ∀ other conn, Covered kernel.log kernel.tasks other conn →
      Covered kernel.log (kernel.tasks ++ (findings.map (Task.submitting call ref)).toList)
        other conn := by
    intro other conn hcovered
    rw [← append_nil kernel.log]
    exact hcovered.mono fun task htask _ => mem_append_left _ htask
  have hcoveredRef : old.protocol ≠ .unknown → Covered kernel.log kernel.tasks ref old →
      Covered kernel.log (kernel.tasks ++ (findings.map (Task.submitting call ref)).toList)
        ref new := by
    intro hprotocol hcovered
    rw [Covered, hbegun.known hprotocol, hbegun.cookie]
    exact hmono ref old hcovered
  -- a hook with findings announces the protocol itself or has found it known
  have hfound : ∀ found, findings = some found →
      (found.wasUnknown = false → new.protocol ≠ .unknown) ∧
        Covered kernel.log (kernel.tasks ++ (findings.map (Task.submitting call ref)).toList)
          ref new := by
    rintro found rfl
    obtain ⟨_, hignore, hwas⟩ := hbegun.found found rfl
    by_cases hunknown : old.protocol = .unknown
    · rw [decide_eq_true hunknown] at hwas
      refine ⟨fun hfalse => absurd (hwas.symm.trans hfalse) Bool.noConfusion, .inr ?_⟩
      exact ⟨_, mem_append_right _ (mem_singleton_self _), rfl, hwas⟩
    · refine ⟨fun _ => (hbegun.known hunknown).trans_ne hunknown, hcoveredRef hunknown ?_⟩
      exact (hrecord.covered hunknown).resolve_left (ne_true_of_eq_false hignore)
  refine horder.replace hold rfl (fun _ => id) (fun other conn _ => hmono other conn) hcoveredRef
    ⟨?_, ?_, ?_⟩ ?_ ?_ ?_ horder.rule
  · rw [hbegun.isOpen, hbegun.cookie]
    exact hrecord.opened
  · rw [hbegun.isOpen]
    exact hopen
  · intro hprotocol
    cases hfindings : findings with
    | none =>
      rw [← hfindings]
      rcases hbegun.silent hfindings (hopen hprotocol) with hsame | hignore
      · rw [hsame] at hprotocol
        exact (hrecord.covered hprotocol).imp hbegun.ignore (hcoveredRef hprotocol)
      · exact .inl hignore
    | some found =>
      rw [← hfindings]
      exact .inr (hfound found hfindings).2
  · rw [hbegun.isOpen]
    exact id
  · intro hprotocol
    rwa [hbegun.known hprotocol]
  · intro task htask
    rcases mem_append.1 htask with htask | htask
    · exact .inl htask
    · cases hfindings : findings with
      | none =>
        rw [hfindings] at htask
        cases htask
      | some found =>
        have hlength : ref < kernel.records.length := (List.getElem?_eq_some_iff.1 hold).1
        obtain ⟨hknown, hcovered⟩ := hfound found hfindings
        rw [hfindings] at htask hcovered
        obtain rfl := mem_singleton.1 htask
        refine .inr ⟨new, List.getElem?_set_self hlength, ?_, fun hwas => ⟨hknown hwas, hcovered⟩⟩
        rw [hbegun.isOpen]
        exact (hbegun.found found hfindings).1

theorem InOrder.processData (horder : InOrder kernel) {env : Env} {call : DataCall}
    (horderly : Orderly kernel (.data env call)) : InOrder (kernel.processData env call) := by
  rw [Kernel.processData]
  split_ifs with hdata
  · cases href : kernel.connInfoMap call.ctx.id with
    | none => exact horder
    | some ref =>
      cases hconn : kernel.records[ref]? with
      | none => simpa only [hconn] using horder
      | some conn =>
        simp only [hconn]
        apply horder.begin call hconn (beginData_begun env call conn)
        intro hprotocol
        by_contra hclosed
        have hfalse := eq_false_of_ne_true hclosed
        have hunknown : conn.protocol = .unknown := by
          by_contra hknown
          exact hclosed ((horder.records ref conn hconn).isOpen hknown)
        rw [beginData_protocol_of_not_open env call hfalse hunknown] at hprotocol
        exact hprotocol (horderly hdata ref conn href hconn hfalse hunknown)
  · exact horder

theorem InOrder.erase_opening (horder : InOrder kernel) {ctx : SocketCtx}
    (htask : kernel.tasks[index]? = some (.opening ctx)) :
    InOrder { kernel with tasks := kernel.tasks.eraseIdx index } := by
  have hcovered : ∀ ref conn, Covered kernel.log kernel.tasks ref conn →
      Covered kernel.log (kernel.tasks.eraseIdx index) ref conn := by
    intro ref conn hcovered
    rw [← append_nil kernel.log]
    exact hcovered.mono fun task hmem hannounces => mem_eraseIdx_of_ne htask hmem (by
      rintro rfl
      exact hannounces)
  refine ⟨?_, ?_, horder.rule⟩
  · intro ref conn hconn
    have hrecord := horder.records ref conn hconn
    exact ⟨hrecord.opened, hrecord.isOpen,
      fun hprotocol => (hrecord.covered hprotocol).imp_right (hcovered ref conn)⟩
  · intro task hmem
    have hbefore := horder.tasks task (mem_of_mem_eraseIdx hmem)
    cases task with
    | opening => trivial
    | submitting call ref =>
      obtain ⟨conn, hconn, hopen, hwas⟩ := hbefore
      exact ⟨conn, hconn, hopen, fun h => (hwas h).imp_right (hcovered ref conn)⟩

theorem InOrder.step {next : Kernel} {action : Action} (horderly : Orderly kernel action)
    (hnext : kernel.step action = some next) (horder : InOrder kernel) : InOrder next := by
  cases action with
  | connect env ctx address function =>
    cases hnext
    exact horder.processSyscallAddr env ctx address function
  | resume env =>
    obtain ⟨task, htask, rfl⟩ := map_eq_some_iff.1 hnext
    cases task with
    | opening ctx =>
      exact (horder.erase_opening htask).lookup_quiet ctx.id (submitOpenEvent_quiet env ctx)
    | submitting call ref findings =>
      exact horder.finish env htask (horderly call ref findings htask)
  | init env ctx direction args bytes =>
    cases hnext
    split_ifs
    · exact horder.lookup_quiet ctx.id (initConn_quiet env ctx direction args bytes)
    · exact horder
  | data =>
    cases hnext
    exact horder.processData horderly
  | close ctx =>
    cases hnext
    have hlookup : InOrder (kernel.lookup ctx.id fun conn => (conn, submitCloseEvent conn)) :=
      horder.lookup_quiet ctx.id submitCloseEvent_quiet
    exact ⟨hlookup.records, hlookup.tasks, hlookup.rule⟩

theorem InOrder.initial : InOrder Kernel.initial :=
  ⟨fun _ _ hconn => by simp [Kernel.initial] at hconn, nofun, Keeps.nil⟩

/-- In every run whose steps are orderly, every data event comes after the open event and
the protocol event of its connection. -/
theorem data_after_open_and_proto {actions : List Action} {kernel : Kernel}
    (hrun : runActions Kernel.step Kernel.initial actions = some kernel)
    (horderly : runActions.Throughout Kernel.step Orderly Kernel.initial actions) :
    Keeps DataRule kernel.log :=
  (runActions.invariant_of_throughout InOrder (fun _ _ _ => InOrder.step) hrun horderly
    InOrder.initial).rule

/-- A client of a web server whose buffer holds `GET / `. -/
def sampleEnv : Env :=
  { (default : Env) with
    memory := fun address => [0x47, 0x45, 0x54, 0x20, 0x2f, 0x20, 0x48][address - 4096]?
    direction := .all
    streamHttp := true
    pidFdToSock := fun _ =>
      some { cookie := 7, family := afInet, dport := 80, daddr := [9, 9, 9, 9], v6daddr := [] } }

def sampleCtx : SocketCtx where
  id := { pid := 100, fd := 3 }
  tgid := 100

def sampleCall : DataCall where
  ctx := sampleCtx
  direction := .egress
  args := { buf := 4096, iovcnt := 0 }
  bytes := 7
  ssl := false

/-- The connection is opened, and then a request is written. -/
def sampleRun : List Action :=
  [.connect sampleEnv sampleCtx 0 .client, .resume sampleEnv 0, .data sampleEnv sampleCall,
    .resume sampleEnv 0]

theorem sampleRun_orderly : runActions.Throughout Kernel.step Orderly Kernel.initial sampleRun := by
  refine .cons trivial rfl <| .cons ?_ rfl <| .cons ?_ rfl <| .cons ?_ rfl trivial
  · intro _ _ _ htask
    cases some.inj htask
  · intro _ ref conn href hconn hclosed
    cases href
    cases hconn
    exact absurd hclosed (by decide)
  · intro call ref findings htask hwas
    obtain ⟨rfl, rfl, rfl⟩ := Task.submitting.inj (some.inj htask)
    exact absurd hwas (by decide)

theorem data_after_open_and_proto_sample :
    ∃ kernel, runActions Kernel.step Kernel.initial sampleRun = some kernel ∧
      kernel.log.map Entry.recorded = [.unknown, .http1, .http1] ∧ Keeps DataRule kernel.log :=
  ⟨_, rfl, rfl, data_after_open_and_proto rfl sampleRun_orderly⟩

/-- The first request is written while the open event is yet to be submitted. -/
def earlyRun : List Action :=
  [.connect sampleEnv sampleCtx 0 .client, .data sampleEnv sampleCall, .resume sampleEnv 0,
    .data sampleEnv sampleCall, .resume sampleEnv 0]

/-- The hook of the second request overtakes that of the first. -/
def overtakingRun : List Action :=
  [.connect sampleEnv sampleCtx 0 .client, .resume sampleEnv 0, .data sampleEnv sampleCall,
    .data sampleEnv sampleCall, .resume sampleEnv 1]

def Entry.isProto (entry : Entry) : Bool :=
  match entry.event with
  | .proto _ _ _ _ => true
  | _ => false

def Entry.isData (entry : Entry) : Bool :=
  match entry.event with
  | .data _ _ _ _ _ => true
  | _ => false

/-- Data in a log without any protocol event breaks the rule. -/
theorem not_keeps_dataRule (hproto : log.all fun entry => !entry.isProto)
    (hdata : log.any Entry.isData) : ¬ Keeps DataRule log := by
  intro hkeeps
  obtain ⟨entry, hentry, hisData⟩ := any_eq_true.1 hdata
  obtain ⟨before, after, rfl⟩ := append_of_mem hentry
  have hrule := hkeeps before entry after rfl
  rw [DataRule] at hrule
  rw [Entry.isData] at hisData
  split at hisData
  · next hevent =>
      rw [hevent] at hrule
      obtain ⟨proto, hmem, _, _, hprotoEvent⟩ := hrule.2
      have hnot := all_eq_true.1 hproto proto (mem_append_left _ hmem)
      rw [Entry.isProto, hprotoEvent] at hnot
      cases hnot
  · cases hisData

/-- Data without a protocol event before it, in both runs. -/
theorem data_before_proto :
    (∃ kernel, runActions Kernel.step Kernel.initial earlyRun = some kernel ∧
      ¬ Keeps DataRule kernel.log) ∧
    ∃ kernel, runActions Kernel.step Kernel.initial overtakingRun = some kernel ∧
      ¬ Keeps DataRule kernel.log := by
  exact ⟨⟨_, rfl, not_keeps_dataRule rfl rfl⟩, ⟨_, rfl, not_keeps_dataRule rfl rfl⟩⟩

end Qtap.Bpf
