import Qtap.Core.Table
import Qtap.Bpf.OpenSsl

/-!
# Attribution of plaintext to file descriptors

Plaintext of an SSL object should be attributed only to file descriptors of that object.
The cache is keyed by the address of the object, over all processes, and `SSL_free` does
not reliably remove its entry.  So attribution is right as long as a new object gets an
address that has no entry and that no other process uses.
-/

namespace Qtap.Bpf.OpenSsl

open Maps List Function Qtap.Core

/-- A new object has an address that is new to the cache and to the other processes; a
thread does not read inside a read or write inside a write; an object is not freed while
a call on it runs; and the Node helper has no file descriptor to offer. -/
def Separate (state : State) : Action → Prop
  | .new object =>
    state.maps.sslToFdMap object.ssl = none ∧ ∀ pid, state.alive ⟨pid, object.ssl⟩ = false
  | .enter thread call _ _ => ∀ other ∈ state.calls thread, other.operation ≠ call.operation
  | .leave _ _ nodeFd _ => nodeFd ≤ 0
  | .free object _ =>
    ∀ thread : Thread, thread.pid = object.pid → ∀ call ∈ state.calls thread, call.ssl ≠ object.ssl
  | _ => True

/-! ## The probes at the return -/

/-- A file descriptor that the maps hold for the object or for the thread. -/
def Maps.Holds (maps : Maps) (thread : Thread) (ssl : ℕ) (fd : ℤ) : Prop :=
  0 < fd ∧ (maps.uprobeFdRequests thread = some fd ∨ maps.sslToFdMap ssl = some fd)

/-- The entries of the maps were there before. -/
structure Maps.Within (maps before : Maps) : Prop where
  requests : ∀ {thread fd}, maps.uprobeFdRequests thread = some fd →
    before.uprobeFdRequests thread = some fd
  cache : ∀ {ssl fd}, maps.sslToFdMap ssl = some fd → before.sslToFdMap ssl = some fd
  args : ∀ {operation thread args}, maps.activeSslArgs operation thread = some args →
    before.activeSslArgs operation thread = some args

theorem Maps.Within.refl (maps : Maps) : maps.Within maps := ⟨id, id, id⟩

variable {maps : Maps} {thread : Thread} {nodeFd : ℤ} {state : State} {object : Object}

theorem Maps.Within.trans {middle before : Maps} (hmaps : maps.Within middle)
    (hmiddle : middle.Within before) : maps.Within before :=
  ⟨hmiddle.requests ∘ hmaps.requests, hmiddle.cache ∘ hmaps.cache, hmiddle.args ∘ hmaps.args⟩

theorem Maps.setArgs_none_within {maps : Maps} {operation : Operation} {thread : Thread} :
    (maps.setArgs operation thread none).Within maps := by
  refine ⟨id, id, fun {other _ _} hargs => ?_⟩
  rw [setArgs] at hargs
  by_cases hother : other = operation
  · subst hother
    simp only [update_self] at hargs
    exact update_none_eq_some hargs
  · simpa only [update_of_ne hother] using hargs

theorem Maps.setArgs_of_ne (maps : Maps) (operation : Operation) (args : Option SslArgs)
    {other : Thread} (hother : other ≠ thread) {key : Operation} :
    (maps.setArgs operation thread args).activeSslArgs key other =
      maps.activeSslArgs key other := by
  rw [setArgs]
  by_cases hkey : key = operation
  · subst hkey
    simp [update_of_ne hother]
  · simp only [update_of_ne hkey]

theorem Maps.getFdFromSyscall_within (maps : Maps) (thread : Thread) :
    (maps.getFdFromSyscall thread).1.Within maps := by
  rw [getFdFromSyscall]
  split
  · exact .refl maps
  · exact ⟨update_none_eq_some, id, id⟩

theorem Maps.getFd_spec (maps : Maps) (hnode : nodeFd ≤ 0) (thread : Thread) (ssl : ℕ) :
    (maps.getFd nodeFd thread ssl).1.Within maps ∧
      (0 < (maps.getFd nodeFd thread ssl).2 →
        maps.Holds thread ssl (maps.getFd nodeFd thread ssl).2) := by
  have hwithin := maps.getFdFromSyscall_within thread
  have hrequest : 0 < (maps.getFdFromSyscall thread).2 →
      maps.uprobeFdRequests thread = some (maps.getFdFromSyscall thread).2 := by
    rw [getFdFromSyscall]
    split
    · exact fun hfd => absurd hfd (lt_irrefl 0)
    · next hrequest => exact fun _ => hrequest
  rw [getFd, if_neg (not_lt.2 hnode)]
  simp only
  split_ifs with hsyscall hcache
  · exact ⟨hwithin, fun hfd => ⟨hfd, .inl (hrequest hfd)⟩⟩
  · refine ⟨hwithin, fun hfd => ⟨hfd, .inr ?_⟩⟩
    rw [getFdFromCache] at hfd ⊢
    cases hentry : (maps.getFdFromSyscall thread).1.sslToFdMap ssl with
    | none =>
      rw [hentry] at hfd
      exact absurd hfd (lt_irrefl 0)
    | some => exact hwithin.cache hentry
  · exact ⟨hwithin, fun hfd => absurd hfd (lt_irrefl 0)⟩

/-- What a return probe leaves behind: it adds at most one entry to the cache, and that is
where it attributes the data. -/
structure Returned (before : Maps) (operation : Operation) (thread : Thread) (maps : Maps)
    (data : Option DataCall) : Prop where
  requests : ∀ {other fd}, maps.uprobeFdRequests other = some fd →
    before.uprobeFdRequests other = some fd
  args : ∀ {other key args}, maps.activeSslArgs other key = some args →
    before.activeSslArgs other key = some args
  cache : ∀ {ssl fd}, maps.sslToFdMap ssl = some fd → before.sslToFdMap ssl = some fd ∨
    ∃ args, before.activeSslArgs operation thread = some args ∧ args.ssl = ssl ∧
      before.Holds thread ssl fd
  data : ∀ {call}, data = some call → call.ctx.id.pid = thread.pid ∧
    ∃ args, before.activeSslArgs operation thread = some args ∧
      before.Holds thread args.ssl call.ctx.id.fd

theorem Returned.of_within {before : Maps} (hmaps : maps.Within before) (operation : Operation)
    (thread : Thread) : Returned before operation thread maps none :=
  ⟨hmaps.requests, hmaps.args, .inl ∘ hmaps.cache, nofun⟩

theorem Maps.process_returned {maps : Maps} {operation : Operation} {thread : Thread}
    (hnode : nodeFd ≤ 0) {args : SslArgs} (hargs : maps.activeSslArgs operation thread = some args)
    {bytes : ℤ} :
    Returned maps operation thread (maps.process operation thread nodeFd args bytes).1
      (maps.process operation thread nodeFd args bytes).2 := by
  obtain ⟨hwithin, hholds⟩ := maps.getFd_spec hnode thread args.ssl
  rw [process]
  split_ifs with hbytes
  · generalize maps.getFd nodeFd thread args.ssl = result at hwithin hholds
    obtain ⟨after, fd⟩ := result
    simp only
    split_ifs with hfd
    · exact .of_within (after.setArgs_none_within.trans hwithin) _ _
    · have hpositive : 0 < fd := lt_of_lt_of_le (by decide) (not_lt.1 hfd)
      have hfound := hholds hpositive
      refine ⟨hwithin.requests, ?_, ?_, ?_⟩
      · intro other key found hfound
        exact hwithin.args (after.setArgs_none_within.args hfound)
      · intro ssl found hentry
        rcases update_some_eq_some hentry with ⟨rfl, rfl⟩ | hentry
        · exact .inr ⟨args, hargs, rfl, hfound⟩
        · exact .inl (hwithin.cache hentry)
      · intro call hcall
        cases hcall
        exact ⟨rfl, args, hargs, hfound⟩
  · exact .of_within (maps.setArgs_none_within) _ _

theorem Maps.ret_returned (maps : Maps) (memory : Memory) (operation : Operation)
    (variant : Variant) (thread : Thread) (hnode : nodeFd ≤ 0) (returned : ℤ) :
    Returned maps operation thread (maps.ret memory operation variant thread nodeFd returned).1
      (maps.ret memory operation variant thread nodeFd returned).2 := by
  have hkeep := Returned.of_within (.refl maps) operation thread
  cases variant with
  | plain =>
    rw [ret, retSsl]
    split
    · exact hkeep
    · next hargs => exact maps.process_returned hnode hargs
  | ex =>
    cases operation with
    | read =>
      rw [ret, retSslReadEx]
      split_ifs
      · exact hkeep
      · split
        · exact hkeep
        · next hargs => exact maps.process_returned hnode hargs
    | write =>
      rw [ret, retSslWriteEx]
      split
      · exact hkeep
      · next hargs => exact maps.process_returned hnode hargs

/-! ## What holds between the steps -/

structure Isolated (state : State) : Prop where
  /-- An address belongs to one process. -/
  owner : ∀ {pid other ssl}, state.alive ⟨pid, ssl⟩ = true → state.alive ⟨other, ssl⟩ = true →
    pid = other
  cache : ∀ {object fd}, state.alive object = true → state.maps.sslToFdMap object.ssl = some fd →
    fd ∈ state.own object
  alive : ∀ {thread call}, call ∈ state.calls thread → state.alive ⟨thread.pid, call.ssl⟩ = true
  /-- A thread is in at most one read and one write. -/
  operations : ∀ thread, (state.calls thread).Pairwise fun call other =>
    call.operation ≠ other.operation
  args : ∀ {thread call args}, call ∈ state.calls thread →
    state.maps.activeSslArgs call.operation thread = some args → args.ssl = call.ssl
  requests : ∀ {thread call fd}, call ∈ state.calls thread →
    state.maps.uprobeFdRequests thread = some fd → fd = 0 ∨ fd ∈ state.own ⟨thread.pid, call.ssl⟩
  log : ∀ entry ∈ state.log, entry.data.ctx.id.pid = entry.object.pid ∧
    entry.data.ctx.id.fd ∈ entry.own

theorem Isolated.initial : Isolated State.initial :=
  ⟨nofun, nofun, nofun, fun _ => .nil, nofun, nofun, nofun⟩

section

variable (hstate : Isolated state)

include hstate

theorem Isolated.eq_of_alive {other : Object} (hobject : state.alive object = true)
    (hother : state.alive other = true) (hssl : object.ssl = other.ssl) : object = other := by
  obtain ⟨_, ssl⟩ := object
  obtain ⟨_, otherSsl⟩ := other
  obtain rfl : ssl = otherSsl := hssl
  rw [hstate.owner hobject hother]

/-- Entries that vanish from the maps do no harm. -/
theorem Isolated.within (hmaps : maps.Within state.maps) :
    Isolated { state with maps := maps } where
  owner := hstate.owner
  cache := fun halive hentry => hstate.cache halive (hmaps.cache hentry)
  alive := hstate.alive
  operations := hstate.operations
  args := fun hcall hargs => hstate.args hcall (hmaps.args hargs)
  requests := fun hcall hrequest => hstate.requests hcall (hmaps.requests hrequest)
  log := hstate.log

/-- File descriptors may be added to what belongs to the objects. -/
theorem Isolated.grow {own : Object → List ℤ}
    (hown : ∀ object fd, fd ∈ state.own object → fd ∈ own object) :
    Isolated { state with own := own } where
  owner := hstate.owner
  cache := fun halive hentry => hown _ _ (hstate.cache halive hentry)
  alive := hstate.alive
  operations := hstate.operations
  args := hstate.args
  requests := fun hcall hrequest => (hstate.requests hcall hrequest).imp_right (hown _ _)
  log := hstate.log

theorem Isolated.new (hentry : state.maps.sslToFdMap object.ssl = none)
    (halive : ∀ pid, state.alive ⟨pid, object.ssl⟩ = false) :
    Isolated { state with
      maps := state.maps.retSslNew object.ssl
      alive := update state.alive object true
      own := update state.own object [] } := by
  have hdead : state.alive object = false := halive object.pid
  have hother : ∀ {other : Object}, state.alive other = true → other ≠ object := by
    rintro other hlive rfl
    exact absurd hlive (ne_true_of_eq_false hdead)
  have halive_iff : ∀ {other : Object}, update state.alive object true other = true →
      other = object ∨ state.alive other = true := by
    intro other hlive
    by_cases hobject : other = object
    · exact .inl hobject
    · exact .inr (by rwa [update_of_ne hobject] at hlive)
  constructor
  · intro pid other ssl hpid hotherPid
    rcases halive_iff hpid with hnew | hlive <;>
      rcases halive_iff hotherPid with hotherNew | hotherLive
    · exact congrArg Object.pid (hnew.trans hotherNew.symm)
    · rw [← hnew] at halive
      exact absurd hotherLive (ne_true_of_eq_false (halive other))
    · rw [← hotherNew] at halive
      exact absurd hlive (ne_true_of_eq_false (halive pid))
    · exact hstate.owner hlive hotherLive
  · intro other fd hlive hcached
    rcases halive_iff hlive with rfl | hlive
    · exact absurd (hentry.symm.trans hcached) nofun
    · simp only [update_of_ne (hother hlive)]
      exact hstate.cache hlive hcached
  · intro thread call hcall
    have hlive := hstate.alive hcall
    simp only [update_of_ne (hother hlive)]
    exact hlive
  · exact hstate.operations
  · exact hstate.args
  · intro thread call fd hcall hrequest
    simp only [update_of_ne (hother (hstate.alive hcall))]
    exact hstate.requests hcall hrequest
  · exact hstate.log

theorem Isolated.setFd (halive : state.alive object = true) (fd : ℤ) :
    Isolated { state with
      maps := state.maps.entrySslSetFd object.ssl fd
      own := update state.own object (fd :: state.own object) } := by
  have hgrow : Isolated { state with
      own := update state.own object (fd :: state.own object) } := by
    apply hstate.grow
    intro other found hfound
    by_cases hobject : other = object
    · subst hobject
      rw [update_self]
      exact mem_cons_of_mem _ hfound
    · rwa [update_of_ne hobject]
  rw [entrySslSetFd]
  split_ifs
  · refine ⟨hgrow.owner, ?_, hgrow.alive, hgrow.operations, hgrow.args, hgrow.requests, hgrow.log⟩
    intro other found hlive hentry
    rcases update_some_eq_some hentry with ⟨hssl, rfl⟩ | hentry
    · obtain rfl := hstate.eq_of_alive hlive halive hssl
      simp only [update_self]
      exact mem_cons_self
    · exact hgrow.cache hlive hentry
  · exact hgrow

theorem Isolated.enter {call : Call} (halive : state.alive ⟨thread.pid, call.ssl⟩ = true)
    (hoperations : ∀ other ∈ state.calls thread, other.operation ≠ call.operation)
    (buf exBytes : ℕ) :
    Isolated { state with
      maps := state.maps.entry call.operation thread ⟨buf, call.ssl, exBytes⟩
      calls := update state.calls thread (call :: state.calls thread) } := by
  refine ⟨hstate.owner, hstate.cache, ?_, ?_, ?_, ?_, hstate.log⟩
  · intro other entered hentered
    by_cases hthread : other = thread
    · subst hthread
      simp only [update_self] at hentered
      rcases mem_cons.1 hentered with rfl | hentered
      · exact halive
      · exact hstate.alive hentered
    · simp only [update_of_ne hthread] at hentered
      exact hstate.alive hentered
  · intro other
    by_cases hthread : other = thread
    · subst hthread
      simp only [update_self]
      exact (hstate.operations other).cons fun entered hentered =>
        (hoperations entered hentered).symm
    · simp only [update_of_ne hthread]
      exact hstate.operations other
  · intro other entered args hentered hargs
    by_cases hthread : other = thread
    · subst hthread
      simp only [update_self] at hentered
      rcases mem_cons.1 hentered with rfl | hentered
      · simp only [entry, setArgs, update_self, Option.some.injEq] at hargs
        rw [← hargs]
      · simp only [entry, setArgs, requestFdFromSyscall,
          update_of_ne (hoperations entered hentered)] at hargs
        exact hstate.args hentered hargs
    · simp only [update_of_ne hthread] at hentered
      exact hstate.args hentered
        (((state.maps.requestFdFromSyscall thread).setArgs_of_ne _ _ hthread).symm.trans hargs)
  · intro other entered fd hentered hrequest
    by_cases hthread : other = thread
    · subst hthread
      simp only [entry, setArgs, requestFdFromSyscall, update_self, Option.some.injEq] at hrequest
      exact .inl hrequest.symm
    · simp only [update_of_ne hthread] at hentered
      simp only [entry, setArgs, requestFdFromSyscall, update_of_ne hthread] at hrequest
      exact hstate.requests hentered hrequest

theorem Isolated.syscall (thread : Thread) (fd : ℤ) (responds : Bool) :
    Isolated { state with
      maps := if responds then state.maps.respondToFdRequest thread fd else state.maps
      own := state.use thread fd } := by
  have hgrow : Isolated { state with own := state.use thread fd } := by
    apply hstate.grow
    intro object found hfound
    rw [State.use]
    split_ifs
    · exact mem_cons_of_mem _ hfound
    · exact hfound
  have hused : ∀ call ∈ state.calls thread, fd ∈ state.use thread fd ⟨thread.pid, call.ssl⟩ := by
    intro call hcall
    rw [State.use, if_pos ⟨rfl, call, hcall, rfl⟩]
    exact mem_cons_self
  split_ifs
  · rw [respondToFdRequest]
    split
    · exact hgrow
    · refine ⟨hgrow.owner, hgrow.cache, hgrow.alive, hgrow.operations, hgrow.args, ?_, hgrow.log⟩
      intro other call found hcall hrequest
      rcases update_some_eq_some hrequest with ⟨rfl, rfl⟩ | hrequest
      · exact .inr (hused call hcall)
      · exact hgrow.requests hcall hrequest
  · exact hgrow

theorem Isolated.free
    (hcalls : ∀ thread : Thread, thread.pid = object.pid → ∀ call ∈ state.calls thread,
      call.ssl ≠ object.ssl) :
    Isolated { state with alive := update state.alive object false } := by
  have hlive : ∀ {other : Object}, update state.alive object false other = true →
      state.alive other = true := by
    intro other halive
    by_cases hobject : other = object
    · rw [hobject, update_self] at halive
      cases halive
    · rwa [update_of_ne hobject] at halive
  refine ⟨?_, ?_, ?_, hstate.operations, hstate.args, hstate.requests, hstate.log⟩
  · exact fun hpid hother => hstate.owner (hlive hpid) (hlive hother)
  · exact fun halive => hstate.cache (hlive halive)
  · intro thread call hcall
    have hne : (⟨thread.pid, call.ssl⟩ : Object) ≠ object := by
      rintro rfl
      exact hcalls thread rfl call hcall rfl
    simp only [update_of_ne hne]
    exact hstate.alive hcall

theorem Isolated.ret {call : Call} {outer : List Call}
    (hcalls : state.calls thread = call :: outer) (memory : Memory) (hnode : nodeFd ≤ 0)
    (returned : ℤ) : Isolated (state.ret thread call outer memory nodeFd returned) := by
  have hreturned := state.maps.ret_returned memory call.operation call.variant thread hnode returned
  have hcall : call ∈ state.calls thread := by
    rw [hcalls]
    exact mem_cons_self
  -- what the maps hold for the call belongs to its object
  have hown : ∀ {args fd}, state.maps.activeSslArgs call.operation thread = some args →
      state.maps.Holds thread args.ssl fd → fd ∈ state.own ⟨thread.pid, call.ssl⟩ := by
    intro args fd hargs hholds
    rw [hstate.args hcall hargs] at hholds
    rcases hholds.2 with hrequest | hentry
    · exact (hstate.requests hcall hrequest).resolve_left hholds.1.ne'
    · exact hstate.cache (hstate.alive hcall) hentry
  have hinner : ∀ {other entered}, entered ∈ update state.calls thread outer other →
      entered ∈ state.calls other := by
    intro other entered hentered
    by_cases hthread : other = thread
    · subst hthread
      rw [update_self] at hentered
      rw [hcalls]
      exact mem_cons_of_mem _ hentered
    · rwa [update_of_ne hthread] at hentered
  rw [State.ret]
  refine ⟨hstate.owner, ?_, fun hentered => hstate.alive (hinner hentered), ?_,
    fun hentered hargs => hstate.args (hinner hentered) (hreturned.args hargs),
    fun hentered hrequest => hstate.requests (hinner hentered) (hreturned.requests hrequest), ?_⟩
  · intro object fd halive hentry
    rcases hreturned.cache hentry with hentry | ⟨args, hargs, hssl, hholds⟩
    · exact hstate.cache halive hentry
    · rw [← hssl] at hholds
      have hobject : object = ⟨thread.pid, call.ssl⟩ :=
        hstate.eq_of_alive halive (hstate.alive hcall) (hssl.symm.trans (hstate.args hcall hargs))
      rw [hobject]
      exact hown hargs hholds
  · intro other
    by_cases hthread : other = thread
    · subst hthread
      have hpairwise := hstate.operations other
      rw [hcalls] at hpairwise
      simp only [update_self]
      exact hpairwise.of_cons
    · simp only [update_of_ne hthread]
      exact hstate.operations other
  · intro entry hentry
    rcases mem_append.1 hentry with hentry | hentry
    · exact hstate.log entry hentry
    · obtain ⟨_, hfound, rfl⟩ := Option.map_eq_some_iff.1 (Option.mem_toList.1 hentry)
      obtain ⟨hpid, _, hargs, hholds⟩ := hreturned.data hfound
      exact ⟨hpid, hown hargs hholds⟩

end

theorem Isolated.step {next : State} {action : Action} (hseparate : Separate state action)
    (hnext : state.step action = some next) (hstate : Isolated state) : Isolated next := by
  cases action with
  | new =>
    rw [State.step] at hnext
    split_ifs at hnext
    cases hnext
    exact hstate.new hseparate.1 hseparate.2
  | setFd object fd =>
    rw [State.step] at hnext
    split_ifs at hnext with halive
    cases hnext
    exact hstate.setFd halive fd
  | enter thread call buf exBytes =>
    rw [State.step] at hnext
    split_ifs at hnext with halive
    cases hnext
    exact hstate.enter halive hseparate buf exBytes
  | syscall thread fd responds =>
    cases hnext
    exact hstate.syscall thread fd responds
  | leave thread memory nodeFd returned =>
    rw [State.step] at hnext
    split at hnext
    · cases hnext
    · next hcalls =>
        cases hnext
        exact hstate.ret hcalls memory hseparate returned
  | free =>
    rw [State.step] at hnext
    split_ifs at hnext
    cases hnext
    exact (hstate.free hseparate).within ⟨id, update_none_eq_some, id⟩
  | evictFd =>
    cases hnext
    exact hstate.within ⟨id, update_none_eq_some, id⟩
  | evictRequest =>
    cases hnext
    exact hstate.within ⟨update_none_eq_some, id, id⟩

/-- In every run whose steps keep the objects apart, plaintext is attributed only to a
file descriptor of its own object, in the process of the object. -/
theorem plaintext_attributed_to_own_fd {actions : List Action} {state : State}
    (hrun : runActions State.step State.initial actions = some state)
    (hseparate : runActions.Throughout State.step Separate State.initial actions) :
    ∀ entry ∈ state.log, entry.data.ctx.id.pid = entry.object.pid ∧
      entry.data.ctx.id.fd ∈ entry.own :=
  (runActions.invariant_of_throughout Isolated (fun _ _ _ => Isolated.step) hrun hseparate
    Isolated.initial).log

/-- A read that gets ten bytes and makes no system call. -/
def bufferedRead (thread : Thread) (ssl : ℕ) : List Action :=
  [.enter thread ⟨.read, .plain, ssl⟩ 0 0, .leave thread (fun _ => none) 0 10]

theorem plaintext_attributed_to_own_fd_setFd :
    ∃ state, runActions State.step State.initial
        (.new ⟨1, 64⟩ :: .setFd ⟨1, 64⟩ 5 :: bufferedRead ⟨1, 1⟩ 64) = some state ∧
      state.log.map (fun entry => entry.data.ctx.id) = [⟨1, 5⟩] ∧
      ∀ entry ∈ state.log, entry.data.ctx.id.pid = entry.object.pid ∧
        entry.data.ctx.id.fd ∈ entry.own := by
  refine ⟨_, rfl, rfl, plaintext_attributed_to_own_fd (rfl : runActions State.step _
    (.new ⟨1, 64⟩ :: .setFd ⟨1, 64⟩ 5 :: bufferedRead ⟨1, 1⟩ 64) = _) ?_⟩
  refine ⟨⟨rfl, fun _ => rfl⟩, fun _ hnext => ⟨trivial, fun _ hlater => ?_⟩⟩
  cases hnext
  cases hlater
  refine ⟨nofun, fun _ hnext => ⟨le_refl 0, fun _ _ => trivial⟩⟩

/-- Two processes have an object at the same address. -/
def collidingRun : List Action :=
  [.new ⟨1, 64⟩, .setFd ⟨1, 64⟩ 5, .new ⟨2, 64⟩] ++ bufferedRead ⟨2, 2⟩ 64

/-- A new object gets the address of one that was freed. -/
def reusingRun : List Action :=
  [.new ⟨1, 64⟩, .setFd ⟨1, 64⟩ 5, .free ⟨1, 64⟩ 0, .new ⟨1, 64⟩] ++ bufferedRead ⟨1, 1⟩ 64

/-- Both runs attribute plaintext to the file descriptor of another object. -/
theorem plaintext_attributed_to_foreign_fd :
    (runActions State.step State.initial collidingRun).map
        (fun state => state.log.map fun entry => (entry.data.ctx.id, entry.own)) =
      some [(⟨2, 5⟩, [])] ∧
    (runActions State.step State.initial reusingRun).map
        (fun state => state.log.map fun entry => (entry.data.ctx.id, entry.own)) =
      some [(⟨1, 5⟩, [])] := by
  decide

end Qtap.Bpf.OpenSsl
