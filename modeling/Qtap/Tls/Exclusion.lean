import Qtap.Tls.Validity

/-!
# Mutual exclusion of operations

A call of `Execute` waits for the operation in flight before it runs its own function.
`Cleanup` forgets that operation while it may still be running, and gives old tokens new
validity.  When neither happens, at most one function runs for a key.
-/

namespace Qtap.Tls

open List Qtap.Core

variable {K : Type*}

namespace Phase

/-- The call may still run its function, or is running it. -/
def engaged : Phase → Bool
  | superseding _ => true
  | waiting _ => true
  | running _ => true
  | _ => false

/-- The operation that the call waits for. -/
def awaited? : Phase → Option ℕ
  | superseding old => some old
  | waiting old => some old
  | _ => none

/-- The operation of the call. -/
def op? : Phase → Option ℕ
  | running op => some op
  | closing op => some op
  | _ => none

end Phase

namespace State

variable {state next : State K} {call : ℕ} {token : OpToken K}

/-- `Cleanup` comes when no call for the key is running its function or may still do so;
each token serves one call at a time and is not used after a `Cleanup`. -/
def Orderly (state : State K) : Action K → Prop
  | .cleanup key _ => ∀ call info, state.calls call = some info → info.token.key = key →
      info.phase.engaged = false
  | .execute _ token =>
    (∀ call info, state.calls call = some info → info.token ≠ token) ∧ ¬ state.Retired token
  | _ => True

/-- The tokens since the last `Cleanup` have different versions. -/
structure Numbered (state : State K) : Prop where
  issued : ∀ token ∈ state.tokens, token.issuedAt ≤ state.clock
  current : ∀ token ∈ state.tokens, ¬ state.Retired token →
    token.version ≤ state.coordinator.version token.key
  distinct : ∀ token ∈ state.tokens, ∀ other ∈ state.tokens, ¬ state.Retired token →
    ¬ state.Retired other → token.key = other.key → token.version = other.version → token = other

/-- The calls hold tokens of their own; those that are engaged hold current ones. -/
structure Owned (state : State K) : Prop where
  known : ∀ call info, state.calls call = some info → info.token ∈ state.tokens
  engaged : ∀ call info, state.calls call = some info → info.phase.engaged = true →
    ¬ state.Retired info.token
  own : ∀ call info other found, state.calls call = some info → state.calls other = some found →
    info.token = found.token → call = other

/-- The function that runs for a key is the operation in flight, and the calls that are still
valid wait for it. -/
structure Guarded (state : State K) : Prop where
  created : ∀ call info op, state.calls call = some info → info.phase.op? = some op →
    op < state.coordinator.created
  pristine : ∀ op, state.coordinator.created ≤ op → state.coordinator.done op = false
  undone : ∀ call token op, state.calls call = some ⟨token, .running op⟩ →
    state.coordinator.done op = false
  unique : ∀ call info other found op, state.calls call = some info →
    state.calls other = some found → info.phase.op? = some op → found.phase.op? = some op →
    call = other
  held : ∀ call token op, state.calls call = some ⟨token, .running op⟩ →
    state.coordinator.inflight token.key = some op
  awaited : ∀ call info old, state.calls call = some info → info.phase.awaited? = some old →
    state.coordinator.isValid info.token = true → ∀ other token op,
    state.calls other = some ⟨token, .running op⟩ → token.key = info.token.key → op = old

/-- One function runs for a key at a time. -/
theorem Guarded.exclusive (hguarded : state.Guarded) {other : ℕ} {found : OpToken K}
    (hruns : state.Runs call token) (hother : state.Runs other found)
    (hkey : token.key = found.key) : call = other := by
  obtain ⟨op, hcall⟩ := hruns
  obtain ⟨op', hcall'⟩ := hother
  have hheld := hguarded.held call token op hcall
  rw [hkey, hguarded.held other found op' hcall', Option.some.injEq] at hheld
  exact hguarded.unique call _ other _ op hcall hcall' rfl (congrArg some hheld)

/-! ## Tokens -/

theorem numbered_initial : (initial : State K).Numbered := ⟨nofun, nofun, nofun⟩

theorem SameTokens.retired_iff (hsame : SameTokens state next) :
    next.Retired token ↔ state.Retired token := by
  rw [Retired, Retired, hsame.cleaned]

theorem SameTokens.numbered (hsame : SameTokens state next) (hnumbered : state.Numbered) :
    next.Numbered := by
  constructor
  · rw [hsame.tokens, hsame.clock]
    exact hnumbered.issued
  · rw [hsame.tokens, hsame.version]
    exact fun token htoken hretired =>
      hnumbered.current token htoken (hsame.retired_iff.not.1 hretired)
  · rw [hsame.tokens]
    exact fun token htoken other hother hretired hretired' =>
      hnumbered.distinct token htoken other hother (hsame.retired_iff.not.1 hretired)
        (hsame.retired_iff.not.1 hretired')

variable [DecidableEq K]

variable {key : K} {cancelInflight : Bool} {action : Action K} {phase : Phase}

section

variable (hnumbered : state.Numbered)

include hnumbered

theorem Numbered.start (hnext : state.step (.start key) = some next) : next.Numbered := by
  cases hnext
  -- the new token is above all current ones of its key
  have hbelow : ∀ token ∈ state.tokens, ¬ state.Retired token → token.key = key →
      token.version < state.coordinator.version key + 1 := by
    intro token htoken hretired hkey
    exact Nat.lt_succ_of_le (hkey ▸ hnumbered.current token htoken hretired)
  constructor
  · refine forall_mem_append.2 ⟨fun token htoken => ?_, forall_mem_singleton.2 le_rfl⟩
    exact (hnumbered.issued token htoken).trans (Nat.le_succ _)
  · intro token htoken hretired
    rcases mem_append.1 htoken with htoken | htoken
    · by_cases hkey : token.key = key
      · rw [hkey, Coordinator.version_start_self]
        exact (hbelow token htoken hretired hkey).le
      · rw [Coordinator.version_start_of_ne _ _ hkey]
        exact hnumbered.current token htoken hretired
    · rw [mem_singleton.1 htoken, Coordinator.version_start_self]
  · intro token htoken other hother hretired hretired' hkey hversion
    rcases mem_append.1 htoken with htoken | htoken
    · rcases mem_append.1 hother with hother | hother
      · exact hnumbered.distinct token htoken other hother hretired hretired' hkey hversion
      · obtain rfl := mem_singleton.1 hother
        exact absurd hversion (hbelow token htoken hretired hkey).ne
    · obtain rfl := mem_singleton.1 htoken
      rcases mem_append.1 hother with hother | hother
      · exact absurd hversion.symm (hbelow other hother hretired' hkey.symm).ne
      · rw [mem_singleton.1 hother]

/-- `Cleanup` retires all tokens of its key. -/
theorem retired_of_cleanup
    (hnext : state.step (.cleanup key cancelInflight) = some next) (htoken : token ∈ state.tokens)
    (hretired : ¬ next.Retired token) : token.key ≠ key ∧ ¬ state.Retired token := by
  cases hnext
  have hne : token.key ≠ key := by
    rintro rfl
    apply hretired
    simp only [Retired, Function.update_self]
    exact Nat.lt_succ_of_le (hnumbered.issued token htoken)
  simp only [Retired, Function.update_of_ne hne] at hretired
  exact ⟨hne, hretired⟩

theorem Numbered.cleanup
    (hnext : state.step (.cleanup key cancelInflight) = some next) : next.Numbered := by
  have hcurrent := fun token htoken => @retired_of_cleanup K state next token _ key cancelInflight
    hnumbered hnext htoken
  cases hnext
  constructor
  · exact fun token htoken => (hnumbered.issued token htoken).trans (Nat.le_succ _)
  · intro token htoken hretired
    obtain ⟨hkey, hbefore⟩ := hcurrent token htoken hretired
    rw [Coordinator.version_cleanup_of_ne _ _ hkey]
    exact hnumbered.current token htoken hbefore
  · intro token htoken other hother hretired hretired'
    exact hnumbered.distinct token htoken other hother (hcurrent token htoken hretired).2
      (hcurrent other hother hretired').2

theorem Numbered.step (hnext : state.step action = some next) : next.Numbered := by
  cases action with
  | start => exact hnumbered.start hnext
  | cleanup => exact hnumbered.cleanup hnext
  | _ => exact (callStep_of_step nofun nofun hnext).sameTokens.numbered hnumbered

end

/-! ## Calls -/

omit [DecidableEq K] in
theorem owned_initial : (initial : State K).Owned := ⟨nofun, nofun, nofun⟩

section

variable (howned : state.Owned) (hsame : SameTokens state next)

include howned hsame

omit [DecidableEq K] in
/-- One call changes; its new entry has a current token that no other call holds. -/
theorem Owned.update {entry : Option (Call K)}
    (hcalls : next.calls = Function.update state.calls call entry)
    (hknown : ∀ info, entry = some info → info.token ∈ state.tokens)
    (hengaged : ∀ info, entry = some info → info.phase.engaged = true → ¬ state.Retired info.token)
    (hown : ∀ info other found, entry = some info → state.calls other = some found →
      info.token = found.token → call = other) : next.Owned := by
  constructor
  · intro given info hgiven
    rw [hsame.tokens]
    rw [hcalls, update_eq_some_iff] at hgiven
    rcases hgiven with ⟨_, hentry⟩ | ⟨_, hgiven⟩
    · exact hknown info hentry
    · exact howned.known given info hgiven
  · intro given info hgiven hphase
    rw [hsame.retired_iff]
    rw [hcalls, update_eq_some_iff] at hgiven
    rcases hgiven with ⟨_, hentry⟩ | ⟨_, hgiven⟩
    · exact hengaged info hentry hphase
    · exact howned.engaged given info hgiven hphase
  · intro given info other found hgiven hother heq
    rw [hcalls, update_eq_some_iff] at hgiven hother
    rcases hgiven with ⟨rfl, hentry⟩ | ⟨_, hgiven⟩ <;>
      rcases hother with ⟨rfl, hentry'⟩ | ⟨_, hother⟩
    · rfl
    · exact hown info other found hentry hother heq
    · exact (hown found given info hentry' hgiven heq.symm).symm
    · exact howned.own given info other found hgiven hother heq

omit [DecidableEq K] in
/-- A call goes on under its token. -/
theorem Owned.setPhase {before : Call K} (hbefore : state.calls call = some before)
    (hcalls : next.calls = Function.update state.calls call (some ⟨before.token, phase⟩))
    (hengaged : phase.engaged = true → before.phase.engaged = true) : next.Owned := by
  apply howned.update hsame hcalls
  · rintro _ ⟨⟩
    exact howned.known call before hbefore
  · rintro _ ⟨⟩ hphase
    exact howned.engaged call before hbefore (hengaged hphase)
  · rintro _ other found ⟨⟩ hother heq
    exact howned.own call before other found hbefore hother heq

omit [DecidableEq K] in
theorem Owned.endCall (hcalls : next.calls = Function.update state.calls call none) : next.Owned :=
  howned.update hsame hcalls nofun nofun nofun

omit [DecidableEq K] in
/-- A new call takes a token that no other call holds. -/
theorem Owned.execute (htoken : token ∈ state.tokens) (hretired : ¬ state.Retired token)
    (hfree : ∀ call info, state.calls call = some info → info.token ≠ token)
    (hcalls : next.calls = Function.update state.calls call (some ⟨token, phase⟩)) :
    next.Owned := by
  apply howned.update hsame hcalls
  · rintro _ ⟨⟩
    exact htoken
  · rintro _ ⟨⟩ _
    exact hretired
  · rintro _ other found ⟨⟩ hother heq
    exact absurd heq.symm (hfree other found hother)

end

omit [DecidableEq K] in
/-- An engaged call is not for the key of an orderly `Cleanup`. -/
theorem Orderly.key_ne {info : Call K} (horderly : state.Orderly (.cleanup key cancelInflight))
    (hcall : state.calls call = some info) (hphase : info.phase.engaged = true) :
    info.token.key ≠ key := by
  intro hkey
  rw [horderly call info hcall hkey] at hphase
  exact Bool.false_ne_true hphase

theorem CallStep.owned (hstep : CallStep state action next) (howned : state.Owned)
    (horderly : state.Orderly action) : next.Owned := by
  have hsame := hstep.sameTokens
  cases hstep with
  | @execute _ token htoken =>
    rw [proceed] at hsame ⊢
    cases hentry : (state.coordinator.enter token).2 with
    | stale =>
      rw [hentry] at hsame
      exact howned.endCall hsame rfl
    | blocked old | begun op =>
      rw [hentry] at hsame
      exact howned.execute hsame htoken horderly.2 horderly.1 rfl
  | @resume _ token _ hcall =>
    rw [proceed] at hsame ⊢
    cases hentry : (state.coordinator.reenter token).2 with
    | stale =>
      rw [hentry] at hsame
      exact howned.endCall hsame rfl
    | blocked old | begun op =>
      rw [hentry] at hsame
      exact howned.setPhase hsame hcall rfl fun _ => rfl
  | goOn hcall hgoes =>
    refine howned.setPhase hsame hcall rfl fun hphase => ?_
    cases hgoes with
    | leave => exact absurd hphase Bool.false_ne_true
    | _ => rfl
  | exit => exact howned.endCall hsame rfl

theorem Owned.step (howned : state.Owned) (horderly : state.Orderly action)
    (hnext : state.step action = some next) : next.Owned := by
  cases action with
  | start =>
    cases hnext
    exact ⟨fun call info hcall => mem_append_left _ (howned.known call info hcall),
      howned.engaged, howned.own⟩
  | cleanup =>
    cases hnext
    refine ⟨howned.known, fun call info hcall hphase => ?_, howned.own⟩
    simp only [Retired, Function.update_of_ne (horderly.key_ne hcall hphase)]
    exact howned.engaged call info hcall hphase
  | _ => exact (callStep_of_step nofun nofun hnext).owned howned horderly

/-! ## Operations -/

omit [DecidableEq K] in
theorem guarded_initial : (initial : State K).Guarded :=
  ⟨nofun, fun _ _ => rfl, nofun, nofun, nofun, nofun⟩

omit [DecidableEq K] in
theorem isValid_eq_of_version {coordinator other : Coordinator K}
    (hversion : other.version = coordinator.version) (token : OpToken K) :
    other.isValid token = coordinator.isValid token := by
  rw [Coordinator.isValid, Coordinator.isValid, hversion]

omit [DecidableEq K] in
/-- One call changes.  The others run what they ran; the new entry of the call runs an operation
of its own, for a key for which nobody else may, and waits for the one that runs. -/
theorem Guarded.update {entry : Option (Call K)} (hguarded : state.Guarded)
    (hcalls : next.calls = Function.update state.calls call entry)
    (hversion : next.coordinator.version = state.coordinator.version)
    (hcreated : state.coordinator.created ≤ next.coordinator.created)
    (hpristine : ∀ op, next.coordinator.created ≤ op → next.coordinator.done op = false)
    (hothers : ∀ other token op, other ≠ call → state.calls other = some ⟨token, .running op⟩ →
      next.coordinator.done op = false ∧ next.coordinator.inflight token.key = some op)
    (hop : ∀ info op, entry = some info → info.phase.op? = some op →
      op < next.coordinator.created ∧ ∀ other found, other ≠ call →
        state.calls other = some found → found.phase.op? ≠ some op)
    (hruns : ∀ token op, entry = some ⟨token, .running op⟩ →
      next.coordinator.done op = false ∧ next.coordinator.inflight token.key = some op ∧
        ∀ other info old, other ≠ call → state.calls other = some info →
          info.phase.awaited? = some old → token.key = info.token.key →
            state.coordinator.isValid info.token = false)
    (hawaits : ∀ info old, entry = some info → info.phase.awaited? = some old →
      state.coordinator.isValid info.token = true → ∀ other token op, other ≠ call →
        state.calls other = some ⟨token, .running op⟩ → token.key = info.token.key → op = old) :
    next.Guarded := by
  have hcases : ∀ given info, next.calls given = some info →
      given = call ∧ entry = some info ∨ given ≠ call ∧ state.calls given = some info := by
    intro given info hgiven
    rwa [hcalls, update_eq_some_iff] at hgiven
  have hrunning : ∀ given token op, next.calls given = some ⟨token, .running op⟩ →
      next.coordinator.done op = false ∧ next.coordinator.inflight token.key = some op := by
    intro given token op hgiven
    rcases hcases given _ hgiven with ⟨_, hentry⟩ | ⟨hne, hgiven⟩
    · exact ⟨(hruns token op hentry).1, (hruns token op hentry).2.1⟩
    · exact hothers given token op hne hgiven
  constructor
  · intro given info op hgiven hphase
    rcases hcases given info hgiven with ⟨_, hentry⟩ | ⟨_, hgiven⟩
    · exact (hop info op hentry hphase).1
    · exact (hguarded.created given info op hgiven hphase).trans_le hcreated
  · exact hpristine
  · exact fun given token op hgiven => (hrunning given token op hgiven).1
  · intro given info other found op hgiven hother hphase hphase'
    rcases hcases given info hgiven with ⟨rfl, hentry⟩ | ⟨hne, hgiven⟩ <;>
      rcases hcases other found hother with ⟨rfl, hentry'⟩ | ⟨hne', hother⟩
    · rfl
    · exact absurd hphase' ((hop info op hentry hphase).2 other found hne' hother)
    · exact absurd hphase ((hop found op hentry' hphase').2 given info hne hgiven)
    · exact hguarded.unique given info other found op hgiven hother hphase hphase'
  · exact fun given token op hgiven => (hrunning given token op hgiven).2
  · intro given info old hgiven hold hvalid other token op hother hkey
    rw [isValid_eq_of_version hversion] at hvalid
    rcases hcases given info hgiven with ⟨rfl, hentry⟩ | ⟨hne, hgiven⟩ <;>
      rcases hcases other _ hother with ⟨rfl, hentry'⟩ | ⟨hne', hother⟩
    · cases hentry.symm.trans hentry'
      cases hold
    · exact hawaits info old hentry hold hvalid other token op hne' hother hkey
    · rw [(hruns token op hentry').2.2 given info old hne hgiven hold hkey] at hvalid
      exact absurd hvalid Bool.false_ne_true
    · exact hguarded.awaited given info old hgiven hold hvalid other token op hother hkey

/-- A call begins to run: nobody runs for the key, and nobody else may. -/
theorem Guarded.run (hguarded : state.Guarded)
    (hnobody : ∀ other found op, other ≠ call → state.calls other = some ⟨found, .running op⟩ →
      found.key ≠ token.key)
    (hinvalid : ∀ other info old, other ≠ call → state.calls other = some info →
      info.phase.awaited? = some old → info.token.key = token.key →
      state.coordinator.isValid info.token = false) :
    ({ state with coordinator := state.coordinator.install token.key }.setPhase call token
      (.running state.coordinator.created)).Guarded := by
  refine hguarded.update rfl rfl (Nat.le_succ _) ?_ ?_ ?_ ?_ ?_
  · exact fun op hop => hguarded.pristine op ((Nat.le_succ _).trans hop)
  · exact fun other found op hne hother => ⟨hguarded.undone other found op hother,
      (Function.update_of_ne (hnobody other found op hne hother) _ _).trans
        (hguarded.held other found op hother)⟩
  · rintro _ op ⟨⟩ hop
    cases hop
    exact ⟨Nat.lt_succ_self _, fun other found _ hother hop =>
      absurd (hguarded.created other found _ hother hop) (Nat.lt_irrefl _)⟩
  · rintro _ op ⟨⟩
    exact ⟨hguarded.pristine _ le_rfl, Function.update_self _ _ _,
      fun other info old hne hother hold hkey => hinvalid other info old hne hother hold hkey.symm⟩
  · rintro _ old ⟨⟩ hold
    cases hold

omit [DecidableEq K] in
/-- Of the current tokens of a key at most one is valid. -/
theorem Numbered.eq_of_isValid (hnumbered : state.Numbered) {other : OpToken K}
    (htoken : token ∈ state.tokens) (hother : other ∈ state.tokens)
    (hretired : ¬ state.Retired token) (hretired' : ¬ state.Retired other)
    (hkey : token.key = other.key) (hvalid : state.coordinator.isValid token = true)
    (hvalid' : state.coordinator.isValid other = true) : token = other := by
  rw [Coordinator.isValid, decide_eq_true_eq] at hvalid hvalid'
  exact hnumbered.distinct token htoken other hother hretired hretired' hkey
    (hvalid.symm.trans ((congrArg _ hkey).trans hvalid'))

theorem engaged_of_awaited {old : ℕ} (hold : phase.awaited? = some old) : phase.engaged = true := by
  cases phase with
  | superseding => rfl
  | waiting => rfl
  | _ => cases hold

/-! ## Steps -/

section

variable (hguarded : state.Guarded)

include hguarded

theorem Guarded.start (hnumbered : state.Numbered) (howned : state.Owned)
    (hnext : state.step (.start key) = some next) : next.Guarded := by
  cases hnext
  refine ⟨hguarded.created, hguarded.pristine, hguarded.undone, hguarded.unique, hguarded.held, ?_⟩
  intro call info old hcall hold hvalid
  have hcurrent := hnumbered.current info.token (howned.known call info hcall)
    (howned.engaged call info hcall (engaged_of_awaited hold))
  rw [Coordinator.isValid, decide_eq_true_eq] at hvalid
  by_cases hkey : info.token.key = key
  · -- the tokens of the key are behind the new version
    rw [hkey, Coordinator.version_start_self, ← hkey] at hvalid
    rw [← hvalid] at hcurrent
    exact absurd hcurrent (Nat.not_succ_le_self _)
  · rw [Coordinator.version_start_of_ne _ _ hkey] at hvalid
    exact hguarded.awaited call info old hcall hold (decide_eq_true hvalid)

theorem Guarded.cleanup (horderly : state.Orderly (.cleanup key cancelInflight))
    (hnext : state.step (.cleanup key cancelInflight) = some next) : next.Guarded := by
  have hframe : (state.coordinator.cleanup key cancelInflight).done = state.coordinator.done ∧
      (state.coordinator.cleanup key cancelInflight).created = state.coordinator.created := by
    rw [Coordinator.cleanup]
    split
    · split <;> exact ⟨rfl, rfl⟩
    · exact ⟨rfl, rfl⟩
  obtain ⟨hdone, hcreated⟩ := hframe
  cases hnext
  constructor
  · rw [hcreated]
    exact hguarded.created
  · rw [hcreated, hdone]
    exact hguarded.pristine
  · rw [hdone]
    exact hguarded.undone
  · exact hguarded.unique
  · intro call token op hcall
    exact (Function.update_of_ne (horderly.key_ne hcall rfl) _ _).trans
      (hguarded.held call token op hcall)
  · intro call info old hcall hold hvalid
    have hkey := horderly.key_ne hcall (engaged_of_awaited hold)
    rw [Coordinator.isValid, Coordinator.version_cleanup_of_ne _ _ hkey] at hvalid
    exact hguarded.awaited call info old hcall hold hvalid

omit [DecidableEq K] in
/-- The call that goes on runs nothing and waits for what it waited for. -/
theorem Guarded.setPhase {before : Call K} (hbefore : state.calls call = some before)
    (hcalls : next.calls = Function.update state.calls call (some ⟨before.token, phase⟩))
    (hversion : next.coordinator.version = state.coordinator.version)
    (hcreated : next.coordinator.created = state.coordinator.created)
    (hpristine : ∀ op, state.coordinator.created ≤ op → next.coordinator.done op = false)
    (hothers : ∀ other token op, other ≠ call → state.calls other = some ⟨token, .running op⟩ →
      next.coordinator.done op = false ∧ next.coordinator.inflight token.key = some op)
    (hop : ∀ op, phase.op? = some op → before.phase.op? = some op)
    (hrunning : ∀ op, phase ≠ .running op)
    (hold : ∀ old, phase.awaited? = some old → before.phase.awaited? = some old) :
    next.Guarded := by
  apply hguarded.update hcalls hversion hcreated.ge (hcreated ▸ hpristine) hothers
  · rintro _ op ⟨⟩ hphase
    refine ⟨hcreated ▸ hguarded.created call before op hbefore (hop op hphase), ?_⟩
    intro other found hne hother hphase'
    exact hne (hguarded.unique other found call before op hother hbefore hphase' (hop op hphase))
  · rintro _ op ⟨⟩
    exact absurd rfl (hrunning op)
  · rintro _ old ⟨⟩ hphase hvalid other token op _
    exact hguarded.awaited call before old hbefore (hold old hphase) hvalid other token op

omit [DecidableEq K] in
theorem Guarded.endCall : (state.endCall call).Guarded := by
  refine hguarded.update rfl rfl le_rfl hguarded.pristine ?_ ?_ ?_ ?_
  · exact fun other token op _ hother =>
      ⟨hguarded.undone other token op hother, hguarded.held other token op hother⟩
  · nofun
  · nofun
  · nofun

omit [DecidableEq K] in
/-- A new call that finds an operation in flight waits for the one that runs. -/
theorem Guarded.block {old : ℕ} (hinflight : state.coordinator.inflight token.key = some old) :
    (state.setPhase call token (.superseding old)).Guarded := by
  refine hguarded.update rfl rfl le_rfl hguarded.pristine ?_ ?_ ?_ ?_
  · exact fun other token op _ hother =>
      ⟨hguarded.undone other token op hother, hguarded.held other token op hother⟩
  · rintro _ op ⟨⟩ hop
    cases hop
  · nofun
  · rintro _ awaited ⟨⟩ hawaited _ other found op _ hother hkey
    cases hawaited
    have hheld := hguarded.held other found op hother
    rw [hkey, hinflight, Option.some.injEq] at hheld
    exact hheld.symm

theorem Guarded.execute (hnumbered : state.Numbered)
    (howned : state.Owned) (horderly : state.Orderly (.execute call token))
    (htoken : token ∈ state.tokens) :
    (state.proceed call token (state.coordinator.enter token)).Guarded := by
  rcases state.coordinator.enter_cases token with
    hentry | ⟨_, hinflight, hentry⟩ | ⟨hvalid, hinflight, hentry⟩ <;> rw [hentry]
  · exact hguarded.endCall
  · exact hguarded.block hinflight
  · apply hguarded.run
    · intro other found op _ hother hkey
      have hheld := hguarded.held other found op hother
      rw [hkey, hinflight] at hheld
      cases hheld
    · intro other info old _ hother hold hkey
      rw [← Bool.not_eq_true]
      intro hvalid'
      have heq := hnumbered.eq_of_isValid (howned.known other info hother) htoken
        (howned.engaged other info hother (engaged_of_awaited hold)) horderly.2 hkey hvalid' hvalid
      exact horderly.1 other info hother heq

theorem Guarded.resume (hnumbered : state.Numbered)
    (howned : state.Owned) {old : ℕ} (hcall : state.calls call = some ⟨token, .waiting old⟩)
    (hdone : state.coordinator.done old = true) :
    (state.proceed call token (state.coordinator.reenter token)).Guarded := by
  unfold proceed Coordinator.reenter
  cases hvalid : state.coordinator.isValid token with
  | false =>
    exact hguarded.endCall
  | true =>
    apply hguarded.run
    · -- whoever runs for the key is the operation that was waited for
      intro other found op _ hother hkey
      have hold := hguarded.awaited call _ old hcall rfl hvalid other found op hother hkey
      have hundone := hguarded.undone other found op hother
      rw [hold, hdone] at hundone
      exact absurd hundone.symm Bool.false_ne_true
    · intro other info awaited hne hother hold hkey
      rw [← Bool.not_eq_true]
      intro hvalid'
      have heq := hnumbered.eq_of_isValid (howned.known other info hother)
        (howned.known call _ hcall) (howned.engaged other info hother (engaged_of_awaited hold))
        (howned.engaged call _ hcall rfl) hkey hvalid' hvalid
      exact hne (howned.own other info call _ hother hcall heq)

theorem Guarded.goOn {before : Phase} {coordinator : Coordinator K}
    (hcall : state.calls call = some ⟨token, before⟩)
    (hgoes : GoesOn state.coordinator token before coordinator phase) :
    ({ state with coordinator := coordinator }.setPhase call token phase).Guarded := by
  -- the others run other operations
  have hother : ∀ other found op op', before.op? = some op → other ≠ call →
      state.calls other = some ⟨found, .running op'⟩ → op' ≠ op := by
    rintro other found _ op hop hne hother rfl
    exact hne (hguarded.unique other _ call _ op hother hcall rfl hop)
  cases hgoes with
  | supersede =>
    refine hguarded.setPhase hcall rfl rfl rfl hguarded.pristine ?_ nofun nofun fun _ => id
    exact fun other token op _ hother =>
      ⟨hguarded.undone other token op hother, hguarded.held other token op hother⟩
  | finish op =>
    have hcreated := hguarded.created call _ op hcall rfl
    refine hguarded.setPhase hcall rfl rfl rfl ?_ ?_ (fun _ => id) nofun nofun
    · intro other hother
      exact (Function.update_of_ne (hcreated.trans_le hother).ne' _ _).trans
        (hguarded.pristine other hother)
    · intro other found op' hne hruns
      have hop := hother other found op op' rfl hne hruns
      exact ⟨(Function.update_of_ne hop _ _).trans (hguarded.undone other found op' hruns),
        hguarded.held other found op' hruns⟩
  | leave op =>
    refine hguarded.setPhase hcall rfl (Coordinator.version_leave _ _ _)
      (Coordinator.created_leave _ _ _) ?_ ?_ nofun nofun nofun
    · intro other hother
      exact (congrFun (Coordinator.done_leave _ _ _) other).trans (hguarded.pristine other hother)
    · intro other found op' hne hruns
      exact ⟨(congrFun (Coordinator.done_leave _ _ _) op').trans
          (hguarded.undone other found op' hruns),
        Coordinator.inflight_leave_of_ne _ _ _ (hguarded.held other found op' hruns)
          (hother other found op op' rfl hne hruns)⟩

theorem CallStep.guarded (hnumbered : state.Numbered) (howned : state.Owned)
    (horderly : state.Orderly action) (hstep : CallStep state action next) : next.Guarded := by
  cases hstep with
  | execute htoken => exact hguarded.execute hnumbered howned horderly htoken
  | resume hcall hdone => exact hguarded.resume hnumbered howned hcall hdone
  | goOn hcall hgoes => exact hguarded.goOn hcall hgoes
  | exit => exact hguarded.endCall

end

/-- The tokens, the calls and the operations are in order. -/
structure Exclusive (state : State K) : Prop where
  numbered : state.Numbered
  owned : state.Owned
  guarded : state.Guarded

theorem Exclusive.step (hexclusive : state.Exclusive) (horderly : state.Orderly action)
    (hnext : state.step action = some next) : next.Exclusive := by
  obtain ⟨hnumbered, howned, hguarded⟩ := hexclusive
  refine ⟨hnumbered.step hnext, howned.step horderly hnext, ?_⟩
  cases action with
  | start => exact hguarded.start hnumbered howned hnext
  | cleanup => exact hguarded.cleanup horderly hnext
  | _ => exact (callStep_of_step nofun nofun hnext).guarded hguarded hnumbered howned horderly

/-- In an orderly run at most one function runs for a key. -/
theorem execute_exclusive {actions : List (Action K)} {other : ℕ} {found : OpToken K}
    (hrun : runActions step initial actions = some state)
    (horderly : runActions.Throughout step Orderly initial actions) (hruns : state.Runs call token)
    (hother : state.Runs other found) (hkey : token.key = found.key) : call = other := by
  have hexclusive : state.Exclusive := runActions.invariant_of_throughout Exclusive
    (fun _ _ _ haction hnext hbefore => hbefore.step haction hnext) hrun horderly
    ⟨numbered_initial, owned_initial, guarded_initial⟩
  exact hexclusive.guarded.exclusive hruns hother hkey

/-- The second operation waits for the first. -/
def secondWaits : List (Action ℕ) :=
  [.start 7, .execute 0 ⟨7, 1, 1⟩, .start 7, .execute 1 ⟨7, 2, 2⟩, .supersede 1]

theorem execute_exclusive_secondWaits :
    ∃ state : State ℕ, runActions step initial secondWaits = some state ∧
      state.Runs 0 ⟨7, 1, 1⟩ ∧ ∀ other found, state.Runs other found → found.key = 7 →
        other = 0 := by
  have horderly : runActions.Throughout step Orderly (initial : State ℕ) secondWaits := by
    refine .cons trivial rfl <| .cons ⟨nofun, (by decide : ¬ 1 < 0)⟩ rfl <| .cons trivial rfl <|
      .cons ⟨?_, (by decide : ¬ 2 < 0)⟩ rfl <| .cons trivial rfl trivial
    intro call info hcall
    rcases update_some_eq_some hcall with ⟨_, rfl⟩ | hcall
    · exact (by decide : (⟨7, 1, 1⟩ : OpToken ℕ) ≠ ⟨7, 2, 2⟩)
    · cases hcall
  exact ⟨_, rfl, ⟨0, rfl⟩, fun other found hother hkey =>
    execute_exclusive rfl horderly hother ⟨0, rfl⟩ hkey⟩

/-- A `Cleanup` between two operations: the second does not wait for the first. -/
theorem execute_overlaps :
    ∃ state : State ℕ, runActions step initial
        [.start 7, .execute 0 ⟨7, 1, 1⟩, .cleanup 7 true, .start 7, .execute 1 ⟨7, 1, 3⟩] =
          some state ∧
      state.Runs 0 ⟨7, 1, 1⟩ ∧ state.Runs 1 ⟨7, 1, 3⟩ :=
  ⟨_, rfl, ⟨0, rfl⟩, ⟨1, rfl⟩⟩

end State

end Qtap.Tls
