import Qtap.Egress.Relay

/-!
# What the relay delivers

The first stream that ends ends the relay: both connections are closed, and what the other
direction still holds is discarded.  So every byte arrives in the runs in which nobody
ends a stream before all that the other side has sent was handed on, and nobody sends after
the other side has ended.
-/

namespace Qtap.Egress.State

open Option Function List Qtap.Core Qtap.Connection

variable {B : Type*} {state next : State B} {side : Side} {tees : Bool}

/-- All that a side has sent was written to the connection of the other side. -/
def Relayed (state : State B) (side : Side) : Prop :=
  (state.outbound side.other).written = (state.inbound side).written

/-- All that a side has sent was received by the other side. -/
def Delivered (state : State B) : Prop :=
  ∀ side : Side, (state.outbound side.other).received = (state.inbound side).written

/-- A goroutine has reported, or the handler has seen a report. -/
def Ending (state : State B) : Prop :=
  (∃ side, state.copiers side = .returned) ∨ 0 < state.results ∨ state.handler ≠ .waiting

/-- Some stream has ended and nothing is left to be relayed. -/
def Over (state : State B) : Prop :=
  (∃ side, (state.inbound side).ended = true) ∧ ∀ side, state.Relayed side

/-- Streams end when the other direction was handed on, and nobody sends afterwards. -/
def Mannerly (state : State B) : Move B ⊕ Work → Prop
  | .inl (.send side _) => (state.inbound side.other).ended = false
  | .inl (.finish side) => state.Relayed side.other
  | .inr _ => True

/-- What the goroutine of a side has read was written, or is in its hands. -/
def Carried (state : State B) (side : Side) : Prop :=
  state.copiers side ≠ .returned →
    (state.outbound side.other).written ++ (state.copiers side).chunk =
      (state.inbound side).received

/-- While no goroutine has reported, nothing is lost; when one has, nothing is left. -/
structure Intact (state : State B) : Prop where
  carried : ∀ side, state.Carried side
  settled : ∀ side, (state.inbound side).ended = true → state.Relayed side.other
  concluded : state.Ending → state.Over
  closed : ∀ side, state.opened side = false → state.handler ≠ .waiting
  live : ∀ side, state.opened side = true → (state.outbound side).ended = false

theorem intact_initial : (initial : State B).Intact where
  carried := fun _ _ => rfl
  settled := fun _ hended => absurd hended Bool.false_ne_true
  concluded := by
    rintro (⟨side, hreturned⟩ | hresults | hhandler)
    · cases hreturned
    · exact absurd hresults (Nat.lt_irrefl 0)
    · exact absurd rfl hhandler
  closed := fun _ hclosed => absurd hclosed.symm Bool.false_ne_true
  live := fun _ _ => rfl

/-- A goroutine that goes on has not reported. -/
theorem Ending.of_copiers {copier : Copier B} (hending : next.Ending)
    (hcopiers : next.copiers = update state.copiers side copier)
    (hresults : next.results = state.results) (hhandler : next.handler = state.handler)
    (hcopier : copier ≠ .returned) : state.Ending := by
  rw [Ending, hcopiers, hresults, hhandler] at hending
  apply hending.imp_left
  rintro ⟨given, hreturned⟩
  rcases eq_or_ne given side with rfl | hne
  · rw [update_self] at hreturned
    exact absurd hreturned hcopier
  · rw [update_of_ne hne] at hreturned
    exact ⟨given, hreturned⟩

theorem Carried.of_eq (hcarried : state.Carried side)
    (houtbound : (next.outbound side.other).written = (state.outbound side.other).written)
    (hcopier : next.copiers side = state.copiers side)
    (hinbound : (next.inbound side).received = (state.inbound side).received) :
    next.Carried side := by
  rw [Carried, houtbound, hcopier, hinbound]
  exact hcarried

/-- When all was relayed, the goroutine holds nothing. -/
theorem Intact.chunk_of_relayed (hintact : state.Intact) (hrelayed : state.Relayed side)
    (hrunning : state.copiers side ≠ .returned) : (state.copiers side).chunk = [] := by
  have hparts : (state.outbound side.other).written ++
      ((state.copiers side).chunk ++ (state.inbound side).pending) =
        (state.outbound side.other).written := by
    rw [← append_assoc, hintact.carried side hrunning, Conduit.received_append_pending, hrelayed]
  exact (append_eq_nil_iff.1 (append_right_eq_self.1 hparts)).1

/-! ## Steps that write nothing and end nothing -/

/-- The streams carry the same bytes as before, and the same of them have ended. -/
structure SameStreams (state next : State B) : Prop where
  inbound : ∀ side, (next.inbound side).written = (state.inbound side).written
  ended : ∀ side, (next.inbound side).ended = (state.inbound side).ended
  outbound : ∀ side, (next.outbound side).written = (state.outbound side).written

section

variable (hsame : SameStreams state next)

include hsame

theorem SameStreams.relayed (hrelayed : state.Relayed side) : next.Relayed side := by
  rw [Relayed, hsame.inbound, hsame.outbound]
  exact hrelayed

theorem SameStreams.over (hover : state.Over) : next.Over := by
  refine ⟨?_, fun side => hsame.relayed (hover.2 side)⟩
  obtain ⟨side, hended⟩ := hover.1
  exact ⟨side, (hsame.ended side).trans hended⟩

theorem SameStreams.intact (hintact : state.Intact)
    (hcarried : ∀ side, next.Carried side) (hending : next.Ending → state.Over)
    (hclosed : ∀ side, next.opened side = false → next.handler ≠ .waiting)
    (hlive : ∀ side, next.opened side = true → (next.outbound side).ended = false) :
    next.Intact where
  carried := hcarried
  settled := fun side hended =>
    hsame.relayed (hintact.settled side ((hsame.ended side).symm.trans hended))
  concluded := fun hnext => hsame.over (hending hnext)
  closed := hclosed
  live := hlive

end

/-- What is true of a new entry and of the old ones is true of all entries. -/
theorem forall_update {V : Type*} {table : Side → V} (side : Side) (value : V)
    (holds : Side → V → Prop) (hvalue : holds side value)
    (htable : ∀ given, holds given (table given)) (given : Side) :
    holds given (update table side value given) :=
  (Function.forall_update_iff table holds).2 ⟨hvalue, fun other _ => htable other⟩ given

theorem congr_update {V W : Type*} {table : Side → V} (read : V → W) {value : V}
    (hvalue : read value = read (table side)) (given : Side) :
    read (update table side value given) = read (table given) :=
  forall_update side value (fun given entry => read entry = read (table given)) hvalue
    (fun _ => rfl) given

section

variable (hintact : state.Intact)

include hintact

theorem Intact.receive {count : ℕ}
    (hnext : state.receive side count = some next) : next.Intact := by
  rw [State.receive, map_eq_some_iff] at hnext
  obtain ⟨⟨_, outbound⟩, hread, rfl⟩ := hnext
  obtain ⟨hwritten, hended, _⟩ := Conduit.read_eq_some hread
  have hsame : SameStreams state { state with outbound := update state.outbound side outbound } :=
    ⟨fun _ => rfl, fun _ => rfl, congr_update Conduit.written hwritten⟩
  apply hsame.intact hintact
  · exact fun given => (hintact.carried given).of_eq (hsame.outbound _) rfl rfl
  · exact hintact.concluded
  · exact hintact.closed
  · exact forall_update side outbound
      (fun given conduit => state.opened given = true → conduit.ended = false)
      (fun hopened => hended.trans (hintact.live side hopened)) hintact.live

theorem Intact.read {count : ℕ} (hnext : state.read side count = some next) : next.Intact := by
  obtain ⟨hcopier, _, chunk, inbound, hread, rfl⟩ := read_eq_some hnext
  obtain ⟨hwritten, hended, hreceived, _⟩ := Conduit.read_eq_some hread
  have hsame : SameStreams state { state with
      inbound := update state.inbound side inbound
      copiers := update state.copiers side (.writing chunk) } :=
    ⟨congr_update Conduit.written hwritten, congr_update Conduit.ended hended, fun _ => rfl⟩
  apply hsame.intact hintact
  · intro given
    rcases eq_or_ne given side with rfl | hne
    · intro _
      have hcarried := hintact.carried given (by rw [hcopier]; nofun)
      rw [hcopier, Copier.chunk_reading, append_nil] at hcarried
      simp [Copier.chunk, hreceived, hcarried]
    · exact (hintact.carried given).of_eq rfl (update_of_ne hne _ _)
        (congrArg Conduit.received (update_of_ne hne _ _))
  · exact fun hending => hintact.concluded (hending.of_copiers rfl rfl rfl nofun)
  · exact hintact.closed
  · exact hintact.live

/-- A goroutine reports when nothing is left. -/
theorem Intact.report (hover : state.Over) : (state.report side).Intact := by
  have hsame : SameStreams state (state.report side) := ⟨fun _ => rfl, fun _ => rfl, fun _ => rfl⟩
  apply hsame.intact hintact
  · intro given
    rcases eq_or_ne given side with rfl | hne
    · exact fun hrunning => absurd (update_self _ _ _) hrunning
    · exact (hintact.carried given).of_eq rfl (update_of_ne hne _ _) rfl
  · exact fun _ => hover
  · exact hintact.closed
  · exact hintact.live

theorem Intact.stop (hnext : state.stop side = some next) : next.Intact := by
  obtain ⟨hcopier, hclosed | hend, rfl⟩ := stop_eq_some hnext
  · exact hintact.report (hintact.concluded (.inr (.inr (hintact.closed side hclosed))))
  · apply hintact.report
    rw [Conduit.atEnd, Bool.and_eq_true, List.isEmpty_iff] at hend
    have hcarried := hintact.carried side (by simp [hcopier])
    have hrelayed : state.Relayed side := by
      rw [hcopier, Copier.chunk_reading, List.append_nil] at hcarried
      exact hcarried.trans ((Conduit.received_eq_written_iff _).2 hend.2)
    refine ⟨⟨side, hend.1⟩, fun given => ?_⟩
    rcases Side.eq_or_eq_other side given with rfl | rfl
    · exact hrelayed
    · exact hintact.settled side hend.1

theorem Intact.await (hnext : state.await = some next) : next.Intact := by
  rw [State.await, ite_none_right_eq_some] at hnext
  obtain ⟨⟨_, hresults⟩, hnext⟩ := hnext
  cases hnext
  have hsame : SameStreams state
      { state with results := state.results - 1, handler := .closeUpstream } :=
    ⟨fun _ => rfl, fun _ => rfl, fun _ => rfl⟩
  apply hsame.intact hintact
  · exact fun given => (hintact.carried given).of_eq rfl rfl rfl
  · exact fun _ => hintact.concluded (.inr (.inl hresults))
  · exact nofun
  · exact hintact.live

theorem Intact.close (hnext : state.close = some next) : next.Intact := by
  obtain ⟨side, handler, hclosing, hhandler, _, rfl⟩ := close_eq_some hnext
  have hsame : SameStreams state { state.closeConn side with handler := handler } :=
    ⟨fun _ => rfl, fun _ => rfl, congr_update Conduit.written rfl⟩
  apply hsame.intact hintact
  · exact fun given => (hintact.carried given).of_eq (hsame.outbound _) rfl rfl
  · exact fun _ => hintact.concluded (.inr (.inr hclosing))
  · exact fun _ _ => hhandler
  · intro given hopened
    rcases eq_or_ne given side with rfl | hne
    · exact absurd ((update_self _ _ _).symm.trans hopened) Bool.false_ne_true
    · have hbefore := (update_of_ne hne _ state.opened).symm.trans hopened
      exact (congrArg Conduit.ended (update_of_ne hne _ _)).trans (hintact.live given hbefore)

/-! ## Steps that write or end a stream -/

theorem Intact.write (hnext : state.write tees side = some next) : next.Intact := by
  obtain ⟨chunk, hcopier, ⟨hopened, rfl⟩ | ⟨hclosed, rfl⟩⟩ := write_eq_some hnext
  · have hrunning : state.copiers side ≠ .returned := by
      rw [hcopier]
      nofun
    have hwritten : ((state.outbound side.other).write chunk).written =
        (state.outbound side.other).written ++ chunk := by
      rw [Conduit.written_write, hintact.live _ hopened, if_neg Bool.false_ne_true]
    -- what was relayed before stays relayed: then the goroutine had nothing to write
    have hrelayed : ∀ given, state.Relayed given →
        (update state.outbound side.other ((state.outbound side.other).write chunk)
          given.other).written = (state.inbound given).written := by
      intro given hgiven
      rcases Side.eq_or_eq_other side given with rfl | rfl
      · have hchunk := hintact.chunk_of_relayed hgiven hrunning
        rw [hcopier, Copier.chunk_writing] at hchunk
        rw [update_self, hwritten, hchunk, append_nil]
        exact hgiven
      · rw [Side.other_other, update_of_ne (Side.ne_other side)]
        rw [Relayed, Side.other_other] at hgiven
        exact hgiven
    constructor
    · intro given
      rcases Side.eq_or_eq_other side given with rfl | rfl
      · intro _
        have hcarried := hintact.carried given hrunning
        rw [hcopier, Copier.chunk_writing] at hcarried
        simp only [update_self, Copier.chunk, append_nil, hwritten, hcarried]
      · apply (hintact.carried side.other).of_eq
        · rw [Side.other_other]
          exact congrArg Conduit.written (update_of_ne (Side.ne_other side) _ _)
        · exact update_of_ne (Side.other_ne side) _ _
        · rfl
    · exact fun given hended => hrelayed _ (hintact.settled given hended)
    · intro hending
      have hover : state.Over := hintact.concluded (hending.of_copiers rfl rfl rfl nofun)
      exact ⟨hover.1, fun given => hrelayed given (hover.2 given)⟩
    · exact hintact.closed
    · exact forall_update side.other ((state.outbound side.other).write chunk)
        (fun given conduit => state.opened given = true → conduit.ended = false)
        (fun hlive => (Conduit.ended_write _ _).trans (hintact.live _ hlive)) hintact.live
  · exact hintact.report (hintact.concluded (.inr (.inr (hintact.closed _ hclosed))))

theorem Intact.send {chunk : List B} (hmannerly : (state.inbound side.other).ended = false)
    (hnext : state.move (.send side chunk) = some next) : next.Intact := by
  rw [move, ite_none_left_eq_some] at hnext
  obtain ⟨hended, hnext⟩ := hnext
  cases hnext
  rw [Bool.not_eq_true] at hended
  -- nobody has ended a stream, so that no goroutine can have reported
  have hnobody : ∀ given, (state.inbound given).ended = false := by
    intro given
    rcases Side.eq_or_eq_other side given with rfl | rfl
    · exact hended
    · exact hmannerly
  have hstill := forall_update side ((state.inbound side).write chunk)
    (fun _ conduit => conduit.ended = false)
    ((Conduit.ended_write _ chunk).trans hended) hnobody
  constructor
  · intro given
    exact (hintact.carried given).of_eq rfl rfl
      (congr_update Conduit.received (Conduit.received_write _ _) given)
  · exact fun given hgiven => absurd ((hstill given).symm.trans hgiven) Bool.false_ne_true
  · intro hending
    obtain ⟨given, hgiven⟩ := (hintact.concluded hending).1
    exact absurd ((hnobody given).symm.trans hgiven) Bool.false_ne_true
  · exact hintact.closed
  · exact hintact.live

theorem Intact.finish (hmannerly : state.Relayed side.other)
    (hnext : state.move (.finish side) = some next) : next.Intact := by
  rw [move, ite_none_left_eq_some] at hnext
  obtain ⟨_, hnext⟩ := hnext
  cases hnext
  have hrelayed : ∀ given, state.Relayed given → (state.outbound given.other).written =
      (update state.inbound side (state.inbound side).finish given).written := by
    intro given hgiven
    exact hgiven.trans (congr_update Conduit.written (by rfl) given).symm
  constructor
  · intro given
    exact (hintact.carried given).of_eq rfl rfl (congr_update Conduit.received (by rfl) given)
  · intro given hgiven
    apply hrelayed
    rcases eq_or_ne given side with rfl | hne
    · exact hmannerly
    · exact hintact.settled given
        ((congrArg Conduit.ended (update_of_ne hne _ _)).symm.trans hgiven)
  · intro hending
    have hover := hintact.concluded hending
    refine ⟨⟨side, ?_⟩, fun given => hrelayed given (hover.2 given)⟩
    exact congrArg Conduit.ended (update_self side (state.inbound side).finish state.inbound)
  · exact hintact.closed
  · exact hintact.live

theorem Intact.step {action : Move B ⊕ Work} (hmannerly : state.Mannerly action)
    (hnext : state.step tees action = some next) : next.Intact := by
  match action with
  | .inl (.send _ _) => exact hintact.send hmannerly hnext
  | .inl (.finish _) => exact hintact.finish hmannerly hnext
  | .inr (.receive _ _) => exact hintact.receive hnext
  | .inr (.read _ _) => exact hintact.read hnext
  | .inr (.stop _) => exact hintact.stop hnext
  | .inr (.write _) => exact hintact.write hnext
  | .inr .await => exact hintact.await hnext
  | .inr .close => exact hintact.close hnext

/-! ## At rest -/

/-- At rest everything has arrived. -/
theorem Intact.delivered (hrest : Quiescent (work tees) state) : state.Delivered := by
  intro side
  have harrived : (state.outbound side.other).pending = [] := by
    by_contra hpending
    obtain ⟨chunk, next, hread⟩ := Conduit.read_one hpending
    have hreceive := hrest (.receive side.other 1)
    rw [work, State.receive, hread] at hreceive
    cases hreceive
  rw [(Conduit.received_eq_written_iff _).2 harrived]
  by_cases hending : state.Ending
  · exact (hintact.concluded hending).2 side
  · have hopened : ∀ given, state.opened given = true := by
      intro given
      rw [← Bool.not_eq_false]
      exact fun hclosed => hending (.inr (.inr (hintact.closed given hclosed)))
    cases hcopier : state.copiers side with
    | reading =>
      have hnothing : (state.inbound side).pending = [] := by
        by_contra hpending
        obtain ⟨_, _, hread⟩ := Conduit.read_one hpending
        have hstep := hrest (.read side 1)
        simp only [work, State.read, hcopier, hopened, if_true, hread, map_some] at hstep
        cases hstep
      have hcarried := hintact.carried side (by simp [hcopier])
      rw [hcopier, Copier.chunk_reading, append_nil] at hcarried
      exact hcarried.trans ((Conduit.received_eq_written_iff _).2 hnothing)
    | writing =>
      have hstep := hrest (.write side)
      simp only [work, State.write, hcopier, hopened, if_true] at hstep
      cases hstep
    | returned => exact absurd (.inl ⟨side, hcopier⟩) hending

end

/-! ## The relay comes to rest -/

/-- What a goroutine has left to do. -/
def copierWeight : Copier B → ℕ
  | .reading => 2
  | .writing chunk => 2 * chunk.length + 3
  | .returned => 0

/-- What is left to do for the bytes that a side sends. -/
def sideWeight (state : State B) (side : Side) : ℕ :=
  4 * (state.inbound side).pending.length + copierWeight (state.copiers side) +
    (state.outbound side.other).pending.length

def weight (state : State B) : ℕ :=
  state.sideWeight .client + state.sideWeight .server + (state.results + state.handler.rank)

/-- A step that makes one side lighter and leaves the other as it was. -/
theorem weight_lt_of_side (side : Side)
    (hother : next.sideWeight side.other = state.sideWeight side.other)
    (hside : next.sideWeight side + (next.results + next.handler.rank) <
      state.sideWeight side + (state.results + state.handler.rank)) :
    next.weight < state.weight := by
  cases side with
  | client =>
    have hserver : next.sideWeight .server = state.sideWeight .server := hother
    rw [weight, weight]
    omega
  | server =>
    have hclient : next.sideWeight .client = state.sideWeight .client := hother
    rw [weight, weight]
    omega

/-- A step that changes no side and brings the handler on. -/
theorem weight_lt_of_handler (hsides : ∀ side, next.sideWeight side = state.sideWeight side)
    (hhandler : next.results + next.handler.rank < state.results + state.handler.rank) :
    next.weight < state.weight := by
  rw [weight, hsides, hsides]
  exact Nat.add_lt_add_left hhandler _

theorem sideWeight_congr (hinbound : (next.inbound side).pending = (state.inbound side).pending)
    (hcopier : next.copiers side = state.copiers side)
    (houtbound : (next.outbound side.other).pending = (state.outbound side.other).pending) :
    next.sideWeight side = state.sideWeight side := by
  rw [sideWeight, sideWeight, hinbound, hcopier, houtbound]

theorem report_weight_lt (hheavy : 1 < copierWeight (state.copiers side)) :
    (state.report side).weight < state.weight := by
  apply weight_lt_of_side side
  · exact sideWeight_congr rfl (update_of_ne (Side.other_ne side) _ _) rfl
  · have hcopier : (state.report side).copiers side = .returned := update_self _ _ _
    have hside : (state.report side).sideWeight side + copierWeight (state.copiers side) =
        state.sideWeight side := by
      rw [sideWeight, hcopier]
      exact Nat.add_right_comm _ _ _
    have hresults : (state.report side).results = state.results + 1 := rfl
    have hhandler : (state.report side).handler = state.handler := rfl
    rw [hhandler]
    omega

theorem work_weight_lt {action : Work} (hnext : state.work tees action = some next) :
    next.weight < state.weight := by
  cases action with
  | receive side =>
    rw [work, State.receive, map_eq_some_iff] at hnext
    obtain ⟨⟨chunk, outbound⟩, hread, rfl⟩ := hnext
    obtain ⟨_, _, _, hpending, hchunk⟩ := Conduit.read_eq_some hread
    have hlength := congrArg List.length hpending
    rw [length_append] at hlength
    have hpos := length_pos_of_ne_nil hchunk
    apply weight_lt_of_side side.other
    · refine sideWeight_congr rfl rfl ?_
      rw [Side.other_other]
      exact congrArg Conduit.pending (update_of_ne (Side.other_ne side) _ _)
    · simp only [sideWeight, Side.other_other, update_self]
      omega
  | read side =>
    obtain ⟨hcopier, _, chunk, _, hread, rfl⟩ := read_eq_some hnext
    obtain ⟨_, _, _, hpending, hchunk⟩ := Conduit.read_eq_some hread
    have hlength := congrArg List.length hpending
    rw [length_append] at hlength
    have hpos := length_pos_of_ne_nil hchunk
    apply weight_lt_of_side side
    · exact sideWeight_congr (congrArg Conduit.pending (update_of_ne (Side.other_ne side) _ _))
        (update_of_ne (Side.other_ne side) _ _) rfl
    · simp only [sideWeight, update_self, copierWeight, hcopier]
      omega
  | stop =>
    obtain ⟨hcopier, _, rfl⟩ := stop_eq_some hnext
    apply report_weight_lt
    rw [hcopier]
    exact Nat.one_lt_two
  | write side =>
    obtain ⟨chunk, hcopier, ⟨_, rfl⟩ | ⟨_, rfl⟩⟩ := write_eq_some hnext
    · have hlength := (state.outbound side.other).length_pending_write_le chunk
      apply weight_lt_of_side side
      · exact sideWeight_congr rfl (update_of_ne (Side.other_ne side) _ _)
          (congrArg Conduit.pending (update_of_ne (Side.other_ne side.other) _ _))
      · simp only [sideWeight, update_self, copierWeight, hcopier]
        omega
    · apply report_weight_lt
      rw [hcopier, copierWeight]
      omega
  | await =>
    rw [work, State.await, ite_none_right_eq_some] at hnext
    obtain ⟨⟨hhandler, hresults⟩, hnext⟩ := hnext
    cases hnext
    refine weight_lt_of_handler (fun side => sideWeight_congr rfl rfl rfl) ?_
    have hrank : Handler.rank .closeUpstream < Handler.rank .waiting := by decide
    rw [hhandler]
    exact Nat.add_lt_add (Nat.sub_one_lt_of_lt hresults) hrank
  | close =>
    obtain ⟨side, _, _, _, hrank, rfl⟩ := close_eq_some hnext
    apply weight_lt_of_handler
    · exact fun given => sideWeight_congr rfl rfl (congr_update Conduit.pending (by rfl) _)
    · exact Nat.add_lt_add_left hrank _

/-! ## Every byte arrives -/

/-- In a mannerly run the relay, left to itself at any moment, comes to rest, and however it
does so, all that was sent has been received. -/
theorem relay_delivers {actions : List (Move B ⊕ Work)}
    (hrun : runActions (step tees) initial actions = some state)
    (hmannerly : runActions.Throughout (step tees) Mannerly initial actions) :
    (∃ rest final, runActions (work tees) state rest = some final ∧
      Quiescent (work tees) final) ∧
    ∀ rest final, runActions (work tees) state rest = some final →
      Quiescent (work tees) final → final.Delivered := by
  have hintact : state.Intact := runActions.invariant_of_throughout Intact
    (fun _ _ _ haction hnext hbefore => hbefore.step haction hnext) hrun hmannerly intact_initial
  constructor
  · exact exists_quiescent (fun _ _ _ hnext => work_weight_lt hnext)
  · intro rest final hrest hquiescent
    have hfinal : final.Intact := runActions.invariant Intact (fun before action _ hnext hbefore =>
        hbefore.step (show before.Mannerly (.inr action) from trivial) hnext)
      hrest hintact
    exact hfinal.delivered hquiescent

/-- A request, the answer to it, and the end of both streams. -/
def requestAndAnswer : List (Move ℕ ⊕ Work) :=
  [.inl (.send .client [1, 2]), .inr (.read .client 2), .inr (.write .client),
    .inr (.receive .server 2), .inl (.send .server [3]), .inr (.read .server 1),
    .inr (.write .server), .inl (.finish .client), .inr (.stop .client)]

theorem relay_delivers_requestAndAnswer :
    ∃ state : State ℕ, runActions (step true) initial requestAndAnswer = some state ∧
      (∃ rest final, runActions (work true) state rest = some final ∧
        Quiescent (work true) final) ∧
      ∀ rest final, runActions (work true) state rest = some final →
        Quiescent (work true) final → final.Delivered := by
  have hmannerly : runActions.Throughout (step true) Mannerly (initial : State ℕ)
      requestAndAnswer :=
    .cons rfl rfl <| .cons trivial rfl <| .cons trivial rfl <| .cons trivial rfl <|
      .cons rfl rfl <| .cons trivial rfl <| .cons trivial rfl <| .cons rfl rfl <|
      .cons trivial rfl trivial
  exact ⟨_, rfl, relay_delivers rfl hmannerly⟩

/-- The client ends its stream after the request, and the answer is on its way when the
goroutine sees the end. -/
def answerAfterEnd : List (Move ℕ ⊕ Work) :=
  [.inl (.send .client [1, 2]), .inl (.finish .client), .inr (.read .client 2),
    .inr (.write .client), .inr (.receive .server 2), .inl (.send .server [3]),
    .inr (.stop .client), .inr .await, .inr .close, .inr .close, .inr (.stop .server)]

/-- The relay is at rest and the client never gets the answer. -/
theorem relay_loses_answer :
    ∃ state : State ℕ, runActions (step true) initial answerAfterEnd = some state ∧
      Quiescent (work true) state ∧ (state.inbound .server).written = [3] ∧
      (state.outbound .client).received = [] ∧ ¬ state.Delivered := by
  refine ⟨_, rfl, ?_, rfl, rfl, fun hdelivered => ?_⟩
  · intro action
    cases action with
    | receive side count =>
      cases side with
      | client | server => exact map_eq_none_iff.2 (Conduit.read_of_pending_nil rfl count)
    | read side count | stop side | write side => cases side <;> rfl
    | await => rfl
    | close => rfl
  · cases hdelivered .server

end Qtap.Egress.State
