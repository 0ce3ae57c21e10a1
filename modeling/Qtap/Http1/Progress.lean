import Qtap.Http1.Moves

/-!
# Every run of the HTTP/1 system ends

A move of the caller or a read takes work off the pipes; any other move brings its
goroutine closer to its end, where the readers of a body come back to the pipe after
finitely many returns.
-/

namespace Qtap.Http1

open Qtap.Core Qtap.Connection Qtap.Http1.System

variable {env : Env}

def RequestControl.weight : RequestControl env → ℕ ×ₗ ℕ
  | .head _ => toLex (8, 0)
  | .parsed _ => toLex (7, 0)
  | .stored _ => toLex (6, 0)
  | .notified _ => toLex (5, 0)
  | .waiting _ => toLex (4, 0)
  | .body state => toLex (3, env.reader.fuel state)
  | .discard => toLex (2, 0)
  | .failed _ => toLex (1, 0)
  | .exited => toLex (0, 0)

def ResponseControl.weight : ResponseControl env → ℕ ×ₗ ℕ
  | .parsed _ => toLex (5, 0)
  | .head _ => toLex (4, 0)
  | .body state => toLex (3, env.reader.fuel state)
  | .discard => toLex (2, 0)
  | .awaiting => toLex (1, 0)
  | .failed _ => toLex (1, 0)
  | .closing => toLex (0, 0)
  | .exited => toLex (0, 0)

theorem lex_lt_of_rank {left right leftFuel rightFuel : ℕ} (hrank : left < right) :
    toLex (left, leftFuel) < toLex (right, rightFuel) :=
  Prod.Lex.toLex_lt_toLex.2 (.inl hrank)

theorem lex_lt_of_fuel {rank leftFuel rightFuel : ℕ} (hfuel : leftFuel < rightFuel) :
    toLex (rank, leftFuel) < toLex (rank, rightFuel) :=
  Prod.Lex.toLex_lt_toLex.2 (.inr ⟨rfl, hfuel⟩)

variable {transaction after : Transaction env} {callbacks : List Callback} {data : List Byte}
  {count : ℕ}

theorem RequestWork.decreases (hwork : RequestWork transaction callbacks after) :
    after.request.weight < transaction.request.weight ∧ after.response = transaction.response := by
  refine ⟨?_, by cases hwork <;> rfl⟩
  cases hwork with
  | fail hcontrol | store hcontrol | notify hcontrol | resume hcontrol | cancel hcontrol
  | endHead hcontrol | endDiscard hcontrol =>
    rw [hcontrol]
    exact lex_lt_of_rank (by decide)
  | branch hcontrol =>
    rw [hcontrol]
    dsimp only [afterNotified]
    split_ifs <;> exact lex_lt_of_rank (by decide)
  | complain hcontrol hpoll =>
    rw [hcontrol]
    exact lex_lt_of_fuel (env.reader.complain_lt hpoll)
  | @yield state next data status hcontrol hpoll =>
    rw [hcontrol]
    cases status with
    | ok => exact lex_lt_of_fuel (env.reader.yield_lt hpoll)
    | eof | error => exact lex_lt_of_rank (by decide)
  | endBody hcontrol hpoll =>
    rw [hcontrol]
    exact lex_lt_of_fuel (env.reader.hangup_lt hpoll)

theorem continueSignal_frame (transaction : Transaction env) (response : Response) :
    (continueSignal transaction response).request = transaction.request ∧
      (continueSignal transaction response).cancelled = transaction.cancelled ∧
      (continueSignal transaction response).closed = transaction.closed := by
  unfold continueSignal
  split_ifs <;> exact ⟨rfl, rfl, rfl⟩

theorem ResponseWork.decreases (hwork : ResponseWork transaction callbacks after) :
    after.response.weight < transaction.response.weight ∧ after.request = transaction.request := by
  constructor
  · cases hwork with
    | fail hcontrol | close hcontrol | switch hcontrol | interim hcontrol | endHead hcontrol
    | endDiscard hcontrol =>
      rw [hcontrol]
      exact lex_lt_of_rank (by decide)
    | final hcontrol hinterim hnext =>
      rw [hcontrol]
      rcases hnext with rfl | rfl <;> exact lex_lt_of_rank (by decide)
    | complain hcontrol hpoll =>
      rw [hcontrol]
      exact lex_lt_of_fuel (env.reader.complain_lt hpoll)
    | @yield state next data status hcontrol hpoll =>
      rw [hcontrol]
      cases status with
      | ok => exact lex_lt_of_fuel (env.reader.yield_lt hpoll)
      | eof | error => exact lex_lt_of_rank (by decide)
    | endBody hcontrol hpoll =>
      rw [hcontrol]
      exact lex_lt_of_fuel (env.reader.hangup_lt hpoll)
  · cases hwork with
    | interim => exact (continueSignal_frame transaction _).1
    | _ => rfl

/-! ## Work on the pipes -/

theorem RequestRead.takes {control next : RequestControl env}
    (hread : RequestRead control data count next) : data = [] ∨ 0 < count := by
  cases hread with
  | skip => exact .inl rfl
  | byte => exact .inr Nat.one_pos
  | body data hpoll => exact .inr (env.reader.need_pos hpoll)
  | discard => exact .inr (by decide)

theorem ResponseRead.takes {control next : ResponseControl env}
    (hread : ResponseRead control data count next) : data = [] ∨ 0 < count := by
  cases hread with
  | skip => exact .inl rfl
  | byte => exact .inr Nat.one_pos
  | body data hpoll => exact .inr (env.reader.need_pos hpoll)
  | discard => exact .inr (by decide)

namespace System

/-- The bytes to be written, with the writes counted when they start and when they return. -/
def load (system : System env) : ℕ :=
  (system.pending.map fun event => event.data.length + 2).sum +
    (system.writing.map fun event => event.data.length + 1).getD 0

variable {system next : System env}

theorem load_take {phase : Phase} (hoffered : system.offered phase = some data)
    (htakes : data = [] ∨ 0 < count) : (system.take count).load < system.load := by
  have hwriting := offered_eq_some hoffered
  unfold load take
  rw [hwriting]
  dsimp only
  split_ifs with hdone
  · simp
  · have hlength := List.length_drop (l := data) (i := count)
    have hpos : 0 < data.length := by
      rw [List.length_pos_iff]
      rintro rfl
      exact hdone List.drop_nil
    have hcount : 0 < count := htakes.resolve_left (List.length_pos_iff.1 hpos)
    simp only [Option.map_some, Option.getD_some]
    omega

def weight (system : System env) : ℕ ×ₗ (ℕ ×ₗ ℕ) ×ₗ (ℕ ×ₗ ℕ) :=
  toLex (system.load, match system.session with
    | some transaction => toLex (transaction.request.weight, transaction.response.weight)
    | none => toLex (toLex (0, 0), toLex (0, 0)))

theorem weight_lt_of_load (hload : next.load < system.load) : next.weight < system.weight :=
  Prod.Lex.toLex_lt_toLex.2 (.inl hload)

theorem weight_lt_of_work (hsession : system.session = some transaction)
    (hweight : toLex (after.request.weight, after.response.weight) <
      toLex (transaction.request.weight, transaction.response.weight)) :
    ((system.report callbacks).setSession after).weight < system.weight := by
  unfold weight
  rw [hsession]
  exact Prod.Lex.toLex_lt_toLex.2 (.inr ⟨rfl, hweight⟩)

theorem load_start {event : Event} {rest : List Event}
    (hpending : system.pending = event :: rest) (hwriting : next.writing = some event)
    (hpending' : next.pending = rest) : next.load < system.load := by
  unfold load
  rw [hpending, hwriting, hpending']
  simp only [List.map_cons, List.sum_cons, Option.map_some, Option.getD_some]
  omega

/-- Each move decreases the weight of the system. -/
theorem move_decreases (hmove : Move system next) : next.weight < system.weight := by
  cases hmove with
  | write hwriting hpending | begin hwriting hpending =>
    apply weight_lt_of_load
    exact load_start hpending rfl rfl
  | error hwriting =>
    apply weight_lt_of_load
    simp [load, hwriting]
  | requestWork hsession hwork =>
    obtain ⟨hrequest, hresponse⟩ := hwork.decreases
    apply weight_lt_of_work hsession
    exact Prod.Lex.toLex_lt_toLex.2 (.inl hrequest)
  | requestRead hsession hoffered hread | responseRead hsession hoffered hread =>
    apply weight_lt_of_load
    exact load_take hoffered hread.takes
  | responseWork hsession hwork =>
    obtain ⟨hresponse, hrequest⟩ := hwork.decreases
    apply weight_lt_of_work hsession
    rw [hrequest]
    exact Prod.Lex.toLex_lt_toLex.2 (.inr ⟨rfl, hresponse⟩)

/-- Under every schedule the caller and the goroutines come to a stop. -/
theorem steps_wellFounded : WellFounded fun next system : System env =>
    ∃ action, system.step action = some next :=
  Subrelation.wf (fun hstep => move_decreases (step_move hstep.choose_spec))
    (InvImage.wf weight wellFounded_lt)

end System

end Qtap.Http1
