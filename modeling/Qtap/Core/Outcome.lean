import Mathlib.Tactic

/-!
# Outcomes of Go functions over byte slices

A Go function that slices and allocates ends in one of three ways: it returns a
value, it returns an error, or it panics.  `Outcome` keeps the three apart and
`Exec` adds the sizes handed to `make` on the way, so that both a missing panic and
a bound on allocation are statements about the value the model computes.
-/

namespace Qtap.Core

abbrev Byte := UInt8

/-- The run-time panics of the modelled code. -/
inductive Fault where
  | sliceBounds
  | makeSize
  deriving DecidableEq, Repr

inductive Outcome (E : Type*) (A : Type*) where
  | ok (value : A)
  | err (error : E)
  | panic (fault : Fault)
  deriving DecidableEq, Repr

namespace Outcome

variable {E A : Type*}

def Panics (outcome : Outcome E A) : Prop := ∃ fault, outcome = panic fault

@[simp]
theorem not_panics_ok (value : A) : ¬ (ok value : Outcome E A).Panics := by
  rintro ⟨_, hfault⟩
  cases hfault

@[simp]
theorem not_panics_err (error : E) : ¬ (err error : Outcome E A).Panics := by
  rintro ⟨_, hfault⟩
  cases hfault

@[simp]
theorem panics_panic (fault : Fault) : (panic fault : Outcome E A).Panics :=
  ⟨fault, rfl⟩

instance [DecidableEq E] [DecidableEq A] (outcome : Outcome E A) : Decidable outcome.Panics :=
  match outcome with
  | ok value => isFalse (not_panics_ok value)
  | err error => isFalse (not_panics_err error)
  | panic fault => isTrue (panics_panic fault)

end Outcome

/-- The course of a call: how it ended and the size arguments of its `make` calls. -/
structure Exec (E : Type*) (A : Type*) where
  outcome : Outcome E A
  makes : List ℤ := []
  deriving DecidableEq, Repr

namespace Exec

variable {E A B : Type*}

def ok (value : A) : Exec E A := { outcome := .ok value }

def err (error : E) : Exec E A := { outcome := .err error }

def bind (exec : Exec E A) (next : A → Exec E B) : Exec E B :=
  match exec.outcome with
  | .ok value =>
    { outcome := (next value).outcome, makes := exec.makes ++ (next value).makes }
  | .err error => { outcome := .err error, makes := exec.makes }
  | .panic fault => { outcome := .panic fault, makes := exec.makes }

/-- The value that the call returns, when it returns one. -/
def value? (exec : Exec E A) : Option A :=
  match exec.outcome with
  | .ok value => some value
  | _ => none

/-- The call returns a value, and the value satisfies `post`. -/
def Returns (exec : Exec E A) (post : A → Prop) : Prop :=
  ∃ value, exec.outcome = .ok value ∧ post value

/-- A call is faulty when it panics or passes a negative size to `make`. -/
def Faulty (exec : Exec E A) : Prop :=
  exec.outcome.Panics ∨ ∃ size ∈ exec.makes, size < 0

variable {exec : Exec E A} {value : A} {next : A → Exec E B}

theorem value?_of_ok (hexec : exec.outcome = .ok value) : exec.value? = some value := by
  rw [value?, hexec]

@[simp]
theorem ok_outcome (value : A) : (ok value : Exec E A).outcome = .ok value := rfl

@[simp]
theorem err_outcome (error : E) : (err error : Exec E A).outcome = .err error := rfl

@[simp]
theorem ok_inj {other : A} : (ok value : Exec E A) = ok other ↔ value = other := by
  simp [ok]

@[simp]
theorem not_faulty_ok (value : A) : ¬ (ok value : Exec E A).Faulty := by
  simp [Faulty, ok]

@[simp]
theorem not_faulty_err (error : E) : ¬ (err error : Exec E A).Faulty := by
  simp [Faulty, err]

@[simp]
theorem bind_ok (value : A) (next : A → Exec E B) : (ok value).bind next = next value := by
  simp [bind, ok]

@[simp]
theorem bind_err (error : E) (next : A → Exec E B) :
    (err error : Exec E A).bind next = err error := rfl

theorem bind_assoc {C : Type*} (exec : Exec E A) (next : A → Exec E B) (last : B → Exec E C) :
    (exec.bind next).bind last = exec.bind fun value => (next value).bind last := by
  obtain ⟨_ | _ | _, _⟩ := exec
  · simp only [bind]
    split <;> simp [List.append_assoc]
  · rfl
  · rfl

theorem bind_outcome_of_ok (hexec : exec.outcome = .ok value) :
    (exec.bind next).outcome = (next value).outcome := by
  rw [bind, hexec]

theorem bind_outcome_eq_ok_iff {value : B} :
    (exec.bind next).outcome = .ok value ↔
      ∃ inner, exec.outcome = .ok inner ∧ (next inner).outcome = .ok value := by
  rcases exec with ⟨outcome, _⟩
  cases outcome <;> simp [bind]

theorem returns_ok {post : A → Prop} (hpost : post value) : (ok value : Exec E A).Returns post :=
  ⟨value, rfl, hpost⟩

theorem Returns.bind {mid : A → Prop} {post : B → Prop} (hexec : exec.Returns mid)
    (hnext : ∀ value, mid value → (next value).Returns post) : (exec.bind next).Returns post := by
  obtain ⟨value, hvalue, hmid⟩ := hexec
  obtain ⟨result, hresult, hpost⟩ := hnext value hmid
  exact ⟨result, bind_outcome_eq_ok_iff.2 ⟨value, hvalue, hresult⟩, hpost⟩

theorem Returns.mono {post weaker : A → Prop} (hexec : exec.Returns post)
    (hweaker : ∀ value, post value → weaker value) : exec.Returns weaker := by
  obtain ⟨value, hvalue, hpost⟩ := hexec
  exact ⟨value, hvalue, hweaker value hpost⟩

/-- The call returns a value and allocates nothing on the way. -/
def Completes (exec : Exec E A) : Prop := ∃ value, exec = ok value

theorem completes_ok (value : A) : (ok value : Exec E A).Completes := ⟨value, rfl⟩

theorem Completes.bind (hexec : exec.Completes)
    (hnext : ∀ value, exec = ok value → (next value).Completes) : (exec.bind next).Completes := by
  obtain ⟨value, rfl⟩ := hexec
  exact hnext value rfl

theorem Completes.bindOk (hexec : exec.Completes) (next : A → B) :
    (exec.bind fun value => ok (next value)).Completes :=
  hexec.bind fun value _ => completes_ok (next value)

/-- A missing value ends the call. -/
theorem Completes.bindSome {exec : Exec E (Option A)} {next : Option A → Exec E B}
    (hexec : exec.Completes) {other : B} (hnone : next none = .ok other)
    (hsome : ∀ value, (next (some value)).Completes) : (exec.bind next).Completes := by
  apply hexec.bind
  rintro (_ | value) -
  · exact ⟨other, hnone⟩
  · exact hsome value

theorem completes_ite {p : Prop} [Decidable p] {other : Exec E A} (hyes : p → exec.Completes)
    (hno : ¬ p → other.Completes) : (if p then exec else other).Completes := by
  split_ifs with hp
  · exact hyes hp
  · exact hno hp

/-- A guard in front of the call. -/
theorem completes_guard {p : Prop} [Decidable p] {value : A} (hexec : ¬ p → exec.Completes) :
    (if p then ok value else exec).Completes :=
  completes_ite (fun _ => completes_ok value) hexec

/-- What the one call returns, the other returns too. -/
def Agrees (exec other : Exec E A) : Prop :=
  ∀ value, exec.outcome = .ok value → other.outcome = .ok value

theorem Agrees.refl (exec : Exec E A) : exec.Agrees exec := fun _ hvalue => hvalue

theorem agrees_err (error : E) (other : Exec E A) : (err error : Exec E A).Agrees other :=
  fun _ hvalue => nomatch hvalue

theorem Agrees.bind {other : Exec E A} {next' : A → Exec E B} (hexec : exec.Agrees other)
    (hnext : ∀ value, exec.outcome = .ok value → (next value).Agrees (next' value)) :
    (exec.bind next).Agrees (other.bind next') := by
  intro result hresult
  obtain ⟨value, hvalue, hvalue'⟩ := bind_outcome_eq_ok_iff.1 hresult
  exact bind_outcome_eq_ok_iff.2 ⟨value, hexec value hvalue, hnext value hvalue result hvalue'⟩

theorem faulty_bind_iff :
    (exec.bind next).Faulty ↔
      exec.Faulty ∨ ∃ inner, exec.outcome = .ok inner ∧ (next inner).Faulty := by
  rcases exec with ⟨outcome, _⟩
  cases outcome with
  | ok =>
    simp only [bind, Faulty, List.mem_append, Outcome.not_panics_ok, false_or,
      Outcome.ok.injEq, exists_eq_left']
    constructor
    · rintro (hpanics | ⟨size, hsize | hsize, hneg⟩)
      · exact .inr (.inl hpanics)
      · exact .inl ⟨size, hsize, hneg⟩
      · exact .inr (.inr ⟨size, hsize, hneg⟩)
    · rintro (⟨size, hsize, hneg⟩ | hpanics | ⟨size, hsize, hneg⟩)
      · exact .inr ⟨size, .inl hsize, hneg⟩
      · exact .inl hpanics
      · exact .inr ⟨size, .inr hsize, hneg⟩
  | err => simp [bind, Faulty]
  | panic => simp [bind, Faulty]

end Exec

/-! ## 64-bit integers -/

/-- Two's-complement reading of an integer in 64 bits. -/
def wrap64 (value : ℤ) : ℤ := value.bmod (2 ^ 64)

theorem wrap64_of_mem {value : ℤ} (hlow : -2 ^ 63 ≤ value) (hhigh : value < 2 ^ 63) :
    wrap64 value = value := by
  apply Int.bmod_eq_of_le
  · simpa using hlow
  · simpa using hhigh

theorem wrap64_of_overflow {value : ℤ} (hlow : 2 ^ 63 ≤ value)
    (hhigh : value < 2 ^ 64 + 2 ^ 63) : wrap64 value = value - 2 ^ 64 := by
  have hshift : wrap64 value = wrap64 (value - 2 ^ 64) := by
    have := Int.sub_bmod_right value (2 ^ 64)
    unfold wrap64
    rw [← this]
    norm_num
  rw [hshift]
  apply wrap64_of_mem
  · omega
  · omega

theorem wrap64_natCast {value : ℕ} (hvalue : value < 2 ^ 63) : wrap64 (value : ℤ) = value := by
  apply wrap64_of_mem
  · omega
  · exact_mod_cast hvalue

/-! ## Slices and allocation -/

variable {E : Type*}

/-- The slice expression `data[low:high]`.  The model bounds `high` by the length:
every out-of-range bound met in this development lies outside any capacity too. -/
def slice (data : List Byte) (low high : ℤ) : Exec E (List Byte) :=
  if 0 ≤ low ∧ low ≤ high ∧ high ≤ data.length then
    .ok ((data.drop low.toNat).take (high - low).toNat)
  else
    { outcome := .panic .sliceBounds }

variable {data : List Byte} {low : ℕ} {count : ℤ}

theorem slice_of_le {high : ℕ} (hlow : low ≤ high) (hhigh : high ≤ data.length) :
    (slice data low high : Exec E (List Byte)) = .ok ((data.drop low).take (high - low)) := by
  have hrange : (0 : ℤ) ≤ low ∧ (low : ℤ) ≤ high ∧ (high : ℤ) ≤ data.length := by omega
  have hsize : ((high : ℤ) - low).toNat = high - low := by omega
  rw [slice, if_pos hrange, hsize]
  rfl

theorem slice_completes {high : ℕ} (hlow : low ≤ high) (hhigh : high ≤ data.length) :
    (slice data low high : Exec E (List Byte)).Completes :=
  ⟨_, slice_of_le hlow hhigh⟩

theorem slice_suffix (hlow : low ≤ data.length) :
    (slice data low data.length : Exec E (List Byte)) = .ok (data.drop low) := by
  rw [slice_of_le hlow le_rfl, List.take_of_length_le (by simp)]

/-- Bytes behind the slice do not change it. -/
theorem slice_agrees {data more : List Byte} {low high : ℤ} :
    (slice data low high : Exec E (List Byte)).Agrees (slice (data ++ more) low high) := by
  intro text htext
  rw [slice] at htext
  split_ifs at htext with hrange
  rw [slice, if_pos (by rw [List.length_append]; omega), ← htext, Exec.ok_outcome, Exec.ok_outcome,
    List.drop_append_of_le_length (by omega), List.take_append_of_le_length (by
      rw [List.length_drop]
      omega)]

theorem slice_suffix_append {rest : List Byte} {low : ℤ}
    (hrest : (slice data low data.length : Exec E (List Byte)).outcome = .ok rest)
    (more : List Byte) :
    (slice (data ++ more) low (data ++ more).length : Exec E (List Byte)).outcome =
      .ok (rest ++ more) := by
  rw [slice] at hrest
  split_ifs at hrest with hrange
  obtain ⟨start, rfl⟩ := Int.eq_ofNat_of_zero_le hrange.1
  have hstart : start ≤ data.length := by omega
  have hwhole : ((data.length : ℤ) - start).toNat = (data.drop start).length := by
    rw [List.length_drop]
    omega
  rw [Exec.ok_outcome, hwhole, Int.toNat_natCast, List.take_length, Outcome.ok.injEq] at hrest
  rw [slice_suffix (hstart.trans (by simp)), List.drop_append_of_le_length hstart, hrest,
    Exec.ok_outcome]

/-- The largest allocation of the 64-bit runtime, in bytes.  No slice is longer. -/
def maxAlloc : ℕ := 2 ^ 48

/-- `make([]T, 0, count)` for elements of `elemSize` bytes: the runtime panics on a
negative capacity and on one that exceeds the address space. -/
def makeSlice (elemSize : ℕ) (count : ℤ) : Exec E Unit where
  outcome := if 0 ≤ count ∧ count * elemSize ≤ maxAlloc then .ok () else .panic .makeSize
  makes := [count]

/-- `make(map[K]V, count)`: the size is a hint, and no value of it panics. -/
def makeMap (count : ℤ) : Exec E Unit where
  outcome := .ok ()
  makes := [count]

theorem makeSlice_outcome_eq_ok_iff {elemSize : ℕ} :
    (makeSlice elemSize count : Exec E Unit).outcome = .ok () ↔
      0 ≤ count ∧ count * elemSize ≤ maxAlloc := by
  simp [makeSlice]

theorem faulty_makeSlice_iff {elemSize : ℕ} :
    (makeSlice elemSize count : Exec E Unit).Faulty ↔
      ¬ (0 ≤ count ∧ count * elemSize ≤ maxAlloc) := by
  by_cases hcount : 0 ≤ count ∧ count * elemSize ≤ maxAlloc <;>
    simp [Exec.Faulty, makeSlice, hcount]

@[simp]
theorem makeMap_outcome (count : ℤ) : (makeMap count : Exec E Unit).outcome = .ok () := rfl

@[simp]
theorem faulty_makeMap_iff : (makeMap count : Exec E Unit).Faulty ↔ count < 0 := by
  simp [Exec.Faulty, makeMap]

end Qtap.Core
