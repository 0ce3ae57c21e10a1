import Mathlib.Tactic

/-!
# Families of independent machines

A processor that keeps one machine per key and routes each input to the machine of its
key behaves, seen at one key, like that machine fed with the inputs of the key alone:
how the inputs of different keys are interleaved does not matter.
-/

namespace Qtap.Core

open Function

variable {K S I O : Type*}

/-- Feed a machine with inputs and collect its outputs. -/
def feed (step : S → I → S × List O) (state : S) : List I → S × List O
  | [] => (state, [])
  | input :: inputs =>
    ((feed step (step state input).1 inputs).1,
      (step state input).2 ++ (feed step (step state input).1 inputs).2)

theorem feed_append (step : S → I → S × List O) (state : S) (first second : List I) :
    feed step state (first ++ second) = ((feed step (feed step state first).1 second).1,
        (feed step state first).2 ++ (feed step (feed step state first).1 second).2) := by
  induction first generalizing state with
  | nil => rfl
  | cons input inputs ih => simp [feed, ih]

/-- What every step of a run preserves, given the inputs before it, the whole run
preserves. -/
theorem feed_induction {step : S → I → S × List O} {state : S} {inputs : List I}
    (holds : List I → S → List O → Prop) (hinit : holds [] state [])
    (hstep : ∀ past input future, inputs = past ++ input :: future →
      holds past (feed step state past).1 (feed step state past).2 →
      holds (past ++ [input]) (step (feed step state past).1 input).1
        ((feed step state past).2 ++ (step (feed step state past).1 input).2)) :
    holds inputs (feed step state inputs).1 (feed step state inputs).2 := by
  have hleading : ∀ past future, inputs = past ++ future →
      holds past (feed step state past).1 (feed step state past).2 := by
    intro past
    induction past using List.reverseRecOn with
    | nil => exact fun _ _ => hinit
    | append_singleton past input ih =>
      intro future hsplit
      rw [List.append_assoc] at hsplit
      rw [feed_append]
      simpa only [feed, List.append_nil] using hstep past input future hsplit (ih _ hsplit)
  exact hleading inputs [] (List.append_nil _).symm

section Route

variable [DecidableEq K]

/-- Route each input to the machine of its key. -/
def route (step : K → S → I → S × List O) (table : K → S) : List (K × I) → (K → S) × List (K × O)
  | [] => (table, [])
  | (key, input) :: inputs =>
    let (next, outputs) := step key (table key) input
    ((route step (Function.update table key next) inputs).1,
      outputs.map (Prod.mk key) ++ (route step (Function.update table key next) inputs).2)

theorem route_append (step : K → S → I → S × List O) (table : K → S) (first second : List (K × I)) :
    route step table (first ++ second) = ((route step (route step table first).1 second).1,
        (route step table first).2 ++ (route step (route step table first).1 second).2) := by
  induction first generalizing table with
  | nil => rfl
  | cons entry first ih => simp [route, ih]

/-- The entries of one key, in order. -/
def entriesOf (key : K) {A : Type*} (entries : List (K × A)) : List A :=
  (entries.filter fun entry => entry.1 == key).map Prod.snd

variable {A : Type*} {key : K}

@[simp]
theorem entriesOf_nil (key : K) : entriesOf key ([] : List (K × A)) = [] := rfl

@[simp]
theorem entriesOf_append (key : K) (first second : List (K × A)) :
    entriesOf key (first ++ second) = entriesOf key first ++ entriesOf key second := by
  simp [entriesOf]

theorem entriesOf_isPrefix (key : K) {first second : List (K × A)} (hleading : first <+: second) :
    entriesOf key first <+: entriesOf key second :=
  (hleading.filter _).map _

theorem entriesOf_map_mk_self (key : K) (values : List A) :
    entriesOf key (values.map (Prod.mk key)) = values := by
  induction values with
  | nil => rfl
  | cons value values ih => simpa [entriesOf] using ih

theorem entriesOf_map_mk_of_ne {other : K} (hne : other ≠ key) (values : List A) :
    entriesOf key (values.map (Prod.mk other)) = [] := by
  simp [entriesOf, hne]

theorem entriesOf_cons_self (key : K) (value : A) (entries : List (K × A)) :
    entriesOf key ((key, value) :: entries) = value :: entriesOf key entries := by
  simp [entriesOf]

theorem entriesOf_cons_of_ne {other : K} (hne : other ≠ key) (value : A) (entries : List (K × A)) :
    entriesOf key ((other, value) :: entries) = entriesOf key entries := by
  simp [entriesOf, hne]

/-- An entry of one key, with the entries of that key before it, in the whole list. -/
theorem entriesOf_split {value : A} {past future : List A} :
    ∀ {entries : List (K × A)}, entriesOf key entries = past ++ value :: future →
      ∃ before after, entries = before ++ (key, value) :: after ∧ entriesOf key before = past := by
  intro entries hentries
  induction entries generalizing past with
  | nil => cases past <;> cases hentries
  | cons entry entries ih =>
    obtain ⟨other, head⟩ := entry
    by_cases hkey : other = key
    · subst hkey
      rw [entriesOf_cons_self] at hentries
      cases past with
      | nil =>
        obtain ⟨rfl, _⟩ := List.cons.inj hentries
        exact ⟨[], entries, rfl, rfl⟩
      | cons =>
        obtain ⟨rfl, htail⟩ := List.cons.inj hentries
        obtain ⟨before, after, rfl, hbefore⟩ := ih htail
        exact ⟨(other, head) :: before, after, rfl, by rw [entriesOf_cons_self, hbefore]⟩
    · rw [entriesOf_cons_of_ne hkey] at hentries
      obtain ⟨before, after, rfl, hbefore⟩ := ih hentries
      exact ⟨(other, head) :: before, after, rfl, by rw [entriesOf_cons_of_ne hkey, hbefore]⟩

/-- Seen at one key, the family is the machine of that key on the inputs of that key. -/
theorem route_at (step : K → S → I → S × List O) (table : K → S) (inputs : List (K × I)) (key : K) :
    ((route step table inputs).1 key, entriesOf key (route step table inputs).2) =
      feed (step key) (table key) (entriesOf key inputs) := by
  induction inputs generalizing table with
  | nil => rfl
  | cons entry inputs ih =>
    obtain ⟨other, input⟩ := entry
    have hrest := ih (update table other (step other (table other) input).1)
    simp only [Prod.ext_iff] at hrest
    simp only [route, entriesOf_append]
    by_cases hkey : other = key
    · subst hkey
      rw [update_self] at hrest
      rw [hrest.1, hrest.2, entriesOf_map_mk_self, entriesOf_cons_self]
      rfl
    · rw [update_of_ne (Ne.symm hkey)] at hrest
      rw [hrest.1, hrest.2, entriesOf_map_mk_of_ne hkey, entriesOf_cons_of_ne hkey]
      rfl

end Route

end Qtap.Core
