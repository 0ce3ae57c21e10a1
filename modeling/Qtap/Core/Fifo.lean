import Mathlib.Tactic

/-!
# Matching answers with questions in order

A correlator for a pipelined protocol queues the questions and hands each answer to the
oldest one.  As long as no answer overtakes its question, the answers are matched with
the questions by position.  Answers that nobody asked for do no harm when they arrive
while no question is open.
-/

namespace Qtap.Core

open List

variable {Q R : Type*}

/-- The questions that are open, the answered ones, and the answers without question. -/
structure Matching (Q R : Type*) where
  pending : List Q := []
  pairs : List (Q × R) := []
  unmatched : List R := []

namespace Matching

def ask (matching : Matching Q R) (question : Q) : Matching Q R :=
  { matching with pending := matching.pending ++ [question] }

def answer (matching : Matching Q R) (response : R) : Matching Q R :=
  match matching.pending with
  | [] => { matching with unmatched := matching.unmatched ++ [response] }
  | question :: rest =>
    { matching with pending := rest, pairs := matching.pairs ++ [(question, response)] }

def step (matching : Matching Q R) : Q ⊕ R → Matching Q R
  | .inl question => matching.ask question
  | .inr response => matching.answer response

def run (trace : List (Q ⊕ R)) : Matching Q R := trace.foldl step {}

theorem run_concat (trace : List (Q ⊕ R)) (move : Q ⊕ R) :
    run (trace ++ [move]) = (run trace).step move := by
  rw [run, foldl_concat]
  rfl

end Matching

def questions (trace : List (Q ⊕ R)) : List Q := trace.filterMap Sum.getLeft?

def answers (trace : List (Q ⊕ R)) : List R := trace.filterMap Sum.getRight?

@[simp]
theorem questions_append (first second : List (Q ⊕ R)) :
    questions (first ++ second) = questions first ++ questions second :=
  filterMap_append

@[simp]
theorem answers_append (first second : List (Q ⊕ R)) :
    answers (first ++ second) = answers first ++ answers second :=
  filterMap_append

/-- Questions that nobody has answered yet change no pair. -/
theorem zip_append_left {asked : List Q} {answered : List R}
    (hlength : answered.length ≤ asked.length) (more : List Q) :
    (asked ++ more).zip answered = asked.zip answered := by
  have hlong : answered.length ≤ (asked ++ more).length := by
    rw [length_append]
    omega
  rw [zip_eq_zip_take_min, Nat.min_eq_right hlong, take_append_of_le_length hlength,
    ← Nat.min_eq_right hlength, ← zip_eq_zip_take_min]

/-- The next answer goes to the first question that is still open. -/
theorem zip_concat {asked : List Q} {answered : List R} {question : Q} {rest : List Q}
    (hopen : asked.drop answered.length = question :: rest) (response : R) :
    asked.zip (answered ++ [response]) = asked.zip answered ++ [(question, response)] ∧
      asked.drop (answered ++ [response]).length = rest := by
  have hlength : answered.length < asked.length := by
    by_contra hshort
    rw [drop_eq_nil_of_le (Nat.not_lt.1 hshort)] at hopen
    cases hopen
  have hasked : asked = asked.take answered.length ++ question :: rest := by
    rw [← hopen, take_append_drop]
  have htake : (asked.take answered.length).length = answered.length := by
    rw [length_take, Nat.min_eq_left hlength.le]
  constructor
  · calc asked.zip (answered ++ [response])
          = (asked.take answered.length ++ question :: rest).zip (answered ++ [response]) := by
            rw [← hasked]
      _ = (asked.take answered.length).zip answered ++ [(question, response)] := by
            rw [zip_append htake, zip_cons_cons, zip_nil_right]
      _ = asked.zip answered ++ [(question, response)] := by
            rw [← zip_append_left htake.ge (asked.drop answered.length), take_append_drop]
  · rw [length_append, length_singleton, ← drop_drop, hopen, drop_one, tail_cons]

section Positional

variable (stray : R → Bool)

/-- The answers that were asked for. -/
def expected (trace : List (Q ⊕ R)) : List R :=
  (answers trace).filter fun response => !stray response

/-- No answer overtakes its question, and a stray answer finds no question open. -/
structure Orderly (trace : List (Q ⊕ R)) : Prop where
  causal : ∀ past, past <+: trace → (expected stray past).length ≤ (questions past).length
  idle : ∀ past response, past ++ [.inr response] <+: trace → stray response = true →
    (questions past).length ≤ (expected stray past).length

variable {stray}

theorem Orderly.of_isPrefix {past trace : List (Q ⊕ R)} (horderly : Orderly stray trace)
    (hleading : past <+: trace) : Orderly stray past where
  causal := fun earlier hearlier => horderly.causal earlier (hearlier.trans hleading)
  idle := fun earlier response hearlier =>
    horderly.idle earlier response (hearlier.trans hleading)

/-- Answers are matched with the questions by position. -/
theorem Matching.run_eq_of_orderly {trace : List (Q ⊕ R)} (horderly : Orderly stray trace) :
    (run trace).pairs = (questions trace).zip (expected stray trace) ∧
      (run trace).pending = (questions trace).drop (expected stray trace).length := by
  induction trace using List.reverseRecOn with
  | nil => exact ⟨rfl, rfl⟩
  | append_singleton past move ih =>
    obtain ⟨hpairs, hpending⟩ := ih (horderly.of_isPrefix (prefix_append _ _))
    have hpast := horderly.causal past (prefix_append _ _)
    rw [run_concat]
    cases move with
    | inl question =>
      have hquestions : questions (past ++ [.inl question]) = questions past ++ [question] :=
        questions_append past [.inl question]
      have hexpected : expected stray (past ++ [.inl question]) = expected stray past := by
        simp [expected, answers]
      rw [hquestions, hexpected, zip_append_left hpast, drop_append_of_le_length hpast]
      exact ⟨hpairs, congrArg (· ++ [question]) hpending⟩
    | inr response =>
      have hquestions : questions (past ++ [.inr response]) = questions past := by
        simp [questions]
      have hanswers : answers (past ++ [.inr response]) = answers past ++ [response] :=
        answers_append past [.inr response]
      rw [hquestions, step, answer, hpending]
      cases hstray : stray response with
      | true =>
        have hnone : (questions past).drop (expected stray past).length = [] :=
          drop_eq_nil_of_le (horderly.idle past response (prefix_refl _) hstray)
        have hexpected : expected stray (past ++ [.inr response]) = expected stray past := by
          simp [expected, hanswers, hstray]
        rw [hexpected, hnone]
        exact ⟨hpairs, rfl⟩
      | false =>
        have hexpected : expected stray (past ++ [.inr response]) =
            expected stray past ++ [response] := by
          simp [expected, hanswers, hstray]
        have hcausal := horderly.causal _ (prefix_refl _)
        rw [hquestions, hexpected] at hcausal
        rw [hexpected]
        cases hopen : (questions past).drop (expected stray past).length with
        | nil =>
          rw [drop_eq_nil_iff] at hopen
          exact absurd (hcausal.trans hopen) (by simp)
        | cons =>
          obtain ⟨hzip, hdrop⟩ := zip_concat hopen response
          rw [hzip, hdrop, ← hpairs]
          exact ⟨rfl, rfl⟩

end Positional

end Qtap.Core
