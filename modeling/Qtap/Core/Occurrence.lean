import Mathlib.Tactic

/-!
# Removing the occurrences of a word

A word is unbordered when none of its proper parts stands both at its beginning and at its end.
Put at the end of a text that does not contain it, such a word occurs there and nowhere else, and
removing its occurrences gives the text back.
-/

namespace Qtap.Core

open List

variable {α : Type*}

/-- A part at the end of two texts is at the end of the second or reaches into the first. -/
theorem isSuffix_append_cases {part first second : List α} (hpart : part <:+ first ++ second) :
    part <:+ second ∨ ∃ front, front <:+ first ∧ part = front ++ second := by
  rcases suffix_or_suffix_of_suffix hpart (suffix_append first second) with
    hinside | ⟨front, rfl⟩
  · exact .inl hinside
  · exact .inr ⟨front, suffix_append_self_iff.1 hpart, rfl⟩

def Unbordered (word : List α) : Prop :=
  ∀ border, border <+: word → border <:+ word → border = [] ∨ border = word

/-- It is enough to look at the parts of each length. -/
theorem unbordered_of_forall_take {word : List α}
    (hword : ∀ length < word.length, word.take length = word.drop (word.length - length) →
      length = 0) : Unbordered word := by
  intro border hstart hend
  rcases hstart.length_le.lt_or_eq with hshort | hwhole
  · have htake := prefix_iff_eq_take.1 hstart
    have hdrop := suffix_iff_eq_drop.1 hend
    exact .inl (eq_nil_of_length_eq_zero (hword _ hshort (htake.symm.trans hdrop)))
  · exact .inr (hstart.eq_of_length hwhole)

/-- An unbordered word and a text without it: where the word is found in the text with the word
at its end, the text is at its end. -/
theorem Unbordered.eq_nil_of_isPrefix {word text : List α} (hword : Unbordered word)
    (htext : ¬ word <:+: text) (hfound : word <+: text ++ word) : text = [] := by
  rcases Nat.le_total word.length text.length with hlong | hshort
  · have hinside : word <+: text :=
      prefix_of_prefix_length_le hfound (prefix_append _ _) hlong
    exact absurd hinside.isInfix htext
  · obtain ⟨border, hborder⟩ : text <+: word :=
      prefix_of_prefix_length_le (prefix_append _ _) hfound hshort
    have hstart : border <+: word := by
      rw [← prefix_append_right_inj text, hborder]
      exact hfound
    have hend : border <:+ word := ⟨text, hborder⟩
    rcases hword border hstart hend with rfl | rfl
    · rw [append_nil] at hborder
      exact absurd (hborder ▸ infix_rfl) htext
    · exact append_left_eq_self.1 hborder

variable [DecidableEq α]

/-- The text without the word, leaving out what is still to be skipped. -/
def removeAllFrom (word : List α) : ℕ → List α → List α
  | _, [] => []
  | skip + 1, _ :: text => removeAllFrom word skip text
  | 0, head :: text =>
    if word.isPrefixOf (head :: text) then removeAllFrom word (word.length - 1) text
    else head :: removeAllFrom word 0 text

/-- The text without the occurrences of a word that is not empty, from left to right. -/
def removeAll (word text : List α) : List α := removeAllFrom word 0 text

section Remove

variable {word text : List α}

theorem removeAllFrom_length (skipped text : List α) :
    removeAllFrom word skipped.length (skipped ++ text) = removeAllFrom word 0 text := by
  induction skipped with
  | nil => rfl
  | cons head skipped ih => exact ih

/-- The word at the beginning of a text is removed. -/
theorem removeAll_append_left (hword : word ≠ []) (text : List α) :
    removeAll word (word ++ text) = removeAll word text := by
  obtain ⟨_, rest, rfl⟩ := exists_cons_of_ne_nil hword
  rw [removeAll, cons_append, removeAllFrom, if_pos]
  · exact removeAllFrom_length rest text
  · rw [List.isPrefixOf_iff_prefix]
    exact prefix_append _ _

theorem removeAll_cons {head : α} (hhead : ¬ word <+: head :: text) :
    removeAll word (head :: text) = head :: removeAll word text := by
  rw [removeAll, removeAllFrom, if_neg]
  · rfl
  · rw [List.isPrefixOf_iff_prefix]
    exact hhead

theorem removeAll_of_not_isInfix (htext : ¬ word <:+: text) : removeAll word text = text := by
  induction text with
  | nil => rfl
  | cons head text ih =>
    rw [removeAll_cons fun hstart => htext hstart.isInfix,
      ih fun hinside => htext (infix_cons hinside)]

/-- Removing the word takes back that it was put at the end. -/
theorem removeAll_append_right (hword : Unbordered word) (hnonempty : word ≠ [])
    (htext : ¬ word <:+: text) : removeAll word (text ++ word) = text := by
  induction text with
  | nil =>
    have hremoved := removeAll_append_left hnonempty []
    rw [append_nil] at hremoved
    exact hremoved
  | cons head text ih =>
    rw [cons_append, removeAll_cons, ih fun hinside => htext (infix_cons hinside)]
    intro hfound
    cases hword.eq_nil_of_isPrefix htext hfound

end Remove

end Qtap.Core
