import Qtap.Core.Header
import Qtap.Core.Occurrence

/-!
# The PEM block of the injected certificate

`pem.Encode` for a block of type `CERTIFICATE` without headers.  The block is unbordered: its first
line, which begins with dashes and the word `BEGIN`, is not found again further on.
-/

namespace Qtap.Ca

open List Qtap.Core

def beginLine : List Byte := ascii "-----BEGIN CERTIFICATE-----\n"

def endLine : List Byte := ascii "-----END CERTIFICATE-----\n"

def base64Alphabet : List Byte :=
  ascii "ABCDEFGHIJKLMNOPQRSTUVWXYZabcdefghijklmnopqrstuvwxyz0123456789+/"

/-- The character for the six bits of a number that begin at a position. -/
def base64Digit (value position : ℕ) : Byte :=
  base64Alphabet.getD (value / 2 ^ position % 64) 61

def base64 : List Byte → List Byte
  | [] => []
  | [first] =>
    [base64Digit (first.toNat * 65536) 18, base64Digit (first.toNat * 65536) 12, 61, 61]
  | [first, second] =>
    [base64Digit (first.toNat * 65536 + second.toNat * 256) 18,
      base64Digit (first.toNat * 65536 + second.toNat * 256) 12,
      base64Digit (first.toNat * 65536 + second.toNat * 256) 6, 61]
  | first :: second :: third :: rest =>
    [base64Digit (first.toNat * 65536 + second.toNat * 256 + third.toNat) 18,
      base64Digit (first.toNat * 65536 + second.toNat * 256 + third.toNat) 12,
      base64Digit (first.toNat * 65536 + second.toNat * 256 + third.toNat) 6,
      base64Digit (first.toNat * 65536 + second.toNat * 256 + third.toNat) 0] ++ base64 rest

/-- Lines of sixty-four characters, where some of the line are written already. -/
def lineBreaker : ℕ → List Byte → List Byte
  | used, [] => if used = 0 then [] else [10]
  | used, character :: rest =>
    if used = 63 then character :: 10 :: lineBreaker 0 rest
    else character :: lineBreaker (used + 1) rest

def pemEncode (bytes : List Byte) : List Byte :=
  beginLine ++ (lineBreaker 0 (base64 bytes) ++ endLine)

/-! ## No dash in the body -/

theorem base64Digit_ne (value position : ℕ) : base64Digit value position ≠ 45 := by
  have halphabet : ∀ index < 64, base64Alphabet.getD index 61 ≠ 45 := by
    decide +kernel
  exact halphabet _ (Nat.mod_lt _ (by decide))

theorem not_mem_base64 (bytes : List Byte) : 45 ∉ base64 bytes := by
  induction bytes using base64.induct with
  | case1 => exact not_mem_nil
  | case2 first | case3 first second => simp [base64, (base64Digit_ne _ _).symm]
  | case4 first second third rest ih => simp [base64, (base64Digit_ne _ _).symm, ih]

theorem not_mem_lineBreaker {characters : List Byte} (hcharacters : 45 ∉ characters) (used : ℕ) :
    45 ∉ lineBreaker used characters := by
  induction characters generalizing used with
  | nil =>
    rw [lineBreaker]
    split <;> simp
  | cons character rest ih =>
    have hcharacter := ne_of_not_mem_cons hcharacters
    have hrest := not_mem_of_not_mem_cons hcharacters
    rw [lineBreaker]
    split <;> simp [hcharacter, ih hrest]

/-! ## The block is unbordered -/

theorem unbordered_beginLine : Unbordered beginLine :=
  unbordered_of_forall_take (by decide)

/-- After the first line there is no text that begins with it. -/
theorem not_beginLine_isPrefix {border body : List Byte} (hbody : 45 ∉ body)
    (hend : border <:+ body ++ endLine) : ¬ beginLine <+: border := by
  have hlong : endLine.length < beginLine.length := by decide
  intro hstart
  rcases isSuffix_append_cases hend with hinside | ⟨front, hfront, rfl⟩
  · exact absurd (hstart.length_le.trans hinside.length_le) hlong.not_ge
  · cases front with
    | nil => exact absurd hstart.length_le hlong.not_ge
    | cons character =>
      -- the first line begins with a dash
      have hdash : 45 = character := (cons_prefix_cons.1 hstart).1
      exact hbody (hfront.mem (hdash ▸ mem_cons_self))

theorem unbordered_pemEncode (bytes : List Byte) : Unbordered (pemEncode bytes) := by
  have hbody : 45 ∉ lineBreaker 0 (base64 bytes) := not_mem_lineBreaker (not_mem_base64 bytes) 0
  intro border hstart hend
  rcases Nat.lt_or_ge border.length beginLine.length with hshort | hlong
  · -- a shorter part is within the first line and cannot end with a line break
    refine .inl (Classical.byContradiction fun hnonempty => ?_)
    have hfirst : border <+: beginLine.dropLast := by
      refine prefix_of_prefix_length_le hstart
        ((List.dropLast_prefix _).trans (prefix_append _ _)) ?_
      rw [length_dropLast]
      exact Nat.le_sub_one_of_lt hshort
    have hlast : border.getLast hnonempty = 10 := by
      rw [hend.getLast hnonempty]
      simp only [pemEncode]
      rw [getLast_append_of_ne_nil _ (by simp [endLine, ascii]),
        getLast_append_of_ne_nil _ (by decide)]
      decide
    have hbreak : (10 : Byte) ∈ beginLine.dropLast :=
      hfirst.mem (hlast ▸ getLast_mem hnonempty)
    revert hbreak
    decide
  · have hline : beginLine <+: border :=
      prefix_of_prefix_length_le (prefix_append _ _) hstart hlong
    rcases isSuffix_append_cases hend with hinside | ⟨front, hfront, rfl⟩
    · exact absurd hline (not_beginLine_isPrefix hbody hinside)
    · have hborder : front <+: beginLine :=
        prefix_of_prefix_length_le (prefix_append _ _) hline hfront.length_le
      rcases unbordered_beginLine front hborder hfront with rfl | rfl
      · exact absurd hline (not_beginLine_isPrefix hbody suffix_rfl)
      · exact .inr rfl

theorem pemEncode_ne_nil (bytes : List Byte) : pemEncode bytes ≠ [] :=
  append_ne_nil_of_left_ne_nil (by decide) _

end Qtap.Ca
