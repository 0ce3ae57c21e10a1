import Qtap.Core.Outcome

/-!
# Decimal numerals

`strconv.ParseInt` reads an optional sign, at least one decimal digit, and a value that
fits the requested number of bits; `strconv.Atoi` is the same for 64 bits.
-/

namespace Qtap.Core

def digitValue (byte : Byte) : Option ℕ :=
  if 48 ≤ byte ∧ byte ≤ 57 then some (byte.toNat - 48) else none

def digitsValue (acc : ℕ) : List Byte → Option ℕ
  | [] => some acc
  | byte :: rest =>
    match digitValue byte with
    | some digit => digitsValue (acc * 10 + digit) rest
    | none => none

/-- The sign of a numeral and the text behind it. -/
def splitSign : List Byte → Bool × List Byte
  | [] => (false, [])
  | byte :: rest =>
    if byte = 43 then (false, rest)
    else if byte = 45 then (true, rest)
    else (false, byte :: rest)

/-- The value of a signed numeral when it fits `bits` bits, `ErrRange` otherwise. -/
def intOfMagnitude (bits : ℕ) (negative : Bool) (magnitude : ℕ) : Option ℤ :=
  let value : ℤ := cond negative (-magnitude) magnitude
  if -2 ^ (bits - 1) ≤ value ∧ value < 2 ^ (bits - 1) then some value else none

/-- `strconv.ParseInt(text, 10, bits)`. -/
def parseInt (bits : ℕ) (text : List Byte) : Option ℤ :=
  if (splitSign text).2 = [] then none
  else (digitsValue 0 (splitSign text).2).bind (intOfMagnitude bits (splitSign text).1)

/-- The value that `strconv.ParseInt` returns beside its error: the nearest number of 64
bits when the digits read so far leave the range, zero when the text is no numeral. -/
def parseIntValue (text : List Byte) : ℤ :=
  let (negative, digits) := splitSign text
  let limit : ℤ := if negative then -2 ^ 63 else 2 ^ 63 - 1
  if digits = [] then 0
  else scan negative limit 0 digits
where
  scan (negative : Bool) (limit : ℤ) (acc : ℕ) : List Byte → ℤ
    | [] =>
      match intOfMagnitude 64 negative acc with
      | some value => value
      | none => limit
    | byte :: rest =>
      match digitValue byte with
      | none => 0
      | some digit =>
        if 2 ^ 64 ≤ acc * 10 + digit then limit
        else scan negative limit (acc * 10 + digit) rest

/-- `strconv.ParseUint(text, 10, bits)`, which knows no sign. -/
def parseUint (bits : ℕ) (text : List Byte) : Option ℕ :=
  if text = [] then none
  else (digitsValue 0 text).bind fun value => if value < 2 ^ bits then some value else none

def atoi (text : List Byte) : Option ℤ := parseInt 64 text

theorem parseInt_mem {bits : ℕ} {text : List Byte} {value : ℤ}
    (hvalue : parseInt bits text = some value) :
    -2 ^ (bits - 1) ≤ value ∧ value < 2 ^ (bits - 1) := by
  unfold parseInt at hvalue
  split_ifs at hvalue
  obtain ⟨_, _, hmagnitude⟩ := Option.bind_eq_some_iff.1 hvalue
  simp only [intOfMagnitude, Option.ite_none_right_eq_some, Option.some.injEq] at hmagnitude
  rw [← hmagnitude.2]
  exact hmagnitude.1

end Qtap.Core
