import DirectConv.Size

/-!
# Numerals

A size is written in ASCII digits, with any number of leading zeros and at most one plus sign in
front. Reading goes from left to right and reports the first thing that is wrong: a text that
becomes too large before its first bad character is too large.

## Main definitions

- `DirectConv.Text.NumeralError`: why a text is not a numeral
- `DirectConv.Text.digitValue?`: the value of one digit
- `DirectConv.Text.readDigits`, `DirectConv.Text.readSize`: the value of a text
-/

namespace DirectConv.Text

/-- Why a text is not the numeral of a size. -/
inductive NumeralError where
  | empty
  /-- A character is not a digit, or a sign stands alone. -/
  | invalidDigit
  /-- The number does not fit a machine word. -/
  | tooLarge
  deriving DecidableEq

/-- The description of the error. -/
def NumeralError.message : NumeralError → String
  | empty => "cannot parse integer from empty string"
  | invalidDigit => "invalid digit found in string"
  | tooLarge => "number too large to fit in target type"

/-- The value of an ASCII digit. -/
def digitValue? (c : Char) : Option Nat :=
  if '0' ≤ c ∧ c ≤ '9' then some (c.toNat - '0'.toNat) else none

/-- Read digits after those whose value is `acc`. -/
def readDigits (acc : Nat) : List Char → Except NumeralError Nat
  | [] => .ok acc
  | c :: rest =>
    match digitValue? c with
    | none => .error .invalidDigit
    | some digit =>
      if acc * 10 + digit < Size.bound then readDigits (acc * 10 + digit) rest
      else .error .tooLarge

/-- Read a text that holds a size and nothing else. -/
def readSize : List Char → Except NumeralError Nat
  | [] => .error .empty
  | ['+'] => .error .invalidDigit
  | '+' :: digits => readDigits 0 digits
  | digits => readDigits 0 digits

end DirectConv.Text
