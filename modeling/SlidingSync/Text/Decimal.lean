/-!
# Decimal numerals

Reading an unsigned numeral below a bound: an optional plus sign and one or more ASCII digits.
Digits are read from the left and the first fault is reported, so a numeral that has grown past
the bound is too large whatever follows.
-/

namespace SlidingSync.Text

inductive NumeralFault
  | empty
  | invalidDigit
  | tooLarge
  deriving DecidableEq, Repr

def NumeralFault.message : NumeralFault → String
  | .empty => "cannot parse integer from empty string"
  | .invalidDigit => "invalid digit found in string"
  | .tooLarge => "number too large to fit in target type"

def digitValue? (c : Char) : Option Nat :=
  if '0' ≤ c ∧ c ≤ '9' then some (c.toNat - '0'.toNat) else none

/-- Value of the digits after those that make up `read`. -/
def readDigits (bound read : Nat) : List Char → Except NumeralFault Nat
  | [] => .ok read
  | c :: rest =>
      match digitValue? c with
      | none => .error .invalidDigit
      | some d =>
          if read * 10 + d < bound then readDigits bound (read * 10 + d) rest
          else .error .tooLarge

def readNumeral (bound : Nat) : List Char → Except NumeralFault Nat
  | [] => .error .empty
  | ['+'] => .error .invalidDigit
  | '+' :: digits => readDigits bound 0 digits
  | digits => readDigits bound 0 digits

end SlidingSync.Text
