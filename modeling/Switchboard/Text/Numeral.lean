/-!
# Numerals of 64 bits

A numeral is an optional plus sign and one or more decimal digits, and denotes a number below
`2 ^ 64`. A text that is no numeral is refused with the first thing that is wrong with it from
the left.
-/
namespace Switchboard.Text

/-- Why a text is no numeral. -/
inductive NumeralError where
  | empty
  | invalidDigit
  | tooLarge
deriving DecidableEq

namespace NumeralError

/-- The error in words. -/
def text : NumeralError → String
  | empty => "cannot parse integer from empty string"
  | invalidDigit => "invalid digit found in string"
  | tooLarge => "number too large to fit in target type"

end NumeralError

/-- The value of a decimal digit. -/
def digitValue (c : Char) : Nat := c.toNat - '0'.toNat

/-- Reads digits after a number that was read before them. -/
def readDigits (value : Nat) : List Char → Except NumeralError Nat
  | [] => .ok value
  | c :: cs =>
    if c.isDigit then
      let grown := value * 10 + digitValue c
      if grown < UInt64.size then readDigits grown cs else .error .tooLarge
    else .error .invalidDigit

/-- Reads a numeral. -/
def readNumeral (s : String) : Except NumeralError UInt64 :=
  match s.toList with
  | [] => .error .empty
  | ['+'] | ['-'] => .error .invalidDigit
  | '+' :: digits => (readDigits 0 digits).map (·.toUInt64)
  | digits => (readDigits 0 digits).map (·.toUInt64)

end Switchboard.Text
