/-!
# Decimal numbers

Reading of unsigned decimal numbers. A run of digits may have any number of leading zeros.
-/

namespace Jack.Text

/-- One of the ten digits `0` to `9`. -/
def isDigit (c : Char) : Bool :=
  '0' ≤ c && c ≤ '9'

/-- The value of a digit. -/
def digitValue (c : Char) : Nat :=
  c.toNat - '0'.toNat

/-- The value of a run of digits, the most significant digit first. -/
def digitsValue (digits : List Char) : Nat :=
  digits.foldl (fun value digit => 10 * value + digitValue digit) 0

/-- Reads a non-empty run of digits. -/
def readDigits? (text : List Char) : Option Nat :=
  if text ≠ [] ∧ text.all isDigit then some (digitsValue text) else none

/-- Reads an unsigned number of at most `bound`: one plus sign may stand before the digits. -/
def readUnsigned? (bound : Nat) (text : String) : Option Nat :=
  let digits? :=
    match text.toList with
    | '+' :: digits => readDigits? digits
    | digits => readDigits? digits
  digits?.filter (· ≤ bound)

end Jack.Text
