/-!
# Decimal digits

The decimal digits are the ten of ASCII.  Numerals of more than 4300 digits are
neither read nor written.
-/

namespace FormSchema.Text

def isDigit (c : Char) : Bool := '0' ≤ c && c ≤ '9'

def digitValue (c : Char) : Nat := c.toNat - '0'.toNat

def decimalValue (digits : List Char) : Nat :=
  digits.foldl (fun value c => 10 * value + digitValue c) 0

def maxDigits : Nat := 4300

end FormSchema.Text
