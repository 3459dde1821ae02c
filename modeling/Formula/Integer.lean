/-!
# Thirty-two bit integers

Formulas compute with signed thirty-two bit integers.  Sums, differences,
products and negation wrap around; division rounds toward zero, and dividing by
zero gives zero, so that evaluation never fails.
-/

namespace Formula

/-- The integer as a word, if a word can hold it. -/
def int32? (value : Int) : Option Int32 :=
  if -2147483648 ≤ value ∧ value ≤ 2147483647 then some (Int32.ofInt value)
  else none

def quotient (dividend divisor : Int32) : Int32 :=
  if divisor = 0 then 0 else dividend / divisor

/-- The remainder that goes with `quotient`; it has the sign of the dividend. -/
def remainder (dividend divisor : Int32) : Int32 :=
  if divisor = 0 then 0 else dividend % divisor

/-- The number that a string of decimal digits denotes. -/
def digitsValue (digits : List Char) : Nat :=
  digits.foldl (fun value digit => 10 * value + (digit.toNat - '0'.toNat)) 0

/-- The number that digits with an optional minus sign denote. -/
def signedValue : List Char → Int
  | '-' :: digits => -(digitsValue digits : Int)
  | digits => digitsValue digits

end Formula
