/-!
# Exact values of floating-point numbers

A finite double is an integer times a power of two.  Here such values are
compared with decimals and rounded to decimals, in natural numbers throughout.
-/

namespace Formula

/-- The number `mantissa * 2 ^ exponent`. -/
structure Dyadic where
  mantissa : Nat
  exponent : Int
  deriving DecidableEq

namespace Dyadic

/-- The absolute value of the double with the given bits, if it is finite. -/
def ofBits (bits : UInt64) : Dyadic :=
  let fraction : Nat := bits.toNat % Nat.pow 2 52
  let exponent : Nat := bits.toNat / Nat.pow 2 52 % Nat.pow 2 11
  if exponent = 0 then ⟨fraction, -1074⟩
  else ⟨Nat.pow 2 52 + fraction, exponent - 1075⟩

def numerator (x : Dyadic) : Nat := x.mantissa * Nat.pow 2 x.exponent.toNat

def denominator (x : Dyadic) : Nat := Nat.pow 2 (-x.exponent).toNat

/-- Whether `digits * 10 ^ power` is less than, equal to or greater than a
number. -/
def compareDecimal (digits : Nat) (power : Int) (x : Dyadic) : Ordering :=
  compare (digits * Nat.pow 10 power.toNat * x.denominator)
    (x.numerator * Nat.pow 10 (-power).toNat)

end Dyadic

/-- The quotient rounded to the nearest integer, from the middle to the even
one. -/
def roundedQuotient (numerator denominator : Nat) : Nat :=
  let quotient := numerator / denominator
  match compare (2 * (numerator % denominator)) denominator with
  | .lt => quotient
  | .gt => quotient + 1
  | .eq => quotient + quotient % 2

/-- A finite double that is not negative, with one digit after the point. -/
def tenthsText (x : Float) : String :=
  let exact := Dyadic.ofBits x.toBits
  let tenths := roundedQuotient (exact.numerator * 10) exact.denominator
  toString (tenths / 10) ++ "." ++ toString (tenths % 10)

end Formula
