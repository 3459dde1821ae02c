import Formula.Number.Dyadic

/-!
# Shortest decimals

A double is shown with the fewest digits that read back to it, and of those with
the digits nearest to it.
-/

namespace Formula

/-- The number `digits * 10 ^ power`. -/
structure Decimal where
  digits : Nat
  power : Int
  deriving DecidableEq

namespace Decimal

/-- Whether a decimal is read back as the positive double `x`: it lies no
farther from it than half the way to the neighbouring double, and on the middle
only if the mantissa of `x` is even.  Below a power of two the doubles lie twice
as close. -/
def readsBackAs (decimal : Decimal) (x : Dyadic) : Bool :=
  let below := if x.mantissa = Nat.pow 2 52 ∧ -1074 < x.exponent then 1 else 2
  let low := Dyadic.compareDecimal decimal.digits decimal.power
    ⟨4 * x.mantissa - below, x.exponent - 2⟩
  let high := Dyadic.compareDecimal decimal.digits decimal.power
    ⟨4 * x.mantissa + 2, x.exponent - 2⟩
  let onMiddle := x.mantissa % 2 = 0
  (low == .gt || (low == .eq && onMiddle)) &&
    (high == .lt || (high == .eq && onMiddle))

/-- The multiple of `10 ^ power` at or below a number. -/
def floor (x : Dyadic) (power : Int) : Nat :=
  (x.numerator * Nat.pow 10 (-power).toNat) /
    (x.denominator * Nat.pow 10 power.toNat)

/-- The decimal with the given last place that is nearest to `x` among those
that read back as it; of two equally near ones the greater. -/
def atPlace? (x : Dyadic) (power : Int) : Option Decimal :=
  let lower : Decimal := ⟨floor x power, power⟩
  let upper : Decimal := ⟨floor x power + 1, power⟩
  match lower.readsBackAs x, upper.readsBackAs x with
  | false, false => none
  | true, false => some lower
  | false, true => some upper
  | true, true =>
    match Dyadic.compareDecimal (2 * floor x power + 1) power
      ⟨2 * x.mantissa, x.exponent⟩ with
    | .gt => some lower
    | _ => some upper

/-- The exponent of the first digit of a number that is not zero. -/
def leadingPlace (x : Dyadic) : Int :=
  let guess : Int :=
    (Nat.toDigits 10 x.numerator).length -
      (Nat.toDigits 10 x.denominator).length
  if Dyadic.compareDecimal 1 guess x = .gt then guess - 1 else guess

/-- The same number without zeros at the end of its digits; there are fewer
zeros than `fuel`. -/
def stripped (fuel : Nat) (decimal : Decimal) : Decimal :=
  match fuel with
  | 0 => decimal
  | fuel + 1 =>
    if decimal.digits ≠ 0 ∧ decimal.digits % 10 = 0 then
      stripped fuel ⟨decimal.digits / 10, decimal.power + 1⟩
    else decimal

/-- The shortest decimal for a positive double; seventeen digits always
suffice. -/
def shortest (x : Dyadic) : Decimal :=
  let place := leadingPlace x
  let found :=
    (List.range 17).findSome? fun count : Nat => atPlace? x (place - count)
  stripped 20 (found.getD ⟨floor x (place - 16), place - 16⟩)

/-- Positional for leading digits between the fourth place after the point and
the sixteenth before it, with a point always; otherwise with an exponent. -/
def text (decimal : Decimal) : String :=
  let digits := Nat.toDigits 10 decimal.digits
  let leading := decimal.power + digits.length - 1
  let zeros (count : Int) : List Char := List.replicate count.toNat '0'
  if leading < -4 ∨ 16 ≤ leading then
    let fraction := digits.drop 1
    String.ofList (digits.take 1 ++
      (if fraction.isEmpty then [] else '.' :: fraction) ++ ['e']) ++
      toString leading
  else if 0 ≤ decimal.power then
    String.ofList (digits ++ zeros decimal.power ++ ['.', '0'])
  else if leading < 0 then
    String.ofList (['0', '.'] ++ zeros (-leading - 1) ++ digits)
  else
    let whole := leading.toNat + 1
    String.ofList (digits.take whole ++ ['.'] ++ digits.drop whole)

end Decimal

/-- A finite double that is not negative, in its shortest form. -/
def shortestText (x : Float) : String :=
  let exact := Dyadic.ofBits x.toBits
  if exact.mantissa = 0 then "0.0" else (Decimal.shortest exact).text

end Formula
