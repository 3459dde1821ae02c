import Formula.Value

/-!
# Operators on mathematical integers

`UnaryOp.denote` and `BinaryOp.denote` say what the operators compute without
the arithmetic of words: an integer result is formed among all integers and
then wrapped into thirty-two bits.  The two `denote_eq_apply` theorems identify
this description with the operators in use.
-/

namespace Formula

/-- The word that is congruent to an integer modulo `2 ^ 32`. -/
abbrev wrapped (value : Int) : Int32 := Int32.ofInt value

private theorem complement_eq_neg_sub_one (value : Int) :
    ~~~value = -value - 1 := by
  cases value with
  | ofNat value =>
      change Int.negSucc value = -(value : Int) - 1
      omega
  | negSucc value =>
      change (value : Int) = -Int.negSucc value - 1
      omega

private theorem toInt_eq_zero_iff (value : Int32) :
    value.toInt = 0 ↔ value = 0 := by
  rw [← Int32.toInt_inj, Int32.toInt_zero]

namespace UnaryOp

/-- What an operator computes of its operand. -/
def denote : (op : UnaryOp) → op.operandType.Carrier → op.operandType.Carrier
  | .not => (fun x => !x : Bool → Bool)
  | .negate => (fun x => wrapped (-x.toInt) : Int32 → Int32)
  | .complement => (fun x => wrapped (~~~x.toInt) : Int32 → Int32)

theorem denote_eq_apply (op : UnaryOp) : op.denote = op.apply := by
  cases op with
  | not => rfl
  | negate =>
      funext (x : Int32)
      change wrapped (-x.toInt) = -x
      simp [wrapped]
  | complement =>
      funext (x : Int32)
      change wrapped (~~~x.toInt) = ~~~x
      apply Int32.toInt_inj.mp
      rw [Int32.toInt_ofInt, Int32.toInt_not, complement_eq_neg_sub_one]

end UnaryOp

namespace BinaryOp

/-- What an operator computes of its two operands.  Division rounds toward
zero, the remainder has the sign of the dividend, and a divisor of zero makes
both of them zero. -/
def denote :
    (op : BinaryOp) → op.operandType.Carrier → op.operandType.Carrier →
      op.resultType.Carrier
  | .and => (fun x y => x && y : Bool → Bool → Bool)
  | .or => (fun x y => x || y : Bool → Bool → Bool)
  | .equals => (fun x y => decide (x.toInt = y.toInt) : Int32 → Int32 → Bool)
  | .notEquals =>
    (fun x y => decide (x.toInt ≠ y.toInt) : Int32 → Int32 → Bool)
  | .lessThan => (fun x y => decide (x.toInt < y.toInt) : Int32 → Int32 → Bool)
  | .lessThanOrEqual =>
    (fun x y => decide (x.toInt ≤ y.toInt) : Int32 → Int32 → Bool)
  | .greaterThan =>
    (fun x y => decide (x.toInt > y.toInt) : Int32 → Int32 → Bool)
  | .greaterThanOrEqual =>
    (fun x y => decide (x.toInt ≥ y.toInt) : Int32 → Int32 → Bool)
  | .add => (fun x y => wrapped (x.toInt + y.toInt) : Int32 → Int32 → Int32)
  | .subtract =>
    (fun x y => wrapped (x.toInt - y.toInt) : Int32 → Int32 → Int32)
  | .multiply =>
    (fun x y => wrapped (x.toInt * y.toInt) : Int32 → Int32 → Int32)
  | .divide =>
    (fun x y => if y.toInt = 0 then 0 else wrapped (x.toInt.tdiv y.toInt) :
      Int32 → Int32 → Int32)
  | .modulo =>
    (fun x y => if y.toInt = 0 then 0 else wrapped (x.toInt.tmod y.toInt) :
      Int32 → Int32 → Int32)

private theorem wrapped_tdiv (x y : Int32) :
    wrapped (x.toInt.tdiv y.toInt) = x / y := by
  apply Int32.toInt_inj.mp
  rw [Int32.toInt_ofInt, Int32.toInt_div]

private theorem wrapped_tmod (x y : Int32) :
    wrapped (x.toInt.tmod y.toInt) = x % y := by
  rw [← Int32.toInt_mod]
  exact Int32.ofInt_toInt (x % y)

theorem denote_eq_apply (op : BinaryOp) : op.denote = op.apply := by
  cases op with
  | and => rfl
  | or => rfl
  | equals =>
      funext (x : Int32) (y : Int32)
      change decide (x.toInt = y.toInt) = (x == y)
      simp only [Int32.toInt_inj]
      rfl
  | notEquals =>
      funext (x : Int32) (y : Int32)
      change decide (x.toInt ≠ y.toInt) = (x != y)
      simp only [ne_eq, Int32.toInt_inj, decide_not]
      rfl
  | lessThan =>
      funext (x : Int32) (y : Int32)
      change decide (x.toInt < y.toInt) = decide (x < y)
      simp only [Int32.lt_iff_toInt_lt]
  | lessThanOrEqual =>
      funext (x : Int32) (y : Int32)
      change decide (x.toInt ≤ y.toInt) = decide (x ≤ y)
      simp only [Int32.le_iff_toInt_le]
  | greaterThan =>
      funext (x : Int32) (y : Int32)
      change decide (x.toInt > y.toInt) = decide (y < x)
      simp only [Int32.lt_iff_toInt_lt, gt_iff_lt]
  | greaterThanOrEqual =>
      funext (x : Int32) (y : Int32)
      change decide (x.toInt ≥ y.toInt) = decide (y ≤ x)
      simp only [Int32.le_iff_toInt_le, ge_iff_le]
  | add =>
      funext (x : Int32) (y : Int32)
      change wrapped (x.toInt + y.toInt) = x + y
      simp [wrapped]
  | subtract =>
      funext (x : Int32) (y : Int32)
      change wrapped (x.toInt - y.toInt) = x - y
      simp [wrapped]
  | multiply =>
      funext (x : Int32) (y : Int32)
      change wrapped (x.toInt * y.toInt) = x * y
      simp [wrapped]
  | divide =>
      funext (x : Int32) (y : Int32)
      change (if y.toInt = 0 then 0 else wrapped (x.toInt.tdiv y.toInt)) =
        quotient x y
      simp only [toInt_eq_zero_iff, wrapped_tdiv, quotient]
  | modulo =>
      funext (x : Int32) (y : Int32)
      change (if y.toInt = 0 then 0 else wrapped (x.toInt.tmod y.toInt)) =
        remainder x y
      simp only [toInt_eq_zero_iff, wrapped_tmod, remainder]

end BinaryOp

namespace Value

/-- The value as one of the demanded type: an integer counts as true unless it
is zero, and a boolean as one or zero. -/
def coerced : (type : ValueType) → Value → type.Carrier
  | .integer, .integer value => value
  | .integer, .boolean value => if value then (1 : Int32) else (0 : Int32)
  | .boolean, .integer value => decide (value.toInt ≠ 0)
  | .boolean, .boolean value => value

/-- What the value holds, if it has the demanded type. -/
def as? : (type : ValueType) → Value → Option type.Carrier
  | .integer, .integer value => some value
  | .boolean, .boolean value => some value
  | .integer, .boolean _ | .boolean, .integer _ => none

@[simp] theorem type_of (type : ValueType) (value : type.Carrier) :
    (Value.of type value).type = type := by
  cases type <;> rfl

@[simp] theorem coerced_of (type : ValueType) (value : type.Carrier) :
    (Value.of type value).coerced type = value := by
  cases type <;> rfl

@[simp] theorem as?_of (type : ValueType) (value : type.Carrier) :
    (Value.of type value).as? type = some value := by
  cases type <;> rfl

theorem of_injective (type : ValueType) {x y : type.Carrier}
    (same : Value.of type x = Value.of type y) : x = y := by
  have held := congrArg (Value.as? type) same
  simpa using held

theorem coerced_boolean_integer (value : Int32) :
    (Value.integer value).coerced .boolean = truth value := by
  change decide (value.toInt ≠ 0) = (value != 0)
  simp only [ne_eq, toInt_eq_zero_iff, decide_not]
  rfl

end Value

end Formula
