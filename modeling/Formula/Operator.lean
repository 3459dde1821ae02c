import Formula.Integer

/-!
# Operators and their types

A formula has one of two types.  Each operator demands one type of all its
operands and gives one type back; `apply` is what it computes.
-/

namespace Formula

inductive ValueType where
  | integer
  | boolean
  deriving DecidableEq

namespace ValueType

/-- The values of a type. -/
abbrev Carrier : ValueType → Type
  | .integer => Int32
  | .boolean => Bool

def text : ValueType → String
  | .integer => "integer"
  | .boolean => "boolean"

/-- The type as it is written in descriptions of values. -/
def title : ValueType → String
  | .integer => "Integer"
  | .boolean => "Boolean"

end ValueType

/-- An integer read as a boolean. -/
def truth (value : Int32) : Bool := value != 0

/-- A boolean read as an integer. -/
def indicator (value : Bool) : Int32 := if value then 1 else 0

inductive UnaryOp where
  | not
  | negate
  | complement
  deriving DecidableEq

namespace UnaryOp

def all : List UnaryOp := [.not, .negate, .complement]

def symbol : UnaryOp → String
  | .not => "!"
  | .negate => "-"
  | .complement => "~"

def title : UnaryOp → String
  | .not => "Not"
  | .negate => "Negate"
  | .complement => "Complement"

/-- The type of the operand, and of the result. -/
def operandType : UnaryOp → ValueType
  | .not => .boolean
  | .negate | .complement => .integer

def apply : (op : UnaryOp) → op.operandType.Carrier → op.operandType.Carrier
  | .not => (fun x => !x : Bool → Bool)
  | .negate => (fun x => -x : Int32 → Int32)
  | .complement => (fun x => ~~~x : Int32 → Int32)

end UnaryOp

inductive BinaryOp where
  | and
  | or
  | equals
  | notEquals
  | lessThan
  | lessThanOrEqual
  | greaterThan
  | greaterThanOrEqual
  | add
  | subtract
  | multiply
  | divide
  | modulo
  deriving DecidableEq

namespace BinaryOp

def all : List BinaryOp :=
  [.and, .or, .equals, .notEquals, .lessThan, .lessThanOrEqual, .greaterThan,
    .greaterThanOrEqual, .add, .subtract, .multiply, .divide, .modulo]

def symbol : BinaryOp → String
  | .and => "&&"
  | .or => "||"
  | .equals => "=="
  | .notEquals => "!="
  | .lessThan => "<"
  | .lessThanOrEqual => "<="
  | .greaterThan => ">"
  | .greaterThanOrEqual => ">="
  | .add => "+"
  | .subtract => "-"
  | .multiply => "*"
  | .divide => "/"
  | .modulo => "%"

def title : BinaryOp → String
  | .and => "And"
  | .or => "Or"
  | .equals => "Equals"
  | .notEquals => "NotEquals"
  | .lessThan => "LessThan"
  | .lessThanOrEqual => "LessThanOrEqual"
  | .greaterThan => "GreaterThan"
  | .greaterThanOrEqual => "GreaterThanOrEqual"
  | .add => "Add"
  | .subtract => "Subtract"
  | .multiply => "Multiply"
  | .divide => "Divide"
  | .modulo => "Modulo"

/-- The type of both operands. -/
def operandType : BinaryOp → ValueType
  | .and | .or => .boolean
  | _ => .integer

def resultType : BinaryOp → ValueType
  | .add | .subtract | .multiply | .divide | .modulo => .integer
  | _ => .boolean

/-- Both operands are always computed: no operator leaves its second operand
out. -/
def apply : (op : BinaryOp) →
    op.operandType.Carrier → op.operandType.Carrier → op.resultType.Carrier
  | .and => (fun x y => x && y : Bool → Bool → Bool)
  | .or => (fun x y => x || y : Bool → Bool → Bool)
  | .equals => (fun x y => x == y : Int32 → Int32 → Bool)
  | .notEquals => (fun x y => x != y : Int32 → Int32 → Bool)
  | .lessThan => (fun x y => decide (x < y) : Int32 → Int32 → Bool)
  | .lessThanOrEqual => (fun x y => decide (x ≤ y) : Int32 → Int32 → Bool)
  | .greaterThan => (fun x y => decide (y < x) : Int32 → Int32 → Bool)
  | .greaterThanOrEqual => (fun x y => decide (y ≤ x) : Int32 → Int32 → Bool)
  | .add => (fun x y => x + y : Int32 → Int32 → Int32)
  | .subtract => (fun x y => x - y : Int32 → Int32 → Int32)
  | .multiply => (fun x y => x * y : Int32 → Int32 → Int32)
  | .divide => quotient
  | .modulo => remainder

end BinaryOp

end Formula
