import Formula.Program.Basic

/-!
# Values

A formula of either type has a value, which is an integer or a boolean.
-/

namespace Formula

/-- The value of a formula of either type. -/
inductive Value where
  | integer (value : Int32)
  | boolean (value : Bool)
  deriving DecidableEq

namespace Value

def of : (type : ValueType) → type.Carrier → Value
  | .integer, value => .integer value
  | .boolean, value => .boolean value

def type : Value → ValueType
  | .integer _ => .integer
  | .boolean _ => .boolean

def text : Value → String
  | .integer value => integerText value
  | .boolean value => booleanText value

end Value

end Formula
