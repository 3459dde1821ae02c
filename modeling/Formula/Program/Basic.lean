import Formula.Operator
import Formula.Text.Quoted

/-!
# Programs

A formula is compiled to a list of instructions for a stack of values.  Every
instruction declares the type of the value that it leaves on the stack, and a
program the type of its result.  Nothing here says that the declarations are
right: programs also come from outside.
-/

namespace Formula

inductive Op where
  | int (value : Int32)
  | bool (value : Bool)
  /-- The value of a variable, zero if it has none. -/
  | load (name : String)
  | unary (op : UnaryOp)
  | binary (op : BinaryOp)
  /-- The value on top, read as one of the given type. -/
  | coerce (target : ValueType)
  deriving DecidableEq

structure Instruction where
  op : Op
  type : ValueType
  deriving DecidableEq

structure Program where
  instructions : List Instruction
  result : ValueType
  deriving DecidableEq

def integerText (value : Int32) : String := toString value.toInt

def booleanText : Bool → String
  | true => "true"
  | false => "false"

/-- An operation as messages describe it. -/
def Op.description : Op → String
  | .int value => "Int(" ++ integerText value ++ ")"
  | .bool value => "Bool(" ++ booleanText value ++ ")"
  | .load name => "Load(" ++ quoted name ++ ")"
  | .unary op => "Unary(" ++ op.title ++ ")"
  | .binary op => "Binary(" ++ op.title ++ ")"
  | .coerce target => "Coerce(" ++ target.title ++ ")"

/-- An operation as listings show it. -/
def Op.text : Op → String
  | .int value => "int " ++ integerText value
  | .bool value => "bool " ++ booleanText value
  | .load name => "load " ++ name
  | .unary op => "unary " ++ op.title
  | .binary op => "binary " ++ op.title
  | .coerce target => "coerce " ++ target.text

def Instruction.text (instruction : Instruction) : String :=
  instruction.op.text ++ " : " ++ instruction.type.text

/-- One line for each instruction, without a final line break. -/
def Program.text (program : Program) : String :=
  "\n".intercalate (program.instructions.map Instruction.text)

end Formula
