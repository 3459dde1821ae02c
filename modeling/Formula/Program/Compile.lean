import Formula.ParseError
import Formula.ValueTable

/-!
# Compiling programs

A program becomes a function of the values of its names: every instruction takes
the functions of its operands from a stack and leaves the function of its
result.  Operand types, declared types and the final stack are checked on the
way, so that evaluation cannot fail.
-/

namespace Formula

/-- A value of a known type, as a function of the values of names. -/
structure Meaning where
  type : ValueType
  value : Valuation → type.Carrier

namespace Meaning

/-- The function, if its values have the given type. -/
def as? : (type : ValueType) → Meaning → Option (Valuation → type.Carrier)
  | .integer, ⟨.integer, value⟩ => some value
  | .boolean, ⟨.boolean, value⟩ => some value
  | .integer, ⟨.boolean, _⟩ | .boolean, ⟨.integer, _⟩ => none

/-- The function on top of the stack, whose values have to be of the given
type. -/
def pop (type : ValueType) :
    List Meaning → Except ParseError ((Valuation → type.Carrier) × List Meaning)
  | [] => .error (.internal .emptyStack)
  | top :: below =>
    match top.as? type with
    | some value => .ok (value, below)
    | none =>
      match type with
      | .integer => .error (.internal .integerExpected)
      | .boolean => .error (.internal .booleanExpected)

/-- What an operation leaves, and the stack below it. -/
def apply (op : Op) (stack : List Meaning) :
    Except ParseError (Meaning × List Meaning) :=
  match op with
  | .int value => .ok (⟨.integer, fun _ => value⟩, stack)
  | .bool value => .ok (⟨.boolean, fun _ => value⟩, stack)
  | .load name => .ok (⟨.integer, fun valuation => valuation name⟩, stack)
  | .unary op => do
    let (x, below) ← pop op.operandType stack
    return (⟨op.operandType, fun valuation => op.apply (x valuation)⟩, below)
  | .binary op => do
    let (y, below) ← pop op.operandType stack
    let (x, below) ← pop op.operandType below
    return (⟨op.resultType,
      fun valuation => op.apply (x valuation) (y valuation)⟩, below)
  | .coerce .boolean => do
    let (x, below) ← pop .integer stack
    return (⟨.boolean, fun valuation => truth (x valuation)⟩, below)
  | .coerce .integer => do
    let (x, below) ← pop .boolean stack
    return (⟨.integer, fun valuation => indicator (x valuation)⟩, below)

/-- The stack after an instruction, whose result has to have the declared
type. -/
def step (stack : List Meaning) (instruction : Instruction) :
    Except ParseError (List Meaning) := do
  let (result, below) ← apply instruction.op stack
  if result.type = instruction.type then return result :: below
  else throw (.internal
    (.instructionType instruction.op instruction.type result.type))

end Meaning

namespace Program

def compile (program : Program) : Except ParseError Meaning := do
  match ← program.instructions.foldlM Meaning.step [] with
  | [] => throw (.internal .emptyProgram)
  | [result] =>
    if result.type = program.result then return result
    else throw (.internal (.resultType program.result result.type))
  | _ :: below => throw (.internal (.leftOverValues below.length))

end Program

end Formula
