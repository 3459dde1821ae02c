import Formula.Json.Decode
import Formula.Json.Printer
import Formula.Program.Basic

/-!
# Programs as JSON

A program is written as a record of its instructions and its result type.
Reading does not check that the instructions fit together.
-/

namespace Formula

def ValueType.words : List (String × ValueType) :=
  [("integer", .integer), ("boolean", .boolean)]

def UnaryOp.words : List (String × UnaryOp) :=
  UnaryOp.all.map fun op => (op.title, op)

def BinaryOp.words : List (String × BinaryOp) :=
  BinaryOp.all.map fun op => (op.title, op)

def ValueType.ofJson : Json → Except Json.Mismatch ValueType :=
  Json.asWord ValueType.words

namespace Op

/-- An operation is the only member of an object, under the name of what it
does. -/
def toJson : Op → Json
  | .int value => .record [("int", .integer value.toInt)]
  | .bool value => .record [("bool", .bool value)]
  | .load name => .record [("load", .text name)]
  | .unary op => .record [("unary", .text op.title)]
  | .binary op => .record [("binary", .text op.title)]
  | .coerce target => .record [("coerce", .text target.text)]

def ofJson : Json → Except Json.Mismatch Op
  | .object [(some "int", value)] => (Json.asInt32 value).map .int
  | .object [(some "bool", value)] => (Json.asBool value).map .bool
  | .object [(some "load", value)] => (Json.asString value).map .load
  | .object [(some "unary", value)] =>
    (Json.asWord UnaryOp.words value).map .unary
  | .object [(some "binary", value)] =>
    (Json.asWord BinaryOp.words value).map .binary
  | .object [(some "coerce", value)] => (ValueType.ofJson value).map .coerce
  | _ => .error (.expected "指令")

end Op

namespace Instruction

def toJson (instruction : Instruction) : Json :=
  .record [("op", instruction.op.toJson), ("type", .text instruction.type.text)]

def ofJson (value : Json) : Except Json.Mismatch Instruction := do
  let members ← Json.asRecord ["op", "type"] false value
  return {
    op := ← Json.field members "op" Op.ofJson
    type := ← Json.field members "type" ValueType.ofJson }

end Instruction

namespace Program

def toJson (program : Program) : Json :=
  .record [
    ("instructions", .array (program.instructions.map Instruction.toJson)),
    ("result", .text program.result.text)]

def ofJson (value : Json) : Except Json.Mismatch Program := do
  let members ← Json.asRecord ["instructions", "result"] false value
  return {
    instructions :=
      ← Json.field members "instructions" (Json.asList Instruction.ofJson)
    result := ← Json.field members "result" ValueType.ofJson }

def ofText (text : String) : Except Json.Mismatch Program :=
  Json.parse text >>= ofJson

end Program

end Formula
