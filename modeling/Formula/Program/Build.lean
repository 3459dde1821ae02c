import Formula.ParseError
import Formula.Sentence
import Formula.Token.PostOrder

/-!
# Building programs

Tokens in post-order become instructions.  Each operand on the stack carries its
own instructions and its type; where an operator demands the other type, the
operand ends in a conversion.
-/

namespace Formula

/-- The instructions that leave one value, and its type. -/
structure Fragment where
  code : List Instruction
  type : ValueType
  deriving DecidableEq

namespace Fragment

def leaf (op : Op) (type : ValueType) : Fragment := ⟨[⟨op, type⟩], type⟩

/-- The instructions that leave the value as one of the demanded type. -/
def converted (fragment : Fragment) (demanded : ValueType) : List Instruction :=
  if fragment.type = demanded then fragment.code
  else fragment.code ++ [⟨.coerce demanded, demanded⟩]

def unary (op : UnaryOp) (operand : Fragment) : Fragment where
  code := operand.converted op.operandType ++ [⟨.unary op, op.operandType⟩]
  type := op.operandType

def binary (op : BinaryOp) (left right : Fragment) : Fragment where
  code := left.converted op.operandType ++
    (right.converted op.operandType ++ [⟨.binary op, op.resultType⟩])
  type := op.resultType

/-- The operands after a token, the latest first. -/
def push (stack : List Fragment) (token : Token) :
    Except ParseError (List Fragment) :=
  match token.kind with
  | .constant value => .ok (leaf (.bool value) .boolean :: stack)
  | .number =>
    match token.value with
    | some value => .ok (leaf (.int value) .integer :: stack)
    | none => .error (.internal .numberWithoutValue)
  | .name => .ok (leaf (.load token.text) .integer :: stack)
  | .unary op =>
    match stack with
    | operand :: below => .ok (unary op operand :: below)
    | [] => .error (.internal (.missingOperands 1 0))
  | .binary op =>
    match stack with
    | right :: left :: below => .ok (binary op left right :: below)
    | few => .error (.internal (.missingOperands 2 few.length))
  | .openParen | .closeParen => .error (.internal (.parenthesis token.index))

end Fragment

namespace Program

/-- The program for tokens in post-order, with a result of the given type. -/
def ofPostOrder (tokens : List Token) (result : ValueType) :
    Except ParseError Program :=
  match tokens.foldlM Fragment.push [] with
  | .error error => .error error
  | .ok [fragment] => .ok { instructions := fragment.converted result, result }
  | .ok stack => .error (.internal (.leftOverOperands stack.length))

/-- The program for a source, and the names in it. -/
def ofSource (source : String) (result : ValueType) :
    Except ParseError (Program × List String) :=
  match Sentence.ofSource source with
  | .error error => .error error
  | .ok sentence =>
    (ofPostOrder (postOrder sentence.tokens) result).map fun program =>
      (program, sentence.names)

end Program

end Formula
