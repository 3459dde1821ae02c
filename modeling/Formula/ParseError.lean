import Formula.Program.Basic

/-!
# Errors of compilation

Every way in which a source or a program can be refused, with the place and the
texts that its message needs.  Offsets count bytes.
-/

namespace Formula

/-- Contradictions inside a program or an operator sequence; no source leads to
one. -/
inductive Fault where
  | missingOperands (needed found : Nat)
  | leftOverOperands (count : Nat)
  | numberWithoutValue
  | parenthesis (index : Nat)
  | emptyStack
  | integerExpected
  | booleanExpected
  | instructionType (op : Op) (declared actual : ValueType)
  | emptyProgram
  | leftOverValues (count : Nat)
  | resultType (declared actual : ValueType)
  | notOfType (type : ValueType)
  deriving DecidableEq

def Fault.message : Fault → String
  | .missingOperands needed found => s!"操作数不足：需要 {needed} 个，栈中只有 {found} 个"
  | .leftOverOperands count => s!"构建结束时栈中剩余 {count} 项"
  | .numberWithoutValue => "数字 token 缺少值"
  | .parenthesis index => s!"后缀序列中出现括号（索引 {index}）"
  | .emptyStack => "操作数栈为空"
  | .integerExpected => "期望整数操作数，实际为布尔"
  | .booleanExpected => "期望布尔操作数，实际为整数"
  | .instructionType op declared actual =>
    s!"指令 {op.description} 的结果类型应为 {declared.text}，实际为 {actual.text}"
  | .emptyProgram => "程序为空"
  | .leftOverValues count => s!"求值结束时栈中剩余 {count} 项"
  | .resultType declared actual =>
    s!"程序结果类型应为 {declared.text}，实际为 {actual.text}"
  | .notOfType type => s!"编译结果不是 {type.text}"

inductive ParseError where
  | missingWhitespaceAfter (index : Nat) (symbol : String)
  | missingWhitespaceBefore (index : Nat) (symbol : String)
  | ambiguousOperator (index : Nat) (found : Char) (expected : String)
  | invalidCharacter (index : Nat) (found : Char)
  | numberMergedWithVariable (index : Nat) (number : String)
  | invalidIdentifierEnd (index : Nat) (name : String)
  | numberOutOfRange (index : Nat) (number : String)
  | emptyExpression
  | missingOperandAtStart (index : Nat) (symbol : String)
  | missingOperandAtEnd (index : Nat) (symbol : String)
  | unmatchedClosingParen (index : Nat)
  | unclosedOpeningParen (index : Nat)
  | emptyParens (index : Nat)
  | extraOperator (leftIndex : Nat) (left : String) (rightIndex : Nat)
    (right : String)
  | missingBinaryOperator (index : Nat) (symbol : String)
  | internal (fault : Fault)
  deriving DecidableEq

inductive ErrorKind where
  | lexical
  | structural
  | internal
  deriving DecidableEq

namespace ParseError

def kind : ParseError → ErrorKind
  | missingWhitespaceAfter .. | missingWhitespaceBefore ..
  | ambiguousOperator .. | invalidCharacter .. | numberMergedWithVariable ..
  | invalidIdentifierEnd .. | numberOutOfRange .. => .lexical
  | emptyExpression | missingOperandAtStart .. | missingOperandAtEnd ..
  | unmatchedClosingParen .. | unclosedOpeningParen .. | emptyParens ..
  | extraOperator .. | missingBinaryOperator .. => .structural
  | internal _ => .internal

/-- The offset to point at; the left one of two. -/
def index? : ParseError → Option Nat
  | missingWhitespaceAfter index _ | missingWhitespaceBefore index _
  | ambiguousOperator index _ _ | invalidCharacter index _
  | numberMergedWithVariable index _ | invalidIdentifierEnd index _
  | numberOutOfRange index _ | missingOperandAtStart index _
  | missingOperandAtEnd index _ | unmatchedClosingParen index
  | unclosedOpeningParen index | emptyParens index | extraOperator index _ _ _
  | missingBinaryOperator index _ => some index
  | emptyExpression | internal _ => none

def message : ParseError → String
  | missingWhitespaceAfter index symbol =>
    s!"索引 {index} 处缺少空白：`{symbol}` 运算符之后需要空白"
  | missingWhitespaceBefore index symbol =>
    s!"索引 {index} 处缺少空白：`{symbol}` 运算符之前需要空白"
  | ambiguousOperator index found expected =>
    s!"索引 {index} 处的字符 '{found}' 无法识别 - 是否应为 `{expected}`？"
  | invalidCharacter index found => s!"索引 {index} 处存在无效字符 '{found}'"
  | numberMergedWithVariable index number =>
    s!"索引 {index} 处的数字 {number} 与变量名粘连"
  | invalidIdentifierEnd index name =>
    s!"索引 {index} 处的标识符 `{name}` 以非法字符结尾"
  | numberOutOfRange index number =>
    s!"索引 {index} 处的数字 {number} 超出整数范围"
  | emptyExpression => "空表达式"
  | missingOperandAtStart index symbol =>
    s!"索引 {index} 处的 `{symbol}` 运算符缺少左侧的值或子表达式"
  | missingOperandAtEnd index symbol =>
    s!"索引 {index} 处的 `{symbol}` 运算符缺少右侧的值或子表达式"
  | unmatchedClosingParen index => s!"索引 {index} 处的右括号没有匹配的左括号"
  | unclosedOpeningParen index => s!"索引 {index} 处的左括号未闭合"
  | emptyParens index => s!"索引 {index} 处存在空括号"
  | extraOperator leftIndex left rightIndex right =>
    s!"缺少值或子表达式，或者存在多余的运算符：索引 {leftIndex} 处的 `{left}` " ++
      s!"或索引 {rightIndex} 处的 `{right}`"
  | missingBinaryOperator index symbol =>
    s!"索引 {index} 处的 `{symbol}` 之前缺少二元运算符"
  | internal fault => s!"内部错误: {fault.message}"

end ParseError

end Formula
