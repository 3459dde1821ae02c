import Formula.Operator

/-!
# Kinds of tokens

What the scanner, the structure check and the ordering of operators need to know
of a kind of token: its spelling, on which sides it takes operands, where it
demands blanks, how tightly it binds and whether it opens or closes a group.
-/

namespace Formula

inductive TokenKind where
  | constant (value : Bool)
  | number
  | name
  | openParen
  | closeParen
  | unary (op : UnaryOp)
  | binary (op : BinaryOp)
  deriving DecidableEq

inductive Sides where
  | none
  | left
  | right
  | both
  deriving DecidableEq

namespace Sides

def onLeft : Sides → Bool
  | .left | .both => true
  | .none | .right => false

def onRight : Sides → Bool
  | .right | .both => true
  | .none | .left => false

end Sides

inductive Associativity where
  | left
  | right
  deriving DecidableEq

inductive Precedence where
  | parens
  | value
  | or
  | and
  | equality
  | relation
  | addition
  | multiplication
  | unary
  deriving DecidableEq

namespace Precedence

/-- The higher the level, the tighter the operator binds. -/
def level : Precedence → Int
  | .parens => -1
  | .value => 0
  | .or => 3
  | .and => 4
  | .equality => 8
  | .relation => 9
  | .addition => 11
  | .multiplication => 12
  | .unary => 16

end Precedence

def BinaryOp.precedence : BinaryOp → Precedence
  | .or => .or
  | .and => .and
  | .equals | .notEquals => .equality
  | .lessThan | .lessThanOrEqual | .greaterThan | .greaterThanOrEqual =>
    .relation
  | .add | .subtract => .addition
  | .multiply | .divide | .modulo => .multiplication

namespace TokenKind

/-- Every kind, values first, then parentheses, then operators. -/
def all : List TokenKind :=
  [.constant false, .constant true, .number, .name, .openParen, .closeParen] ++
    UnaryOp.all.map .unary ++ BinaryOp.all.map .binary

theorem mem_all (kind : TokenKind) : kind ∈ all := by
  rcases kind with (_ | _) | _ | _ | _ | _ | op | op <;>
    first | decide | (cases op <;> decide)

/-- The spelling of the kinds that have only one; a description of the
others. -/
def symbol : TokenKind → String
  | .constant false => "false"
  | .constant true => "true"
  | .number => "(<number>)"
  | .name => "(<variable>)"
  | .openParen => "("
  | .closeParen => ")"
  | .unary op => op.symbol
  | .binary op => op.symbol

def precedence : TokenKind → Precedence
  | .constant _ | .number | .name => .value
  | .openParen | .closeParen => .parens
  | .unary _ => .unary
  | .binary op => op.precedence

/-- The sides on which an operand stands. -/
def operands : TokenKind → Sides
  | .constant _ | .number | .name => .none
  | .openParen | .unary _ => .right
  | .closeParen => .left
  | .binary _ => .both

/-- The sides on which a blank is demanded.  A word does not run into the minus
sign before it, so that subtraction demands a blank only before it. -/
def blanks : TokenKind → Sides
  | .binary .subtract => .left
  | .binary _ => .both
  | _ => .none

def associativity : TokenKind → Associativity
  | .unary _ => .right
  | _ => .left

def takesLeft (kind : TokenKind) : Bool := kind.operands.onLeft

def takesRight (kind : TokenKind) : Bool := kind.operands.onRight

def needsBlankBefore (kind : TokenKind) : Bool := kind.blanks.onLeft

def needsBlankAfter (kind : TokenKind) : Bool := kind.blanks.onRight

def opensGroup (kind : TokenKind) : Bool := kind == .openParen

def closesGroup (kind : TokenKind) : Bool := kind == .closeParen

/-- Whether the operand of an operator, or the first of a formula, has to come
after this kind of token; nothing stands before the first token. -/
def expectsOperand : Option TokenKind → Bool
  | none => true
  | some kind => kind.takesRight

end TokenKind

end Formula
