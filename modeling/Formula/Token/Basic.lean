import Formula.Token.Kind

/-!
# Tokens

A token keeps its kind, the offset at which it starts, its text, and for a
number its value.
-/

namespace Formula

structure Token where
  kind : TokenKind
  /-- Offset of the first byte in the source. -/
  index : Nat
  text : String
  /-- What a number denotes; tokens made by hand may lack it. -/
  value : Option Int32 := none
  deriving DecidableEq

namespace Token

def takesLeft (token : Token) : Bool := token.kind.takesLeft

def takesRight (token : Token) : Bool := token.kind.takesRight

def precedence (token : Token) : Precedence := token.kind.precedence

def associativity (token : Token) : Associativity := token.kind.associativity

end Token

end Formula
