import Formula.Token.Basic

/-!
# Post-order

Tokens are brought from the order in which they are written into the order in
which they are carried out: operands first, then their operator.  Parentheses
disappear.  Operators wait on a stack, innermost first, until one that binds no
tighter comes or their group ends.
-/

namespace Formula

/-- Whether an operator that waits is carried out before a later one. -/
def Token.yieldsTo (waiting later : Token) : Bool :=
  match later.associativity with
  | .left => later.precedence.level ≤ waiting.precedence.level
  | .right => later.precedence.level < waiting.precedence.level

/-- The post-order of tokens, while operators and open parentheses wait. -/
def postOrderFrom : List Token → List Token → List Token
  | waiting, [] => waiting
  | waiting, token :: rest =>
    if token.kind.opensGroup then postOrderFrom (token :: waiting) rest
    else if token.kind.closesGroup then
      waiting.takeWhile (fun other => !other.kind.opensGroup) ++
        postOrderFrom (waiting.dropWhile fun other =>
          !other.kind.opensGroup).tail rest
    else if !token.takesLeft && !token.takesRight then
      token :: postOrderFrom waiting rest
    else
      waiting.takeWhile (·.yieldsTo token) ++
        postOrderFrom (token :: waiting.dropWhile (·.yieldsTo token)) rest

def postOrder (tokens : List Token) : List Token := postOrderFrom [] tokens

end Formula
