import Formula.Token.Lexer

/-!
# Sentences

A sentence is a token list in which parentheses pair up and every operator has
its operands.  The check runs along with the scanner, so that of a misplaced
token and a later character that starts no token the first one is reported.
-/

namespace Formula

/-- A checked token list, with the names in it in the order of their first
occurrence. -/
structure Sentence where
  tokens : List Token
  names : List String
  deriving DecidableEq

namespace Sentence

/-- What the check knows of the tokens that it has seen. -/
structure Progress where
  /-- The latest token stands first. -/
  tokens : List Token := []
  /-- Offsets of the parentheses that are still open, the innermost first. -/
  openers : List Nat := []
  names : List String := []
  deriving DecidableEq

/-- The open parentheses after a token. -/
def openersAfter (openers : List Nat) (token : Token) :
    Except ParseError (List Nat) :=
  if token.kind.closesGroup then
    match openers with
    | [] => .error (.unmatchedClosingParen token.index)
    | _ :: outer => .ok outer
  else if token.kind.opensGroup then .ok (token.index :: openers)
  else .ok openers

/-- Why a token may not follow the one before.  Of two neighbours exactly one
has to take the other as an operand, and the first token can take nothing on its
left. -/
def misfit? : Option Token → Token → Option ParseError
  | none, token =>
    if token.takesLeft then some (.missingOperandAtStart token.index token.text)
    else none
  | some last, token =>
    if last.kind.opensGroup && token.kind.closesGroup then
      some (.emptyParens last.index)
    else match last.takesRight, token.takesLeft with
      | true, true =>
        some (.extraOperator last.index last.text token.index token.text)
      | false, false => some (.missingBinaryOperator token.index token.text)
      | _, _ => none

/-- The names after a token. -/
def namesAfter (names : List String) (token : Token) : List String :=
  if token.kind = .name ∧ token.text ∉ names then names ++ [token.text]
  else names

namespace Progress

def accept (progress : Progress) (token : Token) : Except ParseError Progress :=
  match openersAfter progress.openers token with
  | .error error => .error error
  | .ok openers =>
    match misfit? progress.tokens.head? token with
    | some error => .error error
    | none => .ok
      { tokens := token :: progress.tokens
        openers
        names := namesAfter progress.names token }

def finish (progress : Progress) : Except ParseError Sentence :=
  match progress.tokens, progress.openers with
  | [], _ => .error .emptyExpression
  | last :: _, openers =>
    if last.takesRight then .error (.missingOperandAtEnd last.index last.text)
    else match openers with
      | index :: _ => .error (.unclosedOpeningParen index)
      | [] => .ok { tokens := progress.tokens.reverse, names := progress.names }

/-- The sentence that the tokens seen and those of the rest of a source make. -/
def read (progress : Progress) (lexer : Lexer) : Except ParseError Sentence :=
  match _found : lexer.next with
  | (.error error, _) => .error error
  | (.ok none, _) => progress.finish
  | (.ok (some token), after) =>
    match progress.accept token with
    | .error error => .error error
    | .ok progress => progress.read after
termination_by lexer.rest.length
decreasing_by exact Lexer.next_length _found

end Progress

/-- The sentence that a source spells. -/
def ofSource (source : String) : Except ParseError Sentence :=
  Progress.read {} (Lexer.ofSource source)

end Sentence

end Formula
