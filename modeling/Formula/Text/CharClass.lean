/-!
# Character classes

The scanner tells from the class of a character where a word, a number or an
operator ends.  Every character has exactly one class; whatever is not named by
a table belongs to words, so names may be written in any script.
-/

namespace Formula

/-- The characters with the Unicode property White_Space. -/
def isBlank (c : Char) : Bool :=
  let code := c.toNat
  (0x09 ≤ code && code ≤ 0x0D) || code == 0x20 || code == 0x85 ||
    code == 0xA0 || code == 0x1680 || (0x2000 ≤ code && code ≤ 0x200A) ||
    code == 0x2028 || code == 0x2029 || code == 0x202F || code == 0x205F ||
    code == 0x3000

inductive CharClass where
  | whitespace
  | operator
  /-- May stand inside a word, but neither begin nor end one. -/
  | mixed
  /-- May stand anywhere in a word. -/
  | identifier
  | digit
  deriving DecidableEq

/-- Characters that end a word and cannot stand in one. -/
def operatorCharacters : List Char :=
  ['~', '!', '%', '^', '&', '*', '(', ')', '+', '=', '[', ']', '{', '}', '|',
    ':', ';', '\'', '"', '<', '>', '?', ',', '/']

def mixedCharacters : List Char := ['.', '$', '-', '@']

def CharClass.of (c : Char) : CharClass :=
  if c ∈ operatorCharacters then .operator
  else if c ∈ mixedCharacters then .mixed
  else if c.isDigit then .digit
  else if isBlank c then .whitespace
  else .identifier

end Formula
