import Formula.Json.Lexeme

/-!
# Reading JSON

The parts of a text are put together one after another.  The reader remembers
the arrays and objects that are still open, and what may come next.  A string
can also be read from the beginning of a text, whatever comes after it.
-/

namespace Formula.Json

/-- An array or object that is still open, what it holds standing latest
first. -/
inductive Open where
  | array (items : List Json)
  /-- The value for `key` comes next. -/
  | object (members : List (Option String × Json)) (key : Option String)

inductive Place where
  | value
  /-- A value, or the end of the array. -/
  | firstItem
  /-- A key, or the end of the object. -/
  | firstKey
  | key (members : List (Option String × Json))
  | colon (members : List (Option String × Json)) (key : Option String)
  /-- A value is complete; a comma or the end of what it stands in comes
  next. -/
  | complete (value : Json)

/-- The open arrays and objects, the innermost first, and what may come next. -/
structure Progress where
  around : List Open := []
  place : Place := .value

namespace Progress

/-- A value begins. -/
def begin? (around : List Open) : Lexeme → Option Progress
  | .simple value => some { around, place := .complete value }
  | .string text => some { around, place := .complete (.string text) }
  | .openBracket => some { around := .array [] :: around, place := .firstItem }
  | .openBrace => some { around, place := .firstKey }
  | _ => none

def step? (progress : Progress) (lexeme : Lexeme) : Option Progress :=
  match progress, lexeme with
  | ⟨around, .value⟩, lexeme => begin? around lexeme
  | ⟨.array _ :: around, .firstItem⟩, .closeBracket =>
    some { around, place := .complete (.array []) }
  | ⟨around, .firstItem⟩, lexeme => begin? around lexeme
  | ⟨around, .firstKey⟩, .closeBrace =>
    some { around, place := .complete (.object []) }
  | ⟨around, .firstKey⟩, .string key => some { around, place := .colon [] key }
  | ⟨around, .key members⟩, .string key =>
    some { around, place := .colon members key }
  | ⟨around, .colon members key⟩, .colon =>
    some { around := .object members key :: around, place := .value }
  | ⟨.array items :: around, .complete value⟩, .comma =>
    some { around := .array (value :: items) :: around, place := .value }
  | ⟨.array items :: around, .complete value⟩, .closeBracket =>
    some { around, place := .complete (.array (value :: items).reverse) }
  | ⟨.object members key :: around, .complete value⟩, .comma =>
    some { around, place := .key ((key, value) :: members) }
  | ⟨.object members key :: around, .complete value⟩, .closeBrace =>
    some
      { around
        place := .complete (.object ((key, value) :: members).reverse) }
  | _, _ => none

def finish? : Progress → Option Json
  | ⟨[], .complete value⟩ => some value
  | _ => none

end Progress

/-- The value that a text is, with nothing but blanks around it. -/
def read? (text : String) : Option Json := do
  let lexemes ← lexemes? text.toList
  let progress ← lexemes.foldlM Progress.step? {}
  progress.finish?

/-- The string that a text begins with, behind blanks, and what comes after it;
nothing if the string denotes no text. -/
def leadingString? (text : String) : Option (String × List Char) :=
  match text.toList.dropWhile isBlank with
  | '"' :: rest => do
    let (codes, rest) ← stringCodes rest
    let characters ← textOfCodes? codes
    return (String.ofList characters, rest)
  | _ => none

end Formula.Json
