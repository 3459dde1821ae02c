/-!
# JSON values

A JSON value as it is written: members of an object keep their order and their
repetitions, and a number that is not written as an integer keeps its spelling.
A string may be written with escapes that are only one half of a character; it
then denotes no text.
-/

namespace Formula

inductive Json where
  | null
  | bool (value : Bool)
  | integer (value : Int)
  /-- A number with a fraction or an exponent, and minus zero. -/
  | decimal (spelling : String)
  /-- Nothing, if the string denotes no text. -/
  | string (text : Option String)
  | array (items : List Json)
  | object (members : List (Option String × Json))

namespace Json

def text (value : String) : Json := .string (some value)

def nat (value : Nat) : Json := .integer value

/-- An object with the given members. -/
def record (members : List (String × Json)) : Json :=
  .object (members.map fun member => (some member.1, member.2))

end Json

end Formula
