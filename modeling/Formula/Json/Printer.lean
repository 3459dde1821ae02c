import Formula.Json.Basic
import Formula.Text.Quoted

/-!
# Printing JSON

`compact` writes a value without any blanks.  `pretty` writes every member and
every item on a line of its own, indented by two spaces for each array or object
around it.
-/

namespace Formula.Json

/-- Only the quotation mark, the backslash and control characters are
escaped. -/
def charText (c : Char) : String :=
  match c with
  | '"' => "\\\""
  | '\\' => "\\\\"
  | '\x08' => "\\b"
  | '\x0c' => "\\f"
  | '\n' => "\\n"
  | '\r' => "\\r"
  | '\t' => "\\t"
  | c =>
    if c.toNat < 0x10 then "\\u000" ++ hexText c.toNat
    else if c.toNat < 0x20 then "\\u00" ++ hexText c.toNat
    else c.toString

def stringText (text : String) : String :=
  "\"" ++ String.join (text.toList.map charText) ++ "\""

/-- What a value shows that is neither an array nor an object.  A string that
denotes no text has no written form of its own and is shown empty. -/
def simpleText : Json → String
  | .null => "null"
  | .bool true => "true"
  | .bool false => "false"
  | .integer value => toString value
  | .decimal spelling => spelling
  | .string text => stringText (text.getD "")
  | .array _ | .object _ => ""

mutual

def compact : Json → String
  | .array items => "[" ++ ",".intercalate (compactItems items) ++ "]"
  | .object members =>
    "\x7b" ++ ",".intercalate (compactMembers members) ++ "\x7d"
  | value => simpleText value

def compactItems : List Json → List String
  | [] => []
  | item :: rest => compact item :: compactItems rest

def compactMembers : List (Option String × Json) → List String
  | [] => []
  | (key, value) :: rest =>
    (stringText (key.getD "") ++ ":" ++ compact value) :: compactMembers rest

end

def lineBreak (depth : Nat) : String :=
  "\n" ++ String.ofList (List.replicate (2 * depth) ' ')

/-- Parts on lines of their own between two brackets. -/
def block (depth : Nat) (opening closing : String) (parts : List String) :
    String :=
  if parts.isEmpty then opening ++ closing
  else
    opening ++ lineBreak (depth + 1) ++
      ("," ++ lineBreak (depth + 1)).intercalate parts ++
      lineBreak depth ++ closing

mutual

def prettyAt (depth : Nat) : Json → String
  | .array items => block depth "[" "]" (prettyItems (depth + 1) items)
  | .object members =>
    block depth "\x7b" "\x7d" (prettyMembers (depth + 1) members)
  | value => simpleText value

def prettyItems (depth : Nat) : List Json → List String
  | [] => []
  | item :: rest => prettyAt depth item :: prettyItems depth rest

def prettyMembers (depth : Nat) : List (Option String × Json) → List String
  | [] => []
  | (key, value) :: rest =>
    (stringText (key.getD "") ++ ": " ++ prettyAt depth value) ::
      prettyMembers depth rest

end

def pretty (value : Json) : String := prettyAt 0 value

end Formula.Json
