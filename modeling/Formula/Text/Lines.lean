/-!
# Lines

A text is cut into lines at its line breaks; a carriage return before a line
break belongs to it.
-/

namespace Formula

/-- The lines of a text, the first of which begins with `line`, latest character
first. -/
def linesFrom (line : List Char) : List Char → List (List Char)
  | [] => if line.isEmpty then [] else [line.reverse]
  | '\n' :: rest =>
    let whole := match line with
      | '\r' :: line => line
      | line => line
    whole.reverse :: linesFrom [] rest
  | c :: rest => linesFrom (c :: line) rest

def lines (text : String) : List String :=
  (linesFrom [] text.toList).map String.ofList

end Formula
