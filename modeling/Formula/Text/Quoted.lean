import Formula.Text.Printable

/-!
# Quoted text

Names and sources are shown in quotation marks when they stand inside a
description, with escapes for the quotation mark, the backslash and everything
that does not show.
-/

namespace Formula

/-- A number in hexadecimal, with lower-case digits and no leading zeros. -/
def hexText (value : Nat) : String := String.ofList (Nat.toDigits 16 value)

def quotedChar (c : Char) : String :=
  match c with
  | '\t' => "\\t"
  | '\r' => "\\r"
  | '\n' => "\\n"
  | '"' => "\\\""
  | '\\' => "\\\\"
  | c =>
    if c.toNat = 0 then "\\0"
    else if isPrintable c then c.toString
    else "\\u\x7b" ++ hexText c.toNat ++ "\x7d"

def quoted (text : String) : String :=
  "\"" ++ String.join (text.toList.map quotedChar) ++ "\""

end Formula
