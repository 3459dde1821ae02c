import Formula.Integer
import Formula.Json.Basic
import Formula.Text.Offset

/-!
# Parts of a JSON text

A JSON text consists of brackets, commas, colons, strings and other simple
values, with blanks between them.  Reading one of them always consumes at least
one character.
-/

namespace Formula.Json

inductive Lexeme where
  | openBracket
  | closeBracket
  | openBrace
  | closeBrace
  | comma
  | colon
  | string (text : Option String)
  /-- A value that is neither a string nor composed of others. -/
  | simple (value : Json)

def isBlank (c : Char) : Bool := c == ' ' || c == '\t' || c == '\n' || c == '\r'

def hexDigit? (c : Char) : Option Nat :=
  if c.isDigit then some (c.toNat - '0'.toNat)
  else if 'a' ≤ c ∧ c ≤ 'f' then some (c.toNat - 'a'.toNat + 10)
  else if 'A' ≤ c ∧ c ≤ 'F' then some (c.toNat - 'A'.toNat + 10)
  else none

def hexValue? (digits : List Char) : Option Nat :=
  digits.foldlM (fun value digit => (hexDigit? digit).map (16 * value + ·)) 0

/-- The character that a backslash and a letter stand for. -/
def escaped? : Char → Option Char
  | '"' => some '"'
  | '\\' => some '\\'
  | '/' => some '/'
  | 'b' => some '\x08'
  | 'f' => some '\x0c'
  | 'n' => some '\n'
  | 'r' => some '\r'
  | 't' => some '\t'
  | _ => none

/-- The code points written in a string, up to its closing quotation mark, and
what comes after.  Half a character is kept as the code that its escape
gives. -/
def stringCodes : List Char → Option (List Nat × List Char)
  | [] => none
  | '"' :: rest => some ([], rest)
  | '\\' :: 'u' :: a :: b :: c :: d :: rest => do
    let code ← hexValue? [a, b, c, d]
    let (codes, rest) ← stringCodes rest
    return (code :: codes, rest)
  | '\\' :: letter :: rest => do
    let c ← escaped? letter
    let (codes, rest) ← stringCodes rest
    return (c.toNat :: codes, rest)
  | c :: rest =>
    if c.toNat < 0x20 then none
    else do
      let (codes, rest) ← stringCodes rest
      return (c.toNat :: codes, rest)

/-- The text that codes denote: a high half of a character is followed by a low
half, and low halves stand nowhere else. -/
def textOfCodes? : List Nat → Option (List Char)
  | [] => some []
  | code :: rest =>
    if 0xD800 ≤ code ∧ code < 0xDC00 then
      match rest with
      | low :: rest =>
        if 0xDC00 ≤ low ∧ low < 0xE000 then
          (textOfCodes? rest).map (Char.ofNat
            (0x10000 + (code - 0xD800) * 0x400 + (low - 0xDC00)) :: ·)
        else none
      | [] => none
    else if 0xDC00 ≤ code ∧ code < 0xE000 then none
    else (textOfCodes? rest).map (Char.ofNat code :: ·)

theorem stringCodes_length {source rest : List Char} {codes : List Nat}
    (read : stringCodes source = some (codes, rest)) :
    rest.length < source.length := by
  fun_induction stringCodes source generalizing codes rest with
  | case1 => simp at read
  | case2 => simp_all
  | case3 a b c d after ih =>
    simp only [Option.pure_def, Option.bind_eq_bind,
      Option.bind_eq_some_iff] at read
    obtain ⟨code, -, ⟨codes', rest'⟩, inner, same⟩ := read
    have shorter := ih inner
    cases same
    simp only [List.length_cons]
    omega
  | case4 letter after _ ih =>
    simp only [Option.pure_def, Option.bind_eq_bind,
      Option.bind_eq_some_iff] at read
    obtain ⟨code, -, ⟨codes', rest'⟩, inner, same⟩ := read
    have shorter := ih inner
    cases same
    simp only [List.length_cons]
    omega
  | case5 => simp at read
  | case6 =>
    rename_i ih
    simp only [Option.pure_def, Option.bind_eq_bind,
      Option.bind_eq_some_iff] at read
    obtain ⟨⟨codes', rest'⟩, inner, same⟩ := read
    have shorter := ih inner
    cases same
    simp only [List.length_cons]
    omega

/-- At least one digit, and what comes after. -/
def digits? (source : List Char) : Option (List Char × List Char) :=
  match source.takeWhile Char.isDigit with
  | [] => none
  | digits => some (digits, source.dropWhile Char.isDigit)

theorem digits?_length {source digits rest : List Char}
    (read : digits? source = some (digits, rest)) :
    rest.length < source.length := by
  have whole := congrArg List.length
    (List.takeWhile_append_dropWhile (p := Char.isDigit) (l := source))
  unfold digits? at read
  split at read
  · simp at read
  · rename_i taken nonempty
    simp only [Option.some.injEq, Prod.mk.injEq] at read
    obtain ⟨rfl, rfl⟩ := read
    have positive := List.length_pos_iff.mpr nonempty
    simp only [List.length_append] at whole
    omega

/-- The fraction of a number, if it has one; nothing if a point has no digits
after it. -/
def fraction? : List Char → Option (List Char × List Char)
  | '.' :: rest =>
    (digits? rest).map fun (digits, rest) => ('.' :: digits, rest)
  | rest => some ([], rest)

/-- The exponent of a number, if it has one; nothing if it has no digits. -/
def exponent? : List Char → Option (List Char × List Char)
  | c :: rest =>
    if c = 'e' ∨ c = 'E' then
      match rest with
      | sign :: rest =>
        if sign = '+' ∨ sign = '-' then
          (digits? rest).map fun (digits, rest) => (c :: sign :: digits, rest)
        else (digits? (sign :: rest)).map fun (digits, rest) =>
          (c :: digits, rest)
      | [] => none
    else some ([], c :: rest)
  | [] => some ([], [])

theorem fraction?_length {source text rest : List Char}
    (read : fraction? source = some (text, rest)) :
    rest.length ≤ source.length := by
  unfold fraction? at read
  split at read
  · rename_i after
    simp only [Option.map_eq_some_iff] at read
    obtain ⟨⟨digits, rest'⟩, inner, same⟩ := read
    have shorter := digits?_length inner
    cases same
    simp only [List.length_cons]
    omega
  · simp_all

theorem exponent?_length {source text rest : List Char}
    (read : exponent? source = some (text, rest)) :
    rest.length ≤ source.length := by
  unfold exponent? at read
  split at read
  · split at read
    · split at read
      · split at read <;>
        · simp only [Option.map_eq_some_iff] at read
          obtain ⟨⟨digits, rest'⟩, inner, same⟩ := read
          have shorter := digits?_length inner
          cases same
          simp only [List.length_cons] at shorter ⊢
          omega
      · simp at read
    · simp_all
  · simp_all

/-- A number without its sign.  A whole part of several digits does not begin
with zero. -/
def unsigned? (negative : Bool) (source : List Char) :
    Option (Json × List Char) := do
  let (whole, rest) ← digits? source
  if whole.head? = some '0' ∧ whole ≠ ['0'] then none
  else
    let (fraction, rest) ← fraction? rest
    let (exponent, rest) ← exponent? rest
    let spelling :=
      (if negative then ['-'] else []) ++ whole ++ fraction ++ exponent
    if fraction.isEmpty ∧ exponent.isEmpty ∧ ¬(negative ∧ whole = ['0']) then
      return (.integer (signedValue spelling), rest)
    else return (.decimal (String.ofList spelling), rest)

theorem unsigned?_length {negative : Bool} {source rest : List Char}
    {value : Json}
    (read : unsigned? negative source = some (value, rest)) :
    rest.length < source.length := by
  simp only [unsigned?, Option.pure_def, Option.bind_eq_bind,
    Option.bind_eq_some_iff] at read
  obtain ⟨⟨whole, afterWhole⟩, readWhole, read⟩ := read
  split at read
  · simp at read
  · simp only [Option.bind_eq_some_iff] at read
    obtain ⟨⟨fraction, afterFraction⟩, readFraction,
      ⟨exponent, afterExponent⟩, readExponent, read⟩ := read
    have shorter := digits?_length readWhole
    have shorter' := fraction?_length readFraction
    have shorter'' := exponent?_length readExponent
    have same : afterExponent = rest := by
      split at read <;> simp_all
    subst same
    simp only at *
    omega

/-- A value that is written as a word, whose first letter has been read. -/
def word? (letters : List Char) (value : Json) (rest : List Char) :
    Option (Lexeme × List Char) :=
  if letters.isPrefixOf rest then some (.simple value, rest.drop letters.length)
  else none

/-- The part that starts with `c`, and what comes after it. -/
def lexeme? (c : Char) (rest : List Char) : Option (Lexeme × List Char) :=
  match c with
  | '[' => some (.openBracket, rest)
  | ']' => some (.closeBracket, rest)
  | '{' => some (.openBrace, rest)
  | '}' => some (.closeBrace, rest)
  | ',' => some (.comma, rest)
  | ':' => some (.colon, rest)
  | '"' =>
    (stringCodes rest).map fun (codes, rest) =>
      (.string ((textOfCodes? codes).map String.ofList), rest)
  | 'n' => word? ['u', 'l', 'l'] .null rest
  | 't' => word? ['r', 'u', 'e'] (.bool true) rest
  | 'f' => word? ['a', 'l', 's', 'e'] (.bool false) rest
  | '-' => (unsigned? true rest).map fun (value, rest) => (.simple value, rest)
  | c =>
    (unsigned? false (c :: rest)).map fun (value, rest) => (.simple value, rest)

theorem lexeme?_length {c : Char} {source rest : List Char} {lexeme : Lexeme}
    (read : lexeme? c source = some (lexeme, rest)) :
    rest.length ≤ source.length := by
  have wordLength (letters : List Char) (value : Json)
      (read : word? letters value source = some (lexeme, rest)) :
      rest.length ≤ source.length := by
    unfold word? at read
    split at read
    · simp only [Option.some.injEq, Prod.mk.injEq] at read
      simp [← read.2]
    · simp at read
  unfold lexeme? at read
  split at read
  case h_7 =>
    simp only [Option.map_eq_some_iff] at read
    obtain ⟨⟨codes, rest'⟩, inner, same⟩ := read
    cases same
    exact Nat.le_of_lt (stringCodes_length inner)
  case h_8 | h_9 | h_10 => exact wordLength _ _ read
  case h_11 =>
    simp only [Option.map_eq_some_iff] at read
    obtain ⟨⟨value, rest'⟩, inner, same⟩ := read
    cases same
    exact Nat.le_of_lt (unsigned?_length inner)
  case h_12 =>
    simp only [Option.map_eq_some_iff] at read
    obtain ⟨⟨value, rest'⟩, inner, same⟩ := read
    cases same
    exact Nat.le_of_lt_succ (unsigned?_length inner)
  all_goals
    simp only [Option.some.injEq, Prod.mk.injEq] at read
    simp [← read.2]

/-- All parts of a text. -/
def lexemes? : List Char → Option (List Lexeme)
  | [] => some []
  | c :: rest =>
    if isBlank c then lexemes? rest
    else
      match _found : lexeme? c rest with
      | none => none
      | some (lexeme, after) => (lexemes? after).map (lexeme :: ·)
termination_by source => source.length
decreasing_by
  · simp
  · have shorter := lexeme?_length _found
    simp
    omega

end Formula.Json
