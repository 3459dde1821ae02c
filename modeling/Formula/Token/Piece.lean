import Formula.ParseError
import Formula.Text.CharClass
import Formula.Text.Offset
import Formula.Token.Basic

/-!
# Pieces of a source

`Piece.cut` takes from the front of a text, behind its blanks, the longest piece
that can be one token.  The token before decides only over a minus sign, which
is the sign of a number, a negation or a subtraction.  A piece and what is left
always make up the text, and an accepted piece is never empty.
-/

namespace Formula

/-- A piece cut off the front of a text: what was read, what is left, and which
kind of token it is or why it is none. -/
structure Piece where
  text : List Char
  rest : List Char
  verdict : Except ParseError TokenKind

namespace Piece

def accept (text rest : List Char) (kind : TokenKind) : Piece :=
  ⟨text, rest, .ok kind⟩

def refuse (text rest : List Char) (error : ParseError) : Piece :=
  ⟨text, rest, .error error⟩

/-- An operator of one character that becomes another one if `second`
follows. -/
def extensible (c second : Char) (short long : TokenKind) : List Char → Piece
  | [] => accept [c] [] short
  | d :: rest =>
    if d = second then accept [c, d] rest long else accept [c] (d :: rest) short

/-- An operator that is written as a character twice. -/
def doubled (index : Nat) (c : Char) (kind : TokenKind) : List Char → Piece
  | [] => refuse [c] [] (.ambiguousOperator index c kind.symbol)
  | d :: rest =>
    if d = c then accept [c, d] rest kind
    else refuse [c] (d :: rest) (.ambiguousOperator index c kind.symbol)

/-- A number whose sign, if it has one, has been read.  A word may not follow it
directly. -/
def number? (index : Nat) (sign rest : List Char) : Option Piece :=
  match rest.takeWhile Char.isDigit with
  | [] => none
  | digits =>
    let text := sign ++ digits
    match rest.dropWhile Char.isDigit with
    | [] => some (accept text [] .number)
    | c :: rest =>
      if CharClass.of c = .identifier then
        some (refuse text (c :: rest)
          (.numberMergedWithVariable index (String.ofList text)))
      else some (accept text (c :: rest) .number)

def inWord (c : Char) : Bool :=
  match CharClass.of c with
  | .whitespace | .operator => false
  | .mixed | .identifier | .digit => true

/-- What a word is.  It may not end in a character that only joins parts of
words. -/
def wordVerdict (index : Nat) (text : List Char) :
    Except ParseError TokenKind :=
  let name := String.ofList text
  if (text.getLast?.map CharClass.of) = some .mixed then
    .error (.invalidIdentifierEnd (index + byteLength text.dropLast) name)
  else if name = "true" then .ok (.constant true)
  else if name = "false" then .ok (.constant false)
  else .ok .name

def word (index : Nat) (source : List Char) : Piece where
  text := source.takeWhile inWord
  rest := source.dropWhile inWord
  verdict := wordVerdict index (source.takeWhile inWord)

/-- The piece that starts with `c`, at offset `index` and after a token of kind
`last`. -/
def cut (last : Option TokenKind) (index : Nat) (c : Char) (rest : List Char) :
    Piece :=
  match c with
  | '!' => extensible c '=' (.unary .not) (.binary .notEquals) rest
  | '<' => extensible c '=' (.binary .lessThan) (.binary .lessThanOrEqual) rest
  | '>' =>
    extensible c '=' (.binary .greaterThan) (.binary .greaterThanOrEqual) rest
  | '=' => doubled index c (.binary .equals) rest
  | '&' => doubled index c (.binary .and) rest
  | '|' => doubled index c (.binary .or) rest
  | '(' => accept [c] rest .openParen
  | ')' => accept [c] rest .closeParen
  | '~' => accept [c] rest (.unary .complement)
  | '+' => accept [c] rest (.binary .add)
  | '*' => accept [c] rest (.binary .multiply)
  | '/' => accept [c] rest (.binary .divide)
  | '%' => accept [c] rest (.binary .modulo)
  | '-' =>
    if TokenKind.expectsOperand last then
      (number? index [c] rest).getD (accept [c] rest (.unary .negate))
    else accept [c] rest (.binary .subtract)
  | _ =>
    match number? index [] (c :: rest) with
    | some piece => piece
    | none =>
      if CharClass.of c = .identifier then word index (c :: rest)
      else refuse [] (c :: rest) (.invalidCharacter index c)

theorem number?_split {index : Nat} {sign rest : List Char} {piece : Piece}
    (found : number? index sign rest = some piece) :
    piece.text ++ piece.rest = sign ++ rest ∧ piece.text ≠ [] := by
  have whole := List.takeWhile_append_dropWhile (p := Char.isDigit) (l := rest)
  unfold number? at found
  split at found
  · cases found
  · rename_i digits nonempty
    split at found
    · rename_i atEnd
      cases found
      rw [atEnd, List.append_nil] at whole
      simp_all [accept]
    · rename_i c after atNext
      rw [atNext] at whole
      split at found <;> cases found <;> simp_all [accept, refuse]

/-- A piece and what is left make up the text that it was cut from. -/
theorem cut_split (last : Option TokenKind) (index : Nat) (c : Char)
    (rest : List Char) :
    (cut last index c rest).text ++ (cut last index c rest).rest =
      c :: rest := by
  have extensibleSplit (second : Char) (short long : TokenKind) :
      (extensible c second short long rest).text ++
          (extensible c second short long rest).rest =
        c :: rest := by
    cases rest with
    | nil => rfl
    | cons d rest =>
      by_cases same : d = second <;> simp [extensible, same, accept]
  have doubledSplit (kind : TokenKind) :
      (doubled index c kind rest).text ++ (doubled index c kind rest).rest =
        c :: rest := by
    cases rest with
    | nil => rfl
    | cons d rest =>
      by_cases same : d = c <;> simp [doubled, same, accept, refuse]
  unfold cut
  split <;> try first | exact extensibleSplit _ _ _ | exact doubledSplit _ | rfl
  · split
    · cases found : number? index ['-'] rest with
      | none => rfl
      | some piece => simpa using (number?_split found).1
    · rfl
  · split
    · rename_i found
      simpa using (number?_split found).1
    · split
      · simp [word]
      · rfl

/-- An accepted piece is not empty. -/
theorem cut_text_ne_nil {last : Option TokenKind} {index : Nat} {c : Char}
    {rest : List Char} {kind : TokenKind}
    (accepted : (cut last index c rest).verdict = .ok kind) :
    (cut last index c rest).text ≠ [] := by
  have extensibleText (second : Char) (short long : TokenKind) :
      (extensible c second short long rest).text ≠ [] := by
    cases rest with
    | nil => simp [extensible, accept]
    | cons d rest =>
      by_cases same : d = second <;> simp [extensible, same, accept]
  have doubledText (kind : TokenKind) :
      (doubled index c kind rest).text ≠ [] := by
    cases rest with
    | nil => simp [doubled, refuse]
    | cons d rest =>
      by_cases same : d = c <;> simp [doubled, same, accept, refuse]
  unfold cut at accepted ⊢
  split <;>
    try first | exact extensibleText _ _ _ | exact doubledText _ | simp [accept]
  · split
    · cases found : number? index ['-'] rest with
      | none => simp
      | some piece => simpa using (number?_split found).2
    · simp
  · split
    · rename_i found
      exact (number?_split found).2
    · rename_i notNumber
      rw [notNumber] at accepted
      split
      · rename_i identifier
        simp [word, inWord, identifier]
      · rename_i other
        simp [other, refuse] at accepted

/-- The token that a piece at an offset makes; `separated` says whether a blank
stands before. -/
def token (piece : Piece) (index : Nat) (separated : Bool) :
    Except ParseError Token :=
  match piece.verdict with
  | .error error => .error error
  | .ok kind =>
    if !separated && kind.needsBlankBefore then
      .error (.missingWhitespaceBefore index kind.symbol)
    else if kind = .number then
      match int32? (signedValue piece.text) with
      | some value => .ok ⟨kind, index, String.ofList piece.text, some value⟩
      | none => .error (.numberOutOfRange index (String.ofList piece.text))
    else .ok ⟨kind, index, String.ofList piece.text, none⟩

theorem token_kind {piece : Piece} {index : Nat} {separated : Bool}
    {token : Token} (made : piece.token index separated = .ok token) :
    piece.verdict = .ok token.kind := by
  unfold Piece.token at made
  split at made
  · simp at made
  · rename_i verdict
    split at made
    · simp at made
    · split at made
      · split at made
        · cases made
          exact verdict
        · simp at made
      · cases made
        exact verdict

end Piece

end Formula
