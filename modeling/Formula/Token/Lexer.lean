import Formula.Token.Piece

/-!
# Scanning

The scanner cuts one token after another off the front of a source, and refuses
tokens that lack a blank which their kind or the kind before demands.
`Lexer.next` also says where the scanner stands after a refusal, from where a
caller may go on.
-/

namespace Formula

/-- A scanner on its way through a source. -/
structure Lexer where
  /-- What has not been read. -/
  rest : List Char
  /-- The number of bytes read. -/
  position : Nat := 0
  /-- The kind of the last token. -/
  last : Option TokenKind := none
  deriving DecidableEq

namespace Lexer

def ofSource (source : String) : Lexer := { rest := source.toList }

/-- The scanner behind the blanks that come next. -/
def skipBlanks (lexer : Lexer) : Lexer :=
  { lexer with
    rest := lexer.rest.dropWhile isBlank
    position := lexer.position + byteLength (lexer.rest.takeWhile isBlank) }

/-- The scanner behind a piece. -/
def advance (lexer : Lexer) (piece : Piece) : Lexer :=
  { lexer with
    rest := piece.rest
    position := lexer.position + byteLength piece.text }

/-- Whether blanks, or the start of the source, stand before what comes next. -/
def separated (lexer : Lexer) : Bool :=
  lexer.last.isNone || lexer.rest.head?.any isBlank

/-- The last token, if a blank has to stand after it and does not. -/
def unseparated? (lexer : Lexer) : Option TokenKind :=
  lexer.last.filter fun kind => !lexer.separated && kind.needsBlankAfter

/-- The next token, nothing at the end of the source, or the reason why there is
none; and the scanner afterwards.  After a refusal it stands behind what was
looked at, and remembers the same last token as before. -/
def next (lexer : Lexer) : Except ParseError (Option Token) × Lexer :=
  let start := lexer.skipBlanks
  match start.rest with
  | [] => (.ok none, start)
  | c :: rest =>
    match lexer.unseparated? with
    | some kind =>
      (.error (.missingWhitespaceAfter start.position kind.symbol), start)
    | none =>
      let piece := Piece.cut lexer.last start.position c rest
      let after := start.advance piece
      match piece.token start.position lexer.separated with
      | .error error => (.error error, after)
      | .ok token => (.ok (some token), { after with last := some token.kind })

theorem skipBlanks_length (lexer : Lexer) :
    lexer.skipBlanks.rest.length ≤ lexer.rest.length :=
  (List.dropWhile_sublist isBlank).length_le

/-- A token takes at least one character. -/
theorem next_length {lexer after : Lexer} {token : Token}
    (found : lexer.next = (.ok (some token), after)) :
    after.rest.length < lexer.rest.length := by
  have start := lexer.skipBlanks_length
  simp only [next] at found
  split at found
  · simp at found
  · rename_i c rest atStart
    split at found
    · simp at found
    · split at found
      · simp at found
      · rename_i accepted
        have whole := congrArg List.length
          (Piece.cut_split lexer.last lexer.skipBlanks.position c rest)
        have progress := List.length_pos_iff.mpr
          (Piece.cut_text_ne_nil (Piece.token_kind accepted))
        obtain ⟨-, rfl⟩ := Prod.mk.inj found
        simp only [atStart, List.length_append, List.length_cons] at whole start
        simp only [advance]
        omega

/-- The scanner as a sequence that an error ends. -/
def step (lexer : Lexer) : Option (Except ParseError Token) × Lexer :=
  match lexer.next with
  | (.ok token, after) => (token.map .ok, after)
  | (.error error, after) =>
    (some (.error error),
      { after with
        rest := []
        position := after.position + byteLength after.rest })

theorem step_length {lexer after : Lexer} {token : Token}
    (found : lexer.step = (some (.ok token), after)) :
    after.rest.length < lexer.rest.length := by
  unfold step at found
  split at found
  · rename_i token? next atNext
    obtain ⟨some_token, rfl⟩ := Prod.mk.inj found
    cases token? with
    | none => simp at some_token
    | some other => exact next_length atNext
  · simp at found

/-- All tokens that are left, or the first error. -/
def tokens (lexer : Lexer) : Except ParseError (List Token) :=
  match _found : lexer.step with
  | (none, _) => .ok []
  | (some (.error error), _) => .error error
  | (some (.ok token), after) => after.tokens.map (token :: ·)
termination_by lexer.rest.length
decreasing_by exact step_length _found

end Lexer

/-- The tokens of a source. -/
def tokenize (source : String) : Except ParseError (List Token) :=
  (Lexer.ofSource source).tokens

end Formula
