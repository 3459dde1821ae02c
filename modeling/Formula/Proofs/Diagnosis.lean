import Formula.Proofs.Compilation
import Formula.Proofs.Parentheses

/-!
# What errors say of the source

`ParseError.Accurate` spells out for each error what it claims to have found in
the source and where.  The scanner and the check know of the text behind them
only what `Sentence.Progress.Reached` says; that this suffices for every error
is shown for one token, and then for all.
-/

namespace Formula

/-- A text stands in a source behind `before` and in front of `after`, at an
offset that counts the bytes of `before`. -/
structure Stands (source before text after : List Char) (index : Nat) :
    Prop where
  split : source = before ++ text ++ after
  offset : index = byteLength before

/-- The offset is that of a character of the source, which is not a blank. -/
def VisibleAt (source : List Char) (index : Nat) : Prop :=
  ∃ before c after, Stands source before [c] after index ∧
    CharClass.of c ≠ .whitespace

def AllBlank (text : List Char) : Prop :=
  ∀ c ∈ text, CharClass.of c = .whitespace

/-- What an error says is true of the source. -/
def ParseError.Accurate (source : List Char) : ParseError → Prop
  | .missingWhitespaceAfter index symbol =>
    ∃ (op : BinaryOp) (before after : List Char) (c : Char),
      symbol = op.symbol ∧ (TokenKind.binary op).needsBlankAfter = true ∧
        Stands source (before ++ symbol.toList) [c] after index ∧
        CharClass.of c ≠ .whitespace
  | .missingWhitespaceBefore index symbol =>
    ∃ (op : BinaryOp) (before after : List Char) (c : Char),
      symbol = op.symbol ∧ (TokenKind.binary op).needsBlankBefore = true ∧
        Stands source (before ++ [c]) symbol.toList after index ∧
        CharClass.of c ≠ .whitespace
  | .ambiguousOperator index found expected =>
    ∃ (op : BinaryOp) (before after : List Char),
      expected = op.symbol ∧ expected.toList = [found, found] ∧
        Stands source before [found] after index ∧ after.head? ≠ some found
  | .invalidCharacter index found =>
    ∃ before after, Stands source before [found] after index ∧
      CharClass.of found ≠ .whitespace ∧ Piece.StartsNone found
  | .numberMergedWithVariable index number =>
    ∃ (value : Int) (before after : List Char) (c : Char),
      Numeral number.toList value ∧
        Stands source before number.toList (c :: after) index ∧
        CharClass.of c = .identifier
  | .invalidIdentifierEnd index name =>
    ∃ (before front after : List Char) (c : Char),
      name.toList = front ++ [c] ∧
        Stands source (before ++ front) [c] after index ∧
        CharClass.of c = .mixed
  | .numberOutOfRange index number =>
    ∃ (value : Int) (before after : List Char),
      Numeral number.toList value ∧
        Stands source before number.toList after index ∧
        (value < -2147483648 ∨ 2147483647 < value)
  | .emptyExpression => AllBlank source
  | .missingOperandAtStart index symbol =>
    ∃ (op : BinaryOp) (blanks after : List Char),
      symbol = op.symbol ∧ AllBlank blanks ∧
        Stands source blanks symbol.toList after index
  | .missingOperandAtEnd index symbol =>
    ∃ (kind : TokenKind) (before blanks : List Char),
      symbol = kind.symbol ∧ kind.takesRight = true ∧ AllBlank blanks ∧
        Stands source before symbol.toList blanks index
  | .unmatchedClosingParen index =>
    ∃ before after, Balanced before ∧ Stands source before [')'] after index
  | .unclosedOpeningParen index =>
    ∃ before inside, Balanced inside ∧ Stands source before ['('] inside index
  | .emptyParens index =>
    ∃ before blanks after, AllBlank blanks ∧
      Stands source before ('(' :: (blanks ++ [')'])) after index
  | .extraOperator leftIndex left rightIndex right =>
    ∃ (leftKind rightKind : TokenKind) (before blanks after : List Char),
      left = leftKind.symbol ∧ leftKind.takesRight = true ∧
        right = rightKind.symbol ∧ rightKind.takesLeft = true ∧
        AllBlank blanks ∧
        Stands source before left.toList (blanks ++ right.toList ++ after)
          leftIndex ∧
        Stands source (before ++ left.toList ++ blanks) right.toList after
          rightIndex
  | .missingBinaryOperator index symbol =>
    ∃ (last : Option TokenKind) (leftKind rightKind : TokenKind)
      (before left blanks after : List Char),
      leftKind.WrittenAs last left ∧ leftKind.takesRight = false ∧
        rightKind.WrittenAs (some leftKind) symbol.toList ∧
        rightKind.takesLeft = false ∧ AllBlank blanks ∧
        Stands source (before ++ left ++ blanks) symbol.toList after index
  | .internal _ => False

namespace TokenKind

variable {kind : TokenKind} {last : Option TokenKind} {text : List Char}

theorem exists_binary_of_needsBlank
    (demands : kind.needsBlankBefore = true ∨ kind.needsBlankAfter = true) :
    ∃ op, kind = .binary op := by
  cases kind with
  | binary op => exact ⟨op, rfl⟩
  | _ => simp [needsBlankBefore, needsBlankAfter, blanks, Sides.onLeft,
      Sides.onRight] at demands

theorem WrittenAs.eq_symbol_of_takes (written : kind.WrittenAs last text)
    (takes : kind.takesLeft = true ∨ kind.takesRight = true) :
    text = kind.symbol.toList := by
  apply written.eq_symbol
  · rintro rfl
    simp [takesLeft, takesRight, operands, Sides.onLeft, Sides.onRight] at takes
  · rintro rfl
    simp [takesLeft, takesRight, operands, Sides.onLeft, Sides.onRight] at takes

theorem symbol_begins (kind : TokenKind) :
    ∃ c rest, kind.symbol.toList = c :: rest ∧
      CharClass.of c ≠ .whitespace := by
  rcases kind with (_ | _) | _ | _ | _ | _ | op | op
  case unary => cases op <;> exact ⟨_, _, rfl, by decide⟩
  case binary => cases op <;> exact ⟨_, _, rfl, by decide⟩
  all_goals exact ⟨_, _, rfl, by decide⟩

theorem WrittenAs.begins_visible (written : kind.WrittenAs last text) :
    ∃ c rest, text = c :: rest ∧ CharClass.of c ≠ .whitespace := by
  obtain ⟨c, rest, rfl, -⟩ := written.begins
  exact ⟨c, rest, rfl, (written.visible List.mem_cons_self).1⟩

end TokenKind

theorem Numeral.begins_visible {text : List Char} {value : Int}
    (numeral : Numeral text value) :
    ∃ c rest, text = c :: rest ∧ CharClass.of c ≠ .whitespace := by
  have written : TokenKind.number.WrittenAs none text :=
    ⟨⟨value, numeral⟩, fun _ => rfl⟩
  exact written.begins_visible

namespace Stands

variable {source before text after : List Char} {index : Nat}

theorem visibleAt (stands : Stands source before text after index)
    (begins : ∃ c rest, text = c :: rest ∧ CharClass.of c ≠ .whitespace) :
    VisibleAt source index := by
  obtain ⟨c, rest, rfl, visible⟩ := begins
  refine ⟨before, c, rest ++ after, ⟨?_, stands.offset⟩, visible⟩
  rw [stands.split]
  simp

end Stands

/-- An accurate error points at something that is not a blank, unless it says
that there is nothing else. -/
theorem ParseError.Accurate.visibleAt {source : List Char} {error : ParseError}
    (accurate : error.Accurate source) :
    error = .emptyExpression ∨
      ∃ index, error.index? = some index ∧ VisibleAt source index := by
  cases error with
  | missingWhitespaceAfter index symbol =>
      obtain ⟨op, before, after, c, -, -, stands, visible⟩ := accurate
      exact .inr ⟨index, rfl, _, c, after, stands, visible⟩
  | missingWhitespaceBefore index symbol =>
      obtain ⟨op, before, after, c, rfl, -, stands, -⟩ := accurate
      exact .inr ⟨index, rfl,
        stands.visibleAt (TokenKind.binary op).symbol_begins⟩
  | ambiguousOperator index found expected =>
      obtain ⟨op, before, after, rfl, twice, stands, -⟩ := accurate
      have begins := (TokenKind.binary op).symbol_begins
      rw [TokenKind.symbol, twice] at begins
      obtain ⟨c, rest, same, visible⟩ := begins
      cases same
      exact .inr ⟨index, rfl, before, found, after, stands, visible⟩
  | invalidCharacter index found =>
      obtain ⟨before, after, stands, visible, -⟩ := accurate
      exact .inr ⟨index, rfl, before, found, after, stands, visible⟩
  | numberMergedWithVariable index number =>
      obtain ⟨value, before, after, c, numeral, stands, -⟩ := accurate
      exact .inr ⟨index, rfl, stands.visibleAt numeral.begins_visible⟩
  | invalidIdentifierEnd index name =>
      obtain ⟨before, front, after, c, -, stands, mixed⟩ := accurate
      exact .inr ⟨index, rfl, _, c, after, stands, by simp [mixed]⟩
  | numberOutOfRange index number =>
      obtain ⟨value, before, after, numeral, stands, -⟩ := accurate
      exact .inr ⟨index, rfl, stands.visibleAt numeral.begins_visible⟩
  | emptyExpression => exact .inl rfl
  | missingOperandAtStart index symbol =>
      obtain ⟨op, blanks, after, rfl, -, stands⟩ := accurate
      exact .inr ⟨index, rfl,
        stands.visibleAt (TokenKind.binary op).symbol_begins⟩
  | missingOperandAtEnd index symbol =>
      obtain ⟨kind, before, blanks, rfl, -, -, stands⟩ := accurate
      exact .inr ⟨index, rfl, stands.visibleAt kind.symbol_begins⟩
  | unmatchedClosingParen index =>
      obtain ⟨before, after, -, stands⟩ := accurate
      exact .inr ⟨index, rfl, before, ')', after, stands, by decide⟩
  | unclosedOpeningParen index =>
      obtain ⟨before, inside, -, stands⟩ := accurate
      exact .inr ⟨index, rfl, before, '(', inside, stands, by decide⟩
  | emptyParens index =>
      obtain ⟨before, blanks, after, -, stands⟩ := accurate
      exact .inr ⟨index, rfl, stands.visibleAt ⟨'(', _, rfl, by decide⟩⟩
  | extraOperator leftIndex left rightIndex right =>
      obtain ⟨leftKind, rightKind, before, blanks, after, rfl, -, -, -, -,
        stands, -⟩ := accurate
      exact .inr ⟨leftIndex, rfl, stands.visibleAt leftKind.symbol_begins⟩
  | missingBinaryOperator index symbol =>
      obtain ⟨last, leftKind, rightKind, before, left, blanks, after, -, -,
        written, -, -, stands⟩ := accurate
      exact .inr ⟨index, rfl, stands.visibleAt written.begins_visible⟩
  | internal fault => exact accurate.elim

/-- The text ends in the token, at the offset that the token has. -/
def Token.Closes (token : Token) (text : List Char) : Prop :=
  ∃ last before, text = before ++ token.text.toList ∧
    token.index = byteLength before ∧
    token.kind.WrittenAs last token.text.toList

theorem AllBlank.balanced {blanks : List Char} (allBlank : AllBlank blanks) :
    Balanced blanks := by
  apply Balanced.of_forall
  intro c member
  have blank := allBlank c member
  constructor
  · rintro rfl
    exact absurd blank (by decide)
  · rintro rfl
    exact absurd blank (by decide)

theorem TokenKind.WrittenAs.balanced {kind : TokenKind}
    {last : Option TokenKind}
    {text : List Char} (written : kind.WrittenAs last text)
    (notOpener : kind ≠ .openParen) (notCloser : kind ≠ .closeParen) :
    Balanced text := by
  apply Balanced.of_forall
  intro c member
  obtain ⟨-, opener, closer⟩ := written.visible member
  exact ⟨fun opens => notOpener (opener opens),
    fun closes => notCloser (closer closes)⟩

/-- The check keeps track of the parentheses in the text that it has seen. -/
theorem Sentence.unclosed_openersAfter {text : List Char}
    {openers after : List Nat} {token : Token} {last : Option TokenKind}
    (unclosed : Unclosed text openers)
    (written : token.kind.WrittenAs last token.text.toList)
    (index : token.index = byteLength text)
    (opened : openersAfter openers token = .ok after) :
    Unclosed (text ++ token.text.toList) after := by
  by_cases opens : token.kind = .openParen
  · rw [openersAfter_opener opens] at opened
    cases opened
    rw [opens] at written
    have same : token.text.toList = ['('] := written
    rw [same, index]
    exact unclosed.opener
  · by_cases closes : token.kind = .closeParen
    · rw [closes] at written
      have same : token.text.toList = [')'] := written
      cases openers with
      | nil => simp [openersAfter, closes, TokenKind.closesGroup] at opened
      | cons opener outer =>
          rw [openersAfter_closer closes] at opened
          cases opened
          rw [same]
          exact unclosed.closer
    · rw [openersAfter_other opens closes] at opened
      cases opened
      exact unclosed.append (written.balanced opens closes)

theorem Token.Closes.ends_visible {token : Token} {text : List Char}
    (closes : token.Closes text) :
    ∃ front c, text = front ++ [c] ∧ CharClass.of c ≠ .whitespace := by
  obtain ⟨last, before, rfl, -, written⟩ := closes
  obtain ⟨first, others, begins, -⟩ := written.begins
  have nonempty : token.text.toList ≠ [] := by
    rw [begins]
    exact List.cons_ne_nil first others
  obtain ⟨front, c, ended⟩ :=
    (List.eq_nil_or_concat token.text.toList).resolve_left nonempty
  rw [List.concat_eq_append] at ended
  have member : c ∈ token.text.toList := by
    rw [ended]
    simp
  refine ⟨before ++ front, c, ?_, (written.visible member).1⟩
  rw [ended, List.append_assoc]

/-- Of the tokens that take something on their left, only an operator may come
first. -/
theorem Sentence.exists_binary_of_starts {openers : List Nat} {token : Token}
    (opened : openersAfter [] token = .ok openers)
    (left : token.kind.takesLeft = true) : ∃ op, token.kind = .binary op := by
  cases kind : token.kind with
  | binary op => exact ⟨op, rfl⟩
  | closeParen => simp [openersAfter, kind, TokenKind.closesGroup] at opened
  | _ =>
    simp [kind, TokenKind.takesLeft, TokenKind.operands, Sides.onLeft] at left

namespace Sentence.Progress

/-- What scanner and check know when `before` is behind them. -/
structure Reached (source before : List Char) (progress : Progress)
    (lexer : Lexer) : Prop where
  split : source = before ++ lexer.rest
  position : lexer.position = byteLength before
  last : lexer.last = progress.tokens.head?.map Token.kind
  fresh : progress.tokens = [] → before = []
  latest : ∀ token ∈ progress.tokens.head?, token.Closes before
  unclosed : Unclosed before progress.openers

theorem reached_start (source : String) :
    Reached source.toList [] {} (Lexer.ofSource source) where
  split := rfl
  position := rfl
  last := rfl
  fresh := fun _ => rfl
  latest := fun _ isLast => nomatch isLast
  unclosed := .balanced .nil

namespace Reached

variable {source before : List Char} {progress after : Progress}
  {lexer later : Lexer} {token : Token} {error : ParseError}

theorem accept (reached : Reached source before progress lexer)
    (found : lexer.next = (.ok (some token), later))
    (accepted : progress.accept token = .ok after) :
    ∃ text, Reached source text after later := by
  obtain ⟨blanks, rest, whole, placed, rfl⟩ := Lexer.placed_of_next found
  obtain ⟨openers, opened, -, rfl⟩ :=
    (accept_eq_ok_iff progress after token).mp accepted
  have index : token.index = byteLength (before ++ blanks) := by
    rw [placed.index, reached.position, byteLength_append]
  refine ⟨before ++ blanks ++ token.text.toList, ?_, ?_, rfl, ?_, ?_, ?_⟩
  · rw [reached.split, whole]
    simp
  · rw [byteLength_append, index]
  · intro fresh
    cases fresh
  · intro latest isLatest
    cases isLatest
    exact ⟨lexer.last, before ++ blanks, rfl, index, placed.written⟩
  · have unclosed := reached.unclosed.append (AllBlank.balanced placed.blank)
    exact unclosed_openersAfter unclosed placed.written index opened

theorem exists_latest (reached : Reached source before progress lexer)
    {kind : TokenKind} (isLast : lexer.last = some kind) :
    ∃ latest earlier, progress.tokens = latest :: earlier ∧
      latest.kind = kind ∧ latest.Closes before := by
  have last := reached.last
  rw [isLast] at last
  cases seen : progress.tokens with
  | nil => simp [seen] at last
  | cons latest earlier =>
      refine ⟨latest, earlier, rfl, ?_, reached.latest latest (by simp [seen])⟩
      simpa [seen] using last.symm

theorem refuses (reached : Reached source before progress lexer)
    (refused : lexer.next = (.error error, later)) : error.Accurate source := by
  obtain ⟨blanks, c, rest, whole, blank, visible, refuses⟩ :=
    Lexer.refuses_of_next refused
  have split : source = before ++ blanks ++ c :: rest := by
    rw [reached.split, whole, List.append_assoc]
  have index : lexer.position + byteLength blanks =
      byteLength (before ++ blanks) := by
    rw [reached.position, byteLength_append]
  cases refuses with
  -- a missing blank is found where `before` ends, right behind its last token
  | blankAfter empty isLast demands =>
      obtain ⟨op, rfl⟩ := TokenKind.exists_binary_of_needsBlank (.inr demands)
      obtain ⟨latest, -, -, kind, last, front, closes, -, written⟩ :=
        reached.exists_latest isLast
      rw [kind] at written
      have symbol := written.eq_symbol_of_takes (.inl rfl)
      rw [symbol] at closes
      refine ⟨op, front, rest, c, rfl, demands, ⟨?_, ?_⟩, visible⟩
      · simpa [closes, empty] using split
      · rw [reached.position, closes]
  | @blankBefore kind text after empty notFirst demands found written =>
      obtain ⟨op, rfl⟩ := TokenKind.exists_binary_of_needsBlank (.inl demands)
      obtain ⟨lastKind, isLast⟩ := Option.ne_none_iff_exists'.mp notFirst
      obtain ⟨latest, -, -, -, closes⟩ := reached.exists_latest isLast
      obtain ⟨front, d, ended, isVisible⟩ := closes.ends_visible
      have symbol := written.eq_symbol_of_takes (.inl rfl)
      refine ⟨op, front, after, d, rfl, demands, ⟨?_, ?_⟩, isVisible⟩
      · rw [split, empty, found, symbol, ended]
        simp [TokenKind.symbol]
      · rw [reached.position, ended]
  | piece rejects =>
      generalize atFound : c :: rest = found at split rejects
      cases rejects with
      | single twice alone =>
          exact ⟨_, before ++ blanks, _, rfl, twice,
            ⟨by simpa using split, index⟩, alone⟩
      | foreign startsNone =>
          cases atFound
          exact ⟨before ++ blanks, rest, ⟨by simpa using split, index⟩,
            visible, startsNone⟩
      | @merged number after value d numeral identifier =>
          refine ⟨value, before ++ blanks, after, d, by simpa using numeral,
            ⟨?_, index⟩, identifier⟩
          simpa using split
      | @wordEnd front after d mixed =>
          refine ⟨before ++ blanks, front, after, d, by simp, ⟨?_, ?_⟩, mixed⟩
          · simpa using split
          · rw [index, byteLength_append (before ++ blanks)]
  | @range text after value found numeral outside =>
      refine ⟨value, before ++ blanks, after, by simpa using numeral,
        ⟨?_, index⟩, int32?_eq_none_iff.mp outside⟩
      simpa [found] using split

theorem misplaced (reached : Reached source before progress lexer)
    (found : lexer.next = (.ok (some token), later))
    (refused : progress.accept token = .error error) :
    error.Accurate source := by
  obtain ⟨blanks, rest, whole, placed, -⟩ := Lexer.placed_of_next found
  have split : source = before ++ blanks ++ token.text.toList ++ rest := by
    rw [reached.split, whole]
    simp
  have index : token.index = byteLength (before ++ blanks) := by
    rw [placed.index, reached.position, byteLength_append]
  cases refuses_of_accept refused with
  | unmatched closes noneOpen =>
      have balanced : Balanced before := by
        have unclosed := reached.unclosed
        rw [noneOpen] at unclosed
        exact unclosed.of_nil
      have written := placed.written
      rw [closes] at written
      have text : token.text.toList = [')'] := written
      rw [text] at split
      exact ⟨before ++ blanks, rest,
        balanced.append (AllBlank.balanced placed.blank), split, index⟩
  | @start openers opened fresh left =>
      -- a closing parenthesis would have been unmatched already
      have empty := reached.fresh fresh
      have noneOpen : progress.openers = [] := by
        have unclosed := reached.unclosed
        rw [empty] at unclosed
        exact unclosed.openers_eq_nil
      rw [noneOpen] at opened
      obtain ⟨op, binary⟩ := exists_binary_of_starts opened left
      have symbol : token.text = op.symbol := by
        have text := placed.written.eq_symbol_of_takes (.inl left)
        rw [binary] at text
        exact String.toList_inj.mp text
      rw [empty, List.nil_append] at split index
      exact ⟨op, blanks, rest, symbol, placed.blank, split, index⟩
  | @emptyGroup last earlier seen opens closes =>
      obtain ⟨behind, front, ended, lastIndex, lastWritten⟩ :=
        reached.latest last (by simp [seen])
      have written := placed.written
      rw [opens] at lastWritten
      rw [closes] at written
      have lastText : last.text.toList = ['('] := lastWritten
      have text : token.text.toList = [')'] := written
      refine ⟨front, blanks, rest, placed.blank, ?_, lastIndex⟩
      rw [split, ended, lastText, text]
      simp
  | @operators last earlier seen right left =>
      obtain ⟨behind, front, ended, lastIndex, lastWritten⟩ :=
        reached.latest last (by simp [seen])
      have lastText := lastWritten.eq_symbol_of_takes (.inr right)
      have text := placed.written.eq_symbol_of_takes (.inl left)
      rw [ended] at split index
      refine ⟨last.kind, token.kind, front, blanks, rest,
        String.toList_inj.mp lastText, right, String.toList_inj.mp text, left,
        placed.blank, ⟨?_, lastIndex⟩, split, index⟩
      rw [split]
      simp
  | @operands last earlier seen right left =>
      obtain ⟨behind, front, ended, -, lastWritten⟩ :=
        reached.latest last (by simp [seen])
      have written := placed.written
      rw [reached.last, seen] at written
      rw [ended] at split index
      exact ⟨behind, last.kind, token.kind, front, last.text.toList, blanks,
        rest, lastWritten, right, written, left, placed.blank, split, index⟩

theorem unfinished (reached : Reached source before progress lexer)
    (found : lexer.next = (.ok none, later))
    (refused : progress.finish = .error error) : error.Accurate source := by
  have blank : AllBlank lexer.rest := by
    intro c member
    apply (CharClass.of_eq_whitespace_iff c).mpr
    exact Lexer.blank_of_next_none found c member
  have split := reached.split
  cases lacks_of_finish refused with
  | formula fresh =>
      rw [reached.fresh fresh, List.nil_append] at split
      rw [split]
      exact blank
  | @operand last earlier seen right =>
      obtain ⟨behind, front, ended, lastIndex, lastWritten⟩ :=
        reached.latest last (by simp [seen])
      have lastText := lastWritten.eq_symbol_of_takes (.inr right)
      rw [ended] at split
      exact ⟨last.kind, front, lexer.rest, String.toList_inj.mp lastText, right,
        blank, split, lastIndex⟩
  | @closer last earlier index outer seen right opened =>
      have unclosed := reached.unclosed
      rw [opened] at unclosed
      obtain ⟨front, inside, rfl, rfl, balanced⟩ := unclosed.exists_opener
      refine ⟨front, inside ++ lexer.rest,
        balanced.append (AllBlank.balanced blank), ?_, rfl⟩
      rw [split]
      simp

end Reached

/-- Whatever is refused on the way through a source is refused with an accurate
error. -/
theorem accurate_of_read {source before : List Char} {progress : Progress}
    {lexer : Lexer} {error : ParseError}
    (reached : Reached source before progress lexer)
    (refused : progress.read lexer = .error error) : error.Accurate source := by
  -- every token that is accepted moves `before` on, and `Reached` with it
  induction lexer using Lexer.scan.induct generalizing progress before with
  | case1 lexer fault later found =>
      rw [read_error found] at refused
      cases refused
      exact reached.refuses found
  | case2 lexer later found =>
      rw [read_none found] at refused
      exact reached.unfinished found refused
  | case3 lexer token later found induction =>
      rw [read_some found] at refused
      cases accepted : progress.accept token with
      | error fault =>
          rw [accepted] at refused
          cases refused
          exact reached.misplaced found accepted
      | ok checked =>
          rw [accepted] at refused
          obtain ⟨text, laterReached⟩ := reached.accept found accepted
          exact induction laterReached refused

end Sentence.Progress

namespace Expression

variable (type : ValueType)

theorem sentence_error_of_ofSource {source : String} {error : ParseError}
    (refused : ofSource type source = .error error) :
    Sentence.ofSource source = .error error := by
  cases valid : Sentence.ofSource source with
  | ok sentence =>
      obtain ⟨-, tree, spells⟩ := Sentence.spells_of_ofSource valid
      obtain ⟨expression, compiles, -⟩ := ofSource_of_spells type valid spells
      cases refused.symm.trans compiles
  | error found =>
      have same := ofSource_of_sentence_error type valid
      exact congrArg Except.error (Except.error.inj (same.symm.trans refused))

theorem ofSource_blank {source : String} (blank : AllBlank source.toList) :
    ofSource type source = .error .emptyExpression := by
  apply ofSource_of_sentence_error
  apply Sentence.Progress.read_none
  apply Lexer.next_none
  intro c member
  exact (CharClass.of_eq_whitespace_iff c).mp (blank c member)

/-- A source is refused as empty exactly if nothing but blanks stands in it.
Any other error points at a character of the source that is no blank, and what
it says about the source there is true. -/
theorem ofSource_error_accurate (source : String) :
    (ofSource type source = .error .emptyExpression ↔ AllBlank source.toList) ∧
    ∀ error, ofSource type source = .error error →
      error.Accurate source.toList ∧
        (error.index? = none → error = .emptyExpression) ∧
        ∀ index ∈ error.index?, VisibleAt source.toList index := by
  have accurate : ∀ error, ofSource type source = .error error →
      error.Accurate source.toList := by
    intro error refused
    exact Sentence.Progress.accurate_of_read
      (Sentence.Progress.reached_start source)
      (sentence_error_of_ofSource type refused)
  refine ⟨⟨accurate _, ofSource_blank type⟩, ?_⟩
  intro error refused
  refine ⟨accurate error refused, ?_, ?_⟩
  · intro noIndex
    rcases (accurate error refused).visibleAt with empty | ⟨index, isIndex, -⟩
    · exact empty
    · cases noIndex.symm.trans isIndex
  · intro index isIndex
    rcases (accurate error refused).visibleAt with rfl | ⟨other, same, visible⟩
    · cases isIndex
    · cases same.symm.trans isIndex
      exact visible

/-- The number in `π * 5abc` stands behind five bytes, the operator without a
right operand in `(π - )` behind four. -/
theorem ofSource_error_merged_not_lacking :
    ofSource .integer "π * 5abc" = .error (.numberMergedWithVariable 5 "5") ∧
    (ParseError.numberMergedWithVariable 5 "5").Accurate "π * 5abc".toList ∧
    VisibleAt "π * 5abc".toList 5 ∧
    ofSource .boolean "(π - )" = .error (.extraOperator 4 "-" 6 ")") ∧
    (ParseError.extraOperator 4 "-" 6 ")").Accurate "(π - )".toList ∧
    VisibleAt "(π - )".toList 4 := by
  have factor :
      (Lexer.ofSource "π * 5abc").next =
        (.ok (some ⟨.name, 0, "π", none⟩),
          ⟨[' ', '*', ' ', '5', 'a', 'b', 'c'], 2, some .name⟩) :=
    rfl
  have times :
      Lexer.next ⟨[' ', '*', ' ', '5', 'a', 'b', 'c'], 2, some .name⟩ =
        (.ok (some ⟨.binary .multiply, 3, "*", none⟩),
          ⟨[' ', '5', 'a', 'b', 'c'], 4, some (.binary .multiply)⟩) :=
    rfl
  have number :
      Lexer.next ⟨[' ', '5', 'a', 'b', 'c'], 4, some (.binary .multiply)⟩ =
        (.error (.numberMergedWithVariable 5 "5"),
          ⟨['a', 'b', 'c'], 6, some (.binary .multiply)⟩) :=
    rfl
  have merged :
      ofSource .integer "π * 5abc" =
        .error (.numberMergedWithVariable 5 "5") := by
    apply ofSource_of_sentence_error
    rw [Sentence.ofSource, Sentence.Progress.read_eq_scan,
      Lexer.scan_some factor, Lexer.scan_some times, Lexer.scan_error number]
    rfl
  have opener :
      (Lexer.ofSource "(π - )").next =
        (.ok (some ⟨.openParen, 0, "(", none⟩),
          ⟨['π', ' ', '-', ' ', ')'], 1, some .openParen⟩) :=
    rfl
  have value :
      Lexer.next ⟨['π', ' ', '-', ' ', ')'], 1, some .openParen⟩ =
        (.ok (some ⟨.name, 1, "π", none⟩),
          ⟨[' ', '-', ' ', ')'], 3, some .name⟩) :=
    rfl
  have minus :
      Lexer.next ⟨[' ', '-', ' ', ')'], 3, some .name⟩ =
        (.ok (some ⟨.binary .subtract, 4, "-", none⟩),
          ⟨[' ', ')'], 5, some (.binary .subtract)⟩) :=
    rfl
  have closer :
      Lexer.next ⟨[' ', ')'], 5, some (.binary .subtract)⟩ =
        (.ok (some ⟨.closeParen, 6, ")", none⟩), ⟨[], 7, some .closeParen⟩) :=
    rfl
  have lacking :
      ofSource .boolean "(π - )" = .error (.extraOperator 4 "-" 6 ")") := by
    apply ofSource_of_sentence_error
    rw [Sentence.ofSource, Sentence.Progress.read_eq_scan,
      Lexer.scan_some opener, Lexer.scan_some value, Lexer.scan_some minus,
      Lexer.scan_some closer]
    rfl
  obtain ⟨-, mergedAccurate⟩ := ofSource_error_accurate .integer "π * 5abc"
  obtain ⟨-, lackingAccurate⟩ := ofSource_error_accurate .boolean "(π - )"
  obtain ⟨ofNumber, -, atNumber⟩ := mergedAccurate _ merged
  obtain ⟨ofMinus, -, atMinus⟩ := lackingAccurate _ lacking
  exact ⟨merged, ofNumber, atNumber 5 rfl, lacking, ofMinus, atMinus 4 rfl⟩

end Expression

end Formula
