import Formula.Proofs.Layout

/-!
# Why the scanner refuses a source

`Piece.Rejects` says of each reason for which a piece is no token what the
source looks like there, and `Lexer.Refuses` does so for the whole step of the
scanner, which also knows of missing blanks and of the range of numbers.
-/

namespace Formula

namespace Piece

variable {last : Option TokenKind} {index : Nat} {c : Char} {rest : List Char}
  {error : ParseError}

/-- No token of any kind begins with the character. -/
def StartsNone (c : Char) : Prop :=
  ∀ (kind : TokenKind) (last : Option TokenKind) (text : List Char),
    kind.WrittenAs last text → text.head? ≠ some c

/-- Why what stands at an offset is no token. -/
inductive Rejects (index : Nat) : List Char → ParseError → Prop where
  | single {c : Char} {op : BinaryOp} {after : List Char} :
      op.symbol.toList = [c, c] → after.head? ≠ some c →
      Rejects index (c :: after) (.ambiguousOperator index c op.symbol)
  | foreign {c : Char} {after : List Char} :
      StartsNone c → Rejects index (c :: after) (.invalidCharacter index c)
  | merged {number after : List Char} {value : Int} {c : Char} :
      Numeral number value → CharClass.of c = .identifier →
      Rejects index (number ++ c :: after)
        (.numberMergedWithVariable index (String.ofList number))
  | wordEnd {front after : List Char} {c : Char} :
      CharClass.of c = .mixed →
      Rejects index (front ++ c :: after)
        (.invalidIdentifierEnd (index + byteLength front)
          (String.ofList (front ++ [c])))

theorem extensible_not_refused {second : Char} {short long : TokenKind} :
    (extensible c second short long rest).verdict ≠ .error error := by
  intro refused
  by_cases extended : rest.head? = some second
  · obtain ⟨after, rfl⟩ := List.head?_eq_some_iff.mp extended
    rw [extensible_long] at refused
    cases refused
  · rw [extensible_short extended] at refused
    cases refused

theorem doubled_rejected {op : BinaryOp} (twice : op.symbol.toList = [c, c])
    (refused : (doubled index c (.binary op) rest).verdict = .error error) :
    Rejects index (c :: rest) error := by
  cases rest with
  | nil =>
      cases refused
      exact .single twice (by simp)
  | cons d rest =>
      by_cases same : d = c
      · subst same
        rw [doubled_same] at refused
        cases refused
      · rw [doubled, if_neg same] at refused
        cases refused
        exact .single twice (by simpa using same)

theorem number?_rejected {sign : List Char} {piece : Piece}
    (numeral : ∀ digits, IsDigits digits → ∃ value,
      Numeral (sign ++ digits) value)
    (found : number? index sign rest = some piece)
    (refused : piece.verdict = .error error) :
    Rejects index (sign ++ rest) error := by
  have whole := List.takeWhile_append_dropWhile (p := Char.isDigit) (l := rest)
  unfold number? at found
  split at found
  · cases found
  · rename_i nonempty
    split at found
    · cases found
      cases refused
    · rename_i d after atNext
      split at found
      · rename_i identifier
        cases found
        cases refused
        have isDigits : IsDigits (rest.takeWhile Char.isDigit) :=
          ⟨nonempty, fun _ member => List.mem_takeWhile_imp member⟩
        obtain ⟨value, numeral⟩ := numeral _ isDigits
        generalize rest.takeWhile Char.isDigit = digits at numeral whole ⊢
        rw [← whole, atNext, ← List.append_assoc]
        exact .merged numeral identifier
      · cases found
        cases refused

theorem word_rejected {source : List Char}
    (refused : (word index source).verdict = .error error) :
    Rejects index source error := by
  have whole := List.takeWhile_append_dropWhile (p := inWord) (l := source)
  have verdict : wordVerdict index (source.takeWhile inWord) = .error error :=
    refused
  dsimp only [wordVerdict] at verdict
  split_ifs at verdict with mixed
  cases verdict
  obtain ⟨d, isLast, isMixed⟩ := Option.map_eq_some_iff.mp mixed
  obtain ⟨front, name⟩ := List.getLast?_eq_some_iff.mp isLast
  rw [name, List.dropLast_concat]
  rw [name, List.append_assoc] at whole
  rw [← whole]
  exact .wordEnd isMixed

/-- A character that is refused behind one token and before one text is refused
everywhere, since neither is looked at. -/
theorem startsNone_of_cut
    (refuses : ∀ last rest, cut last 0 c rest =
      refuse [] (c :: rest) (.invalidCharacter 0 c)) : StartsNone c := by
  intro kind last text written first
  obtain ⟨rest, rfl⟩ := List.head?_eq_some_iff.mp first
  have accepted : cut last 0 c rest = accept (c :: rest) [] kind :=
    cut_writtenAs written (fun _ next => nomatch next)
      (fun next => nomatch next)
      (by simp)
  rw [refuses] at accepted
  cases congrArg Piece.verdict accepted

theorem cut_rejected
    (refused : (cut last index c rest).verdict = .error error) :
    Rejects index (c :: rest) error := by
  have plain (digits : List Char) (isDigits : IsDigits digits) :
      ∃ value, Numeral ([] ++ digits) value :=
    ⟨_, .plain isDigits⟩
  have negative (digits : List Char) (isDigits : IsDigits digits) :
      ∃ value, Numeral (['-'] ++ digits) value :=
    ⟨_, .negative isDigits⟩
  unfold cut at refused
  split at refused
  -- the operators that begin with `!`, `<` or `>`
  iterate 3 exact absurd refused extensible_not_refused
  -- the operators `==`, `&&` and `||`
  iterate 3 exact doubled_rejected (by rfl) refused
  -- parentheses and the operators `~`, `+`, `*`, `/` and `%`
  iterate 7 cases refused
  · split at refused
    · cases found : number? index ['-'] rest with
      | none =>
          rw [found] at refused
          cases refused
      | some piece =>
          rw [found] at refused
          exact number?_rejected negative found refused
    · cases refused
  · rename_i others
    split at refused
    · rename_i found
      exact number?_rejected plain found refused
    · rename_i noNumber
      split at refused
      · exact word_rejected refused
      · rename_i notIdentifier
        cases refused
        have notDigit : c.isDigit = false :=
          number?_eq_none_iff.mp noNumber c rfl
        refine .foreign (startsNone_of_cut ?_)
        intro last rest
        have noNumber : number? 0 [] (c :: rest) = none := by
          apply number?_eq_none_iff.mpr
          intro d next
          cases next
          exact notDigit
        unfold cut
        split
        all_goals try contradiction
        rw [noNumber]
        exact if_neg notIdentifier

theorem Rejects.kind {source : List Char}
    (rejects : Rejects index source error) : error.kind = .lexical := by
  cases rejects <;> rfl

/-- A piece makes no token if it is rejected, if it lacks a blank before it, or
if it is a number out of range. -/
theorem token_refused {piece : Piece} {separated : Bool}
    (refused : piece.token index separated = .error error) :
    piece.verdict = .error error ∨
      (∃ kind, piece.verdict = .ok kind ∧ separated = false ∧
        kind.needsBlankBefore = true ∧
        error = .missingWhitespaceBefore index kind.symbol) ∨
      (piece.verdict = .ok .number ∧ int32? (signedValue piece.text) = none ∧
        error = .numberOutOfRange index (String.ofList piece.text)) := by
  unfold Piece.token at refused
  split at refused
  · rename_i verdict
    cases refused
    exact .inl verdict
  · rename_i kind verdict
    split_ifs at refused with touching number
    · cases refused
      have demands : separated = false ∧ kind.needsBlankBefore = true := by
        simpa using touching
      exact .inr (.inl ⟨kind, verdict, demands.1, demands.2, rfl⟩)
    · subst number
      split at refused
      · cases refused
      · rename_i outside
        cases refused
        exact .inr (.inr ⟨verdict, outside, rfl⟩)

end Piece

namespace Lexer

variable {lexer later : Lexer} {error : ParseError}

/-- Why the scanner gives no token where blanks and then `found` are left. -/
inductive Refuses (lexer : Lexer) (blanks found : List Char) :
    ParseError → Prop where
  | blankAfter {before : TokenKind} :
      blanks = [] → lexer.last = some before → before.needsBlankAfter = true →
      Refuses lexer blanks found
        (.missingWhitespaceAfter lexer.position before.symbol)
  | blankBefore {kind : TokenKind} {text after : List Char} :
      blanks = [] → lexer.last ≠ none → kind.needsBlankBefore = true →
      found = text ++ after → kind.WrittenAs lexer.last text →
      Refuses lexer blanks found
        (.missingWhitespaceBefore lexer.position kind.symbol)
  | piece {error : ParseError} :
      Piece.Rejects (lexer.position + byteLength blanks) found error →
      Refuses lexer blanks found error
  | range {text after : List Char} {value : Int} :
      found = text ++ after → Numeral text value → int32? value = none →
      Refuses lexer blanks found
        (.numberOutOfRange (lexer.position + byteLength blanks)
          (String.ofList text))

theorem refuses_of_next (refused : lexer.next = (.error error, later)) :
    ∃ blanks c rest, lexer.rest = blanks ++ c :: rest ∧
      (∀ blank ∈ blanks, CharClass.of blank = .whitespace) ∧
      CharClass.of c ≠ .whitespace ∧
        lexer.Refuses blanks (c :: rest) error := by
  obtain ⟨blanks, front, whole, blank, stops, start⟩ := lexer.exists_skipped
  have separated := lexer.separated_eq_false_iff whole blank stops
  simp only [next, start] at refused
  split at refused
  · cases refused
  · rename_i c rest
    have visible : CharClass.of c ≠ .whitespace := by
      intro whitespace
      have isBlank := (CharClass.of_eq_whitespace_iff c).mp whitespace
      cases isBlank.symm.trans (stops c rfl)
    refine ⟨blanks, c, rest, whole, ?_, visible, ?_⟩
    · intro d member
      exact (CharClass.of_eq_whitespace_iff d).mpr (blank d member)
    · split at refused
      · rename_i before unseparated
        cases refused
        obtain ⟨isLast, demands⟩ := Option.filter_eq_some_iff.mp unseparated
        obtain ⟨touching, demands⟩ := Bool.and_eq_true_iff.mp demands
        obtain ⟨-, rfl⟩ := separated.mp (by simpa using touching)
        exact .blankAfter rfl isLast demands
      · have split := Piece.cut_split lexer.last
          (lexer.position + byteLength blanks) c rest
        split at refused
        · rename_i made
          cases refused
          rcases Piece.token_refused made with
            rejected | ⟨kind, accepted, touching, demands, rfl⟩ |
              ⟨accepted, outside, rfl⟩
          · exact .piece (Piece.cut_rejected rejected)
          · obtain ⟨notFirst, rfl⟩ := separated.mp touching
            have written := (Piece.cut_accepted rfl accepted).1
            exact .blankBefore rfl notFirst demands split.symm written
          · obtain ⟨⟨value, numeral⟩, -⟩ := (Piece.cut_accepted rfl accepted).1
            rw [numeral.signedValue_eq] at outside
            exact .range split.symm numeral outside
        · cases refused

theorem kind_of_next_error (refused : lexer.next = (.error error, later)) :
    error.kind = .lexical := by
  obtain ⟨blanks, c, rest, -, -, -, refuses⟩ := refuses_of_next refused
  cases refuses with
  | piece rejects => exact rejects.kind
  | _ => rfl

theorem kind_of_scan_fault (fault : lexer.scan.2 = some error) :
    error.kind = .lexical := by
  induction lexer using scan.induct with
  | case1 lexer found after nextFound =>
      rw [scan_error nextFound] at fault
      cases fault
      exact kind_of_next_error nextFound
  | case2 lexer after found =>
      rw [scan_none found] at fault
      cases fault
  | case3 lexer token after found induction =>
      rw [scan_some found] at fault
      exact induction fault

end Lexer

end Formula
