import Formula.Proofs.Cutting
import Formula.Proofs.Scanning

/-!
# Layout of a source

`Layout` says without reference to the scanner which sources consist of which
tokens.  Cutting a source into tokens succeeds exactly on its layouts, and then
returns the tokens of the layout.
-/

namespace Formula

/-- A token stands behind a token of kind `last` and blanks, which begin at
`offset`, and before `after`. -/
structure Token.Placed (last : Option TokenKind) (offset : Nat)
    (blanks : List Char) (token : Token) (after : List Char) : Prop where
  blank : ∀ c ∈ blanks, CharClass.of c = .whitespace
  index : token.index = offset + byteLength blanks
  written : token.kind.WrittenAs last token.text.toList
  records : token.kind.Records token.text.toList token.value
  separated : ∀ before ∈ last,
    before.needsBlankAfter = true ∨ token.kind.needsBlankBefore = true →
      blanks ≠ []
  ends : token.kind.Ends after

/-- `Layout last offset source tokens`: behind a token of kind `last`, the
source from `offset` on consists of the tokens with blanks around them. -/
inductive Layout : Option TokenKind → Nat → List Char → List Token → Prop where
  | blanks {last : Option TokenKind} {offset : Nat} {blanks : List Char} :
      (∀ c ∈ blanks, CharClass.of c = .whitespace) →
      Layout last offset blanks []
  | token {last : Option TokenKind} {offset : Nat} {blanks after : List Char}
      {token : Token} {tokens : List Token} :
      token.Placed last offset blanks after →
      Layout (some token.kind) (token.index + byteLength token.text.toList)
        after tokens →
      Layout last offset (blanks ++ token.text.toList ++ after)
        (token :: tokens)

/-- What follows a token does not begin with an equals sign, since the operator
`==` demands a blank. -/
theorem Layout.head?_ne {before : TokenKind} {offset : Nat}
    {source : List Char} {tokens : List Token}
    (layout : Layout (some before) offset source tokens) :
    source.head? ≠ some '=' := by
  intro equals
  cases layout with
  | blanks blank =>
      have whitespace := blank '=' (List.mem_of_head? equals)
      exact absurd whitespace (by decide)
  | @token _ _ blanks after token tokens placed _ =>
      cases blanks with
      | nil =>
          obtain ⟨c, rest, text, -, demands⟩ := placed.written.begins
          rw [text, List.nil_append, List.cons_append] at equals
          cases equals
          exact placed.separated before rfl (.inr (demands rfl)) rfl
      | cons blank blanks =>
          cases equals
          exact absurd (placed.blank '=' (by simp)) (by decide)

namespace Piece

theorem token_eq_ok_iff {piece : Piece} {kind : TokenKind}
    {last : Option TokenKind} {index : Nat} {separated : Bool} {token : Token}
    (accepted : piece.verdict = .ok kind)
    (written : kind.WrittenAs last piece.text) :
    piece.token index separated = .ok token ↔
      (separated = false → kind.needsBlankBefore = false) ∧
        token.kind = kind ∧ token.index = index ∧
        token.text.toList = piece.text ∧
        kind.Records piece.text token.value := by
  simp only [Piece.token, accepted]
  constructor
  · intro made
    split_ifs at made with refused number
    · have allowed : separated = false → kind.needsBlankBefore = false := by
        simpa using refused
      subst number
      split at made
      · rename_i value fits
        cases made
        have numeral := (written.records_number value).mp fits
        exact ⟨allowed, rfl, rfl, by simp, value, rfl, numeral⟩
      · cases made
    · have allowed : separated = false → kind.needsBlankBefore = false := by
        simpa using refused
      cases made
      exact ⟨allowed, rfl, rfl, by simp,
        (TokenKind.records_other number none).mpr rfl⟩
  · obtain ⟨tokenKind, tokenIndex, text, value⟩ := token
    rintro ⟨allowed, rfl, rfl, sameText, records⟩
    have refuses : ¬ (!separated && tokenKind.needsBlankBefore) = true := by
      simpa using allowed
    dsimp only at *
    rw [if_neg refuses, ← sameText]
    by_cases number : tokenKind = .number
    · subst number
      obtain ⟨denoted, rfl, numeral⟩ := records
      have fits := (written.records_number denoted).mpr numeral
      rw [← sameText] at fits
      simp [fits]
    · rw [if_neg number, (TokenKind.records_other number value).mp records]
      simp

end Piece

namespace Lexer

variable {lexer later : Lexer} {blanks after : List Char} {token : Token}

theorem separated_eq_false_iff (split : lexer.rest = blanks ++ after)
    (blank : ∀ c ∈ blanks, isBlank c = true)
    (stops : ∀ c ∈ after.head?, isBlank c = false) :
    lexer.separated = false ↔ lexer.last ≠ none ∧ blanks = [] := by
  rw [separated, split, Bool.or_eq_false_iff]
  cases blanks with
  | nil =>
      cases after with
      | nil => simp [Option.isSome_iff_ne_none]
      | cons c after => simp [stops c rfl, Option.isSome_iff_ne_none]
  | cons c blanks => simp [blank c (by simp)]

theorem unseparated?_eq_none_iff :
    lexer.unseparated? = none ↔
      ∀ before ∈ lexer.last, lexer.separated = false →
        before.needsBlankAfter = false := by
  simp [unseparated?, Option.filter_eq_none_iff]

theorem unseparated?_eq_none (split : lexer.rest = blanks ++ after)
    (blank : ∀ c ∈ blanks, isBlank c = true)
    (stops : ∀ c ∈ after.head?, isBlank c = false)
    (separated : ∀ before ∈ lexer.last,
      before.needsBlankAfter = true → blanks ≠ []) :
    lexer.unseparated? = none := by
  have touching := lexer.separated_eq_false_iff split blank stops
  apply unseparated?_eq_none_iff.mpr
  intro before isLast notSeparated
  apply Bool.eq_false_iff.mpr
  intro demands
  exact separated before isLast demands (touching.mp notSeparated).2

theorem next_none (blank : ∀ c ∈ lexer.rest, isBlank c = true) :
    lexer.next = (.ok none, lexer.skipBlanks) := by
  have atEnd : lexer.skipBlanks.rest = [] := by
    exact List.dropWhile_eq_nil_iff.mpr blank
  simp only [next, atEnd]

theorem blank_of_next_none (found : lexer.next = (.ok none, later)) :
    ∀ c ∈ lexer.rest, isBlank c = true := by
  simp only [next] at found
  split at found
  · rename_i atEnd
    exact List.dropWhile_eq_nil_iff.mp atEnd
  · split at found
    · cases found
    · split at found <;> cases found

theorem skipBlanks_append (split : lexer.rest = blanks ++ after)
    (blank : ∀ c ∈ blanks, isBlank c = true)
    (stops : ∀ c ∈ after.head?, isBlank c = false) :
    lexer.skipBlanks =
      ⟨after, lexer.position + byteLength blanks, lexer.last⟩ := by
  rw [skipBlanks, split, takeWhile_append_stop blank stops,
    dropWhile_append_stop blank stops]

/-- What is left begins with blanks, behind which the scanner looks for a
token. -/
theorem exists_skipped (lexer : Lexer) :
    ∃ blanks front, lexer.rest = blanks ++ front ∧
      (∀ c ∈ blanks, isBlank c = true) ∧
      (∀ c ∈ front.head?, isBlank c = false) ∧
      lexer.skipBlanks =
        ⟨front, lexer.position + byteLength blanks, lexer.last⟩ := by
  have whole := List.takeWhile_append_dropWhile (p := isBlank) (l := lexer.rest)
  refine ⟨_, _, whole.symm, ?_, head?_dropWhile_stops isBlank lexer.rest, rfl⟩
  intro c member
  exact List.mem_takeWhile_imp member

theorem placed_of_next (found : lexer.next = (.ok (some token), later)) :
    ∃ blanks after,
      lexer.rest = blanks ++ token.text.toList ++ after ∧
      token.Placed lexer.last lexer.position blanks after ∧
      later = ⟨after, token.index + byteLength token.text.toList,
        some token.kind⟩ := by
  obtain ⟨blanks, front, whole, blank, stops, start⟩ := lexer.exists_skipped
  have separated := lexer.separated_eq_false_iff whole blank stops
  simp only [next, start] at found
  split at found
  · cases found
  · rename_i c rest
    split at found
    · cases found
    · rename_i unseparated
      split at found
      · cases found
      · rename_i made
        cases found
        have accepted := Piece.token_kind made
        obtain ⟨written, ends⟩ := Piece.cut_accepted rfl accepted
        obtain ⟨allowed, -, index, text, records⟩ :=
          (Piece.token_eq_ok_iff accepted written).mp made
        have split := Piece.cut_split lexer.last
          (lexer.position + byteLength blanks) c rest
        rw [← text] at written records split
        refine ⟨blanks, _, ?_, ⟨?_, index, written, records, ?_, ends⟩, ?_⟩
        · rw [List.append_assoc, split]
          exact whole
        · intro c member
          exact (CharClass.of_eq_whitespace_iff c).mpr (blank c member)
        · intro before isLast demands empty
          have touching := separated.mpr
            ⟨by simp [Option.mem_def.mp isLast], empty⟩
          rcases demands with afterLast | beforeToken
          · have free := unseparated?_eq_none_iff.mp unseparated before isLast
              touching
            cases afterLast.symm.trans free
          · cases beforeToken.symm.trans (allowed touching)
        · rw [advance, ← text, index]

theorem next_some {c : Char} {rest : List Char}
    (start : lexer.skipBlanks.rest = c :: rest)
    (unseparated : lexer.unseparated? = none)
    (made :
      (Piece.cut lexer.last lexer.skipBlanks.position c rest).token
        lexer.skipBlanks.position lexer.separated = .ok token) :
    lexer.next =
      (.ok (some token),
        { lexer.skipBlanks.advance
            (Piece.cut lexer.last lexer.skipBlanks.position c rest) with
          last := some token.kind }) := by
  simp only [next, start, unseparated, made]

theorem next_of_placed
    (whole : lexer.rest = blanks ++ token.text.toList ++ after)
    (placed : token.Placed lexer.last lexer.position blanks after)
    (noEquals : after.head? ≠ some '=') :
    lexer.next =
      (.ok (some token),
        ⟨after, token.index + byteLength token.text.toList,
          some token.kind⟩) := by
  rw [List.append_assoc] at whole
  obtain ⟨c, rest, text, notBlank, -⟩ := placed.written.begins
  have first : token.text.toList ++ after = c :: (rest ++ after) := by
    rw [text, List.cons_append]
  have blank : ∀ c ∈ blanks, isBlank c = true := by
    intro c member
    exact (CharClass.of_eq_whitespace_iff c).mp (placed.blank c member)
  have stops : ∀ d ∈ (token.text.toList ++ after).head?, isBlank d = false := by
    intro d isFirst
    rw [first] at isFirst
    cases isFirst
    exact notBlank
  have touching := lexer.separated_eq_false_iff whole blank stops
  have start := lexer.skipBlanks_append whole blank stops
  have unseparated : lexer.unseparated? = none := by
    apply unseparated?_eq_none whole blank stops
    intro before isLast demands
    exact placed.separated before isLast (.inl demands)
  have allowed : lexer.separated = false →
      token.kind.needsBlankBefore = false := by
    intro notSeparated
    obtain ⟨notFirst, empty⟩ := touching.mp notSeparated
    obtain ⟨before, isLast⟩ := Option.ne_none_iff_exists'.mp notFirst
    apply Bool.eq_false_iff.mpr
    intro demands
    exact placed.separated before isLast (.inr demands) empty
  have piece :
      Piece.cut lexer.last lexer.skipBlanks.position c (rest ++ after) =
        Piece.accept token.text.toList after token.kind :=
    Piece.cut_writtenAs placed.written placed.ends noEquals first
  have made :
      (Piece.cut lexer.last lexer.skipBlanks.position c (rest ++ after)).token
        lexer.skipBlanks.position lexer.separated = .ok token := by
    rw [piece, start, ← placed.index]
    exact (Piece.token_eq_ok_iff rfl placed.written).mpr
      ⟨allowed, rfl, rfl, rfl, placed.records⟩
  rw [next_some (by rw [start, first]) unseparated made, piece, start, advance,
    ← placed.index]
  rfl

theorem layout_of_tokens {tokens : List Token}
    (found : lexer.tokens = .ok tokens) :
    Layout lexer.last lexer.position lexer.rest tokens := by
  induction lexer using scan.induct generalizing tokens with
  | case1 lexer error later next =>
      rw [tokens_error next] at found
      cases found
  | case2 lexer later next =>
      rw [tokens_none next] at found
      cases found
      apply Layout.blanks
      intro c member
      exact (CharClass.of_eq_whitespace_iff c).mpr
        (blank_of_next_none next c member)
  | case3 lexer token later next induction =>
      rw [tokens_some next] at found
      cases laterFound : later.tokens with
      | error error =>
          rw [laterFound] at found
          cases found
      | ok laterTokens =>
          rw [laterFound] at found
          cases found
          obtain ⟨blanks, after, whole, placed, rfl⟩ := placed_of_next next
          rw [whole]
          exact .token placed (induction laterFound)

end Lexer

theorem Layout.tokens {last : Option TokenKind} {offset : Nat}
    {source : List Char} {tokens : List Token}
    (layout : Layout last offset source tokens) :
    Lexer.tokens ⟨source, offset, last⟩ = .ok tokens := by
  induction layout with
  | blanks blank =>
      apply Lexer.tokens_none
      apply Lexer.next_none
      intro c member
      exact (CharClass.of_eq_whitespace_iff c).mp (blank c member)
  | token placed later induction =>
      rw [Lexer.tokens_some (Lexer.next_of_placed rfl placed later.head?_ne),
        induction]
      rfl

/-- Cutting a source gives some tokens exactly if the source is a layout of
them, each token with its text, its offset and its value. -/
theorem tokenize_eq_ok_iff_layout (source : String) (tokens : List Token) :
    tokenize source = .ok tokens ↔ Layout none 0 source.toList tokens := by
  constructor
  · intro found
    exact Lexer.layout_of_tokens found
  · intro layout
    exact layout.tokens

end Formula
