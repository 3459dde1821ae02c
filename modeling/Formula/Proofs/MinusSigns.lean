import Formula.Proofs.Diagnosis

/-!
# Minus signs

The scanner decides over a minus sign by the last kind that it remembers, and
the check judges the token by the last one that it has accepted.  They are the
same at every stage of reading a source, so that a minus sign always fits the
token before it, and the check never finds one out of place.
-/

namespace Formula

namespace TokenKind

variable {kind : TokenKind} {last : Option TokenKind} {text : List Char}

theorem symbol_minus (minus : kind.symbol.toList.head? = some '-') :
    kind = .unary .negate ∨ kind = .binary .subtract := by
  have checked : ∀ kind ∈ all, kind.symbol.toList.head? = some '-' →
      kind = .unary .negate ∨ kind = .binary .subtract := by
    decide +kernel
  exact checked kind (mem_all kind) minus

theorem WrittenAs.minus_cases (written : kind.WrittenAs last text)
    (minus : text.head? = some '-') :
    ((kind = .number ∨ kind = .unary .negate) ∧ expectsOperand last = true) ∨
      (kind = .binary .subtract ∧ expectsOperand last = false) := by
  rcases written.cases with ⟨rfl, -⟩ | ⟨-, isWord⟩ | ⟨-, -, rfl⟩
  · exact .inl ⟨.inl rfl, written.2 minus⟩
  · have begins := isWord.begins
    rw [minus] at begins
    exact absurd begins (by decide)
  · rcases symbol_minus minus with rfl | rfl
    · exact .inl ⟨.inr rfl, written.2⟩
    · exact .inr ⟨rfl, written.2⟩

end TokenKind

theorem eq_of_byteLength_eq {front other back otherBack : List Char}
    (same : front ++ back = other ++ otherBack)
    (size : byteLength front = byteLength other) : front = other := by
  induction front generalizing other with
  | nil =>
      cases other with
      | nil => rfl
      | cons c other =>
          have first := Char.utf8Size_pos c
          rw [byteLength_nil, byteLength_cons] at size
          omega
  | cons c front induction =>
      cases other with
      | nil =>
          have first := Char.utf8Size_pos c
          rw [byteLength_nil, byteLength_cons] at size
          omega
      | cons d other =>
          obtain ⟨rfl, restSame⟩ := List.cons.inj same
          rw [byteLength_cons, byteLength_cons, Nat.add_left_cancel_iff] at size
          rw [induction restSame size]

theorem Stands.head?_eq
    {source before otherBefore text after otherAfter : List Char}
    {index : Nat} {c : Char} (stands : Stands source before text after index)
    (nonempty : text ≠ [])
    (character : Stands source otherBefore [c] otherAfter index) :
    text.head? = some c := by
  have same := stands.split.symm.trans character.split
  rw [List.append_assoc, List.append_assoc] at same
  obtain rfl := eq_of_byteLength_eq same
    (stands.offset.symm.trans character.offset)
  cases text with
  | nil => exact absurd rfl nonempty
  | cons d text =>
      have rest := List.append_cancel_left same
      rw [List.cons_append, List.singleton_append] at rest
      rw [List.head?_cons, (List.cons.inj rest).1]

/-- The token begins with a minus sign. -/
def Token.BeginsMinus (token : Token) : Prop :=
  token.text.toList.head? = some '-'

/-- The token takes no operand on its left if it is the first; otherwise either
it or the token before takes the other one, and not both. -/
def Token.Fits (token : Token) : Option Token → Prop
  | none => token.takesLeft = false
  | some last => last.takesRight ≠ token.takesLeft

/-- The offset and the text of the token that an error says takes an operand it
cannot have, or is one that nothing takes. -/
def ParseError.misplaced? : ParseError → Option (Nat × String)
  | .missingOperandAtStart index symbol | .missingBinaryOperator index symbol
  | .extraOperator _ _ index symbol => some (index, symbol)
  | _ => none

theorem ParseError.kind_of_misplaced? {error : ParseError}
    {place : Nat × String}
    (misplaced : error.misplaced? = some place) : error.kind = .structural := by
  cases error <;> first | rfl | cases misplaced

namespace Sentence

theorem fits_iff_misfit? (last : Option Token) (token : Token) :
    token.Fits last ↔ misfit? last token = none := by
  rw [misfit?_eq_none_iff]
  cases last with
  | none =>
      simp [Token.Fits, Token.takesLeft, TokenKind.expectsOperand]
  | some last => exact Bool.eq_not.symm

/-- What the check and the scanner have come to on the way through a source. -/
inductive Stage (source : String) : Progress → Lexer → Prop where
  | start : Stage source {} (Lexer.ofSource source)
  | step {progress after : Progress} {lexer later : Lexer} {token : Token} :
      Stage source progress lexer → lexer.next = (.ok (some token), later) →
      progress.accept token = .ok after → Stage source after later

namespace Stage

variable {source : String} {progress : Progress} {lexer later : Lexer}
  {token : Token} {error : ParseError}

theorem ofSource_eq (stage : Stage source progress lexer) :
    ofSource source = progress.read lexer := by
  induction stage with
  | start => rfl
  | step _ found accepted induction =>
      rw [induction, Progress.read_some found, accepted]
      rfl

theorem reached (stage : Stage source progress lexer) :
    ∃ before, Progress.Reached source.toList before progress lexer := by
  induction stage with
  | start => exact ⟨[], Progress.reached_start source⟩
  | step _ found accepted induction =>
      obtain ⟨before, reached⟩ := induction
      exact reached.accept found accepted

/-- The error with which a source is refused is one of the scanner, of the check
at a token, or of the check at the end, at some stage. -/
theorem exists_refusal (stage : Stage source progress lexer)
    (refused : ofSource source = .error error) :
    ∃ progress lexer later, Stage source progress lexer ∧
      (lexer.next = (.error error, later) ∨ Progress.Lacks progress error ∨
        ∃ token, lexer.next = (.ok (some token), later) ∧
          progress.accept token = .error error) := by
  have reads := stage.ofSource_eq.symm.trans refused
  induction lexer using Lexer.scan.induct generalizing progress with
  | case1 lexer fault later found =>
      rw [Progress.read_error found] at reads
      cases reads
      exact ⟨progress, lexer, later, stage, .inl found⟩
  | case2 lexer later found =>
      rw [Progress.read_none found] at reads
      exact ⟨progress, lexer, later, stage,
        .inr (.inl (Progress.lacks_of_finish reads))⟩
  | case3 lexer token later found induction =>
      rw [Progress.read_some found] at reads
      cases accepted : progress.accept token with
      | error fault =>
          rw [accepted] at reads
          cases reads
          exact ⟨progress, lexer, later, stage,
            .inr (.inr ⟨token, found, accepted⟩)⟩
      | ok checked =>
          rw [accepted] at reads
          exact induction (.step stage found accepted) reads

theorem stands (stage : Stage source progress lexer)
    (found : lexer.next = (.ok (some token), later)) :
    token.text.toList ≠ [] ∧ ∃ before after,
      Stands source.toList before token.text.toList after token.index := by
  obtain ⟨before, reached⟩ := stage.reached
  obtain ⟨blanks, after, whole, placed, -⟩ := Lexer.placed_of_next found
  obtain ⟨c, rest, text, -⟩ := placed.written.begins
  refine ⟨by simp [text], before ++ blanks, after, ?_, ?_⟩
  · rw [reached.split, whole]
    simp
  · rw [placed.index, reached.position, byteLength_append]

theorem minus_fits (stage : Stage source progress lexer)
    (found : lexer.next = (.ok (some token), later))
    (minus : token.BeginsMinus) :
    (token.kind = .number ∨ token.kind = .unary .negate ∨
      token.kind = .binary .subtract) ∧ token.Fits progress.tokens.head? := by
  obtain ⟨before, reached⟩ := stage.reached
  obtain ⟨blanks, after, -, placed, -⟩ := Lexer.placed_of_next found
  have decided := placed.written.minus_cases minus
  rw [reached.last] at decided
  rw [fits_iff_misfit?, misfit?_eq_none_iff]
  rcases decided with ⟨kind | kind, expects⟩ | ⟨kind, refuses⟩
  · rw [kind, expects]
    exact ⟨.inl rfl, rfl⟩
  · rw [kind, expects]
    exact ⟨.inr (.inl rfl), rfl⟩
  · rw [kind, refuses]
    exact ⟨.inr (.inr rfl), rfl⟩

end Stage

theorem misplaced?_of_refuses {progress : Progress} {token : Token}
    {error : ParseError} {index : Nat} {symbol : String}
    (refuses : Progress.Refuses progress token error)
    (misplaced : error.misplaced? = some (index, symbol)) :
    (index, symbol) = (token.index, token.text) ∧
      ¬ token.Fits progress.tokens.head? := by
  cases refuses with
  | unmatched => cases misplaced
  | emptyGroup => cases misplaced
  | start opened fresh left =>
      cases misplaced
      exact ⟨rfl, by simp [fresh, Token.Fits, Token.takesLeft, left]⟩
  | operators seen right left =>
      cases misplaced
      exact ⟨rfl, by
        simp [seen, Token.Fits, Token.takesLeft, Token.takesRight, right, left]⟩
  | operands seen right left =>
      cases misplaced
      exact ⟨rfl, by
        simp [seen, Token.Fits, Token.takesLeft, Token.takesRight, right, left]⟩

/-- Every minus sign that the scanner finds while a source is read fits the
token before it.  No error of reading names a token that begins with a minus
sign, or the place of a minus sign, as that of a token out of place. -/
theorem minus_never_misplaced (source : String) :
    (∀ {progress lexer later token}, Stage source progress lexer →
      lexer.next = (.ok (some token), later) → token.BeginsMinus →
      (token.kind = .number ∨ token.kind = .unary .negate ∨
        token.kind = .binary .subtract) ∧
      token.Fits progress.tokens.head?) ∧
    ∀ error index symbol, ofSource source = .error error →
      error.misplaced? = some (index, symbol) →
      symbol.toList.head? ≠ some '-' ∧
        ∀ before after, ¬ Stands source.toList before ['-'] after index := by
  refine ⟨Stage.minus_fits, ?_⟩
  intro error index symbol refused misplaced
  obtain ⟨progress, lexer, later, stage,
      fault | lacks | ⟨token, found, fault⟩⟩ :=
    Stage.start.exists_refusal refused
  · have structural := ParseError.kind_of_misplaced? misplaced
    cases structural.symm.trans (Lexer.kind_of_next_error fault)
  · cases lacks <;> cases misplaced
  · obtain ⟨same, misfit⟩ :=
      misplaced?_of_refuses (Progress.refuses_of_accept fault) misplaced
    cases same
    have noMinus : ¬ token.BeginsMinus := by
      intro minus
      exact misfit (stage.minus_fits found minus).2
    obtain ⟨nonempty, front, back, stands⟩ := stage.stands found
    refine ⟨noMinus, ?_⟩
    intro before after minus
    exact noMinus (stands.head?_eq nonempty minus)

/-- In `x -1` the sign subtracts, although a digit follows it directly. -/
theorem minus_fits_difference :
    ∃ progress lexer later, Stage "x -1" progress lexer ∧
      lexer.next = (.ok (some ⟨.binary .subtract, 2, "-", none⟩), later) ∧
      Token.Fits ⟨.binary .subtract, 2, "-", none⟩ progress.tokens.head? ∧
      progress.tokens = [⟨.name, 0, "x", none⟩] := by
  have first :
      (Lexer.ofSource "x -1").next =
        (.ok (some ⟨.name, 0, "x", none⟩), ⟨[' ', '-', '1'], 1, some .name⟩) :=
    rfl
  have second :
      Lexer.next ⟨[' ', '-', '1'], 1, some .name⟩ =
        (.ok (some ⟨.binary .subtract, 2, "-", none⟩),
          ⟨['1'], 3, some (.binary .subtract)⟩) :=
    rfl
  have stage : Stage "x -1" _ _ := .step .start first rfl
  obtain ⟨-, fits⟩ := (minus_never_misplaced "x -1").1 stage second rfl
  exact ⟨_, _, _, stage, second, fits, rfl⟩

end Sentence

end Formula
