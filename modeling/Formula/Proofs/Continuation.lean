import Formula.Proofs.Rejection
import Formula.Proofs.Structure

/-!
# What may follow a source

A blank ends every token, so that text behind a blank does not change how the
source before it is scanned and checked.  An error therefore stays the same
whatever follows, except the three errors that tell of an unfinished formula:
for those there is a text that finishes it.
-/

namespace Formula

namespace Piece

/-- The piece when a blank and more text stand behind what is left. -/
def followedBy (piece : Piece) (text : List Char) : Piece :=
  { piece with rest := piece.rest ++ ' ' :: text }

variable {index : Nat} {c : Char}

theorem extensible_followedBy {second : Char} (visible : ' ' ≠ second)
    (short long : TokenKind) (rest text : List Char) :
    extensible c second short long (rest ++ ' ' :: text) =
      (extensible c second short long rest).followedBy text := by
  cases rest with
  | nil => simp [extensible, visible, accept, followedBy]
  | cons d rest =>
      by_cases same : d = second <;> simp [extensible, same, accept, followedBy]

theorem doubled_followedBy (visible : ' ' ≠ c) (kind : TokenKind)
    (rest text : List Char) :
    doubled index c kind (rest ++ ' ' :: text) =
      (doubled index c kind rest).followedBy text := by
  cases rest with
  | nil => simp [doubled, visible, refuse, followedBy]
  | cons d rest =>
      by_cases same : d = c <;>
        simp [doubled, same, accept, refuse, followedBy]

theorem number?_followedBy (sign rest text : List Char) :
    number? index sign (rest ++ ' ' :: text) =
      (number? index sign rest).map (·.followedBy text) := by
  have blank : Char.isDigit ' ' = false := by decide
  have whitespace : CharClass.of ' ' ≠ .identifier := by decide
  rw [number?, number?, takeWhile_append_cons_stop blank,
    dropWhile_append_cons_stop blank]
  cases rest.takeWhile Char.isDigit with
  | nil => rfl
  | cons digit digits =>
      cases rest.dropWhile Char.isDigit with
      | nil => simp [whitespace, accept, followedBy]
      | cons d after =>
          by_cases identifier : CharClass.of d = .identifier <;>
            simp [identifier, accept, refuse, followedBy]

theorem word_followedBy (source text : List Char) :
    word index (source ++ ' ' :: text) =
      (word index source).followedBy text := by
  have blank : inWord ' ' = false := by decide
  rw [word, word, takeWhile_append_cons_stop blank,
    dropWhile_append_cons_stop blank]
  rfl

@[simp] theorem token_followedBy (piece : Piece) (text : List Char)
    (separated : Bool) :
    (piece.followedBy text).token index separated =
      piece.token index separated :=
  rfl

/-- Cutting off a token does not look behind a blank. -/
theorem cut_followedBy (last : Option TokenKind) (rest text : List Char) :
    cut last index c (rest ++ ' ' :: text) =
      (cut last index c rest).followedBy text := by
  unfold cut
  split
  -- the operators that begin with `!`, `<` or `>`
  iterate 3 exact extensible_followedBy (by decide) _ _ rest text
  -- the operators `==`, `&&` and `||`
  iterate 3 exact doubled_followedBy (by decide) _ rest text
  -- parentheses and the operators `~`, `+`, `*`, `/` and `%`
  iterate 7 rfl
  · split
    · rw [number?_followedBy]
      cases number? index ['-'] rest <;> rfl
    · rfl
  · rw [← List.cons_append, number?_followedBy]
    cases number? index [] (c :: rest) with
    | some piece => rfl
    | none =>
        simp only [Option.map_none]
        split
        · exact word_followedBy (c :: rest) text
        · rfl

end Piece

namespace Lexer

/-- The scanner when a blank and more text stand behind what is left. -/
def followedBy (lexer : Lexer) (text : List Char) : Lexer :=
  { lexer with rest := lexer.rest ++ ' ' :: text }

variable {lexer : Lexer}

@[simp] theorem position_followedBy (lexer : Lexer) (text : List Char) :
    (lexer.followedBy text).position = lexer.position :=
  rfl

@[simp] theorem last_followedBy (lexer : Lexer) (text : List Char) :
    (lexer.followedBy text).last = lexer.last :=
  rfl

theorem skipBlanks_followedBy (more : lexer.skipBlanks.rest ≠ [])
    (text : List Char) :
    (lexer.followedBy text).skipBlanks = lexer.skipBlanks.followedBy text := by
  have dropped : (lexer.rest.dropWhile isBlank).isEmpty = false := by
    simpa [skipBlanks] using more
  have stopped :
      (lexer.rest.takeWhile isBlank).length ≠ lexer.rest.length := by
    intro all
    have whole := congrArg List.length
      (List.takeWhile_append_dropWhile (p := isBlank) (l := lexer.rest))
    rw [List.length_append, all] at whole
    exact more (List.eq_nil_of_length_eq_zero
      (by simpa [skipBlanks] using whole))
  simp [skipBlanks, followedBy, List.dropWhile_append, List.takeWhile_append,
    dropped, stopped]

theorem separated_followedBy (more : lexer.skipBlanks.rest ≠ [])
    (text : List Char) :
    (lexer.followedBy text).separated = lexer.separated := by
  cases left : lexer.rest with
  | nil => simp [skipBlanks, left] at more
  | cons c rest => simp [separated, followedBy, left]

theorem unseparated?_followedBy (more : lexer.skipBlanks.rest ≠ [])
    (text : List Char) :
    (lexer.followedBy text).unseparated? = lexer.unseparated? := by
  simp only [unseparated?, separated_followedBy more]
  rfl

/-- As long as a token is left, the scanner does the same whatever stands
behind the blank. -/
theorem next_followedBy (more : lexer.skipBlanks.rest ≠ []) (text : List Char) :
    (lexer.followedBy text).next =
      (lexer.next.1, lexer.next.2.followedBy text) := by
  obtain ⟨c, rest, left⟩ := List.exists_cons_of_ne_nil more
  have leftAfter :
      (lexer.skipBlanks.followedBy text).rest = c :: (rest ++ ' ' :: text) := by
    simp [followedBy, left]
  simp only [next, skipBlanks_followedBy more, leftAfter, left,
    unseparated?_followedBy more, separated_followedBy more, last_followedBy,
    position_followedBy, Piece.cut_followedBy, Piece.token_followedBy]
  cases lexer.unseparated? with
  | some kind => rfl
  | none =>
      dsimp only
      split <;> rfl

theorem next_followedBy_blanks (atEnd : lexer.skipBlanks.rest = [])
    (text : List Char) :
    (lexer.followedBy text).next =
      Lexer.next
        ⟨' ' :: text, lexer.position + byteLength lexer.rest, lexer.last⟩ := by
  have blank : ∀ c ∈ lexer.rest, isBlank c = true :=
    List.dropWhile_eq_nil_iff.mp atEnd
  have start :
      (lexer.followedBy text).skipBlanks =
        Lexer.skipBlanks
          ⟨' ' :: text, lexer.position + byteLength lexer.rest,
            lexer.last⟩ := by
    simp [skipBlanks, followedBy, List.dropWhile_append_of_pos blank,
      List.takeWhile_append_of_pos blank, Nat.add_assoc]
  have space : isBlank ' ' = true := by decide
  have separated : (lexer.followedBy text).separated =
      Lexer.separated
        ⟨' ' :: text, lexer.position + byteLength lexer.rest, lexer.last⟩ := by
    cases left : lexer.rest with
    | nil => simp [Lexer.separated, followedBy, left]
    | cons c rest =>
        have first : isBlank c = true := blank c (by simp [left])
        simp [Lexer.separated, followedBy, left, first, space]
  simp only [next, start, unseparated?, separated, last_followedBy]

theorem skipBlanks_rest_ne_nil (more : lexer.next.1 ≠ .ok none) :
    lexer.skipBlanks.rest ≠ [] := by
  intro atEnd
  have blank : ∀ c ∈ lexer.rest, isBlank c = true :=
    List.dropWhile_eq_nil_iff.mp atEnd
  rw [next_none blank] at more
  exact more rfl

theorem scan_congr {other : Lexer} (same : lexer.next = other.next) :
    lexer.scan = other.scan := by
  cases found : other.next with
  | mk answer after =>
      rw [found] at same
      rcases answer with error | _ | token
      · rw [scan_error same, scan_error found]
      · rw [scan_none same, scan_none found]
      · rw [scan_some same, scan_some found]

/-- What is scanned before a blank does not depend on what stands behind it: a
fault ends the scan as before, and otherwise the scan goes on at the blank. -/
theorem scan_followedBy (lexer : Lexer) (text : List Char) :
    (∀ error, lexer.scan.2 = some error →
      (lexer.followedBy text).scan = lexer.scan) ∧
    (lexer.scan.2 = none →
      ∃ offset last, (lexer.followedBy text).scan =
        (lexer.scan.1 ++ (Lexer.scan ⟨' ' :: text, offset, last⟩).1,
          (Lexer.scan ⟨' ' :: text, offset, last⟩).2)) := by
  induction lexer using scan.induct with
  | case1 lexer error after found =>
      have more : lexer.skipBlanks.rest ≠ [] :=
        skipBlanks_rest_ne_nil (by simp [found])
      have followed := next_followedBy more text
      rw [found] at followed
      rw [scan_error found, scan_error followed]
      refine ⟨fun _ _ => rfl, ?_⟩
      intro noFault
      cases noFault
  | case2 lexer after found =>
      have blank := blank_of_next_none found
      have atEnd : lexer.skipBlanks.rest = [] :=
        List.dropWhile_eq_nil_iff.mpr blank
      rw [scan_none found]
      refine ⟨?_, ?_⟩
      · intro error fault
        cases fault
      · intro _
        exact ⟨_, _, scan_congr (next_followedBy_blanks atEnd text)⟩
  | case3 lexer token after found induction =>
      have more : lexer.skipBlanks.rest ≠ [] :=
        skipBlanks_rest_ne_nil (by simp [found])
      have followed := next_followedBy more text
      rw [found] at followed
      rw [scan_some found, scan_some followed]
      refine ⟨fun error fault => ?_, fun noFault => ?_⟩
      · rw [induction.1 error fault]
      · obtain ⟨offset, last, whole⟩ := induction.2 noFault
        exact ⟨offset, last, by rw [whole]; rfl⟩

end Lexer

theorem blank_space : ∀ c ∈ [' '], CharClass.of c = .whitespace := by
  simpa using (CharClass.of_eq_whitespace_iff ' ').mpr rfl

def Token.closerAt (index : Nat) : Token := ⟨.closeParen, index, ")", none⟩

def Token.oneAt (index : Nat) : Token := ⟨.number, index, "1", some 1⟩

/-- A closing parenthesis may stand behind any token, if there is a blank where
that token demands one. -/
theorem Token.closerAt_placed {last : Option TokenKind} {offset : Nat}
    {blanks : List Char} (blank : ∀ c ∈ blanks, CharClass.of c = .whitespace)
    (separated : ∀ before ∈ last, before.needsBlankAfter = true → blanks ≠ [])
    (after : List Char) :
    (Token.closerAt (offset + byteLength blanks)).Placed last offset blanks
      after := by
  refine ⟨blank, rfl, rfl, rfl, ?_, fun _ _ => .inr trivial⟩
  intro before isLast demands
  rcases demands with afterLast | beforeCloser
  · exact separated before isLast afterLast
  · cases beforeCloser

/-- The text that finishes a formula which may lack an operand at its end and in
which some groups are open. -/
def completion (lacksOperand : Bool) (depth : Nat) : List Char :=
  (if lacksOperand then ['1'] else []) ++ List.replicate depth ')'

def completionKinds (lacksOperand : Bool) (depth : Nat) : List TokenKind :=
  (if lacksOperand then [.number] else []) ++ List.replicate depth .closeParen

namespace Layout

theorem exists_closers (depth offset : Nat) (last : Option TokenKind)
    (blanks : List Char)
    (blank : ∀ c ∈ blanks, CharClass.of c = .whitespace)
    (separated : ∀ before ∈ last, before.needsBlankAfter = true → blanks ≠ []) :
    ∃ tokens,
      Layout last offset (blanks ++ List.replicate depth ')') tokens ∧
        tokens.map Token.kind = List.replicate depth .closeParen := by
  induction depth generalizing last blanks offset with
  | zero => exact ⟨[], by simpa using Layout.blanks blank, rfl⟩
  | succ depth induction =>
      have free : TokenKind.closeParen.needsBlankAfter ≠ true := by decide
      obtain ⟨tokens, later, kinds⟩ :=
        induction (offset + byteLength blanks + byteLength ")".toList)
          (some .closeParen) [] (by simp) (by simpa using free)
      refine ⟨Token.closerAt (offset + byteLength blanks) :: tokens, ?_, ?_⟩
      · have whole :=
          Layout.token (Token.closerAt_placed blank separated _) later
        simpa [Token.closerAt, List.replicate_succ] using whole
      · simp [Token.closerAt, kinds, List.replicate_succ]

theorem exists_completion (lacksOperand : Bool) (depth : Nat)
    (last : Option TokenKind) (offset : Nat) :
    ∃ tokens,
      Layout last offset (' ' :: completion lacksOperand depth) tokens ∧
        tokens.map Token.kind = completionKinds lacksOperand depth := by
  cases lacksOperand with
  | false =>
      exact exists_closers depth offset last [' '] blank_space (by simp)
  | true =>
      have free : TokenKind.number.needsBlankAfter ≠ true := by decide
      obtain ⟨tokens, later, kinds⟩ :=
        exists_closers depth
          (offset + byteLength [' '] + byteLength "1".toList) (some .number) []
          (by simp) (by simpa using free)
      have digits : IsDigits "1".toList := ⟨by simp, by simp⟩
      have numeral : Numeral "1".toList (Int32.toInt 1) := .plain digits
      have placed :
          (Token.oneAt (offset + byteLength [' '])).Placed last offset [' ']
            (List.replicate depth ')') := by
        refine ⟨blank_space, rfl, ⟨⟨_, numeral⟩, by simp [Token.oneAt]⟩,
          ⟨1, rfl, numeral⟩, by simp, ?_⟩
        intro c first
        cases depth with
        | zero => cases first
        | succ depth =>
            cases first
            exact .inr (.inl (by decide))
      refine ⟨Token.oneAt (offset + byteLength [' ']) :: tokens, ?_, ?_⟩
      · have whole := Layout.token placed later
        simpa [Token.oneAt, completion] using whole
      · simp [Token.oneAt, completionKinds, kinds]

theorem scan_eq {last : Option TokenKind} {offset : Nat}
    {source : List Char} {tokens : List Token}
    (layout : Layout last offset source tokens) :
    (Lexer.scan ⟨source, offset, last⟩).1 = tokens ∧
      (Lexer.scan ⟨source, offset, last⟩).2 = none := by
  have scanned := layout.tokens
  rw [Lexer.tokens_eq_scan] at scanned
  cases fault : (Lexer.scan ⟨source, offset, last⟩).2 with
  | none =>
      rw [fault] at scanned
      exact ⟨Except.ok.inj scanned, rfl⟩
  | some error =>
      rw [fault] at scanned
      cases scanned

end Layout

namespace ParseError

/-- The errors that tell of a formula which stops too early. -/
def Unfinished : ParseError → Prop
  | .emptyExpression | .missingOperandAtEnd .. | .unclosedOpeningParen _ => True
  | _ => False

theorem not_unfinished_of_lexical {error : ParseError}
    (lexical : error.kind = .lexical) : ¬ error.Unfinished := by
  cases error <;> first | exact id | cases lexical

end ParseError

namespace Sentence.Progress

theorem not_unfinished_of_foldlM_accept {tokens : List Token}
    {progress : Progress} {error : ParseError}
    (refused : tokens.foldlM accept progress = .error error) :
    ¬ error.Unfinished := by
  obtain ⟨-, token, -, middle, -, -, stopped⟩ :=
    exists_of_foldlM_eq_error refused
  cases refuses_of_accept stopped <;> exact id

theorem unfinished_of_finish {progress : Progress} {error : ParseError}
    (refused : progress.finish = .error error) : error.Unfinished := by
  cases lacks_of_finish refused <;> trivial

/-- Closing parentheses close the open groups behind a complete operand. -/
theorem foldlM_accept_closers {tokens : List Token} {progress : Progress}
    (kinds : tokens.map Token.kind =
      List.replicate progress.openers.length .closeParen)
    (complete : progress.expectsOperand = false) :
    ∃ after, tokens.foldlM accept progress = .ok after ∧
      after.openers = [] ∧ after.expectsOperand = false := by
  induction tokens generalizing progress with
  | nil =>
      have closed : progress.openers = [] := by
        simpa using (congrArg List.length kinds).symm
      exact ⟨progress, rfl, closed, complete⟩
  | cons token tokens induction =>
      cases openStack : progress.openers with
      | nil => simp [openStack] at kinds
      | cons index outer =>
          simp only [openStack, List.map_cons, List.length_cons,
            List.replicate_succ, List.cons.injEq] at kinds
          obtain ⟨closes, laterKinds⟩ := kinds
          have fits : progress.expectsOperand = (!token.kind.takesLeft) := by
            rw [complete, closes]
            rfl
          have popped : openersAfter progress.openers token = .ok outer := by
            rw [openStack]
            exact openersAfter_closer closes index outer
          have accepted := accept_of_fits fits popped
          have stillComplete :
              (progress.extended outer token).expectsOperand = false := by
            rw [expectsOperand_extended, closes]
            rfl
          obtain ⟨after, ran, closed, complete⟩ :=
            induction laterKinds stillComplete
          exact ⟨after, foldlM_cons_eq_ok_iff.mpr ⟨_, accepted, ran⟩, closed,
            complete⟩

theorem foldlM_accept_completion {tokens : List Token} {progress : Progress}
    (kinds : tokens.map Token.kind =
      completionKinds progress.expectsOperand progress.openers.length) :
    ∃ after, tokens.foldlM accept progress = .ok after ∧
      after.openers = [] ∧ after.expectsOperand = false := by
  cases expects : progress.expectsOperand with
  | false =>
      apply foldlM_accept_closers _ expects
      simpa [completionKinds, expects] using kinds
  | true =>
      rw [completionKinds, expects, if_pos rfl, List.singleton_append] at kinds
      obtain ⟨operand, closers, rfl, number, closerKinds⟩ :=
        List.map_eq_cons_iff.mp kinds
      obtain ⟨middle, accepted, openers, complete⟩ :=
        foldlM_accept_value expects (by rw [number]; rfl) (by rw [number]; rfl)
      rw [← openers] at closerKinds
      obtain ⟨after, ran, closed, stillComplete⟩ :=
        foldlM_accept_closers closerKinds complete
      refine ⟨after, ?_, closed, stillComplete⟩
      rw [← List.singleton_append, List.foldlM_append, accepted, ok_bind, ran]

end Sentence.Progress

namespace Sentence

theorem ofSource_followedBy (source text : String) :
    ofSource (source ++ " " ++ text) =
      Progress.read {} ((Lexer.ofSource source).followedBy text.toList) := by
  have whole : (source ++ " " ++ text).toList =
      source.toList ++ ' ' :: text.toList := by
    simp
  rw [ofSource, Lexer.ofSource, whole]
  rfl

/-- Either an error stays whatever follows, or the source can be completed and
its error, if it has one, is that of an unfinished formula. -/
theorem ofSource_followedBy_cases (source : String) :
    (∃ error, ¬ error.Unfinished ∧ ofSource source = .error error ∧
      ∀ text : String, ofSource (source ++ " " ++ text) = .error error) ∨
    ((∀ error, ofSource source = .error error → error.Unfinished) ∧
      ∃ (text : String) (sentence : Sentence),
        ofSource (source ++ " " ++ text) = .ok sentence) := by
  simp only [ofSource_followedBy, Progress.read_eq_scan]
  rw [ofSource, Progress.read_eq_scan]
  have followed := (Lexer.ofSource source).scan_followedBy
  have lexical : ∀ error, (Lexer.ofSource source).scan.2 = some error →
      error.kind = .lexical := fun _ fault => Lexer.kind_of_scan_fault fault
  generalize (Lexer.ofSource source).scan = scanned at followed lexical ⊢
  obtain ⟨tokens, fault⟩ := scanned
  cases checked : tokens.foldlM Progress.accept {} with
  | error error =>
      refine .inl ⟨error, Progress.not_unfinished_of_foldlM_accept checked, rfl,
        ?_⟩
      intro text
      cases fault with
      | some first =>
          rw [(followed text.toList).1 first rfl, checked]
          rfl
      | none =>
          obtain ⟨offset, last, whole⟩ := (followed text.toList).2 rfl
          rw [whole, List.foldlM_append, checked]
          rfl
  | ok progress =>
      cases fault with
      | some error =>
          refine .inl ⟨error,
            ParseError.not_unfinished_of_lexical (lexical error rfl), rfl, ?_⟩
          intro text
          rw [(followed text.toList).1 error rfl, checked]
          rfl
      | none =>
          refine .inr
            ⟨fun _ refused => Progress.unfinished_of_finish refused, ?_⟩
          obtain ⟨offset, last, whole⟩ :=
            (followed (completion progress.expectsOperand
              progress.openers.length)).2 rfl
          obtain ⟨added, layout, kinds⟩ := Layout.exists_completion
            progress.expectsOperand progress.openers.length last offset
          obtain ⟨addedTokens, noFault⟩ := layout.scan_eq
          obtain ⟨after, ran, closed, complete⟩ :=
            Progress.foldlM_accept_completion kinds
          refine ⟨String.ofList (completion progress.expectsOperand
            progress.openers.length), ⟨after.tokens.reverse, after.names⟩, ?_⟩
          rw [String.toList_ofList, whole, List.foldlM_append, checked, ok_bind,
            addedTokens, noFault, ran]
          exact (Progress.finish_eq_ok_iff after _).mpr ⟨complete, closed, rfl⟩

/-- A source can be completed behind a blank exactly if it is a sentence or its
error is that of an unfinished formula; any other error stays the same whatever
text follows. -/
theorem completable_iff_unfinished (source : String) :
    ((∃ (text : String) (sentence : Sentence),
        ofSource (source ++ " " ++ text) = .ok sentence) ↔
      (∃ sentence, ofSource source = .ok sentence) ∨
        ∃ error, ofSource source = .error error ∧ error.Unfinished) ∧
    ∀ error, ofSource source = .error error → ¬ error.Unfinished →
      ∀ text : String, ofSource (source ++ " " ++ text) = .error error := by
  rcases ofSource_followedBy_cases source with
    ⟨error, final, refused, stays⟩ | ⟨unfinished, completed⟩
  · refine ⟨⟨?_, ?_⟩, ?_⟩
    · rintro ⟨text, sentence, valid⟩
      cases (stays text).symm.trans valid
    · rintro (⟨sentence, valid⟩ | ⟨other, otherRefused, repairable⟩)
      · cases refused.symm.trans valid
      · obtain rfl : error = other :=
          Except.error.inj (refused.symm.trans otherRefused)
        exact absurd repairable final
    · intro other otherRefused _
      obtain rfl : error = other :=
        Except.error.inj (refused.symm.trans otherRefused)
      exact stays
  · refine ⟨⟨fun _ => ?_, fun _ => completed⟩, ?_⟩
    · cases valid : ofSource source with
      | ok sentence => exact .inl ⟨sentence, rfl⟩
      | error error => exact .inr ⟨error, rfl, unfinished error valid⟩
    · intro error refused final
      exact absurd (unfinished error refused) final

/-- `(1 +` can be completed; `1 2` lacks an operator whatever follows. -/
theorem completable_group_not_values :
    (∃ (text : String) (sentence : Sentence),
      ofSource ("(1 +" ++ " " ++ text) = .ok sentence) ∧
    ofSource "1 2" = .error (.missingBinaryOperator 2 "2") ∧
    ofSource ("1 2" ++ " " ++ "* (x - 3)") =
      .error (.missingBinaryOperator 2 "2") := by
  have opener :
      (Lexer.ofSource "(1 +").next =
        (.ok (some ⟨.openParen, 0, "(", none⟩),
          ⟨['1', ' ', '+'], 1, some .openParen⟩) :=
    rfl
  have inner :
      Lexer.next ⟨['1', ' ', '+'], 1, some .openParen⟩ =
        (.ok (some ⟨.number, 1, "1", some 1⟩), ⟨[' ', '+'], 2, some .number⟩) :=
    rfl
  have operator :
      Lexer.next ⟨[' ', '+'], 2, some .number⟩ =
        (.ok (some ⟨.binary .add, 3, "+", none⟩),
          ⟨[], 4, some (.binary .add)⟩) :=
    rfl
  have atEnd :
      Lexer.next ⟨[], 4, some (.binary .add)⟩ =
        (.ok none, ⟨[], 4, some (.binary .add)⟩) :=
    rfl
  have unfinished :
      ofSource "(1 +" = .error (.missingOperandAtEnd 3 "+") := by
    rw [ofSource, Progress.read_eq_scan, Lexer.scan_some opener,
      Lexer.scan_some inner, Lexer.scan_some operator, Lexer.scan_none atEnd]
    rfl
  have left :
      (Lexer.ofSource "1 2").next =
        (.ok (some ⟨.number, 0, "1", some 1⟩), ⟨[' ', '2'], 1, some .number⟩) :=
    rfl
  have right :
      Lexer.next ⟨[' ', '2'], 1, some .number⟩ =
        (.ok (some ⟨.number, 2, "2", some 2⟩), ⟨[], 3, some .number⟩) :=
    rfl
  have final : ofSource "1 2" = .error (.missingBinaryOperator 2 "2") := by
    rw [ofSource, Progress.read_eq_scan, Lexer.scan_some left,
      Lexer.scan_some right]
    rfl
  obtain ⟨completable, -⟩ := completable_iff_unfinished "(1 +"
  obtain ⟨-, stays⟩ := completable_iff_unfinished "1 2"
  exact ⟨completable.mpr (.inr ⟨_, unfinished, trivial⟩), final,
    stays _ final id "* (x - 3)"⟩

end Sentence

end Formula
