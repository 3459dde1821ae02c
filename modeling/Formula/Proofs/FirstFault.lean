import Formula.Proofs.Continuation
import Formula.Proofs.MinusSigns

/-!
# Which fault comes first

Cutting a source into tokens knows only the faults of the scanner.  Reading it
as a sentence checks the structure along the way and stops at the first
violation, which then stands before the fault of the scanner.  Where no token
is misplaced, both say the same.
-/

namespace Formula

/-- Behind some tokens another one is misplaced if it does not fit the last of
them, or if it closes a group where none is open. -/
def Token.Misplaced (token : Token) (front : List Token) : Prop :=
  ¬ token.Fits front.getLast? ∨
    token.kind = .closeParen ∧
      (front.map Token.kind).count .openParen ≤
        (front.map Token.kind).count .closeParen

/-- Some token is misplaced behind those before it. -/
def Violated (tokens : List Token) : Prop :=
  ∃ front token back, tokens = front ++ token :: back ∧ token.Misplaced front

/-- One error points at an earlier character than another. -/
def ParseError.Precedes (error fault : ParseError) : Prop :=
  ∃ index faultIndex, error.index? = some index ∧
    fault.index? = some faultIndex ∧ index < faultIndex

namespace Lexer

variable {lexer later : Lexer} {token : Token} {error : ParseError}

theorem index_of_next (found : lexer.next = (.ok (some token), later)) :
    lexer.position ≤ token.index ∧ token.index < later.position := by
  obtain ⟨blanks, after, -, placed, rfl⟩ := placed_of_next found
  obtain ⟨c, rest, text, -⟩ := placed.written.begins
  have first := Char.utf8Size_pos c
  rw [text, byteLength_cons, placed.index]
  dsimp only
  omega

theorem index_of_refusal (refused : lexer.next = (.error error, later)) :
    ∃ index, error.index? = some index ∧ lexer.position ≤ index := by
  obtain ⟨blanks, c, rest, -, -, -, refuses⟩ := refuses_of_next refused
  cases refuses with
  | blankAfter => exact ⟨_, rfl, Nat.le_refl _⟩
  | blankBefore => exact ⟨_, rfl, Nat.le_refl _⟩
  | range => exact ⟨_, rfl, Nat.le_add_right _ _⟩
  | piece rejects =>
      generalize c :: rest = found at rejects
      cases rejects with
      | wordEnd => exact ⟨_, rfl, by omega⟩
      | _ => exact ⟨_, rfl, Nat.le_add_right _ _⟩

theorem index_of_fault (fault : lexer.scan.2 = some error) :
    ∃ index, error.index? = some index ∧ lexer.position ≤ index ∧
      ∀ token ∈ lexer.scan.1, token.index < index := by
  induction lexer using scan.induct with
  | case1 lexer found later refused =>
      rw [scan_error refused] at fault ⊢
      cases fault
      obtain ⟨index, isIndex, beyond⟩ := index_of_refusal refused
      exact ⟨index, isIndex, beyond, by simp⟩
  | case2 lexer later found =>
      rw [scan_none found] at fault
      cases fault
  | case3 lexer token later found induction =>
      rw [scan_some found] at fault ⊢
      obtain ⟨index, isIndex, beyond, before⟩ := induction fault
      obtain ⟨start, progress⟩ := index_of_next found
      refine ⟨index, isIndex, by omega, ?_⟩
      intro other member
      rcases List.mem_cons.mp member with rfl | inRest
      · omega
      · exact before other inRest

end Lexer

namespace Sentence.Progress

variable {progress after : Progress} {tokens front : List Token} {token : Token}
  {error : ParseError}

theorem count_openersAfter {openers later : List Nat}
    (opened : openersAfter openers token = .ok later) :
    later.length + [token.kind].count .closeParen =
      openers.length + [token.kind].count .openParen := by
  by_cases opens : token.kind = .openParen
  · rw [openersAfter_opener opens] at opened
    cases opened
    rw [opens]
    rfl
  · by_cases closes : token.kind = .closeParen
    · cases openers with
      | nil => simp [openersAfter, closes, TokenKind.closesGroup] at opened
      | cons index outer =>
          rw [openersAfter_closer closes] at opened
          cases opened
          rw [closes]
          rfl
    · rw [openersAfter_other opens closes] at opened
      cases opened
      rw [List.count_singleton, List.count_singleton]
      simp [opens, closes]

theorem count_of_foldlM_accept
    (accepted : tokens.foldlM accept progress = .ok after) :
    after.openers.length + (tokens.map Token.kind).count .closeParen =
      progress.openers.length + (tokens.map Token.kind).count .openParen := by
  induction tokens generalizing progress with
  | nil =>
      cases accepted
      rfl
  | cons token tokens induction =>
      obtain ⟨middle, first, rest⟩ := foldlM_cons_eq_ok_iff.mp accepted
      obtain ⟨openers, opened, -, rfl⟩ :=
        (accept_eq_ok_iff progress middle token).mp first
      have here := count_openersAfter opened
      have there := induction rest
      rw [openers_extended] at there
      rw [List.map_cons, List.count_cons, List.count_cons]
      rw [List.count_singleton, List.count_singleton] at here
      omega

theorem head?_of_foldlM_accept (accepted : front.foldlM accept {} = .ok after) :
    after.tokens.head? = front.getLast? := by
  rw [tokens_of_foldlM_accept accepted, List.append_nil, List.head?_reverse]

theorem misplaced_of_refuses (accepted : front.foldlM accept {} = .ok after)
    (refuses : Refuses after token error) : token.Misplaced front := by
  have latest := head?_of_foldlM_accept accepted
  rw [Token.Misplaced, ← latest]
  cases refuses with
  | unmatched closes noneOpen =>
      have counted := count_of_foldlM_accept accepted
      rw [noneOpen] at counted
      refine .inr ⟨closes, ?_⟩
      change 0 + _ = 0 + _ at counted
      omega
  | start opened fresh left =>
      exact .inl (by simp [fresh, Token.Fits, Token.takesLeft, left])
  | emptyGroup seen opens closes =>
      exact .inl (by
        rw [seen, List.head?_cons, Token.Fits, Token.takesRight,
          Token.takesLeft, opens, closes]
        exact fun fits => fits rfl)
  | operators seen right left =>
      exact .inl (by
        simp [seen, Token.Fits, Token.takesLeft, Token.takesRight, right, left])
  | operands seen right left =>
      exact .inl (by
        simp [seen, Token.Fits, Token.takesLeft, Token.takesRight, right, left])

theorem not_misplaced_of_accept
    (accepted : front.foldlM accept {} = .ok progress)
    (acceptedNext : progress.accept token = .ok after) :
    ¬ token.Misplaced front := by
  obtain ⟨openers, opened, fits, -⟩ :=
    (accept_eq_ok_iff progress after token).mp acceptedNext
  rintro (unfit | ⟨closes, noneOpen⟩)
  · rw [← head?_of_foldlM_accept accepted] at unfit
    exact unfit ((fits_iff_misfit? _ _).mpr
      ((misfit?_eq_none_iff _ _).mpr fits))
  · have counted := count_of_foldlM_accept accepted
    have here := count_openersAfter opened
    rw [closes] at here
    change openers.length + 1 = progress.openers.length + 0 at here
    change _ = 0 + _ at counted
    omega

theorem foldlM_accept_stops_iff :
    (∃ error, tokens.foldlM accept {} = .error error) ↔ Violated tokens := by
  constructor
  · rintro ⟨error, refused⟩
    obtain ⟨front, token, back, middle, split, accepted, stopped⟩ :=
      exists_of_foldlM_eq_error refused
    exact ⟨front, token, back, split,
      misplaced_of_refuses accepted (refuses_of_accept stopped)⟩
  · rintro ⟨front, token, back, rfl, misplaced⟩
    cases checked : (front ++ token :: back).foldlM accept {} with
    | error error => exact ⟨error, rfl⟩
    | ok after =>
        rw [List.foldlM_append] at checked
        cases accepted : front.foldlM accept {} with
        | error error =>
            rw [accepted] at checked
            cases checked
        | ok middle =>
            rw [accepted, ok_bind] at checked
            obtain ⟨later, acceptedNext, -⟩ := foldlM_cons_eq_ok_iff.mp checked
            exact absurd misplaced
              (not_misplaced_of_accept accepted acceptedNext)

theorem index_of_foldlM_accept_error
    (refused : tokens.foldlM accept {} = .error error) :
    ∃ token ∈ tokens, error.index? = some token.index := by
  obtain ⟨front, token, back, middle, rfl, accepted, stopped⟩ :=
    exists_of_foldlM_eq_error refused
  have seen := tokens_of_foldlM_accept accepted
  have earlier : ∀ last before, middle.tokens = last :: before →
      last ∈ front ++ token :: back := by
    intro last before isLast
    have member : last ∈ middle.tokens := by simp [isLast]
    rw [seen] at member
    exact List.mem_append_left _ (by simpa using member)
  cases refuses_of_accept stopped with
  | unmatched => exact ⟨token, by simp, rfl⟩
  | start => exact ⟨token, by simp, rfl⟩
  | operands => exact ⟨token, by simp, rfl⟩
  | emptyGroup isLast => exact ⟨_, earlier _ _ isLast, rfl⟩
  | operators isLast => exact ⟨_, earlier _ _ isLast, rfl⟩

end Sentence.Progress

namespace Sentence

/-- Either the check stops within the scanned tokens, or it accepts them all and
the outcome depends on whether a fault of the scanner stands behind them. -/
theorem ofSource_cases (source : String) :
    (∃ error, (Lexer.ofSource source).scan.1.foldlM Progress.accept {} =
        .error error ∧ ofSource source = .error error) ∨
    ∃ progress, (Lexer.ofSource source).scan.1.foldlM Progress.accept {} =
        .ok progress ∧
      ofSource source = progress.conclude (Lexer.ofSource source).scan.2 := by
  rw [ofSource, Progress.read_eq_scan]
  cases checked : (Lexer.ofSource source).scan.1.foldlM Progress.accept {} with
  | error error => exact .inl ⟨error, rfl, rfl⟩
  | ok progress => exact .inr ⟨progress, rfl, rfl⟩

end Sentence

theorem tokenize_eq_error_iff {source : String} {fault : ParseError} :
    tokenize source = .error fault ↔
      (Lexer.ofSource source).scan.2 = some fault := by
  rw [tokenize, Lexer.tokens_eq_scan]
  cases (Lexer.ofSource source).scan.2 with
  | none => simp [Lexer.outcome]
  | some error => simp [Lexer.outcome]

theorem tokenize_of_no_fault {source : String}
    (noFault : (Lexer.ofSource source).scan.2 = none) :
    tokenize source = .ok (Lexer.ofSource source).scan.1 := by
  rw [tokenize, Lexer.tokens_eq_scan, noFault]
  rfl

namespace Sentence

variable {source : String} {sentence : Sentence} {error fault : ParseError}

theorem tokenize_of_ofSource (valid : ofSource source = .ok sentence) :
    tokenize source = .ok sentence.tokens := by
  rcases ofSource_cases source with ⟨error, -, refused⟩ |
    ⟨progress, accepted, concluded⟩
  · cases valid.symm.trans refused
  · rw [valid] at concluded
    cases noFault : (Lexer.ofSource source).scan.2 with
    | some fault =>
        rw [noFault] at concluded
        cases concluded
    | none =>
        rw [noFault] at concluded
        obtain ⟨-, -, rfl⟩ :=
          (Progress.finish_eq_ok_iff progress sentence).mp concluded.symm
        rw [tokenize_of_no_fault noFault,
          Progress.tokens_of_foldlM_accept accepted]
        simp

theorem exists_tokenize_of_unfinished (refused : ofSource source = .error error)
    (unfinished : error.Unfinished) :
    ∃ tokens, tokenize source = .ok tokens := by
  rcases ofSource_cases source with ⟨first, stopped, firstRefused⟩ |
    ⟨progress, -, concluded⟩
  · cases refused.symm.trans firstRefused
    exact absurd unfinished (Progress.not_unfinished_of_foldlM_accept stopped)
  · rw [refused] at concluded
    cases noFault : (Lexer.ofSource source).scan.2 with
    | none => exact ⟨_, tokenize_of_no_fault noFault⟩
    | some fault =>
        rw [noFault] at concluded
        cases concluded
        have lexical := Lexer.kind_of_scan_fault noFault
        exact absurd unfinished (ParseError.not_unfinished_of_lexical lexical)

/-- A source with a fault of the scanner is refused with that fault, unless one
of the tokens before it is misplaced; then an error of the check comes first. -/
theorem refused_of_fault (faulty : tokenize source = .error fault) :
    (¬ Violated (Lexer.ofSource source).scan.1 ∧
      ofSource source = .error fault) ∨
    (Violated (Lexer.ofSource source).scan.1 ∧
      ∃ error, ofSource source = .error error ∧ error.kind = .structural ∧
        ¬ error.Unfinished ∧ error.Precedes fault) := by
  have isFault := tokenize_eq_error_iff.mp faulty
  rcases ofSource_cases source with ⟨error, stopped, refused⟩ |
    ⟨progress, accepted, concluded⟩
  · refine .inr ⟨Progress.foldlM_accept_stops_iff.mp ⟨error, stopped⟩, error,
      refused, Progress.kind_of_foldlM_accept_error stopped,
      Progress.not_unfinished_of_foldlM_accept stopped, ?_⟩
    obtain ⟨index, isIndex, -, behind⟩ := Lexer.index_of_fault isFault
    obtain ⟨token, member, atToken⟩ :=
      Progress.index_of_foldlM_accept_error stopped
    exact ⟨token.index, index, atToken, isIndex, behind token member⟩
  · rw [isFault] at concluded
    refine .inl ⟨?_, concluded⟩
    intro violated
    obtain ⟨error, stopped⟩ := Progress.foldlM_accept_stops_iff.mpr violated
    cases accepted.symm.trans stopped

/-- Cutting a source into tokens and reading it as a sentence agree.  A sentence
has the tokens of its source, and a source that only stops too early has some.
A fault of the scanner is that of the sentence, too, unless the check refuses
the source at an earlier place, which it does exactly if one of the tokens
before the fault is misplaced.  And no other fault of the scanner is ever
reported. -/
theorem ofSource_agrees_tokenize (source : String) :
    (∀ sentence, ofSource source = .ok sentence →
      tokenize source = .ok sentence.tokens) ∧
    (∀ error, ofSource source = .error error → error.Unfinished →
      ∃ tokens, tokenize source = .ok tokens) ∧
    (∀ fault, tokenize source = .error fault →
      ∃ error, ofSource source = .error error ∧
        (error = fault ∨ error.kind = .structural ∧ error.Precedes fault) ∧
        (error.kind = .structural ∧ error.Precedes fault ↔
          Violated (Lexer.ofSource source).scan.1)) ∧
    ∀ error, ofSource source = .error error → error.kind = .lexical →
      tokenize source = .error error := by
  refine ⟨fun _ => tokenize_of_ofSource, fun _ => exists_tokenize_of_unfinished,
    ?_, ?_⟩
  · intro fault faulty
    rcases refused_of_fault faulty with ⟨intact, refused⟩ |
      ⟨violated, error, refused, structural, -, precedes⟩
    · refine ⟨fault, refused, .inl rfl, ?_,
        fun violated => absurd violated intact⟩
      rintro ⟨structural, -⟩
      have lexical := Lexer.kind_of_scan_fault (tokenize_eq_error_iff.mp faulty)
      cases lexical.symm.trans structural
    · exact ⟨error, refused, .inr ⟨structural, precedes⟩,
        fun _ => violated, fun _ => ⟨structural, precedes⟩⟩
  · intro error refused lexical
    rcases ofSource_cases source with ⟨first, stopped, firstRefused⟩ |
      ⟨progress, -, concluded⟩
    · cases refused.symm.trans firstRefused
      have structural := Progress.kind_of_foldlM_accept_error stopped
      cases lexical.symm.trans structural
    · rw [refused] at concluded
      cases isFault : (Lexer.ofSource source).scan.2 with
      | none =>
          rw [isFault] at concluded
          have structural := Progress.kind_of_finish_error concluded.symm
          cases lexical.symm.trans structural
      | some fault =>
          rw [isFault] at concluded
          cases concluded
          exact tokenize_eq_error_iff.mpr isFault

/-- In `1 2 ^` an operator is missing before the foreign character, in `1 + ^`
the foreign character comes first, and `(1` only stops too early. -/
theorem ofSource_agrees_foreign_character :
    tokenize "1 2 ^" = .error (.invalidCharacter 4 '^') ∧
    ofSource "1 2 ^" = .error (.missingBinaryOperator 2 "2") ∧
    Violated (Lexer.ofSource "1 2 ^").scan.1 ∧
    ofSource "1 + ^" = .error (.invalidCharacter 4 '^') ∧
    tokenize "1 + ^" = .error (.invalidCharacter 4 '^') ∧
    ofSource "(1" = .error (.unclosedOpeningParen 0) ∧
    ∃ tokens, tokenize "(1" = .ok tokens := by
  have foreign : tokenize "1 2 ^" = .error (.invalidCharacter 4 '^') := by
    decide +kernel
  have missing : ofSource "1 2 ^" = .error (.missingBinaryOperator 2 "2") := by
    decide +kernel
  have foreignFirst : ofSource "1 + ^" = .error (.invalidCharacter 4 '^') := by
    decide +kernel
  have unclosed : ofSource "(1" = .error (.unclosedOpeningParen 0) := by
    decide +kernel
  obtain ⟨-, -, faults, -⟩ := ofSource_agrees_tokenize "1 2 ^"
  obtain ⟨-, -, -, lexical⟩ := ofSource_agrees_tokenize "1 + ^"
  obtain ⟨-, unfinished, -⟩ := ofSource_agrees_tokenize "(1"
  obtain ⟨error, refused, -, stops⟩ := faults _ foreign
  cases refused.symm.trans missing
  have violated := stops.mp ⟨rfl, 2, 4, rfl, rfl, by decide⟩
  exact ⟨foreign, missing, violated, foreignFirst, lexical _ foreignFirst rfl,
    unclosed, unfinished _ unclosed trivial⟩

end Sentence

end Formula
