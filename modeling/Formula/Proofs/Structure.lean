import Formula.Proofs.Grammar
import Formula.Proofs.Outcome
import Formula.Sentence

/-!
# The structure check and the grammar

The check looks at neighbours, at the ends and at a stack of open parentheses
only.  What it has accepted is nevertheless a beginning of a formula: in each
open group stands either a complete formula or one that an operand completes.
Hence the check accepts exactly the grammatical token lists.
-/

namespace Formula

/-- Kinds that become a formula when any operand follows. -/
def Hole (kinds : List TokenKind) : Prop :=
  ∀ operand, Grammatical operand → Grammatical (kinds ++ operand)

theorem Hole.nil : Hole [] := fun _ grammatical => grammatical

theorem Hole.unary {kinds : List TokenKind} (hole : Hole kinds) (op : UnaryOp) :
    Hole (kinds ++ [.unary op]) := by
  intro operand grammatical
  simpa using hole _ (Grammatical.unary op grammatical)

theorem Grammatical.hole {kinds : List TokenKind}
    (grammatical : Grammatical kinds) (op : BinaryOp) :
    Hole (kinds ++ [.binary op]) := by
  intro operand rightGrammatical
  simpa using Grammatical.binary op grammatical rightGrammatical

/-- `Enclosed depth kinds current`: the kinds end in `current`, before which
`depth` groups are open, and each of them lacks the operand that the next one
is to become. -/
inductive Enclosed : Nat → List TokenKind → List TokenKind → Prop where
  | outermost (current : List TokenKind) : Enclosed 0 current current
  | inside {depth : Nat} {before frame : List TokenKind} :
      Enclosed depth before frame → Hole frame → (current : List TokenKind) →
      Enclosed (depth + 1) (before ++ .openParen :: current) current

namespace Enclosed

theorem append {depth : Nat} {kinds current : List TokenKind}
    (enclosed : Enclosed depth kinds current) (more : List TokenKind) :
    Enclosed depth (kinds ++ more) (current ++ more) := by
  cases enclosed with
  | outermost => exact .outermost _
  | inside outer hole =>
    simpa using Enclosed.inside outer hole (current ++ more)

/-- Closing a complete group completes the operand that the outer one lacks. -/
theorem close {depth : Nat} {kinds current : List TokenKind}
    (enclosed : Enclosed (depth + 1) kinds current)
    (grammatical : Grammatical current) :
    ∃ whole, Enclosed depth (kinds ++ [.closeParen]) whole ∧
      Grammatical whole := by
  cases enclosed with
  | inside outer hole =>
      refine ⟨_, ?_, hole _ (Grammatical.group grammatical)⟩
      simpa using outer.append (.openParen :: (current ++ [.closeParen]))

end Enclosed

namespace Sentence

/-- Two neighbours fit exactly if one of them takes the other as an operand. -/
theorem misfit?_eq_none_iff (last : Option Token) (token : Token) :
    misfit? last token = none ↔
      TokenKind.expectsOperand (last.map Token.kind) =
        !token.kind.takesLeft := by
  cases last with
  | none =>
      cases left : token.kind.takesLeft <;>
        simp [misfit?, Token.takesLeft, left, TokenKind.expectsOperand]
  | some last =>
      by_cases parens : last.kind = .openParen ∧ token.kind = .closeParen
      · simp [misfit?, parens, TokenKind.opensGroup, TokenKind.closesGroup,
          TokenKind.expectsOperand, TokenKind.takesLeft, TokenKind.takesRight,
          TokenKind.operands, Sides.onLeft, Sides.onRight]
      · have notEmpty :
            (last.kind.opensGroup && token.kind.closesGroup) = false := by
          simpa [TokenKind.opensGroup, TokenKind.closesGroup] using parens
        cases right : last.kind.takesRight <;>
          cases left : token.kind.takesLeft <;>
          simp [misfit?, notEmpty, Token.takesRight, Token.takesLeft, left,
            right, TokenKind.expectsOperand]

namespace Progress

def kinds (progress : Progress) : List TokenKind :=
  (progress.tokens.map Token.kind).reverse

/-- Whether an operand has to come next. -/
def expectsOperand (progress : Progress) : Bool :=
  TokenKind.expectsOperand (progress.tokens.head?.map Token.kind)

/-- The progress after one more token. -/
def extended (progress : Progress) (openers : List Nat) (token : Token) :
    Progress where
  tokens := token :: progress.tokens
  openers := openers
  names := namesAfter progress.names token

@[simp] theorem kinds_extended (progress : Progress) (openers : List Nat)
    (token : Token) :
    (progress.extended openers token).kinds =
      progress.kinds ++ [token.kind] := by
  simp [extended, kinds]

@[simp] theorem expectsOperand_extended (progress : Progress)
    (openers : List Nat) (token : Token) :
    (progress.extended openers token).expectsOperand = token.kind.takesRight :=
  rfl

@[simp] theorem openers_extended (progress : Progress) (openers : List Nat)
    (token : Token) : (progress.extended openers token).openers = openers :=
  rfl

theorem accept_eq_ok_iff (progress after : Progress) (token : Token) :
    progress.accept token = .ok after ↔
      ∃ openers, openersAfter progress.openers token = .ok openers ∧
        progress.expectsOperand = (!token.kind.takesLeft) ∧
        progress.extended openers token = after := by
  rw [expectsOperand, ← misfit?_eq_none_iff, accept]
  cases openersAfter progress.openers token with
  | error error => simp
  | ok openers =>
      cases misfit? progress.tokens.head? token with
      | some error => simp
      | none => simp [extended]

/-- What the check has accepted is a beginning of a formula. -/
structure Follows (progress : Progress) (current : List TokenKind) : Prop where
  enclosed : Enclosed progress.openers.length progress.kinds current
  hole : progress.expectsOperand = true → Hole current
  whole : progress.expectsOperand = false → Grammatical current

theorem follows_start : Follows {} [] :=
  ⟨.outermost [], fun _ => Hole.nil, fun expects => nomatch expects⟩

namespace Follows

variable {progress : Progress} {current : List TokenKind} {token : Token}

theorem value (follows : Follows progress current)
    (missing : progress.expectsOperand = true)
    (grammatical : Grammatical [token.kind])
    (complete : token.kind.takesRight = false) :
    Follows (progress.extended progress.openers token)
      (current ++ [token.kind]) := by
  constructor
  · simpa using follows.enclosed.append [token.kind]
  · intro expects
    simp [complete] at expects
  · intro _
    exact follows.hole missing _ grammatical

theorem operator (follows : Follows progress current)
    (hole : Hole (current ++ [token.kind]))
    (incomplete : token.kind.takesRight = true) :
    Follows (progress.extended progress.openers token)
      (current ++ [token.kind]) := by
  constructor
  · simpa using follows.enclosed.append [token.kind]
  · intro _
    exact hole
  · intro expects
    simp [incomplete] at expects

theorem opener (follows : Follows progress current)
    (missing : progress.expectsOperand = true)
    (opens : token.kind = .openParen) (index : Nat) :
    Follows (progress.extended (index :: progress.openers) token) [] := by
  constructor
  · simpa [opens] using
      Enclosed.inside follows.enclosed (follows.hole missing) []
  · intro _
    exact Hole.nil
  · intro expects
    rw [expectsOperand_extended, opens] at expects
    cases expects

theorem closer (follows : Follows progress current)
    (complete : progress.expectsOperand = false)
    (closes : token.kind = .closeParen) {index : Nat} {outer : List Nat}
    (opened : progress.openers = index :: outer) :
    ∃ whole, Follows (progress.extended outer token) whole := by
  have enclosed := follows.enclosed
  rw [opened, List.length_cons] at enclosed
  obtain ⟨whole, closed, grammatical⟩ :=
    enclosed.close (follows.whole complete)
  refine ⟨whole, by simpa [closes] using closed, ?_, fun _ => grammatical⟩
  intro expects
  rw [expectsOperand_extended, closes] at expects
  cases expects

end Follows

end Progress

theorem openersAfter_opener {token : Token} (kind : token.kind = .openParen)
    (openers : List Nat) :
    openersAfter openers token = .ok (token.index :: openers) := by
  simp [openersAfter, kind, TokenKind.closesGroup, TokenKind.opensGroup]

theorem openersAfter_closer {token : Token} (kind : token.kind = .closeParen)
    (index : Nat) (outer : List Nat) :
    openersAfter (index :: outer) token = .ok outer := by
  simp [openersAfter, kind, TokenKind.closesGroup]

theorem openersAfter_other {token : Token} (notOpener : token.kind ≠ .openParen)
    (notCloser : token.kind ≠ .closeParen) (openers : List Nat) :
    openersAfter openers token = .ok openers := by
  simp [openersAfter, notOpener, notCloser, TokenKind.closesGroup,
    TokenKind.opensGroup]

namespace Progress

theorem Follows.accept {progress after : Progress} {current : List TokenKind}
    {token : Token} (follows : Follows progress current)
    (accepted : progress.accept token = .ok after) :
    ∃ next, Follows after next := by
  obtain ⟨openers, opened, fits, rfl⟩ :=
    (accept_eq_ok_iff progress after token).mp accepted
  cases kind : token.kind with
  | openParen =>
      rw [openersAfter_opener kind] at opened
      cases opened
      exact ⟨_, follows.opener (by rw [fits, kind]; rfl) kind _⟩
  | closeParen =>
      cases openStack : progress.openers with
      | nil =>
        simp [openersAfter, openStack, kind, TokenKind.closesGroup] at opened
      | cons index outer =>
          rw [openStack, openersAfter_closer kind] at opened
          cases opened
          exact follows.closer (by rw [fits, kind]; rfl) kind openStack
  | constant truth =>
      rw [openersAfter_other (by simp [kind]) (by simp [kind])] at opened
      cases opened
      exact ⟨_, follows.value (by rw [fits, kind]; rfl) (kind ▸ .constant truth)
        (by rw [kind]; rfl)⟩
  | number =>
      rw [openersAfter_other (by simp [kind]) (by simp [kind])] at opened
      cases opened
      exact ⟨_, follows.value (by rw [fits, kind]; rfl) (kind ▸ .number)
        (by rw [kind]; rfl)⟩
  | name =>
      rw [openersAfter_other (by simp [kind]) (by simp [kind])] at opened
      cases opened
      exact ⟨_, follows.value (by rw [fits, kind]; rfl) (kind ▸ .name)
        (by rw [kind]; rfl)⟩
  | unary op =>
      rw [openersAfter_other (by simp [kind]) (by simp [kind])] at opened
      cases opened
      have missing : progress.expectsOperand = true := by
        rw [fits, kind]
        rfl
      exact ⟨_, follows.operator (kind ▸ (follows.hole missing).unary op)
        (by rw [kind]; rfl)⟩
  | binary op =>
      rw [openersAfter_other (by simp [kind]) (by simp [kind])] at opened
      cases opened
      have complete : progress.expectsOperand = false := by
        rw [fits, kind]
        rfl
      exact ⟨_, follows.operator (kind ▸ (follows.whole complete).hole op)
        (by rw [kind]; rfl)⟩

theorem Follows.foldlM_accept {tokens : List Token} {progress after : Progress}
    {current : List TokenKind} (follows : Follows progress current)
    (accepted : tokens.foldlM Progress.accept progress = .ok after) :
    ∃ next, Follows after next := by
  induction tokens generalizing progress current with
  | nil =>
      cases accepted
      exact ⟨current, follows⟩
  | cons token tokens induction =>
      obtain ⟨middle, first, rest⟩ := foldlM_cons_eq_ok_iff.mp accepted
      obtain ⟨next, nextFollows⟩ := follows.accept first
      exact induction nextFollows rest

/-- The tokens that a run of the check has accepted. -/
theorem tokens_of_foldlM_accept {tokens : List Token}
    {progress after : Progress}
    (accepted : tokens.foldlM accept progress = .ok after) :
    after.tokens = tokens.reverse ++ progress.tokens := by
  induction tokens generalizing progress with
  | nil =>
      cases accepted
      rfl
  | cons token tokens induction =>
      obtain ⟨middle, first, rest⟩ := foldlM_cons_eq_ok_iff.mp accepted
      obtain ⟨openers, -, -, rfl⟩ :=
        (accept_eq_ok_iff progress middle token).mp first
      rw [induction rest]
      simp [extended]

theorem finish_eq_ok_iff (progress : Progress) (sentence : Sentence) :
    progress.finish = .ok sentence ↔
      progress.expectsOperand = false ∧ progress.openers = [] ∧
        sentence = ⟨progress.tokens.reverse, progress.names⟩ := by
  rw [finish, expectsOperand]
  cases progress.tokens with
  | nil => simp [TokenKind.expectsOperand]
  | cons last before =>
      cases right : last.kind.takesRight <;> cases progress.openers <;>
        simp [Token.takesRight, right, TokenKind.expectsOperand, eq_comm]

/-- What passes the whole check is a formula. -/
theorem grammatical_of_check {tokens : List Token} {progress : Progress}
    {sentence : Sentence} (accepted : tokens.foldlM accept {} = .ok progress)
    (finished : progress.finish = .ok sentence) :
    Grammatical (tokens.map Token.kind) := by
  obtain ⟨complete, closed, -⟩ :=
    (finish_eq_ok_iff progress sentence).mp finished
  obtain ⟨current, follows⟩ := follows_start.foldlM_accept accepted
  have enclosed := follows.enclosed
  rw [closed, kinds, tokens_of_foldlM_accept accepted] at enclosed
  have whole := follows.whole complete
  cases enclosed
  simpa using whole

theorem accept_of_fits {progress : Progress} {token : Token}
    {openers : List Nat}
    (fits : progress.expectsOperand = (!token.kind.takesLeft))
    (opened : openersAfter progress.openers token = .ok openers) :
    progress.accept token = .ok (progress.extended openers token) :=
  (accept_eq_ok_iff progress _ token).mpr ⟨openers, opened, fits, rfl⟩

theorem foldlM_accept_value {progress : Progress} {token : Token}
    (missing : progress.expectsOperand = true)
    (left : token.kind.takesLeft = false)
    (right : token.kind.takesRight = false) :
    ∃ after, [token].foldlM accept progress = .ok after ∧
      after.openers = progress.openers ∧ after.expectsOperand = false := by
  have notOpener : token.kind ≠ .openParen := by
    intro opens
    rw [opens] at right
    cases right
  have notCloser : token.kind ≠ .closeParen := by
    intro closes
    rw [closes] at left
    cases left
  have accepted := accept_of_fits (by rw [missing, left]; rfl)
    (openersAfter_other notOpener notCloser progress.openers)
  refine ⟨progress.extended progress.openers token, ?_, rfl, right⟩
  exact foldlM_cons_eq_ok_iff.mpr ⟨_, accepted, rfl⟩

/-- The check accepts a formula wherever an operand is missing, and leaves the
open groups as they were. -/
theorem foldlM_accept_of_grammatical {kinds : List TokenKind}
    (grammatical : Grammatical kinds) {tokens : List Token}
    (same : tokens.map Token.kind = kinds) {progress : Progress}
    (missing : progress.expectsOperand = true) :
    ∃ after, tokens.foldlM accept progress = .ok after ∧
      after.openers = progress.openers ∧ after.expectsOperand = false := by
  induction grammatical generalizing tokens progress with
  | constant value =>
      obtain ⟨token, rfl, kind⟩ := List.map_eq_singleton_iff.mp same
      exact foldlM_accept_value missing (by rw [kind]; rfl) (by rw [kind]; rfl)
  | number =>
      obtain ⟨token, rfl, kind⟩ := List.map_eq_singleton_iff.mp same
      exact foldlM_accept_value missing (by rw [kind]; rfl) (by rw [kind]; rfl)
  | name =>
      obtain ⟨token, rfl, kind⟩ := List.map_eq_singleton_iff.mp same
      exact foldlM_accept_value missing (by rw [kind]; rfl) (by rw [kind]; rfl)
  | unary op _ induction =>
      obtain ⟨token, operand, rfl, kind, operandSame⟩ :=
        List.map_eq_cons_iff.mp same
      have fits : progress.expectsOperand = (!token.kind.takesLeft) := by
        rw [missing, kind]
        rfl
      have accepted := accept_of_fits fits
        (openersAfter_other (by simp [kind]) (by simp [kind]) progress.openers)
      have incomplete :
          (progress.extended progress.openers token).expectsOperand = true := by
        rw [expectsOperand_extended, kind]
        rfl
      obtain ⟨after, ran, openers, complete⟩ := induction operandSame incomplete
      refine ⟨after, ?_, openers, complete⟩
      exact foldlM_cons_eq_ok_iff.mpr ⟨_, accepted, ran⟩
  | binary op _ _ leftInduction rightInduction =>
      obtain ⟨left, rest, rfl, leftSame, restSame⟩ :=
        List.map_eq_append_iff.mp same
      obtain ⟨token, right, rfl, kind, rightSame⟩ :=
        List.map_eq_cons_iff.mp restSame
      obtain ⟨middle, leftRan, leftOpeners, leftComplete⟩ :=
        leftInduction leftSame missing
      have fits : middle.expectsOperand = (!token.kind.takesLeft) := by
        rw [leftComplete, kind]
        rfl
      have accepted := accept_of_fits fits
        (openersAfter_other (by simp [kind]) (by simp [kind]) middle.openers)
      have incomplete :
          (middle.extended middle.openers token).expectsOperand = true := by
        rw [expectsOperand_extended, kind]
        rfl
      obtain ⟨after, rightRan, rightOpeners, complete⟩ :=
        rightInduction rightSame incomplete
      refine ⟨after, ?_, rightOpeners.trans leftOpeners, complete⟩
      rw [List.foldlM_append, leftRan, ok_bind, List.foldlM_cons, accepted,
        ok_bind, rightRan]
  | group _ induction =>
      obtain ⟨opener, rest, rfl, opens, restSame⟩ :=
        List.map_eq_cons_iff.mp same
      obtain ⟨inner, last, rfl, innerSame, lastSame⟩ :=
        List.map_eq_append_iff.mp restSame
      obtain ⟨closer, rfl, closes⟩ := List.map_eq_singleton_iff.mp lastSame
      have openerFits : progress.expectsOperand = (!opener.kind.takesLeft) := by
        rw [missing, opens]
        rfl
      have opened := accept_of_fits openerFits
        (openersAfter_opener opens progress.openers)
      have incomplete :
          (progress.extended (opener.index :: progress.openers)
            opener).expectsOperand = true := by
        rw [expectsOperand_extended, opens]
        rfl
      obtain ⟨middle, innerRan, innerOpeners, innerComplete⟩ :=
        induction innerSame incomplete
      have closerFits : middle.expectsOperand = (!closer.kind.takesLeft) := by
        rw [innerComplete, closes]
        rfl
      have popped :
          openersAfter middle.openers closer = .ok progress.openers := by
        rw [innerOpeners]
        exact openersAfter_closer closes opener.index progress.openers
      have closed := accept_of_fits closerFits popped
      refine ⟨middle.extended progress.openers closer, ?_, rfl, ?_⟩
      · rw [List.foldlM_cons, opened, ok_bind, List.foldlM_append, innerRan,
          ok_bind, List.foldlM_cons, closed]
        rfl
      · rw [expectsOperand_extended, closes]
        rfl

/-- The whole check accepts exactly the grammatical token lists. -/
theorem check_iff_grammatical (tokens : List Token) :
    (∃ progress sentence, tokens.foldlM accept {} = .ok progress ∧
      progress.finish = .ok sentence) ↔
      Grammatical (tokens.map Token.kind) := by
  constructor
  · rintro ⟨progress, sentence, accepted, finished⟩
    exact grammatical_of_check accepted finished
  · intro grammatical
    have start : expectsOperand {} = true := rfl
    obtain ⟨progress, accepted, openers, complete⟩ :=
      foldlM_accept_of_grammatical grammatical rfl start
    exact ⟨progress, _, accepted,
      (finish_eq_ok_iff progress _).mpr ⟨complete, openers, rfl⟩⟩

/-- Why a token may not stand behind what the check has seen. -/
inductive Refuses (progress : Progress) (token : Token) :
    ParseError → Prop where
  | unmatched :
      token.kind = .closeParen → progress.openers = [] →
      Refuses progress token (.unmatchedClosingParen token.index)
  | start {openers : List Nat} :
      openersAfter progress.openers token = .ok openers →
      progress.tokens = [] → token.kind.takesLeft = true →
      Refuses progress token (.missingOperandAtStart token.index token.text)
  | emptyGroup {last : Token} {before : List Token} :
      progress.tokens = last :: before →
      last.kind = .openParen → token.kind = .closeParen →
      Refuses progress token (.emptyParens last.index)
  | operators {last : Token} {before : List Token} :
      progress.tokens = last :: before →
      last.kind.takesRight = true → token.kind.takesLeft = true →
      Refuses progress token
        (.extraOperator last.index last.text token.index token.text)
  | operands {last : Token} {before : List Token} :
      progress.tokens = last :: before →
      last.kind.takesRight = false → token.kind.takesLeft = false →
      Refuses progress token (.missingBinaryOperator token.index token.text)

theorem refuses_of_accept {progress : Progress} {token : Token}
    {error : ParseError} (refused : progress.accept token = .error error) :
    Refuses progress token error := by
  unfold accept at refused
  cases opened : openersAfter progress.openers token with
  | error first =>
      simp only [opened] at refused
      cases refused
      unfold openersAfter at opened
      split at opened
      · rename_i closes
        cases openStack : progress.openers with
        | nil =>
            simp only [openStack] at opened
            cases opened
            exact .unmatched (by simpa [TokenKind.closesGroup] using closes)
              openStack
        | cons index outer => simp [openStack] at opened
      · split at opened <;> cases opened
  | ok openers =>
      cases seen : progress.tokens with
      | nil =>
          by_cases left : token.kind.takesLeft = true
          · simp only [opened, seen, List.head?_nil, misfit?, Token.takesLeft,
              left, if_true] at refused
            cases refused
            exact .start opened seen left
          · simp [opened, seen, misfit?, Token.takesLeft, left] at refused
      | cons last before =>
          simp only [opened, seen, List.head?_cons, misfit?] at refused
          by_cases parens :
            (last.kind.opensGroup && token.kind.closesGroup) = true
          · rw [if_pos parens] at refused
            cases refused
            have both : last.kind = .openParen ∧ token.kind = .closeParen := by
              simpa [TokenKind.opensGroup, TokenKind.closesGroup] using parens
            exact .emptyGroup seen both.1 both.2
          · rw [if_neg parens] at refused
            cases right : last.kind.takesRight <;>
              cases left : token.kind.takesLeft <;>
              simp only [Token.takesRight, Token.takesLeft, right,
                left] at refused
            · cases refused
              exact .operands seen right left
            · cases refused
            · cases refused
            · cases refused
              exact .operators seen right left

/-- What is missing behind all tokens of a source. -/
inductive Lacks (progress : Progress) : ParseError → Prop where
  | formula : progress.tokens = [] → Lacks progress .emptyExpression
  | operand {last : Token} {before : List Token} :
      progress.tokens = last :: before → last.kind.takesRight = true →
      Lacks progress (.missingOperandAtEnd last.index last.text)
  | closer {last : Token} {before : List Token} {index : Nat}
      {outer : List Nat} :
      progress.tokens = last :: before → last.kind.takesRight = false →
      progress.openers = index :: outer →
      Lacks progress (.unclosedOpeningParen index)

theorem lacks_of_finish {progress : Progress} {error : ParseError}
    (refused : progress.finish = .error error) : Lacks progress error := by
  unfold finish at refused
  cases seen : progress.tokens with
  | nil =>
      simp only [seen] at refused
      cases refused
      exact .formula seen
  | cons last before =>
      cases right : last.kind.takesRight with
      | true =>
          simp only [seen, Token.takesRight, right, if_true] at refused
          cases refused
          exact .operand seen right
      | false =>
          cases openStack : progress.openers with
          | nil => simp [seen, Token.takesRight, right, openStack] at refused
          | cons index outer =>
              simp only [seen, Token.takesRight, right, openStack] at refused
              cases refused
              exact .closer seen right openStack

/-- The check reports structural errors only. -/
theorem kind_of_foldlM_accept_error {tokens : List Token} {progress : Progress}
    {error : ParseError}
    (refused : tokens.foldlM accept progress = .error error) :
    error.kind = .structural := by
  obtain ⟨-, token, -, middle, -, -, stopped⟩ :=
    exists_of_foldlM_eq_error refused
  cases refuses_of_accept stopped <;> rfl

theorem kind_of_finish_error {progress : Progress} {error : ParseError}
    (refused : progress.finish = .error error) : error.kind = .structural := by
  cases lacks_of_finish refused <;> rfl

end Progress

end Sentence

end Formula
