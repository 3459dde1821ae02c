import Formula.Proofs.Building
import Formula.Proofs.Ordering

/-!
# Ordering any token list

The operator stack also runs on token lists that are no sentences, in which
parentheses need not pair up.  Whatever it is given, it keeps all values in
their order and loses nothing but parentheses; of these it leaves those over
that nothing closes.  `Shifts` says once what one token does to the stack.
-/

namespace Formula

namespace Token

def isParenthesis (token : Token) : Bool :=
  token.kind.opensGroup || token.kind.closesGroup

/-- The token is a literal or a name. -/
def isValue (token : Token) : Bool :=
  match token.kind with
  | .constant _ | .number | .name => true
  | .openParen | .closeParen | .unary _ | .binary _ => false

/-- The token is a prefix operator or a binary one. -/
def isOperator (token : Token) : Bool :=
  match token.kind with
  | .unary _ | .binary _ => true
  | .constant _ | .number | .name | .openParen | .closeParen => false

end Token

/-- Every parenthesis among the tokens has its partner there. -/
inductive Paired : List Token → Prop
  | nil : Paired []
  | other {token : Token} {rest : List Token}
    (noParenthesis : token.isParenthesis = false) (paired : Paired rest) :
    Paired (token :: rest)
  | group {opener closer : Token} {inner rest : List Token}
    (opens : opener.kind = .openParen) (closes : closer.kind = .closeParen)
    (innerPaired : Paired inner) (paired : Paired rest) :
    Paired (opener :: (inner ++ closer :: rest))

/-- One of the tokens closes a group that is opened right in front of them. -/
def ClosesGroup (tokens : List Token) : Prop :=
  ∃ inner closer back, tokens = inner ++ closer :: back ∧ Paired inner ∧
    closer.kind = .closeParen

/-- How many of the tokens close a group that none of them opens. -/
def excess : List Token → Nat
  | [] => 0
  | token :: rest =>
    match token.kind with
    | .openParen => excess rest - 1
    | .closeParen => excess rest + 1
    | _ => excess rest

theorem excess_cons_opener {token : Token} (opens : token.kind = .openParen)
    (rest : List Token) : excess (token :: rest) = excess rest - 1 := by
  rw [excess, opens]

theorem excess_cons_closer {token : Token} (closes : token.kind = .closeParen)
    (rest : List Token) : excess (token :: rest) = excess rest + 1 := by
  rw [excess, closes]

theorem excess_cons_other {token : Token} (other : token.isParenthesis = false)
    (rest : List Token) : excess (token :: rest) = excess rest := by
  cases kind : token.kind with
  | openParen | closeParen =>
      simp [Token.isParenthesis, kind, TokenKind.opensGroup,
        TokenKind.closesGroup] at other
  | _ => rw [excess, kind]

theorem Paired.excess_append {inner : List Token} (paired : Paired inner)
    (back : List Token) : excess (inner ++ back) = excess back := by
  induction paired generalizing back with
  | nil => rfl
  | other noParenthesis _ induction =>
      rw [List.cons_append, excess_cons_other noParenthesis, induction]
  | @group opener closer inner rest opens closes _ _ innerInduction induction =>
      rw [List.cons_append, List.append_assoc, excess_cons_opener opens,
        innerInduction, List.cons_append, excess_cons_closer closes, induction,
        Nat.add_sub_cancel]

/-- The first of the tokens that close too much stands behind groups that are
complete. -/
theorem exists_closer_of_excess {count : Nat} :
    ∀ {tokens : List Token}, excess tokens = count + 1 →
      ∃ inner closer back, tokens = inner ++ closer :: back ∧ Paired inner ∧
        closer.kind = .closeParen ∧ excess back = count
  | [], surplus => nomatch surplus
  | token :: rest, surplus => by
      by_cases opens : token.kind = .openParen
      · -- the token opens a group that `closer` ends; the next one is too many
        rw [excess_cons_opener opens] at surplus
        have twice : excess rest = count + 1 + 1 := by omega
        obtain ⟨inner, closer, back, rfl, innerPaired, closes, left⟩ :=
          exists_closer_of_excess twice
        obtain ⟨between, second, behind, rfl, paired, secondCloses, counted⟩ :=
          exists_closer_of_excess left
        refine ⟨token :: (inner ++ closer :: between), second, behind, by simp,
          .group opens closes innerPaired paired, secondCloses, counted⟩
      · by_cases closes : token.kind = .closeParen
        · rw [excess_cons_closer closes] at surplus
          exact ⟨[], token, rest, rfl, .nil, closes, Nat.succ.inj surplus⟩
        · have other : token.isParenthesis = false := by
            simp [Token.isParenthesis, TokenKind.opensGroup,
              TokenKind.closesGroup, opens, closes]
          rw [excess_cons_other other] at surplus
          obtain ⟨inner, closer, back, rfl, paired, closerCloses, counted⟩ :=
            exists_closer_of_excess surplus
          exact ⟨token :: inner, closer, back, rfl, .other other paired,
            closerCloses, counted⟩
termination_by tokens => tokens.length

theorem closesGroup_iff (tokens : List Token) :
    ClosesGroup tokens ↔ 0 < excess tokens := by
  constructor
  · rintro ⟨inner, closer, back, rfl, paired, closes⟩
    rw [paired.excess_append, excess_cons_closer closes]
    exact Nat.succ_pos _
  · intro surplus
    obtain ⟨inner, closer, back, whole, paired, closes, -⟩ :=
      exists_closer_of_excess (Nat.succ_pred_eq_of_pos surplus).symm
    exact ⟨inner, closer, back, whole, paired, closes⟩

instance : DecidablePred ClosesGroup := fun tokens =>
  decidable_of_iff _ (closesGroup_iff tokens).symm

/-- The opening parentheses that nothing behind them closes, in their order. -/
def unclosed : List Token → List Token
  | [] => []
  | token :: rest =>
    if token.kind = .openParen ∧ ¬ClosesGroup rest then token :: unclosed rest
    else unclosed rest

theorem unclosed_cons_opener {token : Token} (opens : token.kind = .openParen)
    (rest : List Token) :
    unclosed (token :: rest) =
      if excess rest = 0 then token :: unclosed rest else unclosed rest := by
  simp only [unclosed, opens, closesGroup_iff, true_and, Nat.not_lt,
    Nat.le_zero_eq]

theorem unclosed_cons_other {token : Token} (other : token.kind ≠ .openParen)
    (rest : List Token) : unclosed (token :: rest) = unclosed rest := by
  simp [unclosed, other]

/-- One of the tokens opens a group that nothing behind it closes. -/
def LeavesOpen (tokens : List Token) : Prop :=
  ∃ front opener back, tokens = front ++ opener :: back ∧
    opener.kind = .openParen ∧ ¬ClosesGroup back

theorem mem_unclosed_iff {tokens : List Token} {opener : Token} :
    opener ∈ unclosed tokens ↔
      ∃ front back, tokens = front ++ opener :: back ∧
        opener.kind = .openParen ∧ ¬ClosesGroup back := by
  induction tokens with
  | nil => simp [unclosed]
  | cons token rest induction =>
      constructor
      · intro member
        unfold unclosed at member
        split_ifs at member with lone
        · rcases List.mem_cons.mp member with rfl | later
          · exact ⟨[], rest, rfl, lone⟩
          · obtain ⟨front, back, rfl, alone⟩ := induction.mp later
            exact ⟨token :: front, back, rfl, alone⟩
        · obtain ⟨front, back, rfl, alone⟩ := induction.mp member
          exact ⟨token :: front, back, rfl, alone⟩
      · rintro ⟨front, back, whole, alone⟩
        unfold unclosed
        rcases List.cons_eq_append_iff.mp whole with
          ⟨rfl, same⟩ | ⟨behind, rfl, same⟩
        · cases same
          rw [if_pos alone]
          exact List.mem_cons_self
        · have later := induction.mpr ⟨behind, back, same, alone⟩
          split_ifs
          · exact List.mem_cons_of_mem _ later
          · exact later

/-! ## One token on the stack -/

namespace Token

/-- What a token does to the operators and open parentheses that wait: the ones
that it releases, and the ones that wait behind it.  A value is released at
once. -/
inductive Shifts (token : Token) : (waiting released after : List Token) → Prop
  | opener {waiting : List Token} (opens : token.kind = .openParen) :
    Shifts token waiting [] (token :: waiting)
  | closer {released below : List Token} {opener : Token}
    (closes : token.kind = .closeParen)
    (inGroup : ∀ other ∈ released, other.kind.opensGroup = false)
    (opens : opener.kind = .openParen) :
    Shifts token (released ++ opener :: below) released below
  | unmatched {waiting : List Token} (closes : token.kind = .closeParen)
    (noneOpen : ∀ other ∈ waiting, other.kind.opensGroup = false) :
    Shifts token waiting waiting []
  | value {waiting : List Token} (value : token.isValue = true) :
    Shifts token waiting [token] waiting
  | operator {released below : List Token} (operator : token.isOperator = true)
    (inGroup : ∀ other ∈ released, other.kind.opensGroup = false) :
    Shifts token (released ++ below) released (token :: below)

theorem yieldsTo_of_opener {waiting later : Token}
    (opens : waiting.kind = .openParen) (operator : later.isOperator = true) :
    waiting.yieldsTo later = false := by
  cases kind : later.kind with
  | unary op => exact yieldsTo_unary kind
  | binary op =>
    exact Sheltered.opener opens 0 [] waiting rfl kind (Nat.zero_le _)
  | _ => simp [isOperator, kind] at operator

theorem postOrderFrom_value {token : Token} (value : token.isValue = true)
    (waiting rest : List Token) :
    postOrderFrom waiting (token :: rest) =
      token :: postOrderFrom waiting rest := by
  cases kind : token.kind with
  | constant | number | name =>
      simp [postOrderFrom, kind, TokenKind.opensGroup, TokenKind.closesGroup,
        takesLeft, takesRight, TokenKind.takesLeft, TokenKind.takesRight,
        TokenKind.operands, Sides.onLeft, Sides.onRight]
  | _ => simp [isValue, kind] at value

theorem postOrderFrom_operator {token : Token}
    (operator : token.isOperator = true) (waiting rest : List Token) :
    postOrderFrom waiting (token :: rest) =
      waiting.takeWhile (·.yieldsTo token) ++
        postOrderFrom (token :: waiting.dropWhile (·.yieldsTo token)) rest := by
  cases kind : token.kind with
  | unary | binary =>
      simp [postOrderFrom, kind, TokenKind.opensGroup, TokenKind.closesGroup,
        takesLeft, takesRight, TokenKind.takesLeft, TokenKind.takesRight,
        TokenKind.operands, Sides.onLeft, Sides.onRight]
  | _ => simp [isOperator, kind] at operator

/-- With no group open, a closing parenthesis releases everything. -/
theorem postOrderFrom_unmatched {token : Token}
    (closes : token.kind = .closeParen)
    {waiting : List Token}
    (noneOpen : ∀ other ∈ waiting, other.kind.opensGroup = false)
    (rest : List Token) :
    postOrderFrom waiting (token :: rest) =
      waiting ++ postOrderFrom [] rest := by
  have all : ∀ other ∈ waiting, (!other.kind.opensGroup) = true := by
    intro other member
    simp [noneOpen other member]
  rw [postOrderFrom, List.takeWhile_eq_self_iff.mpr all,
    List.dropWhile_eq_nil_iff.mpr all]
  simp [closes, TokenKind.opensGroup, TokenKind.closesGroup]

theorem shifts_of_closer {token : Token} (closes : token.kind = .closeParen)
    (waiting : List Token) :
    ∃ released after, token.Shifts waiting released after ∧
      ∀ rest, postOrderFrom waiting (token :: rest) =
        released ++ postOrderFrom after rest := by
  cases innermost : waiting.find? (·.kind.opensGroup) with
  | none =>
      have noneOpen : ∀ other ∈ waiting, other.kind.opensGroup = false := by
        simpa using List.find?_eq_none.mp innermost
      exact ⟨waiting, [], .unmatched closes noneOpen,
        postOrderFrom_unmatched closes noneOpen⟩
  | some opener =>
      obtain ⟨found, released, below, rfl, notOpeners⟩ :=
        List.find?_eq_some_iff_append.mp innermost
      have opens : opener.kind = .openParen := by
        simpa [TokenKind.opensGroup] using found
      have inGroup : ∀ other ∈ released, other.kind.opensGroup = false := by
        simpa using notOpeners
      exact ⟨released, below, .closer closes inGroup opens,
        postOrderFrom_closer opens closes inGroup below⟩

theorem shifts_of_operator {token : Token} (operator : token.isOperator = true)
    (waiting : List Token) :
    ∃ released after, token.Shifts waiting released after ∧
      ∀ rest, postOrderFrom waiting (token :: rest) =
        released ++ postOrderFrom after rest := by
  have inGroup : ∀ other ∈ waiting.takeWhile (·.yieldsTo token),
      other.kind.opensGroup = false := by
    intro other member
    have yields := List.mem_takeWhile_imp member
    by_contra opens
    have kind : other.kind = .openParen := by
      simpa [TokenKind.opensGroup] using opens
    simp [yieldsTo_of_opener kind operator] at yields
  have shifts : token.Shifts
      (waiting.takeWhile (·.yieldsTo token) ++
        waiting.dropWhile (·.yieldsTo token))
      _ _ := .operator operator inGroup
  rw [List.takeWhile_append_dropWhile] at shifts
  exact ⟨_, _, shifts, postOrderFrom_operator operator waiting⟩

theorem exists_shifts (token : Token) (waiting : List Token) :
    ∃ released after, token.Shifts waiting released after ∧
      ∀ rest, postOrderFrom waiting (token :: rest) =
        released ++ postOrderFrom after rest := by
  cases kind : token.kind with
  | openParen =>
      exact ⟨[], token :: waiting, .opener kind,
        postOrderFrom_opener kind waiting⟩
  | closeParen => exact shifts_of_closer kind waiting
  | unary op | binary op =>
    exact shifts_of_operator (by simp [isOperator, kind]) waiting
  | constant | number | name =>
      have value : token.isValue = true := by simp [isValue, kind]
      exact ⟨[token], waiting, .value value, postOrderFrom_value value waiting⟩

/-- What can wait on the stack: an operator or an opening parenthesis. -/
structure Waits (token : Token) : Prop where
  noValue : token.isValue = false
  notCloser : token.kind ≠ .closeParen

theorem waits_of_opener {token : Token} (opens : token.kind = .openParen) :
    token.Waits :=
  ⟨by simp [isValue, opens], by simp [opens]⟩

theorem waits_of_operator {token : Token} (operator : token.isOperator = true) :
    token.Waits := by
  constructor <;> cases kind : token.kind <;>
    simp_all [isOperator, isValue]

theorem isParenthesis_of_opener {token : Token}
    (opens : token.kind = .openParen) :
    token.isParenthesis = true := by
  simp [isParenthesis, opens, TokenKind.opensGroup]

theorem isParenthesis_of_closer {token : Token}
    (closes : token.kind = .closeParen) :
    token.isParenthesis = true := by
  simp [isParenthesis, closes, TokenKind.closesGroup]

theorem isParenthesis_eq_false {token : Token}
    (other : token.isValue = true ∨ token.isOperator = true) :
    token.isParenthesis = false := by
  cases kind : token.kind with
  | openParen | closeParen => simp [isValue, isOperator, kind] at other
  | _ =>
      simp [isParenthesis, kind, TokenKind.opensGroup, TokenKind.closesGroup]

theorem kind_ne_openParen {token : Token}
    (other : token.isParenthesis = false) :
    token.kind ≠ .openParen := by
  intro opens
  simp [isParenthesis_of_opener opens] at other

namespace Shifts

variable {token : Token} {waiting released after : List Token}

/-- Nothing but parentheses gets lost, and nothing is added. -/
theorem perm (shifts : token.Shifts waiting released after) :
    ((released ++ after).filter (!·.isParenthesis)).Perm
      ((waiting ++ [token]).filter (!·.isParenthesis)) := by
  cases shifts with
  | opener opens => simp [isParenthesis_of_opener opens]
  | @closer _ below opener closes _ opens =>
      simp [isParenthesis_of_opener opens, isParenthesis_of_closer closes]
  | unmatched closes => simp [isParenthesis_of_closer closes]
  | value => exact (List.perm_append_singleton token waiting).symm.filter _
  | @operator _ below =>
      have moved :
          (released ++ token :: below).Perm (released ++ below ++ [token]) :=
        List.perm_middle.trans (List.perm_append_singleton _ _).symm
      exact moved.filter _

theorem waits (shifts : token.Shifts waiting released after)
    (waits : ∀ other ∈ waiting, other.Waits) :
    ∀ other ∈ after, other.Waits := by
  intro other member
  cases shifts with
  | opener opens =>
      rcases List.mem_cons.mp member with rfl | below
      · exact waits_of_opener opens
      · exact waits other below
  | closer => exact waits other (by simp [member])
  | unmatched => cases member
  | value => exact waits other member
  | operator isOperator =>
      rcases List.mem_cons.mp member with rfl | below
      · exact waits_of_operator isOperator
      · exact waits other (List.mem_append_right _ below)

/-- Apart from a value, what is released has waited. -/
theorem released_cases (shifts : token.Shifts waiting released after) :
    (token.isValue = true ∧ released = [token]) ∨
      (token.isValue = false ∧ ∀ other ∈ released, other ∈ waiting) := by
  cases shifts with
  | opener opens => exact .inr ⟨(waits_of_opener opens).noValue, by simp⟩
  | closer closes =>
      exact .inr ⟨by simp [isValue, closes], fun _ => List.mem_append_left _⟩
  | unmatched closes => exact .inr ⟨by simp [isValue, closes], fun _ => id⟩
  | value isValue => exact .inl ⟨isValue, rfl⟩
  | operator isOperator =>
      exact .inr ⟨(waits_of_operator isOperator).noValue,
        fun _ => List.mem_append_left _⟩

/-- A value is released at once, and no other token releases one. -/
theorem values (shifts : token.Shifts waiting released after)
    (waits : ∀ other ∈ waiting, other.Waits) :
    released.filter isValue = [token].filter isValue := by
  rcases shifts.released_cases with ⟨-, rfl⟩ | ⟨noValue, waited⟩
  · rfl
  · have none : ∀ other ∈ released, ¬other.isValue = true := by
      intro other member
      simp [(waits other (waited other member)).noValue]
    rw [List.filter_eq_nil_iff.mpr none]
    simp [noValue]

theorem notCloser (shifts : token.Shifts waiting released after)
    (waits : ∀ other ∈ waiting, other.Waits) :
    ∀ other ∈ released, other.kind ≠ .closeParen := by
  rcases shifts.released_cases with ⟨value, rfl⟩ | ⟨-, waited⟩
  · intro other member closes
    obtain rfl := List.mem_singleton.mp member
    simp [isValue, closes] at value
  · intro other member
    exact (waits other (waited other member)).notCloser

theorem notOpener (shifts : token.Shifts waiting released after) :
    released.filter (·.kind.opensGroup) = [] := by
  apply List.filter_eq_nil_iff.mpr
  cases shifts with
  | opener => exact List.forall_mem_nil _
  | closer _ inGroup | unmatched _ inGroup | operator _ inGroup =>
    simpa using inGroup
  | value value =>
      intro other member opens
      obtain rfl := List.mem_singleton.mp member
      have kind : other.kind = .openParen := by
        simpa [TokenKind.opensGroup] using opens
      simp [isValue, kind] at value

/-- The groups that stay open in the end, whether the token has been read or
not.  Closing parentheses behind it end the groups that are open before it. -/
theorem openers (shifts : token.Shifts waiting released after)
    (rest : List Token) :
    (unclosed rest).reverse ++
        (after.filter (·.kind.opensGroup)).drop (excess rest) =
      (unclosed (token :: rest)).reverse ++
        (waiting.filter (·.kind.opensGroup)).drop (excess (token :: rest)) := by
  have released_eq := shifts.notOpener
  cases shifts with
  | opener opens =>
      have first : token.kind.opensGroup = true := by
        simp [opens, TokenKind.opensGroup]
      rw [unclosed_cons_opener opens, excess_cons_opener opens]
      simp only [List.filter_cons, first]
      cases excess rest <;> simp
  | @closer _ below opener closes _ opens =>
      have first : opener.kind.opensGroup = true := by
        simp [opens, TokenKind.opensGroup]
      rw [unclosed_cons_other (by simp [closes]), excess_cons_closer closes,
        List.filter_append, released_eq]
      simp [first]
  | unmatched closes =>
      rw [unclosed_cons_other (by simp [closes]), released_eq]
      simp
  | value value =>
      have other := isParenthesis_eq_false (.inl value)
      rw [unclosed_cons_other (kind_ne_openParen other),
        excess_cons_other other]
  | operator operator =>
      have other := isParenthesis_eq_false (.inr operator)
      have notFirst : token.kind.opensGroup = false := by
        simp [TokenKind.opensGroup, kind_ne_openParen other]
      rw [unclosed_cons_other (kind_ne_openParen other),
        excess_cons_other other, List.filter_append, released_eq]
      simp [notFirst]

end Shifts

end Token

/-! ## Runs of the stack -/

variable {waiting : List Token}

theorem postOrderFrom_perm (waiting tokens : List Token) :
    ((postOrderFrom waiting tokens).filter (!·.isParenthesis)).Perm
      ((waiting ++ tokens).filter (!·.isParenthesis)) := by
  induction tokens generalizing waiting with
  | nil => simp [postOrderFrom]
  | cons token rest induction =>
      obtain ⟨released, after, shifts, ran⟩ := token.exists_shifts waiting
      rw [ran]
      calc
        ((released ++ postOrderFrom after rest).filter (!·.isParenthesis)).Perm
            ((released ++ (after ++ rest)).filter (!·.isParenthesis)) := by
          rw [List.filter_append, List.filter_append]
          exact (induction after).append_left _
        _ = (released ++ after).filter (!·.isParenthesis) ++
              rest.filter (!·.isParenthesis) := by
          rw [← List.append_assoc, List.filter_append]
        List.Perm _ ((waiting ++ [token]).filter (!·.isParenthesis) ++
              rest.filter (!·.isParenthesis)) :=
          shifts.perm.append_right _
        _ = (waiting ++ token :: rest).filter (!·.isParenthesis) := by
          rw [← List.filter_append, List.append_assoc]
          rfl

theorem filter_isValue_postOrderFrom (waits : ∀ token ∈ waiting, token.Waits)
    (tokens : List Token) :
    (postOrderFrom waiting tokens).filter Token.isValue =
      tokens.filter Token.isValue := by
  induction tokens generalizing waiting with
  | nil =>
      apply List.filter_eq_nil_iff.mpr
      intro token member
      simp [(waits token member).noValue]
  | cons token rest induction =>
      obtain ⟨released, after, shifts, ran⟩ := token.exists_shifts waiting
      rw [ran, List.filter_append, shifts.values waits,
        induction (shifts.waits waits), ← List.filter_append]
      rfl

theorem notCloser_postOrderFrom (waits : ∀ token ∈ waiting, token.Waits)
    (tokens : List Token) :
    ∀ token ∈ postOrderFrom waiting tokens, token.kind ≠ .closeParen := by
  induction tokens generalizing waiting with
  | nil => exact fun token member => (waits token member).notCloser
  | cons token rest induction =>
      obtain ⟨released, after, shifts, ran⟩ := token.exists_shifts waiting
      rw [ran, List.forall_mem_append]
      exact ⟨shifts.notCloser waits, induction (shifts.waits waits)⟩

/-- What is open in the end are the groups that the tokens open and do not
close, and the ones open before that the tokens do not close either. -/
theorem filter_opensGroup_postOrderFrom (waiting tokens : List Token) :
    (postOrderFrom waiting tokens).filter (·.kind.opensGroup) =
      (unclosed tokens).reverse ++
        (waiting.filter (·.kind.opensGroup)).drop (excess tokens) := by
  induction tokens generalizing waiting with
  | nil => rfl
  | cons token rest induction =>
      obtain ⟨released, after, shifts, ran⟩ := token.exists_shifts waiting
      rw [ran, List.filter_append, shifts.notOpener, List.nil_append,
        induction after, shifts.openers rest]

theorem notCloser_postOrder (tokens : List Token) :
    ∀ token ∈ postOrder tokens, token.kind ≠ .closeParen :=
  notCloser_postOrderFrom (List.forall_mem_nil _) tokens

theorem filter_opensGroup_postOrder (tokens : List Token) :
    (postOrder tokens).filter (·.kind.opensGroup) =
      (unclosed tokens).reverse := by
  rw [postOrder, filter_opensGroup_postOrderFrom]
  simp

/-- A parenthesis that stays is an opening one that nothing closes. -/
theorem exists_parenthesis_postOrder_iff (tokens : List Token) :
    (∃ token ∈ postOrder tokens, token.isParenthesis = true) ↔
      LeavesOpen tokens := by
  have mem_iff : ∀ token, token ∈ unclosed tokens ↔
      token ∈ postOrder tokens ∧ token.kind.opensGroup = true := by
    intro token
    rw [← List.mem_reverse, ← filter_opensGroup_postOrder, List.mem_filter]
  constructor
  · rintro ⟨token, member, parenthesis⟩
    have notCloser := notCloser_postOrder tokens token member
    have opens : token.kind.opensGroup = true := by
      simpa [Token.isParenthesis, TokenKind.closesGroup, notCloser] using
        parenthesis
    obtain ⟨front, back, isOpen⟩ :=
      mem_unclosed_iff.mp ((mem_iff token).mpr ⟨member, opens⟩)
    exact ⟨front, token, back, isOpen⟩
  · rintro ⟨front, opener, back, isOpen⟩
    obtain ⟨member, opens⟩ :=
      (mem_iff opener).mp (mem_unclosed_iff.mpr ⟨front, back, isOpen⟩)
    exact ⟨opener, member, Token.isParenthesis_of_opener isOpen.2.1⟩

theorem ofPostOrder_of_parenthesis {tokens : List Token} {token : Token}
    (member : token ∈ tokens) (parenthesis : token.isParenthesis = true)
    (result : ValueType) :
    ∃ fault, Program.ofPostOrder tokens result = .error (.internal fault) := by
  rcases Program.ofPostOrder_cases tokens result with
    ⟨tree, buildable, -, -⟩ | ⟨-, failed⟩
  · obtain ⟨notOpener, notCloser, -⟩ := buildable.usable token member
    simp [Token.isParenthesis, TokenKind.opensGroup, TokenKind.closesGroup,
      notOpener, notCloser] at parenthesis
  · exact failed

/-- Whatever tokens are ordered, those that are no parentheses are kept, each as
often as it is there, and the values among them in their order.  Closing
parentheses go, and of the opening ones just those stay that nothing closes, the
last one first.  If there is one, no program is built, and the error is an
internal one. -/
theorem postOrder_conserves (tokens : List Token) :
    ((postOrder tokens).filter (!·.isParenthesis)).Perm
      (tokens.filter (!·.isParenthesis)) ∧
    (postOrder tokens).filter Token.isValue = tokens.filter Token.isValue ∧
    (∀ token ∈ postOrder tokens, token.kind ≠ .closeParen) ∧
    (postOrder tokens).filter (·.kind.opensGroup) = (unclosed tokens).reverse ∧
    ((∃ token ∈ postOrder tokens, token.isParenthesis = true) ↔
      LeavesOpen tokens) ∧
    (LeavesOpen tokens → ∀ result, ∃ fault,
      Program.ofPostOrder (postOrder tokens) result =
        .error (.internal fault)) := by
  refine ⟨postOrderFrom_perm [] tokens,
    filter_isValue_postOrderFrom (List.forall_mem_nil _) tokens,
    notCloser_postOrder tokens, filter_opensGroup_postOrder tokens,
    exists_parenthesis_postOrder_iff tokens, ?_⟩
  intro leavesOpen result
  obtain ⟨token, member, parenthesis⟩ :=
    (exists_parenthesis_postOrder_iff tokens).mpr leavesOpen
  exact ofPostOrder_of_parenthesis member parenthesis result

/-- In `) a - ( b * ( c )` the first of the opening parentheses stays. -/
theorem postOrder_conserves_malformed :
    let tokens : List Token :=
      [⟨.closeParen, 0, ")", none⟩, ⟨.name, 2, "a", none⟩,
        ⟨.binary .subtract, 4, "-", none⟩, ⟨.openParen, 6, "(", none⟩,
        ⟨.name, 8, "b", none⟩, ⟨.binary .multiply, 10, "*", none⟩,
        ⟨.openParen, 12, "(", none⟩, ⟨.name, 14, "c", none⟩,
        ⟨.closeParen, 16, ")", none⟩]
    LeavesOpen tokens ∧
      (postOrder tokens).map Token.text = ["a", "b", "c", "*", "(", "-"] ∧
      ∃ fault, Program.ofPostOrder (postOrder tokens) .integer =
        .error (.internal fault) := by
  intro tokens
  have leavesOpen : LeavesOpen tokens := by
    refine ⟨tokens.take 3, ⟨.openParen, 6, "(", none⟩, tokens.drop 4, rfl,
      rfl, ?_⟩
    decide
  obtain ⟨-, -, -, -, -, fails⟩ := postOrder_conserves tokens
  exact ⟨leavesOpen, rfl, fails leavesOpen .integer⟩

end Formula
