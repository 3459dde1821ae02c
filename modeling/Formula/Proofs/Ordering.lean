import Formula.Proofs.Grammar
import Formula.Proofs.Span
import Formula.Token.PostOrder

/-!
# Operator stacks and trees

Running the operator stack over the tokens of an expression lists its tree in
post-order, except for the operators on the right edge of the tree, which still
wait.  They bind at least as tightly as the layer of the expression, so that any
later operator of that layer releases all of them.
-/

namespace Formula

theorem BinaryOp.precedence_level_le_iff (op other : BinaryOp) :
    op.precedence.level ≤ other.precedence.level ↔ op.layer ≤ other.layer := by
  cases op <;> cases other <;> decide

namespace Token

theorem yieldsTo_binary {waiting later : Token} {op : BinaryOp}
    (kind : later.kind = .binary op) :
    waiting.yieldsTo later =
      decide (op.precedence.level ≤ waiting.precedence.level) := by
  have left : later.associativity = .left := by
    rw [associativity, kind]
    rfl
  have binds : later.precedence = op.precedence := by
    rw [precedence, kind]
    rfl
  rw [yieldsTo, left, binds]

theorem yieldsTo_unary {waiting later : Token} {op : UnaryOp}
    (kind : later.kind = .unary op) : waiting.yieldsTo later = false := by
  have tightest : waiting.precedence.level ≤ 16 := by
    cases waiting.precedence <;> decide
  simpa [yieldsTo, associativity, kind, TokenKind.associativity, precedence,
    TokenKind.precedence, Precedence.level] using tightest

/-- A waiting operator that every operator of a layer or of a looser one
releases. -/
structure Pending (layer : Nat) (waiting : Token) : Prop where
  yields : ∀ {later : Token} {op : BinaryOp}, later.kind = .binary op →
    op.layer ≤ layer → waiting.yieldsTo later = true
  notOpener : waiting.kind.opensGroup = false

theorem pending_unary {token : Token} {op : UnaryOp}
    (kind : token.kind = .unary op) : Pending 6 token := by
  constructor
  · intro later other laterKind _
    rw [yieldsTo_binary laterKind]
    cases other <;> simp [precedence, kind, TokenKind.precedence] <;> decide
  · simp [kind, TokenKind.opensGroup]

theorem pending_binary {token : Token} {op : BinaryOp}
    (kind : token.kind = .binary op) : Pending op.layer token := by
  constructor
  · intro later other laterKind looser
    rw [yieldsTo_binary laterKind]
    simpa [precedence, kind, TokenKind.precedence] using
      (BinaryOp.precedence_level_le_iff other op).mpr looser
  · simp [kind, TokenKind.opensGroup]

theorem Pending.mono {layer tighter : Nat} {token : Token}
    (pending : Pending tighter token) (looser : layer ≤ tighter) :
    Pending layer token :=
  ⟨fun kind below => pending.yields kind (Nat.le_trans below looser),
    pending.notOpener⟩

end Token

/-- No operator of a layer or of a tighter one releases the innermost waiting
token. -/
def Sheltered (layer : Nat) (waiting : List Token) : Prop :=
  ∀ top ∈ waiting.head?, ∀ {later : Token} {op : BinaryOp},
    later.kind = .binary op → layer ≤ op.layer → top.yieldsTo later = false

namespace Sheltered

theorem nil (layer : Nat) : Sheltered layer [] := by
  intro top member
  cases member

theorem opener {token : Token} (kind : token.kind = .openParen) (layer : Nat)
    (below : List Token) : Sheltered layer (token :: below) := by
  intro top member later op laterKind _
  cases member
  rw [Token.yieldsTo_binary laterKind]
  cases op <;> simp [Token.precedence, kind, TokenKind.precedence] <;> decide

theorem unary (token : Token) (below : List Token) :
    Sheltered 6 (token :: below) := by
  intro top _ later op _ tight
  exact absurd op.layer_lt_six (Nat.not_lt.mpr tight)

theorem binary {token : Token} {op : BinaryOp} (kind : token.kind = .binary op)
    (below : List Token) : Sheltered (op.layer + 1) (token :: below) := by
  intro top member later other laterKind tighter
  cases member
  rw [Token.yieldsTo_binary laterKind]
  have loose : ¬ other.precedence.level ≤ op.precedence.level := by
    rw [BinaryOp.precedence_level_le_iff]
    exact Nat.not_le.mpr tighter
  simpa [Token.precedence, kind, TokenKind.precedence] using loose

theorem mono {layer tighter : Nat} {waiting : List Token}
    (sheltered : Sheltered layer waiting) (looser : layer ≤ tighter) :
    Sheltered tighter waiting := by
  intro top member later op kind below
  exact sheltered top member kind (Nat.le_trans looser below)

end Sheltered

/-- A binary operator releases what is pending of its layer, and no more. -/
theorem postOrderFrom_binary {token : Token} {op : BinaryOp}
    (kind : token.kind = .binary op) {pending waiting : List Token}
    (released : ∀ item ∈ pending, Token.Pending op.layer item)
    (kept : Sheltered op.layer waiting) (rest : List Token) :
    postOrderFrom (pending ++ waiting) (token :: rest) =
      pending ++ postOrderFrom (token :: waiting) rest := by
  have all : ∀ item ∈ pending, item.yieldsTo token = true := by
    intro item member
    exact (released item member).yields kind (Nat.le_refl _)
  have stops : ∀ item ∈ waiting.head?, item.yieldsTo token = false := by
    intro item member
    exact kept item member kind (Nat.le_refl _)
  rw [postOrderFrom, takeWhile_append_stop all stops,
    dropWhile_append_stop all stops]
  simp [kind, TokenKind.opensGroup, TokenKind.closesGroup, Token.takesLeft,
    TokenKind.takesLeft, TokenKind.operands, Sides.onLeft]

theorem postOrderFrom_unary {token : Token} {op : UnaryOp}
    (kind : token.kind = .unary op) (waiting rest : List Token) :
    postOrderFrom waiting (token :: rest) =
      postOrderFrom (token :: waiting) rest := by
  have stops : ∀ item ∈ waiting.head?, item.yieldsTo token = false := by
    intro item _
    exact Token.yieldsTo_unary kind
  have none : ∀ item ∈ ([] : List Token), item.yieldsTo token = true := by
    simp
  have taken := takeWhile_append_stop none stops
  have dropped := dropWhile_append_stop none stops
  rw [List.nil_append] at taken dropped
  rw [postOrderFrom, taken, dropped]
  simp [kind, TokenKind.opensGroup, TokenKind.closesGroup, Token.takesLeft,
    Token.takesRight, TokenKind.takesLeft, TokenKind.takesRight,
    TokenKind.operands, Sides.onLeft, Sides.onRight]

theorem postOrderFrom_atom {token : Token} {atom : Atom}
    (spelled : token.atom? = some atom) (waiting rest : List Token) :
    postOrderFrom waiting (token :: rest) =
      token :: postOrderFrom waiting rest := by
  rw [postOrderFrom]
  cases kind : token.kind <;>
    simp_all [Token.atom?, TokenKind.opensGroup, TokenKind.closesGroup,
      Token.takesLeft, Token.takesRight, TokenKind.takesLeft,
      TokenKind.takesRight, TokenKind.operands, Sides.onLeft, Sides.onRight]

theorem postOrderFrom_opener {token : Token} (kind : token.kind = .openParen)
    (waiting rest : List Token) :
    postOrderFrom waiting (token :: rest) =
      postOrderFrom (token :: waiting) rest := by
  rw [postOrderFrom]
  simp [kind, TokenKind.opensGroup]

/-- A closing parenthesis releases everything up to the opening one. -/
theorem postOrderFrom_closer {opener closer : Token}
    (opens : opener.kind = .openParen) (closes : closer.kind = .closeParen)
    {pending : List Token}
    (inGroup : ∀ item ∈ pending, item.kind.opensGroup = false)
    (waiting rest : List Token) :
    postOrderFrom (pending ++ opener :: waiting) (closer :: rest) =
      pending ++ postOrderFrom waiting rest := by
  have all : ∀ item ∈ pending, (!item.kind.opensGroup) = true := by
    intro item member
    simp [inGroup item member]
  have stops : ∀ item ∈ (opener :: waiting).head?,
      (!item.kind.opensGroup) = false := by
    intro item member
    cases member
    simp [opens, TokenKind.opensGroup]
  rw [postOrderFrom, takeWhile_append_stop all stops,
    dropWhile_append_stop all stops]
  simp [closes, TokenKind.opensGroup, TokenKind.closesGroup]

namespace Spells

/-- The induction is on the derivation, for any waiting operators that nothing
in the expression can release. -/
theorem postOrderFrom_append {layer : Nat} {tokens : List Token} {tree : Tree}
    (spells : Spells layer tokens tree) {waiting : List Token}
    (sheltered : Sheltered layer waiting) (rest : List Token) :
    ∃ done pending, tree.postOrder = done ++ pending ∧
      (∀ item ∈ pending, Token.Pending layer item) ∧
      postOrderFrom waiting (tokens ++ rest) =
        done ++ postOrderFrom (pending ++ waiting) rest := by
  induction spells generalizing waiting rest with
  | @atom token atom spelled =>
      refine ⟨[token], [], by simp [Tree.postOrder], by simp, ?_⟩
      simpa using postOrderFrom_atom spelled waiting rest
  | @group opener closer inner tree opens closes _ induction =>
      obtain ⟨done, pending, listed, released, ran⟩ :=
        induction (Sheltered.opener opens 0 waiting) (closer :: rest)
      refine ⟨done ++ pending, [], by simp [listed], by simp, ?_⟩
      calc
        postOrderFrom waiting ((opener :: (inner ++ [closer])) ++ rest)
            = postOrderFrom (opener :: waiting) (inner ++ closer :: rest) := by
          simpa using postOrderFrom_opener opens waiting
            (inner ++ closer :: rest)
        _ = done ++ postOrderFrom (pending ++ opener :: waiting)
          (closer :: rest) :=
          ran
        _ = (done ++ pending) ++ postOrderFrom ([] ++ waiting) rest := by
          rw [postOrderFrom_closer opens closes
            fun item member => (released item member).notOpener]
          simp
  | @unary token op operand tree spelled _ induction =>
      obtain ⟨done, pending, listed, released, ran⟩ :=
        induction (Sheltered.unary token waiting) rest
      refine ⟨done, pending ++ [token], by simp [Tree.postOrder, listed],
        ?_, ?_⟩
      · intro item member
        rcases List.mem_append.mp member with inner | last
        · exact released item inner
        · rw [List.mem_singleton.mp last]
          exact Token.pending_unary spelled
      · rw [List.cons_append, postOrderFrom_unary spelled, ran]
        simp
  | @binary token op left right leftTree rightTree spelled _ _ leftInduction
      rightInduction =>
      obtain ⟨leftDone, leftPending, leftListed, leftReleased, leftRan⟩ :=
        leftInduction sheltered (token :: (right ++ rest))
      obtain ⟨rightDone, rightPending, rightListed, rightReleased, rightRan⟩ :=
        rightInduction (Sheltered.binary spelled waiting) rest
      refine ⟨leftDone ++ leftPending ++ rightDone, rightPending ++ [token], ?_,
        ?_, ?_⟩
      · simp [Tree.postOrder, leftListed, rightListed]
      · intro item member
        rcases List.mem_append.mp member with inner | last
        · exact (rightReleased item inner).mono (Nat.le_succ _)
        · rw [List.mem_singleton.mp last]
          exact Token.pending_binary spelled
      · calc
          postOrderFrom waiting ((left ++ token :: right) ++ rest)
              = leftDone ++ postOrderFrom (leftPending ++ waiting)
                  (token :: (right ++ rest)) := by
            simpa using leftRan
          _ = leftDone ++ (leftPending ++
                postOrderFrom (token :: waiting) (right ++ rest)) := by
            rw [postOrderFrom_binary spelled leftReleased sheltered]
          _ = (leftDone ++ leftPending ++ rightDone) ++
                postOrderFrom ((rightPending ++ [token]) ++ waiting) rest := by
            rw [rightRan]
            simp
  | tighter _ induction =>
      obtain ⟨done, pending, listed, released, ran⟩ :=
        induction (sheltered.mono (Nat.le_succ _)) rest
      exact ⟨done, pending, listed,
        fun item member => (released item member).mono (Nat.le_succ _), ran⟩

/-- Ordering the tokens of an expression lists its tree. -/
theorem postOrder_eq {layer : Nat} {tokens : List Token} {tree : Tree}
    (spells : Spells layer tokens tree) :
    postOrder tokens = tree.postOrder := by
  obtain ⟨done, pending, listed, -, ran⟩ :=
    spells.postOrderFrom_append (Sheltered.nil layer) []
  rw [postOrder, listed]
  simpa [postOrderFrom] using ran

/-- The layered grammar is unambiguous. -/
theorem unique {layer otherLayer : Nat} {tokens : List Token}
    {tree other : Tree} (spells : Spells layer tokens tree)
    (otherSpells : Spells otherLayer tokens other) : tree = other := by
  apply Tree.postOrder_injective
  rw [← spells.postOrder_eq, ← otherSpells.postOrder_eq]

end Spells

end Formula
