import Formula.Proofs.Compilation

/-!
# How operators nest

The layers of the grammar do not appear in what a reader of a formula goes by:
parentheses, how tightly an operator binds compared with the ones next to it,
and that a prefix operator takes as little as it can.  `Bracketing.Nested` says
just that of an expression with its parentheses.  A token list can be read so in
one way only, which is the tree of the layered grammar.
-/

namespace Formula

/-- An expression as it is written, with the parentheses in it. -/
inductive Bracketing where
  | leaf (token : Token) (atom : Atom) (spelled : token.atom? = some atom)
  | unary (token : Token) (op : UnaryOp) (spelled : token.kind = .unary op)
    (operand : Bracketing)
  | binary (token : Token) (op : BinaryOp) (spelled : token.kind = .binary op)
    (left right : Bracketing)
  | group (opener closer : Token) (opens : opener.kind = .openParen)
    (closes : closer.kind = .closeParen) (inner : Bracketing)

/-- The kinds are those of an operand, and no shorter front of them is one. -/
structure ShortestOperand (kinds : List TokenKind) : Prop where
  grammatical : Grammatical kinds
  shortest : ∀ front, front <+: kinds → Grammatical front → front = kinds

namespace Bracketing

/-- The tokens in the order in which they are written. -/
def tokens : Bracketing → List Token
  | .leaf token _ _ => [token]
  | .unary token _ _ operand => token :: operand.tokens
  | .binary token _ _ left right => left.tokens ++ token :: right.tokens
  | .group opener closer _ _ inner => opener :: (inner.tokens ++ [closer])

def kinds (written : Bracketing) : List TokenKind :=
  written.tokens.map Token.kind

/-- The tree that is left without the parentheses. -/
def tree : Bracketing → Tree
  | .leaf token atom spelled => .leaf token atom spelled
  | .unary token op spelled operand => .unary token op spelled operand.tree
  | .binary token op spelled left right =>
    .binary token op spelled left.tree right.tree
  | .group _ _ _ _ inner => inner.tree

/-- The operator at the top, unless it stands in parentheses. -/
def top? : Bracketing → Option Token
  | .unary token _ _ _ | .binary token _ _ _ _ => some token
  | .leaf _ _ _ | .group _ _ _ _ _ => none

/-- No operand without parentheses has a looser operator at its top than the
binary operator on its right, one on the right of a binary operator has a
tighter one, and a prefix operator has the shortest operand that stands behind
it. -/
def Nested : Bracketing → Prop
  | .leaf _ _ _ => True
  | .unary _ _ _ operand => ShortestOperand operand.kinds ∧ operand.Nested
  | .binary token _ _ left right =>
    (∀ top ∈ left.top?, token.precedence.level ≤ top.precedence.level) ∧
      (∀ top ∈ right.top?, token.precedence.level < top.precedence.level) ∧
      left.Nested ∧ right.Nested
  | .group _ _ _ _ inner => inner.Nested

/-- The layer of the grammar to which the expression belongs. -/
def layer : Bracketing → Nat
  | .leaf _ _ _ | .group _ _ _ _ _ => 7
  | .unary _ _ _ _ => 6
  | .binary _ op _ _ _ => op.layer

theorem kinds_unary {token : Token} {op : UnaryOp}
    (spelled : token.kind = .unary op) (operand : Bracketing) :
    (unary token op spelled operand).kinds = .unary op :: operand.kinds := by
  simp [kinds, tokens, spelled]

theorem kinds_binary {token : Token} {op : BinaryOp}
    (spelled : token.kind = .binary op) (left right : Bracketing) :
    (binary token op spelled left right).kinds =
      left.kinds ++ .binary op :: right.kinds := by
  simp [kinds, tokens, spelled]

theorem kinds_group {opener closer : Token} (opens : opener.kind = .openParen)
    (closes : closer.kind = .closeParen) (inner : Bracketing) :
    (group opener closer opens closes inner).kinds =
      .openParen :: (inner.kinds ++ [.closeParen]) := by
  simp [kinds, tokens, opens, closes]

theorem grammatical (written : Bracketing) : Grammatical written.kinds := by
  induction written with
  | leaf token atom spelled => exact Token.grammatical_atom spelled
  | unary token op spelled operand induction =>
      rw [kinds_unary]
      exact .unary op induction
  | binary token op spelled left right leftInduction rightInduction =>
      rw [kinds_binary]
      exact .binary op leftInduction rightInduction
  | group opener closer opens closes inner induction =>
      rw [kinds_group]
      exact .group induction

end Bracketing

namespace Token

variable {token : Token}

theorem precedence_level_binary {op : BinaryOp}
    (spelled : token.kind = .binary op) :
    token.precedence.level = op.precedence.level := by
  rw [precedence, spelled, TokenKind.precedence]

theorem precedence_level_unary {op : UnaryOp}
    (spelled : token.kind = .unary op) : token.precedence.level = 16 := by
  rw [precedence, spelled, TokenKind.precedence, Precedence.level]

end Token

theorem BinaryOp.precedence_level_lt (op : BinaryOp) :
    op.precedence.level < 16 := by
  cases op <;> decide

namespace Bracketing

variable {token : Token} {op : BinaryOp} {written : Bracketing}

/-- The operator at the top compares with another one as their layers do. -/
theorem layer_iff (spelled : token.kind = .binary op) :
    (op.layer ≤ written.layer ↔
      ∀ top ∈ written.top?, token.precedence.level ≤ top.precedence.level) ∧
    (op.layer < written.layer ↔
      ∀ top ∈ written.top?, token.precedence.level < top.precedence.level) := by
  have outer := op.layer_lt_six
  have loose := op.precedence_level_lt
  rw [Token.precedence_level_binary spelled]
  cases written with
  | leaf | group =>
      simp only [layer, top?, Option.mem_def, reduceCtorEq, false_implies,
        implies_true, iff_true]
      omega
  | unary top other otherSpelled operand =>
      simp only [layer, top?, Option.mem_some_iff, forall_eq',
        Token.precedence_level_unary otherSpelled]
      omega
  | binary top other otherSpelled left right =>
      simp only [layer, top?, Option.mem_some_iff, forall_eq',
        Token.precedence_level_binary otherSpelled, ← Nat.not_le, ← Int.not_le,
        BinaryOp.precedence_level_le_iff, true_and]

/-- An operand that ends as early as it can is not joined by a binary operator,
since the left side of one would be a shorter operand. -/
theorem tight_of_shortest (shortest : ShortestOperand written.kinds) :
    6 ≤ written.layer := by
  cases written with
  | leaf | group => exact Nat.le_succ 6
  | unary => exact Nat.le_refl 6
  | binary token op spelled left right =>
      rw [kinds_binary] at shortest
      have same := shortest.shortest left.kinds (List.prefix_append _ _)
        left.grammatical
      simp at same

theorem Nested.spells (nested : written.Nested) :
    Spells written.layer written.tokens written.tree := by
  induction written with
  | leaf token atom spelled => exact .atom spelled
  | group opener closer opens closes inner induction =>
      exact .group opens closes ((induction nested).loosen (Nat.zero_le _))
  | unary token op spelled operand induction =>
      obtain ⟨shortest, operandNested⟩ := nested
      have tight := tight_of_shortest shortest
      exact .unary spelled ((induction operandNested).loosen tight)
  | binary token op spelled left right leftInduction rightInduction =>
      obtain ⟨notLooser, tighter, leftNested, rightNested⟩ := nested
      have leftLayer := (layer_iff spelled).1.mpr notLooser
      have rightLayer := (layer_iff spelled).2.mpr tighter
      exact .binary spelled ((leftInduction leftNested).loosen leftLayer)
        ((rightInduction rightNested).loosen rightLayer)

end Bracketing

/-! ## Shortest operands -/

namespace Grammatical

variable {kinds rest front inner : List TokenKind}

theorem ne_nil (grammatical : Grammatical kinds) : kinds ≠ [] := by
  cases grammatical <;> simp

theorem exists_operand {op : UnaryOp}
    (grammatical : Grammatical (.unary op :: rest)) :
    ∃ operand, operand <+: rest ∧ Grammatical operand := by
  generalize whole : TokenKind.unary op :: rest = kinds at grammatical
  induction grammatical generalizing rest with
  | constant | number | name | group => cases whole
  | unary other operandGrammatical _ =>
      cases whole
      exact ⟨_, List.prefix_rfl, operandGrammatical⟩
  | @binary other left right leftGrammatical _ leftInduction _ =>
      cases left with
      | nil => cases leftGrammatical.ne_nil rfl
      | cons first left =>
          cases whole
          obtain ⟨operand, inFront, operandGrammatical⟩ := leftInduction rfl
          exact ⟨operand, inFront.trans (List.prefix_append _ _),
            operandGrammatical⟩

theorem count_closeParen (grammatical : Grammatical kinds) :
    kinds.count .closeParen = kinds.count .openParen := by
  induction grammatical with
  | constant | number | name => rfl
  | unary op _ induction => simpa using induction
  | binary op _ _ leftInduction rightInduction =>
      simp [leftInduction, rightInduction]
  | group _ induction => simp [induction]

theorem count_closeParen_le (grammatical : Grammatical kinds)
    (inFront : front <+: kinds) :
    front.count .closeParen ≤ front.count .openParen := by
  induction grammatical generalizing front with
  | constant | number | name =>
      exact (inFront.count_le .closeParen).trans (Nat.zero_le _)
  | unary op _ induction =>
      rcases List.prefix_cons_iff.mp inFront with rfl | ⟨behind, rfl, inside⟩
      · exact Nat.le_refl 0
      · simpa using induction inside
  | @binary op left right leftGrammatical _ leftInduction rightInduction =>
      obtain ⟨back, whole⟩ := inFront
      rcases List.append_eq_append_iff.mp whole with
        ⟨more, rfl, -⟩ | ⟨behind, rfl, rest⟩
      · exact leftInduction (List.prefix_append _ _)
      · have balanced := leftGrammatical.count_closeParen
        rcases List.prefix_cons_iff.mp ⟨back, rest.symm⟩ with
          rfl | ⟨inRight, rfl, inside⟩
        · simp [balanced]
        · have bound := rightInduction inside
          simpa [balanced] using bound
  | @group inner innerGrammatical induction =>
      rcases List.prefix_cons_iff.mp inFront with rfl | ⟨behind, rfl, inside⟩
      · exact Nat.le_refl 0
      · rcases List.prefix_concat_iff.mp inside with rfl | inInner
        · simp [innerGrammatical.count_closeParen]
        · have bound := induction inInner
          simp only [List.count_cons_self, List.count_cons_of_ne, ne_eq,
            reduceCtorEq, not_false_eq_true]
          omega

end Grammatical

namespace ShortestOperand

variable {kinds inner : List TokenKind}

theorem single {kind : TokenKind} (grammatical : Grammatical [kind]) :
    ShortestOperand [kind] := by
  refine ⟨grammatical, ?_⟩
  intro front inFront frontGrammatical
  rcases List.prefix_cons_iff.mp inFront with rfl | ⟨behind, rfl, inside⟩
  · cases frontGrammatical.ne_nil rfl
  · rw [List.prefix_nil.mp inside]

theorem unary (shortest : ShortestOperand kinds) (op : UnaryOp) :
    ShortestOperand (.unary op :: kinds) := by
  refine ⟨.unary op shortest.grammatical, ?_⟩
  intro front inFront frontGrammatical
  rcases List.prefix_cons_iff.mp inFront with rfl | ⟨behind, rfl, inside⟩
  · cases frontGrammatical.ne_nil rfl
  · obtain ⟨operand, inBehind, operandGrammatical⟩ :=
      frontGrammatical.exists_operand
    obtain rfl := shortest.shortest operand (inBehind.trans inside)
      operandGrammatical
    rw [inside.eq_of_length_le inBehind.length_le]

/-- Before the last parenthesis the first one is still open. -/
theorem group (grammatical : Grammatical inner) :
    ShortestOperand (.openParen :: (inner ++ [.closeParen])) := by
  refine ⟨.group grammatical, ?_⟩
  intro front inFront frontGrammatical
  rcases List.prefix_cons_iff.mp inFront with rfl | ⟨behind, rfl, inside⟩
  · cases frontGrammatical.ne_nil rfl
  · rcases List.prefix_concat_iff.mp inside with rfl | inInner
    · rfl
    · have balanced := frontGrammatical.count_closeParen
      have bound := grammatical.count_closeParen_le inInner
      simp only [List.count_cons_self, List.count_cons_of_ne, ne_eq,
        reduceCtorEq, not_false_eq_true] at balanced
      omega

end ShortestOperand

namespace Bracketing

theorem Nested.shortest {written : Bracketing} (nested : written.Nested)
    (tight : 6 ≤ written.layer) : ShortestOperand written.kinds := by
  cases written with
  | leaf token atom spelled => exact .single (Token.grammatical_atom spelled)
  | unary token op spelled operand =>
      rw [kinds_unary]
      exact nested.1.unary op
  | group opener closer opens closes inner =>
      rw [kinds_group]
      exact .group inner.grammatical
  | binary token op spelled left right =>
      exact absurd tight (Nat.not_le.mpr op.layer_lt_six)

end Bracketing

theorem Spells.exists_nested {layer : Nat} {tokens : List Token} {tree : Tree}
    (spells : Spells layer tokens tree) :
    ∃ written : Bracketing, written.tokens = tokens ∧ written.tree = tree ∧
      written.Nested ∧ layer ≤ written.layer := by
  induction spells with
  | @atom token atom spelled =>
      exact ⟨.leaf token atom spelled, rfl, rfl, trivial, Nat.le_refl 7⟩
  | @group opener closer inner tree opens closes _ induction =>
      obtain ⟨written, rfl, rfl, nested, -⟩ := induction
      exact ⟨.group opener closer opens closes written, rfl, rfl, nested,
        Nat.le_refl 7⟩
  | @unary token op operand tree spelled _ induction =>
      obtain ⟨written, rfl, rfl, nested, tight⟩ := induction
      exact ⟨.unary token op spelled written, rfl, rfl,
        ⟨nested.shortest tight, nested⟩, Nat.le_refl 6⟩
  | @binary token op left right leftTree rightTree spelled _ _ leftInduction
      rightInduction =>
      obtain ⟨first, rfl, rfl, firstNested, leftLayer⟩ := leftInduction
      obtain ⟨second, rfl, rfl, secondNested, rightLayer⟩ := rightInduction
      have notLooser := (Bracketing.layer_iff spelled).1.mp leftLayer
      have tighter := (Bracketing.layer_iff spelled).2.mp rightLayer
      exact ⟨.binary token op spelled first second, rfl, rfl,
        ⟨notLooser, tighter, firstNested, secondNested⟩, Nat.le_refl _⟩
  | tighter _ induction =>
      obtain ⟨written, same, sameTree, nested, inLayer⟩ := induction
      exact ⟨written, same, sameTree, nested, Nat.le_of_succ_le inLayer⟩

/-- The tokens of a sentence are put into the post-order of the only tree that
the layered grammar gives them.  It is also the only one in which, apart from
parentheses, operators nest as tightly as they bind. -/
theorem postOrder_lists_nested {source : String} {sentence : Sentence}
    (valid : Sentence.ofSource source = .ok sentence) :
    ∃ written : Bracketing, written.tokens = sentence.tokens ∧
      written.Nested ∧
      (∀ other : Bracketing, other.tokens = sentence.tokens → other.Nested →
        other.tree = written.tree) ∧
      Spells 0 sentence.tokens written.tree ∧
      (∀ other, Spells 0 sentence.tokens other → other = written.tree) ∧
      postOrder sentence.tokens = written.tree.postOrder := by
  obtain ⟨-, tree, spells⟩ := Sentence.spells_of_ofSource valid
  obtain ⟨written, same, rfl, nested, -⟩ := spells.exists_nested
  refine ⟨written, same, nested, ?_, spells, ?_, spells.postOrder_eq⟩
  · intro other otherSame otherNested
    have otherSpells := otherNested.spells
    rw [otherSame] at otherSpells
    exact otherSpells.unique spells
  · intro other otherSpells
    exact otherSpells.unique spells

/-- In `-a - b - c` the sign belongs to `a` alone, and `b` is subtracted before
`c` is. -/
theorem postOrder_of_differences :
    let tokens : List Token :=
      [⟨.unary .negate, 0, "-", none⟩, ⟨.name, 1, "a", none⟩,
        ⟨.binary .subtract, 3, "-", none⟩, ⟨.name, 5, "b", none⟩,
        ⟨.binary .subtract, 7, "-", none⟩, ⟨.name, 9, "c", none⟩]
    Sentence.ofSource "-a - b - c" = .ok ⟨tokens, ["a", "b", "c"]⟩ ∧
      (∃ written : Bracketing, written.tokens = tokens ∧ written.Nested ∧
        postOrder tokens = written.tree.postOrder) ∧
      (postOrder tokens).map Token.text = ["a", "-", "b", "-", "c", "-"] := by
  intro tokens
  have valid :
      Sentence.ofSource "-a - b - c" = .ok ⟨tokens, ["a", "b", "c"]⟩ := by
    decide +kernel
  obtain ⟨written, same, nested, -, -, -, ordered⟩ :=
    postOrder_lists_nested valid
  exact ⟨valid, ⟨written, same, nested, ordered⟩, rfl⟩

end Formula
