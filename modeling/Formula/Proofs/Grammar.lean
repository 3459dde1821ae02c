import Formula.Proofs.Tree

/-!
# The grammar of formulas

`Grammatical` says which kinds of tokens make up a formula and leaves open how
its operators nest.  `Spells` is the layered grammar, in which binary operators
of one layer associate to the left and take operands of the next tighter layer.
Every grammatical token list spells a tree, and nothing else does.
-/

namespace Formula

/-- The token kinds of a formula. -/
inductive Grammatical : List TokenKind → Prop where
  | constant (value : Bool) : Grammatical [.constant value]
  | number : Grammatical [.number]
  | name : Grammatical [.name]
  | unary (op : UnaryOp) {operand : List TokenKind} :
      Grammatical operand → Grammatical (.unary op :: operand)
  | binary (op : BinaryOp) {left right : List TokenKind} :
      Grammatical left → Grammatical right →
      Grammatical (left ++ .binary op :: right)
  | group {inner : List TokenKind} :
      Grammatical inner →
      Grammatical (.openParen :: (inner ++ [.closeParen]))

/-- The layer of a binary operator; the loosest one is zero. -/
def BinaryOp.layer : BinaryOp → Nat
  | .or => 0
  | .and => 1
  | .equals | .notEquals => 2
  | .lessThan | .lessThanOrEqual | .greaterThan | .greaterThanOrEqual => 3
  | .add | .subtract => 4
  | .multiply | .divide | .modulo => 5

theorem BinaryOp.layer_lt_six (op : BinaryOp) : op.layer < 6 := by
  cases op <;> decide

/-- `Spells layer tokens tree`: the tokens are an expression of the layer or of
a tighter one, and the tree is how its operators nest.  Layers `0` to `5` are
those of binary operators, `6` is that of prefix operators, and `7` holds
single tokens and parentheses. -/
inductive Spells : Nat → List Token → Tree → Prop where
  | atom {token : Token} {atom : Atom} (spelled : token.atom? = some atom) :
      Spells 7 [token] (.leaf token atom spelled)
  | group {opener closer : Token} {inner : List Token} {tree : Tree} :
      opener.kind = .openParen → closer.kind = .closeParen →
      Spells 0 inner tree →
      Spells 7 (opener :: (inner ++ [closer])) tree
  | unary {token : Token} {op : UnaryOp} {operand : List Token} {tree : Tree}
      (spelled : token.kind = .unary op) :
      Spells 6 operand tree →
      Spells 6 (token :: operand) (.unary token op spelled tree)
  | binary {token : Token} {op : BinaryOp} {left right : List Token}
      {leftTree rightTree : Tree} (spelled : token.kind = .binary op) :
      Spells op.layer left leftTree → Spells (op.layer + 1) right rightTree →
      Spells op.layer (left ++ token :: right)
        (.binary token op spelled leftTree rightTree)
  | tighter {layer : Nat} {tokens : List Token} {tree : Tree} :
      Spells (layer + 1) tokens tree → Spells layer tokens tree

/-- A number carries its value. -/
def Token.Valued (token : Token) : Prop :=
  token.kind = .number → token.value.isSome

namespace Token

theorem grammatical_atom {token : Token} {atom : Atom}
    (spelled : token.atom? = some atom) : Grammatical [token.kind] := by
  cases kind : token.kind with
  | constant value => exact .constant value
  | number => exact .number
  | name => exact .name
  | openParen => simp [atom?, kind] at spelled
  | closeParen => simp [atom?, kind] at spelled
  | unary op => simp [atom?, kind] at spelled
  | binary op => simp [atom?, kind] at spelled

theorem atom?_constant {token : Token} {value : Bool}
    (kind : token.kind = .constant value) :
    token.atom? = some (.constant value) := by
  simp [atom?, kind]

theorem atom?_name {token : Token} (kind : token.kind = .name) :
    token.atom? = some (.name token.text) := by
  simp [atom?, kind]

theorem Valued.atom?_number {token : Token} (valued : token.Valued)
    (kind : token.kind = .number) :
    ∃ value, token.atom? = some (.number value) := by
  obtain ⟨value, found⟩ := Option.isSome_iff_exists.mp (valued kind)
  exact ⟨value, by simp [atom?, kind, found]⟩

end Token

namespace Spells

theorem grammatical {layer : Nat} {tokens : List Token} {tree : Tree}
    (spells : Spells layer tokens tree) :
    Grammatical (tokens.map Token.kind) := by
  induction spells with
  | atom spelled => exact Token.grammatical_atom spelled
  | group opens closes _ induction =>
      simpa [opens, closes] using Grammatical.group induction
  | unary spelled _ induction =>
      simpa [spelled] using Grammatical.unary _ induction
  | binary spelled _ _ leftInduction rightInduction =>
      simpa [spelled] using Grammatical.binary _ leftInduction rightInduction
  | tighter _ induction => exact induction

theorem loosen {layer tighterLayer : Nat} {tokens : List Token} {tree : Tree}
    (looser : layer ≤ tighterLayer) (spells : Spells tighterLayer tokens tree) :
    Spells layer tokens tree := by
  induction looser with
  | refl => exact spells
  | step _ induction => exact induction spells.tighter

/-- An operator with a tight right operand can be written behind an expression
of its own layer or of a looser one: it goes down the right edge of the tree to
its layer. -/
theorem attach {layer : Nat} {left right : List Token}
    {leftTree rightTree : Tree}
    {token : Token} {op : BinaryOp} (spelled : token.kind = .binary op)
    (leftSpells : Spells layer left leftTree)
    (rightSpells : Spells 6 right rightTree) (looser : layer ≤ op.layer) :
    ∃ tree, Spells layer (left ++ token :: right) tree := by
  have tight := op.layer_lt_six
  have rightOperand : Spells (op.layer + 1) right rightTree :=
    rightSpells.loosen tight
  induction leftSpells with
  | atom => omega
  | group => omega
  | unary => omega
  | @binary other otherOp first second firstTree secondTree otherSpelled
      firstSpells secondSpells _ secondInduction =>
      rcases Nat.lt_or_eq_of_le looser with below | same
      · obtain ⟨tree, joined⟩ := secondInduction below
        refine ⟨.binary other otherOp otherSpelled firstTree tree, ?_⟩
        simpa using Spells.binary otherSpelled firstSpells joined
      · have whole := Spells.binary otherSpelled firstSpells secondSpells
        rw [same] at whole ⊢
        exact ⟨_, Spells.binary spelled whole rightOperand⟩
  | @tighter layer tokens tree spells induction =>
      rcases Nat.lt_or_eq_of_le looser with below | same
      · obtain ⟨tree, joined⟩ := induction below
        exact ⟨tree, joined.tighter⟩
      · subst same
        exact ⟨_, Spells.binary spelled spells.tighter rightOperand⟩

/-- Any two expressions can be joined by any operator: the operators on the left
edge of the right one are moved over, one after another. -/
theorem join {layer : Nat} {left right : List Token} {leftTree rightTree : Tree}
    {token : Token} {op : BinaryOp} (spelled : token.kind = .binary op)
    (leftSpells : Spells 0 left leftTree)
    (rightSpells : Spells layer right rightTree) :
    ∃ tree, Spells 0 (left ++ token :: right) tree := by
  induction rightSpells generalizing left leftTree token op with
  | atom atomSpelled =>
      exact leftSpells.attach spelled (Spells.atom atomSpelled).tighter
        (Nat.zero_le _)
  | group opens closes inner =>
      exact leftSpells.attach spelled (Spells.group opens closes inner).tighter
        (Nat.zero_le _)
  | unary unarySpelled operand =>
      exact leftSpells.attach spelled (Spells.unary unarySpelled operand)
        (Nat.zero_le _)
  | binary otherSpelled _ _ firstInduction secondInduction =>
      obtain ⟨tree, joined⟩ := firstInduction spelled leftSpells
      simpa using secondInduction otherSpelled joined
  | tighter _ induction => exact induction spelled leftSpells

/-- A prefix operator can be written before any expression. -/
theorem prepend {layer : Nat} {operand : List Token} {operandTree : Tree}
    {token : Token} {op : UnaryOp} (spelled : token.kind = .unary op)
    (spells : Spells layer operand operandTree) :
    ∃ tree, Spells 0 (token :: operand) tree := by
  induction spells with
  | atom atomSpelled =>
      have whole := Spells.unary spelled (Spells.atom atomSpelled).tighter
      exact ⟨_, whole.loosen (Nat.zero_le 6)⟩
  | group opens closes inner =>
      have whole :=
        Spells.unary spelled (Spells.group opens closes inner).tighter
      exact ⟨_, whole.loosen (Nat.zero_le 6)⟩
  | unary otherSpelled inner =>
      have whole := Spells.unary spelled (Spells.unary otherSpelled inner)
      exact ⟨_, whole.loosen (Nat.zero_le 6)⟩
  | binary otherSpelled _ second firstInduction =>
      obtain ⟨tree, first⟩ := firstInduction
      exact first.join otherSpelled second
  | tighter _ induction => exact induction

end Spells

/-- Every grammatical token list spells a tree. -/
theorem Grammatical.exists_spells {kinds : List TokenKind}
    (grammatical : Grammatical kinds) (tokens : List Token)
    (same : tokens.map Token.kind = kinds)
    (valued : ∀ token ∈ tokens, token.Valued) :
    ∃ tree, Spells 0 tokens tree := by
  induction grammatical generalizing tokens with
  | constant value =>
      obtain ⟨token, rfl, kind⟩ := List.map_eq_singleton_iff.mp same
      exact ⟨_, (Spells.atom (Token.atom?_constant kind)).loosen
        (Nat.zero_le 7)⟩
  | number =>
      obtain ⟨token, rfl, kind⟩ := List.map_eq_singleton_iff.mp same
      obtain ⟨value, spelled⟩ := (valued token (by simp)).atom?_number kind
      exact ⟨_, (Spells.atom spelled).loosen (Nat.zero_le 7)⟩
  | name =>
      obtain ⟨token, rfl, kind⟩ := List.map_eq_singleton_iff.mp same
      exact ⟨_, (Spells.atom (Token.atom?_name kind)).loosen (Nat.zero_le 7)⟩
  | unary op _ induction =>
      obtain ⟨token, operand, rfl, kind, operandSame⟩ :=
        List.map_eq_cons_iff.mp same
      obtain ⟨tree, spells⟩ := induction operand operandSame (by
        intro other member
        exact valued other (by simp [member]))
      exact spells.prepend kind
  | binary op _ _ leftInduction rightInduction =>
      obtain ⟨left, rest, rfl, leftSame, restSame⟩ :=
        List.map_eq_append_iff.mp same
      obtain ⟨token, right, rfl, kind, rightSame⟩ :=
        List.map_eq_cons_iff.mp restSame
      obtain ⟨leftTree, leftSpells⟩ := leftInduction left leftSame (by
        intro other member
        exact valued other (by simp [member]))
      obtain ⟨rightTree, rightSpells⟩ := rightInduction right rightSame (by
        intro other member
        exact valued other (by simp [member]))
      exact leftSpells.join kind rightSpells
  | group _ induction =>
      obtain ⟨opener, rest, rfl, opens, restSame⟩ :=
        List.map_eq_cons_iff.mp same
      obtain ⟨inner, last, rfl, innerSame, lastSame⟩ :=
        List.map_eq_append_iff.mp restSame
      obtain ⟨closer, rfl, closes⟩ := List.map_eq_singleton_iff.mp lastSame
      obtain ⟨tree, spells⟩ := induction inner innerSame (by
        intro other member
        exact valued other (by simp [member]))
      exact ⟨tree, (Spells.group opens closes spells).loosen (Nat.zero_le 7)⟩

end Formula
