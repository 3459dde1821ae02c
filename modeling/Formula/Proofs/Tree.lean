import Formula.Program.Build
import Formula.Proofs.StackMachine

/-!
# Expression trees

A formula means a tree of operators over constants, numbers and names.  The
tree lists its tokens in post-order, has a type and a value, and has code that
converts an operand exactly where its type is not the demanded one.  Building a
program from the post-order of a tree gives the code of the tree, and running
that code leaves the value of the tree.
-/

namespace Formula

/-- What a token stands for that is an operand by itself. -/
inductive Atom where
  | constant (value : Bool)
  | number (value : Int32)
  | name (text : String)
  deriving DecidableEq

namespace Atom

def op : Atom → Op
  | .constant value => .bool value
  | .number value => .int value
  | .name text => .load text

def type : Atom → ValueType
  | .constant _ => .boolean
  | .number _ | .name _ => .integer

/-- The value; a name that the table does not hold counts as zero. -/
def denote (lookup : String → Option Int32) : Atom → Value
  | .constant value => .boolean value
  | .number value => .integer value
  | .name text => .integer ((lookup text).getD 0)

end Atom

/-- The operand that a token is by itself, if it is one. -/
def Token.atom? (token : Token) : Option Atom :=
  match token.kind with
  | .constant value => some (.constant value)
  | .number => token.value.map .number
  | .name => some (.name token.text)
  | .openParen | .closeParen | .unary _ | .binary _ => none

theorem Token.kind_ne_unary {token : Token} {atom : Atom}
    (spelled : token.atom? = some atom) (op : UnaryOp) :
    token.kind ≠ .unary op := by
  intro kind
  simp [Token.atom?, kind] at spelled

theorem Token.kind_ne_binary {token : Token} {atom : Atom}
    (spelled : token.atom? = some atom) (op : BinaryOp) :
    token.kind ≠ .binary op := by
  intro kind
  simp [Token.atom?, kind] at spelled

/-- An expression with the tokens that spell its nodes. -/
inductive Tree where
  | leaf (token : Token) (atom : Atom) (spelled : token.atom? = some atom)
  | unary (token : Token) (op : UnaryOp) (spelled : token.kind = .unary op)
    (operand : Tree)
  | binary (token : Token) (op : BinaryOp) (spelled : token.kind = .binary op)
    (left right : Tree)

namespace Tree

/-- The tokens, operands from left to right and then their operator. -/
def postOrder : Tree → List Token
  | .leaf token _ _ => [token]
  | .unary token _ _ operand => operand.postOrder ++ [token]
  | .binary token _ _ left right =>
    left.postOrder ++ right.postOrder ++ [token]

def type : Tree → ValueType
  | .leaf _ atom _ => atom.type
  | .unary _ op _ _ => op.operandType
  | .binary _ op _ _ _ => op.resultType

/-- The value, every operand being converted to the type that its operator
demands. -/
def denote (lookup : String → Option Int32) : Tree → Value
  | .leaf _ atom _ => atom.denote lookup
  | .unary _ op _ operand =>
    Value.of op.operandType
      (op.denote ((operand.denote lookup).coerced op.operandType))
  | .binary _ op _ left right =>
    Value.of op.resultType
      (op.denote ((left.denote lookup).coerced op.operandType)
        ((right.denote lookup).coerced op.operandType))

end Tree

/-- The instruction that converts a value, unless it has the demanded type. -/
def coercion (own demanded : ValueType) : List Instruction :=
  if own = demanded then [] else [⟨.coerce demanded, demanded⟩]

namespace Tree

def code : Tree → List Instruction
  | .leaf _ atom _ => [⟨atom.op, atom.type⟩]
  | .unary _ op _ operand =>
    operand.code ++ coercion operand.type op.operandType ++
      [⟨.unary op, op.operandType⟩]
  | .binary _ op _ left right =>
    left.code ++ coercion left.type op.operandType ++
      (right.code ++ coercion right.type op.operandType ++
        [⟨.binary op, op.resultType⟩])

/-- The program whose result is the value of the tree as one of a type. -/
def program (tree : Tree) (result : ValueType) : Program where
  instructions := tree.code ++ coercion tree.type result
  result := result

end Tree

namespace Fragment

theorem converted_eq (fragment : Fragment) (demanded : ValueType) :
    fragment.converted demanded =
      fragment.code ++ coercion fragment.type demanded := by
  unfold converted coercion
  split
  · exact (List.append_nil _).symm
  · rfl

theorem push_atom {token : Token} {atom : Atom} (stack : List Fragment)
    (spelled : token.atom? = some atom) :
    push stack token = .ok (⟨[⟨atom.op, atom.type⟩], atom.type⟩ :: stack) := by
  unfold Token.atom? at spelled
  unfold push
  cases kind : token.kind with
  | constant value =>
      simp only [kind] at spelled
      cases spelled
      rfl
  | number =>
      simp only [kind, Option.map_eq_some_iff] at spelled
      obtain ⟨value, found, rfl⟩ := spelled
      simp only [found]
      rfl
  | name =>
      simp only [kind] at spelled
      cases spelled
      rfl
  | openParen => simp [kind] at spelled
  | closeParen => simp [kind] at spelled
  | unary op => simp [kind] at spelled
  | binary op => simp [kind] at spelled

theorem push_unary {token : Token} {op : UnaryOp} (operand : Fragment)
    (below : List Fragment) (spelled : token.kind = .unary op) :
    push (operand :: below) token = .ok (unary op operand :: below) := by
  unfold push
  simp only [spelled]

theorem push_binary {token : Token} {op : BinaryOp} (left right : Fragment)
    (below : List Fragment) (spelled : token.kind = .binary op) :
    push (right :: left :: below) token =
      .ok (binary op left right :: below) := by
  unfold push
  simp only [spelled]

end Fragment

namespace Tree

/-- The instructions and the type of a tree. -/
def fragment (tree : Tree) : Fragment := ⟨tree.code, tree.type⟩

/-- Reading the post-order of a tree puts the code of the tree on the stack,
whatever lies below. -/
theorem foldlM_push_postOrder (tree : Tree) (stack : List Fragment) :
    tree.postOrder.foldlM Fragment.push stack =
      .ok (tree.fragment :: stack) := by
  induction tree generalizing stack with
  | leaf token atom spelled =>
      rw [postOrder, List.foldlM_cons, Fragment.push_atom stack spelled]
      rfl
  | unary token op spelled operand induction =>
      rw [postOrder, List.foldlM_append, induction, ok_bind, List.foldlM_cons,
        Fragment.push_unary _ _ spelled]
      simp [Fragment.unary, Fragment.converted_eq, fragment, code, type]
  | binary token op spelled left right leftInduction rightInduction =>
      rw [postOrder, List.foldlM_append, List.foldlM_append, leftInduction,
        ok_bind, rightInduction, ok_bind, List.foldlM_cons,
        Fragment.push_binary _ _ _ spelled]
      simp [Fragment.binary, Fragment.converted_eq, fragment, code, type]

theorem ofPostOrder_postOrder (tree : Tree) (result : ValueType) :
    Program.ofPostOrder tree.postOrder result = .ok (tree.program result) := by
  rw [Program.ofPostOrder, foldlM_push_postOrder]
  simp only [Fragment.converted_eq]
  rfl

private theorem append_token_inj {front otherFront : List Token}
    {token otherToken : Token}
    (same : front ++ [token] = otherFront ++ [otherToken]) :
    front = otherFront ∧ token = otherToken := by
  obtain ⟨frontSame, lastSame⟩ := List.append_inj' same rfl
  exact ⟨frontSame, List.singleton_inj.mp lastSame⟩

/-- The last token of a post-order decides which node it is, so that read from
its end a post-order can be cut in one way only. -/
theorem append_postOrder_inj {tree other : Tree}
    {before otherBefore : List Token}
    (same : before ++ tree.postOrder = otherBefore ++ other.postOrder) :
    before = otherBefore ∧ tree = other := by
  induction tree generalizing other before otherBefore with
  | leaf token atom spelled =>
      cases other with
      | leaf otherToken otherAtom otherSpelled =>
          obtain ⟨rfl, rfl⟩ := append_token_inj same
          obtain rfl : atom = otherAtom :=
            Option.some.inj (spelled.symm.trans otherSpelled)
          exact ⟨rfl, rfl⟩
      | unary otherToken op otherSpelled operand =>
          simp only [postOrder, ← List.append_assoc] at same
          obtain ⟨-, rfl⟩ := append_token_inj same
          exact absurd otherSpelled (Token.kind_ne_unary spelled op)
      | binary otherToken op otherSpelled left right =>
          simp only [postOrder, ← List.append_assoc] at same
          obtain ⟨-, rfl⟩ := append_token_inj same
          exact absurd otherSpelled (Token.kind_ne_binary spelled op)
  | unary token op spelled operand induction =>
      cases other with
      | leaf otherToken otherAtom otherSpelled =>
          simp only [postOrder, ← List.append_assoc] at same
          obtain ⟨-, rfl⟩ := append_token_inj same
          exact absurd spelled (Token.kind_ne_unary otherSpelled op)
      | unary otherToken otherOp otherSpelled otherOperand =>
          simp only [postOrder, ← List.append_assoc] at same
          obtain ⟨frontSame, rfl⟩ := append_token_inj same
          obtain ⟨rfl, rfl⟩ := induction frontSame
          obtain rfl : op = otherOp := by
            simpa using spelled.symm.trans otherSpelled
          exact ⟨rfl, rfl⟩
      | binary otherToken otherOp otherSpelled left right =>
          simp only [postOrder, ← List.append_assoc] at same
          obtain ⟨-, rfl⟩ := append_token_inj same
          cases spelled.symm.trans otherSpelled
  | binary token op spelled left right leftInduction rightInduction =>
      cases other with
      | leaf otherToken otherAtom otherSpelled =>
          simp only [postOrder, ← List.append_assoc] at same
          obtain ⟨-, rfl⟩ := append_token_inj same
          exact absurd spelled (Token.kind_ne_binary otherSpelled op)
      | unary otherToken otherOp otherSpelled operand =>
          simp only [postOrder, ← List.append_assoc] at same
          obtain ⟨-, rfl⟩ := append_token_inj same
          cases spelled.symm.trans otherSpelled
      | binary otherToken otherOp otherSpelled otherLeft otherRight =>
          simp only [postOrder, ← List.append_assoc] at same
          obtain ⟨frontSame, rfl⟩ := append_token_inj same
          obtain ⟨restSame, rfl⟩ := rightInduction frontSame
          obtain ⟨rfl, rfl⟩ := leftInduction restSame
          obtain rfl : op = otherOp := by
            simpa using spelled.symm.trans otherSpelled
          exact ⟨rfl, rfl⟩

/-- A tree is determined by its post-order. -/
theorem postOrder_injective {tree other : Tree}
    (same : tree.postOrder = other.postOrder) : tree = other := by
  have appended : [] ++ tree.postOrder = [] ++ other.postOrder := by
    rw [same]
  exact (append_postOrder_inj appended).2

@[simp] theorem type_denote (lookup : String → Option Int32) (tree : Tree) :
    (tree.denote lookup).type = tree.type := by
  cases tree with
  | leaf token atom spelled => cases atom <;> rfl
  | unary token op spelled operand => exact Value.type_of _ _
  | binary token op spelled left right => exact Value.type_of _ _

end Tree

theorem foldlM_check?_coercion (own demanded : ValueType)
    (types : List ValueType) :
    (coercion own demanded).foldlM Instruction.check? (own :: types) =
      some (demanded :: types) := by
  cases own <;> cases demanded <;> rfl

theorem foldlM_execute?_coercion (lookup : String → Option Int32)
    (value : Value) (demanded : ValueType) (values : List Value) :
    (coercion value.type demanded).foldlM (Instruction.execute? lookup)
        (value :: values) =
      some (Value.of demanded (value.coerced demanded) :: values) := by
  cases value <;> cases demanded <;> rfl

namespace Tree

theorem foldlM_check?_code (tree : Tree) (types : List ValueType) :
    tree.code.foldlM Instruction.check? types = some (tree.type :: types) := by
  induction tree generalizing types with
  | leaf token atom spelled => cases atom <;> rfl
  | unary token op spelled operand induction =>
      rw [code, List.foldlM_append, List.foldlM_append, induction]
      simp only [Option.bind_eq_bind, Option.bind_some, foldlM_check?_coercion]
      simp [Instruction.check?, Op.operandTypes, Op.resultType, type]
  | binary token op spelled left right leftInduction rightInduction =>
      rw [code, List.foldlM_append, List.foldlM_append, leftInduction]
      simp only [Option.bind_eq_bind, Option.bind_some, foldlM_check?_coercion,
        List.foldlM_append, rightInduction]
      simp [Instruction.check?, Op.operandTypes, Op.resultType, type]

/-- The machine leaves the value of a tree on any stack. -/
theorem foldlM_execute?_code (lookup : String → Option Int32) (tree : Tree)
    (values : List Value) :
    tree.code.foldlM (Instruction.execute? lookup) values =
      some (tree.denote lookup :: values) := by
  induction tree generalizing values with
  | leaf token atom spelled => cases atom <;> rfl
  | unary token op spelled operand induction =>
      rw [code, List.foldlM_append, List.foldlM_append, induction,
        ← type_denote lookup operand]
      simp only [Option.bind_eq_bind, Option.bind_some,
        foldlM_execute?_coercion]
      simp [Instruction.execute?, Op.execute?, denote]
  | binary token op spelled left right leftInduction rightInduction =>
      rw [code, List.foldlM_append, List.foldlM_append, leftInduction,
        ← type_denote lookup left, ← type_denote lookup right]
      simp only [Option.bind_eq_bind, Option.bind_some,
        foldlM_execute?_coercion, List.foldlM_append, rightInduction]
      simp [Instruction.execute?, Op.execute?, denote]

theorem program_wellTyped (tree : Tree) (result : ValueType) :
    (tree.program result).WellTyped := by
  change (tree.code ++ coercion tree.type result).foldlM _ [] = some [result]
  rw [List.foldlM_append, foldlM_check?_code]
  exact foldlM_check?_coercion tree.type result []

theorem run?_program (lookup : String → Option Int32) (tree : Tree)
    (result : ValueType) :
    (tree.program result).run? lookup =
      some [Value.of result ((tree.denote lookup).coerced result)] := by
  change (tree.code ++ coercion tree.type result).foldlM _ [] = _
  rw [List.foldlM_append, foldlM_execute?_code, ← type_denote lookup tree]
  exact foldlM_execute?_coercion lookup (tree.denote lookup) result []

theorem compile_program (tree : Tree) (result : ValueType) :
    ∃ compiled, (tree.program result).compile = .ok compiled ∧
      compiled.type = result ∧
      ∀ lookup : String → Option Int32,
        compiled.read (.ofLookup lookup) =
          Value.of result ((tree.denote lookup).coerced result) := by
  rcases Program.compile_cases (tree.program result) with
    ⟨compiled, compiles, -, declared, runs⟩ | ⟨untyped, -⟩
  · refine ⟨compiled, compiles, declared, ?_⟩
    intro lookup
    have machine := (runs lookup).symm.trans (run?_program lookup tree result)
    exact List.singleton_inj.mp (Option.some.inj machine)
  · exact absurd (program_wellTyped tree result) untyped

end Tree

end Formula
