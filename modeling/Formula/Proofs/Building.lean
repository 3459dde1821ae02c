import Formula.Proofs.Grammar
import Formula.Proofs.SharedCode

/-!
# Which token lists become programs

Any list of tokens can be handed to the builder of programs.  It succeeds
exactly on the lists in which no token lacks its operands and one operand is
left, which a count of operands tells; such a list is the post-order of one
tree, and the program is the code of that tree.
-/

namespace Formula

/-- How many operands there are after a token of a kind if there were `count`
before it; nothing if it lacks operands.  Parentheses take none and leave
none. -/
def TokenKind.countAfter? (count : Nat) : TokenKind → Option Nat
  | .constant _ | .number | .name => some (count + 1)
  | .unary _ => if 1 ≤ count then some count else none
  | .binary _ => if 2 ≤ count then some (count - 1) else none
  | .openParen | .closeParen => some count

/-- How many operands tokens leave, if none of them lacks operands. -/
def operandCount? (tokens : List Token) (count : Nat) : Option Nat :=
  tokens.foldlM (fun count token => token.kind.countAfter? count) count

/-- A token that is no parenthesis, and no number without a value. -/
structure Token.Usable (token : Token) : Prop where
  notOpener : token.kind ≠ .openParen
  notCloser : token.kind ≠ .closeParen
  valued : token.Valued

/-- The token lists that are the post-order of an expression, told by counting
operands. -/
structure Buildable (tokens : List Token) : Prop where
  usable : ∀ token ∈ tokens, token.Usable
  count : operandCount? tokens 0 = some 1

/-- The tokens that have been read when trees wait for their operator, the
latest tree first. -/
def listing : List Tree → List Token
  | [] => []
  | tree :: earlier => listing earlier ++ tree.postOrder

namespace Fragment

/-- A token takes its operands among trees and leaves others in their place. -/
structure Grows (trees : List Tree) (token : Token) (after : List Tree) :
    Prop where
  succeeds :
    push (trees.map Tree.fragment) token = .ok (after.map Tree.fragment)
  listed : listing after = listing trees ++ [token]
  usable : token.Usable
  counts : token.kind.countAfter? trees.length = some after.length

/-- A token that no operand can be made of, for which the builder has a
fault. -/
structure Stops (trees : List Tree) (token : Token) : Prop where
  fails : ∃ fault,
    push (trees.map Tree.fragment) token = .error (.internal fault)
  lacks : token.Usable → token.kind.countAfter? trees.length = none

theorem grows_atom {token : Token} {atom : Atom}
    (spelled : token.atom? = some atom) (valued : token.Valued)
    (counts : ∀ count, token.kind.countAfter? count = some (count + 1))
    (trees : List Tree) :
    Grows trees token (.leaf token atom spelled :: trees) := by
  constructor
  · exact push_atom (trees.map Tree.fragment) spelled
  · rfl
  · refine ⟨?_, ?_, valued⟩ <;>
      · intro kind
        simp [Token.atom?, kind] at spelled
  · exact counts trees.length

theorem push_cases_unary {token : Token} {op : UnaryOp}
    (kind : token.kind = .unary op) (trees : List Tree) :
    (∃ after, Grows trees token after) ∨ Stops trees token := by
  cases trees with
  | nil =>
      refine .inr ⟨⟨.missingOperands 1 0, ?_⟩, fun _ => ?_⟩
      · simp [push, kind]
      · simp [kind, TokenKind.countAfter?]
  | cons operand below =>
      refine .inl ⟨.unary token op kind operand :: below, ?_, ?_, ?_, ?_⟩
      · simp only [List.map_cons, push_unary _ _ kind]
        simp [unary, converted_eq, Tree.fragment, Tree.code, Tree.type]
      · simp [listing, Tree.postOrder]
      · constructor <;> simp [kind, Token.Valued]
      · simp [kind, TokenKind.countAfter?]

theorem push_cases_binary {token : Token} {op : BinaryOp}
    (kind : token.kind = .binary op) (trees : List Tree) :
    (∃ after, Grows trees token after) ∨ Stops trees token := by
  rcases trees with _ | ⟨right, _ | ⟨left, below⟩⟩
  · refine .inr ⟨⟨.missingOperands 2 0, ?_⟩, fun _ => ?_⟩
    · simp [push, kind]
    · simp [kind, TokenKind.countAfter?]
  · refine .inr ⟨⟨.missingOperands 2 1, ?_⟩, fun _ => ?_⟩
    · simp [push, kind]
    · simp [kind, TokenKind.countAfter?]
  · refine .inl ⟨.binary token op kind left right :: below, ?_, ?_, ?_, ?_⟩
    · simp only [List.map_cons, push_binary _ _ _ kind]
      simp [binary, converted_eq, Tree.fragment, Tree.code, Tree.type]
    · simp [listing, Tree.postOrder]
    · constructor <;> simp [kind, Token.Valued]
    · simp [kind, TokenKind.countAfter?]

theorem push_cases (trees : List Tree) (token : Token) :
    (∃ after, Grows trees token after) ∨ Stops trees token := by
  cases kind : token.kind with
  | constant value =>
      have valued : token.Valued := by simp [Token.Valued, kind]
      exact .inl ⟨_, grows_atom (Token.atom?_constant kind) valued
        (fun _ => by rw [kind]; rfl) trees⟩
  | number =>
      by_cases valued : token.Valued
      · obtain ⟨value, spelled⟩ := valued.atom?_number kind
        exact .inl ⟨_, grows_atom spelled valued (fun _ => by rw [kind]; rfl)
          trees⟩
      · refine .inr ⟨⟨.numberWithoutValue, ?_⟩,
          fun usable => absurd usable.valued valued⟩
        have without : token.value = none := by
          simpa [Token.Valued, kind] using valued
        simp [push, kind, without]
  | name =>
      have valued : token.Valued := by simp [Token.Valued, kind]
      exact .inl ⟨_, grows_atom (Token.atom?_name kind) valued
        (fun _ => by rw [kind]; rfl) trees⟩
  | openParen =>
      refine .inr ⟨⟨.parenthesis token.index, ?_⟩, fun usable => ?_⟩
      · simp [push, kind]
      · exact absurd kind usable.notOpener
  | closeParen =>
      refine .inr ⟨⟨.parenthesis token.index, ?_⟩, fun usable => ?_⟩
      · simp [push, kind]
      · exact absurd kind usable.notCloser
  | unary op => exact push_cases_unary kind trees
  | binary op => exact push_cases_binary kind trees

/-- A run of the builder over tokens, which makes `after` of the trees that
wait. -/
structure Builds (trees : List Tree) (tokens : List Token) (after : List Tree) :
    Prop where
  succeeds :
    tokens.foldlM push (trees.map Tree.fragment) =
      .ok (after.map Tree.fragment)
  listed : listing after = listing trees ++ tokens
  usable : ∀ token ∈ tokens, token.Usable
  counts : operandCount? tokens trees.length = some after.length

/-- A run of the builder that ends in a fault, because of a token that cannot
be used or lacks operands. -/
structure Breaks (trees : List Tree) (tokens : List Token) : Prop where
  fails :
    ∃ fault, tokens.foldlM push (trees.map Tree.fragment) =
      .error (.internal fault)
  lacks : (∀ token ∈ tokens, token.Usable) →
    operandCount? tokens trees.length = none

theorem foldlM_push_cases (trees : List Tree) (tokens : List Token) :
    (∃ after, Builds trees tokens after) ∨ Breaks trees tokens := by
  induction tokens generalizing trees with
  | nil => exact .inl ⟨trees, rfl, by simp, by simp, rfl⟩
  | cons token tokens induction =>
      rcases push_cases trees token with
        ⟨middle, succeeds, listed, usable, counts⟩ | ⟨⟨fault, fails⟩, lacks⟩
      · have counted : operandCount? (token :: tokens) trees.length =
            operandCount? tokens middle.length := by
          simp [operandCount?, counts]
        rcases induction middle with
          ⟨after, laterSucceeds, laterListed, laterUsable, laterCounts⟩ |
          ⟨⟨fault, laterFails⟩, laterLacks⟩
        · refine .inl ⟨after, ?_, ?_, ?_, counted.trans laterCounts⟩
          · rw [List.foldlM_cons, succeeds, ok_bind, laterSucceeds]
          · simp [laterListed, listed]
          · exact List.forall_mem_cons.mpr ⟨usable, laterUsable⟩
        · refine .inr ⟨⟨fault, ?_⟩, fun allUsable => ?_⟩
          · rw [List.foldlM_cons, succeeds, ok_bind, laterFails]
          · rw [counted]
            exact laterLacks (List.forall_mem_cons.mp allUsable).2
      · refine .inr ⟨⟨fault, ?_⟩, fun allUsable => ?_⟩
        · rw [List.foldlM_cons, fails, error_bind]
        · have lacking := lacks (List.forall_mem_cons.mp allUsable).1
          simp [operandCount?, lacking]

end Fragment

namespace Program

/-- Building ends in the program of the one tree that the tokens list, or in a
fault. -/
theorem ofPostOrder_cases (tokens : List Token) (result : ValueType) :
    (∃ tree : Tree, Buildable tokens ∧ tree.postOrder = tokens ∧
      ofPostOrder tokens result = .ok (tree.program result)) ∨
    (¬ Buildable tokens ∧
      ∃ fault, ofPostOrder tokens result = .error (.internal fault)) := by
  rcases Fragment.foldlM_push_cases [] tokens with
    ⟨after, succeeds, listed, usable, counts⟩ | ⟨⟨fault, fails⟩, lacks⟩
  · rcases after with _ | ⟨tree, _ | ⟨second, below⟩⟩
    · refine .inr ⟨?_, .leftOverOperands 0, ?_⟩
      · intro buildable
        cases counts.symm.trans buildable.count
      · have left : tokens.foldlM Fragment.push [] = .ok [] := succeeds
        simp [ofPostOrder, left]
    · have postOrder : tree.postOrder = tokens := by
        simpa [listing] using listed
      refine .inl ⟨tree, ⟨usable, counts⟩, postOrder, ?_⟩
      rw [← postOrder]
      exact tree.ofPostOrder_postOrder result
    · refine .inr ⟨?_, .leftOverOperands (below.length + 2), ?_⟩
      · intro buildable
        cases counts.symm.trans buildable.count
      · have left : tokens.foldlM Fragment.push [] =
            .ok (tree.fragment :: second.fragment :: below.map Tree.fragment) :=
          succeeds
        simp [ofPostOrder, left]
  · refine .inr ⟨?_, fault, ?_⟩
    · intro buildable
      cases (lacks buildable.usable).symm.trans buildable.count
    · have stopped :
          tokens.foldlM Fragment.push [] = .error (.internal fault) :=
        fails
      simp [ofPostOrder, stopped]

/-- Building succeeds exactly if every token can be used and finds its operands
and one operand is left; otherwise the error is an internal one.  The tokens
are then the post-order of one tree, the program is its code with conversions
where types differ, and it compiles to a function of the demanded type.
Building in one shared list of instructions gives the same. -/
theorem ofPostOrder_ok_iff_buildable (tokens : List Token)
    (result : ValueType) :
    ((∃ program, ofPostOrder tokens result = .ok program) ↔ Buildable tokens) ∧
    (¬ Buildable tokens →
      ∃ fault, ofPostOrder tokens result = .error (.internal fault)) ∧
    (∀ program, ofPostOrder tokens result = .ok program →
      ∃ tree : Tree, tree.postOrder = tokens ∧
        (∀ other : Tree, other.postOrder = tokens → other = tree) ∧
        program.instructions = tree.code ++ coercion tree.type result ∧
        program.result = result ∧
        ∃ compiled, program.compile = .ok compiled ∧ compiled.type = result) ∧
    SharedCode.build tokens result = ofPostOrder tokens result := by
  rcases ofPostOrder_cases tokens result with
    ⟨tree, buildable, postOrder, built⟩ | ⟨unbuildable, fault, failed⟩
  · refine ⟨⟨fun _ => buildable, fun _ => ⟨_, built⟩⟩,
      fun unbuildable => absurd buildable unbuildable, ?_,
      SharedCode.build_eq_ofPostOrder tokens result⟩
    intro program other
    obtain rfl : tree.program result = program :=
      Except.ok.inj (built.symm.trans other)
    obtain ⟨compiled, compiles, declared, -⟩ := tree.compile_program result
    refine ⟨tree, postOrder, ?_, rfl, rfl, compiled, compiles, declared⟩
    intro other otherPostOrder
    exact Tree.postOrder_injective (otherPostOrder.trans postOrder.symm)
  · refine ⟨⟨?_, fun buildable => absurd buildable unbuildable⟩,
      fun _ => ⟨fault, failed⟩, ?_,
        SharedCode.build_eq_ofPostOrder tokens result⟩
    · rintro ⟨program, built⟩
      cases failed.symm.trans built
    · intro program built
      cases failed.symm.trans built

/-- The post-order of `true + 1 * 2` is the one of a tree, whose code converts
the boolean behind its own instruction; a lone `+` cannot be built. -/
theorem ofPostOrder_sum_not_operator :
    (∃ tree : Tree,
      tree.postOrder =
        [⟨.constant true, 0, "true", none⟩, ⟨.number, 7, "1", some 1⟩,
          ⟨.number, 11, "2", some 2⟩, ⟨.binary .multiply, 9, "*", none⟩,
          ⟨.binary .add, 5, "+", none⟩] ∧
      [⟨.bool true, .boolean⟩, ⟨.coerce .integer, .integer⟩, ⟨.int 1, .integer⟩,
        ⟨.int 2, .integer⟩, ⟨.binary .multiply, .integer⟩,
        ⟨.binary .add, .integer⟩] = tree.code ++ coercion tree.type .integer) ∧
    ∃ fault,
      ofPostOrder [⟨.binary .add, 0, "+", none⟩] .integer =
        .error (.internal fault) := by
  constructor
  · obtain ⟨-, -, described, -⟩ := ofPostOrder_ok_iff_buildable
      [⟨.constant true, 0, "true", none⟩, ⟨.number, 7, "1", some 1⟩,
        ⟨.number, 11, "2", some 2⟩, ⟨.binary .multiply, 9, "*", none⟩,
        ⟨.binary .add, 5, "+", none⟩] .integer
    obtain ⟨tree, postOrder, -, code, -⟩ := described
      { instructions :=
          [⟨.bool true, .boolean⟩, ⟨.coerce .integer, .integer⟩,
            ⟨.int 1, .integer⟩, ⟨.int 2, .integer⟩,
            ⟨.binary .multiply, .integer⟩, ⟨.binary .add, .integer⟩]
        result := .integer } rfl
    exact ⟨tree, postOrder, code⟩
  · obtain ⟨-, refused, -⟩ := ofPostOrder_ok_iff_buildable
      [⟨.binary .add, 0, "+", none⟩] .integer
    apply refused
    intro buildable
    cases buildable.count

end Program

end Formula
