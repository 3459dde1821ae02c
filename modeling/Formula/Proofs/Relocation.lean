import Formula.Proofs.Layout
import Formula.Proofs.Names

/-!
# Moving tokens along

A source that becomes part of a longer one keeps its tokens, except that they
stand further back.  Where a token stands plays no part in the tree that the
tokens spell, in its program and in its value.
-/

namespace Formula

namespace Token

/-- The token further back in a source. -/
def moved (distance : Nat) (token : Token) : Token :=
  { token with index := token.index + distance }

@[simp] theorem kind_moved (distance : Nat) (token : Token) :
    (token.moved distance).kind = token.kind :=
  rfl

@[simp] theorem name?_moved (distance : Nat) (token : Token) :
    (token.moved distance).name? = token.name? :=
  rfl

end Token

theorem kinds_moved (distance : Nat) (tokens : List Token) :
    (tokens.map (Token.moved distance)).map Token.kind =
      tokens.map Token.kind := by
  simp [Function.comp_def]

theorem namesIn_moved (distance : Nat) (tokens : List Token) :
    namesIn (tokens.map (Token.moved distance)) = namesIn tokens := by
  simp [namesIn, List.filterMap_map, Function.comp_def]

namespace Tree

/-- The tree with all its tokens further back. -/
def moved (distance : Nat) : Tree → Tree
  | .leaf token atom spelled => .leaf (token.moved distance) atom spelled
  | .unary token op spelled operand =>
    .unary (token.moved distance) op spelled (operand.moved distance)
  | .binary token op spelled left right =>
    .binary (token.moved distance) op spelled (left.moved distance)
      (right.moved distance)

variable (distance : Nat) (tree : Tree)

@[simp] theorem type_moved : (tree.moved distance).type = tree.type := by
  cases tree <;> rfl

@[simp] theorem code_moved : (tree.moved distance).code = tree.code := by
  induction tree with
  | leaf token atom spelled => rfl
  | unary token op spelled operand induction =>
      simp only [moved, code, induction, type_moved]
  | binary token op spelled left right leftInduction rightInduction =>
      simp only [moved, code, leftInduction, rightInduction, type_moved]

@[simp] theorem program_moved (result : ValueType) :
    (tree.moved distance).program result = tree.program result := by
  simp only [program, code_moved, type_moved]

@[simp] theorem denote_moved (lookup : String → Option Int32) :
    (tree.moved distance).denote lookup = tree.denote lookup := by
  induction tree with
  | leaf token atom spelled => rfl
  | unary token op spelled operand induction =>
      simp only [moved, denote, induction]
  | binary token op spelled left right leftInduction rightInduction =>
      simp only [moved, denote, leftInduction, rightInduction]

end Tree

theorem Spells.moved {layer : Nat} {tokens : List Token} {tree : Tree}
    (spells : Spells layer tokens tree) (distance : Nat) :
    Spells layer (tokens.map (Token.moved distance)) (tree.moved distance) := by
  induction spells with
  | @atom token atom spelled =>
      have kept : (token.moved distance).atom? = some atom := spelled
      exact Spells.atom kept
  | @group opener closer inner tree opens closes _ induction =>
      have opensMoved : (opener.moved distance).kind = .openParen := opens
      have closesMoved : (closer.moved distance).kind = .closeParen := closes
      simpa using Spells.group opensMoved closesMoved induction
  | @unary token op operand tree spelled _ induction =>
      have kept : (token.moved distance).kind = .unary op := spelled
      exact Spells.unary kept induction
  | @binary token op left right leftTree rightTree spelled _ _ leftInduction
      rightInduction =>
      have kept : (token.moved distance).kind = .binary op := spelled
      rw [List.map_append, List.map_cons]
      exact Spells.binary kept leftInduction rightInduction
  | tighter _ induction => exact induction.tighter

theorem Layout.moved {last : Option TokenKind} {offset : Nat}
    {source : List Char} {tokens : List Token}
    (layout : Layout last offset source tokens) (distance : Nat) :
    Layout last (offset + distance) source
      (tokens.map (Token.moved distance)) := by
  induction layout with
  | blanks blank => exact .blanks blank
  | @token last offset blanks after token tokens placed _ induction =>
      have index : (token.moved distance).index =
          offset + distance + byteLength blanks := by
        have start := placed.index
        simp only [Token.moved]
        omega
      have placedMoved :
          (token.moved distance).Placed last (offset + distance) blanks after :=
        { placed with index := index }
      have behind : token.index + byteLength token.text.toList + distance =
          (token.moved distance).index +
            byteLength (token.moved distance).text.toList := by
        simp only [Token.moved]
        omega
      rw [behind] at induction
      exact .token placedMoved induction

end Formula
