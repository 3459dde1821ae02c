import Formula.Proofs.Composition

/-!
# Replacing tokens

The front of a source is cut into the same tokens whatever stands behind it, as
long as that begins with the same character.  And tokens that are operands by
themselves may each be replaced by several ones: if those bind tightly enough
and have the same value, so has the whole formula.
-/

namespace Formula

namespace Lexer

/-- The scanner finds the tokens, and behind them whatever `later` finds. -/
def Finds (lexer : Lexer) (tokens : List Token) (later : Lexer) : Prop :=
  lexer.scan = (tokens ++ later.scan.1, later.scan.2)

namespace Finds

variable {lexer middle later : Lexer} {token : Token} {tokens more : List Token}

theorem refl (lexer : Lexer) : lexer.Finds [] lexer := rfl

theorem cons (found : lexer.next = (.ok (some token), middle))
    (finds : middle.Finds tokens later) :
    lexer.Finds (token :: tokens) later := by
  rw [Finds, scan_some found, finds]
  rfl

theorem trans (finds : lexer.Finds tokens middle)
    (findsMore : middle.Finds more later) :
    lexer.Finds (tokens ++ more) later := by
  rw [Finds, finds, findsMore, List.append_assoc]

theorem tokens_eq_ok (finds : lexer.Finds tokens later)
    (found : later.tokens = .ok more) :
    lexer.tokens = .ok (tokens ++ more) := by
  rw [tokens_eq_scan] at found ⊢
  rw [finds]
  cases fault : later.scan.2 with
  | none =>
      rw [fault] at found
      rw [Except.ok.inj found]
      rfl
  | some error =>
      rw [fault] at found
      cases found

end Finds

end Lexer

namespace Layout

variable {last : Option TokenKind} {offset : Nat} {source : List Char}
  {front back : List Token}

/-- A source can be cut before any of its tokens.  What the scanner finds in
front of the cut does not depend on what stands behind it, apart from the first
character there. -/
theorem exists_cut (layout : Layout last offset source (front ++ back)) :
    ∃ before rest, source = before ++ rest ∧
      Layout (latestKind last front) (offset + byteLength before) rest back ∧
      ∀ other, other.head? = rest.head? →
        Lexer.Finds ⟨before ++ other, offset, last⟩ front
          ⟨other, offset + byteLength before, latestKind last front⟩ := by
  induction front generalizing last offset source with
  | nil => exact ⟨[], source, rfl, layout, fun _ _ => .refl _⟩
  | cons token front induction =>
      cases layout with
      | @token _ _ blanks after _ _ placed behind =>
          obtain ⟨before, rest, rfl, restLayout, finds⟩ := induction behind
          have position :
              token.index + byteLength token.text.toList + byteLength before =
                offset + byteLength
                  (blanks ++ token.text.toList ++ before) := by
            rw [placed.index, byteLength_append, byteLength_append]
            omega
          rw [position] at restLayout finds
          rw [latestKind_cons]
          refine ⟨blanks ++ token.text.toList ++ before, rest, by simp,
            restLayout, ?_⟩
          intro other sameHead
          have sameAfter :
              (before ++ other).head? = (before ++ rest).head? := by
            rw [List.head?_append, List.head?_append, sameHead]
          have placedBefore :
              token.Placed last offset blanks (before ++ other) :=
            { placed with
              ends := by
                rw [TokenKind.Ends, sameAfter]
                exact placed.ends }
          have noEquals : (before ++ other).head? ≠ some '=' := by
            rw [sameAfter]
            exact behind.head?_ne
          rw [List.append_assoc (blanks ++ token.text.toList)]
          exact .cons (Lexer.next_of_placed rfl placedBefore noEquals)
            (finds other sameHead)

end Layout

/-- Tokens that are no operands are replaced by tokens of the same kind, and
each operand by an expression of the same value, which no operator takes
apart. -/
structure KeepsValues (replace : Token → List Token) : Prop where
  operators : ∀ token, token.atom? = none →
    ∃ other, replace token = [other] ∧ other.kind = token.kind
  operands : ∀ token atom, token.atom? = some atom →
    ∃ tree, Spells 6 (replace token) tree ∧
      ∀ lookup, tree.denote lookup = atom.denote lookup

namespace KeepsValues

variable {replace : Token → List Token}

theorem exists_operator (keeps : KeepsValues replace) {token : Token}
    {kind : TokenKind} (spelled : token.kind = kind)
    (noOperand : token.atom? = none) :
    ∃ other, replace token = [other] ∧ other.kind = kind := by
  rw [← spelled]
  exact keeps.operators token noOperand

/-- What replaces the tokens of an expression spells one of the same value.  A
single token may become an expression with a prefix operator, which no layer of
binary operators tells from it. -/
theorem exists_spells (keeps : KeepsValues replace) {layer : Nat}
    {tokens : List Token} {tree : Tree} (spells : Spells layer tokens tree) :
    ∃ other, Spells (min layer 6) (tokens.flatMap replace) other ∧
      ∀ lookup, other.denote lookup = tree.denote lookup := by
  induction spells with
  | @atom token atom spelled =>
      obtain ⟨other, operand, same⟩ := keeps.operands token atom spelled
      refine ⟨other, ?_, same⟩
      rw [List.flatMap_singleton]
      exact operand
  | @group opener closer inner tree opens closes _ induction =>
      obtain ⟨first, openerReplaced, firstOpens⟩ :=
        keeps.exists_operator opens (by simp [Token.atom?, opens])
      obtain ⟨last, closerReplaced, lastCloses⟩ :=
        keeps.exists_operator closes (by simp [Token.atom?, closes])
      obtain ⟨other, innerSpells, same⟩ := induction
      refine ⟨other, ?_, same⟩
      have whole := Spells.group firstOpens lastCloses innerSpells
      simpa [openerReplaced, closerReplaced] using whole.tighter
  | @unary token op operand tree spelled _ induction =>
      obtain ⟨sign, replaced, kind⟩ :=
        keeps.exists_operator spelled (by simp [Token.atom?, spelled])
      obtain ⟨other, operandSpells, same⟩ := induction
      refine ⟨.unary sign op kind other, ?_, ?_⟩
      · simpa [replaced] using Spells.unary kind operandSpells
      · intro lookup
        rw [Tree.denote, Tree.denote, same]
  | @binary token op left right leftTree rightTree spelled _ _ leftInduction
      rightInduction =>
      obtain ⟨sign, replaced, kind⟩ :=
        keeps.exists_operator spelled (by simp [Token.atom?, spelled])
      obtain ⟨first, leftSpells, leftSame⟩ := leftInduction
      obtain ⟨second, rightSpells, rightSame⟩ := rightInduction
      have tight := op.layer_lt_six
      rw [Nat.min_eq_left (by omega)] at leftSpells rightSpells
      refine ⟨.binary sign op kind first second, ?_, ?_⟩
      · rw [Nat.min_eq_left (by omega)]
        simpa [replaced] using Spells.binary kind leftSpells rightSpells
      · intro lookup
        rw [Tree.denote, Tree.denote, leftSame, rightSame]
  | tighter _ induction =>
      obtain ⟨other, spells, same⟩ := induction
      exact ⟨other, spells.loosen (by omega), same⟩

end KeepsValues

end Formula
