import Formula.Text.Offset

/-!
# Parentheses in a text

`Balanced` says that the parentheses of a text pair up, and `Unclosed` which
ones are left open.  Both look at characters only and know nothing of tokens.
-/

namespace Formula

/-- Every parenthesis of the text has its partner in it. -/
inductive Balanced : List Char → Prop where
  | nil : Balanced []
  | other {c : Char} : c ≠ '(' → c ≠ ')' → Balanced [c]
  | group {inner : List Char} :
      Balanced inner → Balanced ('(' :: (inner ++ [')']))
  | append {front back : List Char} :
      Balanced front → Balanced back → Balanced (front ++ back)

/-- `Unclosed text openers`: the opening parentheses that nothing in the text
closes stand at the given offsets, the innermost one first. -/
inductive Unclosed : List Char → List Nat → Prop where
  | balanced {text : List Char} : Balanced text → Unclosed text []
  | opened {before inside : List Char} {openers : List Nat} :
      Unclosed before openers → Balanced inside →
      Unclosed (before ++ '(' :: inside) (byteLength before :: openers)

theorem Balanced.of_forall {text : List Char}
    (other : ∀ c ∈ text, c ≠ '(' ∧ c ≠ ')') : Balanced text := by
  induction text with
  | nil => exact .nil
  | cons c text induction =>
      obtain ⟨first, rest⟩ := List.forall_mem_cons.mp other
      exact (Balanced.other first.1 first.2).append (induction rest)

namespace Unclosed

variable {text more : List Char} {openers : List Nat}

theorem of_nil (unclosed : Unclosed text []) : Balanced text := by
  cases unclosed with
  | balanced balanced => exact balanced

theorem exists_opener {index : Nat}
    (unclosed : Unclosed text (index :: openers)) :
    ∃ before inside, text = before ++ '(' :: inside ∧
      index = byteLength before ∧ Balanced inside := by
  cases unclosed with
  | @opened before inside _ _ balanced =>
      exact ⟨before, inside, rfl, rfl, balanced⟩

theorem openers_eq_nil (unclosed : Unclosed [] openers) : openers = [] := by
  cases openers with
  | nil => rfl
  | cons index openers =>
      obtain ⟨before, inside, whole, -⟩ := unclosed.exists_opener
      simp at whole

theorem append (unclosed : Unclosed text openers) (balanced : Balanced more) :
    Unclosed (text ++ more) openers := by
  cases unclosed with
  | balanced front => exact .balanced (front.append balanced)
  | opened outer inside =>
      simpa using Unclosed.opened outer (inside.append balanced)

theorem opener (unclosed : Unclosed text openers) :
    Unclosed (text ++ ['(']) (byteLength text :: openers) :=
  .opened unclosed .nil

theorem closer {index : Nat} (unclosed : Unclosed text (index :: openers)) :
    Unclosed (text ++ [')']) openers := by
  cases unclosed with
  | opened outer inside => simpa using outer.append inside.group

end Unclosed

end Formula
