import Formula.Proofs.Diagnosis
import Formula.Proofs.Names

/-!
# One source and two types

A formula has a type of its own, and an expression of the other type is the same
program with one conversion behind it.  The requested type therefore decides
nothing else: neither whether a source compiles, nor its error, nor its names.
-/

namespace Formula

/-- The program with a conversion of its result behind it. -/
def Program.converted (program : Program) (target : ValueType) : Program where
  instructions := program.instructions ++ [⟨.coerce target, target⟩]
  result := target

@[simp] theorem Program.length_converted (program : Program)
    (target : ValueType) :
    (program.converted target).instructions.length =
      program.instructions.length + 1 := by
  simp [converted]

/-- The program of a tree for the type that it does not have is the one for its
own type with a conversion behind it. -/
theorem Tree.program_cases (tree : Tree) :
    (tree.type = .integer ∧
      tree.program .boolean = (tree.program .integer).converted .boolean) ∨
    (tree.type = .boolean ∧
      tree.program .integer = (tree.program .boolean).converted .integer) := by
  cases own : tree.type with
  | integer =>
      refine .inl ⟨rfl, ?_⟩
      simp [program, Program.converted, coercion, own]
  | boolean =>
      refine .inr ⟨rfl, ?_⟩
      simp [program, Program.converted, coercion, own]

namespace Value

theorem coerced_boolean_iff (value : Value) :
    value.coerced .boolean = true ↔ value.coerced .integer ≠ (0 : Int32) := by
  cases value with
  | integer number =>
      rw [coerced_boolean_integer]
      exact bne_iff_ne
  | boolean condition => cases condition <;> decide

theorem coerced_integer_cases {value : Value} (truth : value.type = .boolean) :
    value.coerced .integer = (0 : Int32) ∨
      value.coerced .integer = (1 : Int32) := by
  cases value with
  | integer number => cases truth
  | boolean condition => cases condition <;> simp [coerced]

end Value

namespace Expression

/-- The expressions differ by one conversion, and one is true exactly where the
other is not zero. -/
structure Agree (number : Expression .integer)
    (condition : Expression .boolean) : Prop where
  names : number.names = condition.names
  results : number.program.result = .integer ∧
    condition.program.result = .boolean
  programs : condition.program = number.program.converted .boolean ∨
    number.program = condition.program.converted .integer
  values : ∀ {Table : Type} [ValueTable Table] (table : Table),
    condition.evaluate table = true ↔ number.evaluate table ≠ (0 : Int32)
  indicates :
    condition.program.instructions.length <
        number.program.instructions.length →
      ∀ {Table : Type} [ValueTable Table] (table : Table),
        number.evaluate table = (0 : Int32) ∨
          number.evaluate table = (1 : Int32)

theorem agree_of_means {number : Expression .integer}
    {condition : Expression .boolean} {tokens : List Token} {tree : Tree}
    (numberMeans : number.Means tokens tree)
    (conditionMeans : condition.Means tokens tree) :
    Agree number condition where
  names := by rw [numberMeans.names, conditionMeans.names]
  results := by
    rw [numberMeans.program, conditionMeans.program]
    exact ⟨rfl, rfl⟩
  programs := by
    rw [numberMeans.program, conditionMeans.program]
    exact tree.program_cases.imp And.right And.right
  values := by
    intro Table _ table
    rw [numberMeans.value, conditionMeans.value]
    exact Value.coerced_boolean_iff _
  indicates := by
    intro longer Table _ table
    rw [numberMeans.program, conditionMeans.program] at longer
    rw [numberMeans.value]
    apply Value.coerced_integer_cases
    rw [Tree.type_denote]
    rcases tree.program_cases with ⟨-, converted⟩ | ⟨truth, -⟩
    · -- then it is the program of the condition that is longer
      rw [converted, Program.length_converted] at longer
      omega
    · exact truth

/-- A source fails for both types with the same error, or it compiles for both
with the same names, programs that one conversion tells apart, and values that
are each other's conversions. -/
theorem ofSource_types_agree (source : String) :
    (∃ error, ofSource .integer source = .error error ∧
      ofSource .boolean source = .error error) ∨
    ∃ number condition, ofSource .integer source = .ok number ∧
      ofSource .boolean source = .ok condition ∧ Agree number condition := by
  cases compiled : ofSource .integer source with
  | error error =>
      have refused := sentence_error_of_ofSource .integer compiled
      exact .inl ⟨error, rfl, ofSource_of_sentence_error .boolean refused⟩
  | ok number =>
      obtain ⟨tokens, tree, reading, numberMeans⟩ := exists_reading compiled
      obtain ⟨condition, compiles, conditionMeans⟩ :=
        reading.exists_ofSource .boolean
      exact .inr ⟨number, condition, rfl, compiles,
        agree_of_means numberMeans conditionMeans⟩

end Expression

end Formula
