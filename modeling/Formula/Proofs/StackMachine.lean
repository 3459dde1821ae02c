import Formula.Program.Compile
import Formula.Proofs.Arithmetic
import Formula.Proofs.Outcome

/-!
# Programs on a stack machine

Two plain readings of a program stand beside its compilation: a check that runs
over the types on the stack, and a machine that runs over the values on it.
A program compiles exactly if the check accepts it, and the function that it
compiles to gives what the machine leaves.
-/

namespace Formula

namespace Op

/-- The types of the operands that an operation takes, the topmost first. -/
def operandTypes : Op → List ValueType
  | .int _ | .bool _ | .load _ => []
  | .unary op => [op.operandType]
  | .binary op => [op.operandType, op.operandType]
  | .coerce .integer => [.boolean]
  | .coerce .boolean => [.integer]

/-- The type of the value that an operation leaves. -/
def resultType : Op → ValueType
  | .int _ | .load _ => .integer
  | .bool _ => .boolean
  | .unary op => op.operandType
  | .binary op => op.resultType
  | .coerce target => target

/-- The stack after an operation; nothing if the machine is stuck because an
operand is missing or has the wrong type. -/
def execute? (lookup : String → Option Int32) :
    Op → List Value → Option (List Value)
  | .int value, stack => some (.integer value :: stack)
  | .bool value, stack => some (.boolean value :: stack)
  | .load name, stack => some (.integer ((lookup name).getD 0) :: stack)
  | .unary op, x :: below => do
    let x ← x.as? op.operandType
    return Value.of op.operandType (op.denote x) :: below
  | .binary op, y :: x :: below => do
    let x ← x.as? op.operandType
    let y ← y.as? op.operandType
    return Value.of op.resultType (op.denote x y) :: below
  | .coerce target, x :: below =>
    if x.type = target then none
    else some (Value.of target (x.coerced target) :: below)
  | .unary _, [] | .binary _, [] | .binary _, [_] | .coerce _, [] => none

end Op

/-- The types on the stack after an instruction; nothing if the types of its
operands are not on top, or if it declares another type than it leaves. -/
def Instruction.check? (types : List ValueType) (instruction : Instruction) :
    Option (List ValueType) :=
  if instruction.op.operandTypes <+: types ∧
      instruction.op.resultType = instruction.type then
    some (instruction.type :: types.drop instruction.op.operandTypes.length)
  else none

/-- The stack after an instruction of a running machine. -/
def Instruction.execute? (lookup : String → Option Int32) (stack : List Value)
    (instruction : Instruction) : Option (List Value) :=
  instruction.op.execute? lookup stack

namespace Program

/-- The check accepts every instruction, and leaves the declared type alone. -/
def WellTyped (program : Program) : Prop :=
  program.instructions.foldlM Instruction.check? [] = some [program.result]

instance : DecidablePred WellTyped := fun program =>
  inferInstanceAs (Decidable (_ = some [program.result]))

/-- The stack that a run of the machine leaves. -/
def run? (program : Program) (lookup : String → Option Int32) :
    Option (List Value) :=
  program.instructions.foldlM (Instruction.execute? lookup) []

end Program

/-- The values that names have by a look-up. -/
abbrev Valuation.ofLookup (lookup : String → Option Int32) : Valuation :=
  fun name => (lookup name).getD 0

namespace Meaning

/-- The value for given values of names. -/
def read (valuation : Valuation) (meaning : Meaning) : Value :=
  Value.of meaning.type (meaning.value valuation)

/-- Taking an operand off the stack succeeds exactly if one of the right type
is on top. -/
theorem pop_cases (type : ValueType) (stack : List Meaning) :
    (∃ value below, stack = ⟨type, value⟩ :: below ∧
      pop type stack = .ok (value, below)) ∨
    (¬ [type] <+: stack.map Meaning.type ∧
      ∃ fault, pop type stack = .error (.internal fault)) := by
  rcases stack with _ | ⟨⟨top, value⟩, below⟩
  · exact .inr ⟨by simp, _, rfl⟩
  · cases type <;> cases top
    · exact .inl ⟨value, below, rfl, rfl⟩
    · exact .inr ⟨by simp, _, rfl⟩
    · exact .inr ⟨by simp, _, rfl⟩
    · exact .inl ⟨value, below, rfl, rfl⟩

/-- An operation finds its operands on a stack and leaves `result` in their
place, and the machine leaves the value of `result`. -/
structure Applies (op : Op) (stack : List Meaning) (result : Meaning) :
    Prop where
  succeeds :
    apply op stack = .ok (result, stack.drop op.operandTypes.length)
  operands : op.operandTypes <+: stack.map Meaning.type
  type_eq : result.type = op.resultType
  executes : ∀ lookup : String → Option Int32,
    op.execute? lookup (stack.map (read (.ofLookup lookup))) =
      some ((result :: stack.drop op.operandTypes.length).map
        (read (.ofLookup lookup)))

/-- An operation does not find its operands on a stack. -/
structure Refuses (op : Op) (stack : List Meaning) : Prop where
  missing : ¬ op.operandTypes <+: stack.map Meaning.type
  fails : ∃ fault, apply op stack = .error (.internal fault)

theorem unary_cases (op : UnaryOp) (stack : List Meaning) :
    (∃ result, Applies (.unary op) stack result) ∨
      Refuses (.unary op) stack := by
  rcases pop_cases op.operandType stack with
    ⟨x, below, rfl, popped⟩ | ⟨missing, fault, failed⟩
  · refine .inl ⟨⟨op.operandType, fun valuation => op.apply (x valuation)⟩, ?_⟩
    constructor
    · rw [apply, popped]
      rfl
    · simp [Op.operandTypes]
    · rfl
    · intro lookup
      simp [Op.execute?, Op.operandTypes, read, op.denote_eq_apply]
  · refine .inr ⟨missing, fault, ?_⟩
    rw [apply, failed]
    rfl

theorem binary_cases (op : BinaryOp) (stack : List Meaning) :
    (∃ result, Applies (.binary op) stack result) ∨
      Refuses (.binary op) stack := by
  rcases pop_cases op.operandType stack with
    ⟨y, rest, rfl, poppedRight⟩ | ⟨missing, fault, failed⟩
  · rcases pop_cases op.operandType rest with
      ⟨x, below, rfl, poppedLeft⟩ | ⟨missing, fault, failed⟩
    · refine .inl ⟨⟨op.resultType,
        fun valuation => op.apply (x valuation) (y valuation)⟩, ?_⟩
      constructor
      · simp only [apply, poppedRight, ok_bind, poppedLeft]
        rfl
      · simp [Op.operandTypes]
      · rfl
      · intro lookup
        simp [Op.execute?, Op.operandTypes, read, op.denote_eq_apply]
    · refine .inr ⟨?_, fault, ?_⟩
      · simpa [Op.operandTypes] using missing
      · simp only [apply, poppedRight, ok_bind, failed, error_bind]
  · refine .inr ⟨?_, fault, ?_⟩
    · intro found
      exact missing ((List.prefix_append _ [op.operandType]).trans found)
    · rw [apply, failed]
      rfl

theorem coerce_cases (target : ValueType) (stack : List Meaning) :
    (∃ result, Applies (.coerce target) stack result) ∨
      Refuses (.coerce target) stack := by
  cases target with
  | integer =>
      rcases pop_cases .boolean stack with
        ⟨x, below, rfl, popped⟩ | ⟨missing, fault, failed⟩
      · refine .inl ⟨⟨.integer, fun valuation => indicator (x valuation)⟩, ?_⟩
        constructor
        · rw [apply, popped]
          rfl
        · simp [Op.operandTypes]
        · rfl
        · intro lookup
          rfl
      · refine .inr ⟨missing, fault, ?_⟩
        rw [apply, failed]
        rfl
  | boolean =>
      rcases pop_cases .integer stack with
        ⟨x, below, rfl, popped⟩ | ⟨missing, fault, failed⟩
      · refine .inl ⟨⟨.boolean, fun valuation => truth (x valuation)⟩, ?_⟩
        constructor
        · rw [apply, popped]
          rfl
        · simp [Op.operandTypes]
        · rfl
        · intro lookup
          simp only [← Value.coerced_boolean_integer]
          rfl
      · refine .inr ⟨missing, fault, ?_⟩
        rw [apply, failed]
        rfl

/-- An operation is applied exactly if the check finds its operand types. -/
theorem apply_cases (op : Op) (stack : List Meaning) :
    (∃ result, Applies op stack result) ∨ Refuses op stack := by
  cases op with
  | int value =>
      exact .inl ⟨_, rfl, by simp [Op.operandTypes], rfl, fun _ => rfl⟩
  | bool value =>
      exact .inl ⟨_, rfl, by simp [Op.operandTypes], rfl, fun _ => rfl⟩
  | load name =>
      exact .inl ⟨_, rfl, by simp [Op.operandTypes], rfl, fun _ => rfl⟩
  | unary op => exact unary_cases op stack
  | binary op => exact binary_cases op stack
  | coerce target => exact coerce_cases target stack

/-- Instructions take one stack to another, in the compiler, in the check and
in the machine alike. -/
structure Runs (instructions : List Instruction) (stack after : List Meaning) :
    Prop where
  succeeds : instructions.foldlM step stack = .ok after
  checks :
    instructions.foldlM Instruction.check? (stack.map Meaning.type) =
      some (after.map Meaning.type)
  executes : ∀ lookup : String → Option Int32,
    instructions.foldlM (Instruction.execute? lookup)
        (stack.map (read (.ofLookup lookup))) =
      some (after.map (read (.ofLookup lookup)))

/-- Instructions fail on a stack, in the compiler and in the check alike. -/
structure Fails (instructions : List Instruction) (stack : List Meaning) :
    Prop where
  refused : ∃ fault, instructions.foldlM step stack = .error (.internal fault)
  unchecked :
    instructions.foldlM Instruction.check? (stack.map Meaning.type) = none

theorem Runs.nil (stack : List Meaning) : Runs [] stack stack :=
  ⟨rfl, rfl, fun _ => rfl⟩

theorem Runs.append {front back : List Instruction}
    {stack middle after : List Meaning}
    (first : Runs front stack middle) (second : Runs back middle after) :
    Runs (front ++ back) stack after := by
  constructor
  · rw [List.foldlM_append, first.succeeds]
    exact second.succeeds
  · rw [List.foldlM_append, first.checks]
    exact second.checks
  · intro lookup
    rw [List.foldlM_append, first.executes]
    exact second.executes lookup

theorem step_cases (instruction : Instruction) (stack : List Meaning) :
    (∃ after, Runs [instruction] stack after) ∨ Fails [instruction] stack := by
  rcases apply_cases instruction.op stack with
    ⟨result, applies⟩ | ⟨missing, fault, failed⟩
  · by_cases declared : result.type = instruction.type
    · refine .inl ⟨result :: stack.drop instruction.op.operandTypes.length, ?_⟩
      constructor
      · simp [step, applies.succeeds, declared]
      · have checked : instruction.op.resultType = instruction.type := by
          rw [← applies.type_eq, declared]
        simp [Instruction.check?, applies.operands, checked, declared]
      · intro lookup
        simpa [Instruction.execute?] using applies.executes lookup
    · refine .inr ⟨⟨.instructionType instruction.op instruction.type
        result.type, ?_⟩, ?_⟩
      · simp [step, applies.succeeds, declared]
      · rw [applies.type_eq] at declared
        simp [Instruction.check?, declared]
  · refine .inr ⟨⟨fault, ?_⟩, ?_⟩
    · simp [step, failed]
    · simp [Instruction.check?, missing]

theorem Fails.cons {instruction : Instruction}
    {instructions : List Instruction} {stack : List Meaning}
    (fails : Fails [instruction] stack) :
    Fails (instruction :: instructions) stack := by
  obtain ⟨⟨fault, refused⟩, unchecked⟩ := fails
  constructor
  · refine ⟨fault, ?_⟩
    rw [← List.singleton_append, List.foldlM_append, refused, error_bind]
  · rw [← List.singleton_append, List.foldlM_append, unchecked]
    rfl

theorem Fails.after {front back : List Instruction}
    {stack middle : List Meaning}
    (first : Runs front stack middle) (fails : Fails back middle) :
    Fails (front ++ back) stack := by
  obtain ⟨⟨fault, refused⟩, unchecked⟩ := fails
  constructor
  · refine ⟨fault, ?_⟩
    rw [List.foldlM_append, first.succeeds, ok_bind, refused]
  · rw [List.foldlM_append, first.checks]
    exact unchecked

theorem run_cases (instructions : List Instruction) (stack : List Meaning) :
    (∃ after, Runs instructions stack after) ∨ Fails instructions stack := by
  induction instructions generalizing stack with
  | nil => exact .inl ⟨stack, Runs.nil stack⟩
  | cons instruction instructions induction =>
      rcases step_cases instruction stack with ⟨middle, first⟩ | fails
      · rcases induction middle with ⟨after, second⟩ | fails
        · exact .inl ⟨after, first.append second⟩
        · exact .inr (fails.after first)
      · exact .inr fails.cons

end Meaning

namespace Program

theorem compile_cases (program : Program) :
    (∃ result, program.compile = .ok result ∧ program.WellTyped ∧
      result.type = program.result ∧
      ∀ lookup : String → Option Int32,
        program.run? lookup = some [result.read (.ofLookup lookup)]) ∨
    (¬ program.WellTyped ∧
      ∃ fault, program.compile = .error (.internal fault)) := by
  rcases Meaning.run_cases program.instructions [] with
    ⟨after, succeeds, checks, executes⟩ | ⟨⟨fault, refused⟩, unchecked⟩
  · have leaves : program.WellTyped ↔
        after.map Meaning.type = [program.result] := by
      rw [WellTyped]
      exact checks ▸ Option.some_inj
    rcases after with _ | ⟨result, _ | ⟨second, below⟩⟩
    · refine .inr ⟨by simp [leaves], .emptyProgram, ?_⟩
      simp [compile, succeeds]
    · by_cases declared : result.type = program.result
      · refine .inl ⟨result, ?_, by simp [leaves, declared], declared, executes⟩
        simp [compile, succeeds, declared]
      · refine .inr ⟨by simp [leaves, declared],
          .resultType program.result result.type, ?_⟩
        simp [compile, succeeds, declared]
    · refine .inr ⟨by simp [leaves],
        .leftOverValues (second :: below).length, ?_⟩
      simp [compile, succeeds]
  · refine .inr ⟨?_, fault, ?_⟩
    · intro typed
      rw [WellTyped] at typed
      cases unchecked.symm.trans typed
    · simp [compile, refused]

/-- A program compiles exactly if the check accepts it.  The function that it
compiles to then has the declared type and gives, for every table, the one value
that the machine leaves; otherwise the error is an internal one. -/
theorem compile_iff_wellTyped_and_run (program : Program) :
    ((∃ result, program.compile = .ok result) ↔ program.WellTyped) ∧
    (∀ result, program.compile = .ok result →
      result.type = program.result ∧
      ∀ {Table : Type} [ValueTable Table] (table : Table),
        program.run? (ValueTable.value? table) =
          some [Value.of result.type (result.value (valuation table))]) ∧
    (¬ program.WellTyped →
      ∃ fault, program.compile = .error (.internal fault)) := by
  rcases compile_cases program with
    ⟨result, compiled, typed, declared, executes⟩ | ⟨untyped, fault, refused⟩
  · refine ⟨⟨fun _ => typed, fun _ => ⟨result, compiled⟩⟩, ?_,
      fun untyped => absurd typed untyped⟩
    intro other otherCompiled
    obtain rfl : result = other :=
      Except.ok.inj (compiled.symm.trans otherCompiled)
    refine ⟨declared, ?_⟩
    intro Table instTable table
    exact executes (ValueTable.value? table)
  · refine ⟨⟨?_, fun typed => absurd typed untyped⟩, ?_,
      fun _ => ⟨fault, refused⟩⟩
    · rintro ⟨result, compiled⟩
      cases refused.symm.trans compiled
    · intro result compiled
      cases refused.symm.trans compiled

/-- `x % 7`, converted to a boolean, compiles and runs on the table without
names; the negation of a boolean does not compile. -/
theorem compile_remainder_not_negation :
    (∃ result,
      compile
        { instructions :=
            [⟨.load "x", .integer⟩, ⟨.int 7, .integer⟩,
              ⟨.binary .modulo, .integer⟩, ⟨.coerce .boolean, .boolean⟩]
          result := .boolean } = .ok result ∧
      result.type = .boolean ∧
      Value.of result.type (result.value (valuation NoValues.mk)) =
        .boolean false) ∧
    ∃ fault,
      compile
        { instructions := [⟨.bool true, .boolean⟩, ⟨.unary .negate, .integer⟩]
          result := .integer } = .error (.internal fault) := by
  constructor
  · obtain ⟨accepted, runs, -⟩ := compile_iff_wellTyped_and_run
      { instructions :=
          [⟨.load "x", .integer⟩, ⟨.int 7, .integer⟩,
            ⟨.binary .modulo, .integer⟩, ⟨.coerce .boolean, .boolean⟩]
        result := .boolean }
    obtain ⟨result, compiled⟩ := accepted.mpr (by decide)
    obtain ⟨declared, run⟩ := runs result compiled
    refine ⟨result, compiled, declared, ?_⟩
    have left : [Value.boolean false] =
        [Value.of result.type (result.value (valuation NoValues.mk))] :=
      Option.some.inj (run NoValues.mk)
    exact (List.singleton_inj.mp left).symm
  · exact (compile_iff_wellTyped_and_run
      { instructions := [⟨.bool true, .boolean⟩, ⟨.unary .negate, .integer⟩]
        result := .integer }).2.2 (by decide)

end Program

end Formula
