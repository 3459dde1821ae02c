import Formula.Program.Build
import Formula.Proofs.Outcome

/-!
# Operands that share one instruction list

A program can also be built in a single instruction list.  An operand is then
no more than the offset at which its instructions begin, and a conversion is
inserted between the instructions of two operands.  `SharedCode.build` builds
in this way; since every conversion comes to stand exactly at the end of its
operand, it gives the same programs and the same faults as building from
separate fragments.
-/

namespace Formula

/-- An operand whose instructions begin at an offset and go on to where those
of the next operand begin. -/
structure SharedCode.Operand where
  start : Nat
  type : ValueType
  deriving DecidableEq

structure SharedCode where
  instructions : List Instruction := []
  /-- The latest operand stands first. -/
  operands : List SharedCode.Operand := []
  deriving DecidableEq

namespace SharedCode

/-- Inserts a conversion behind each operand of another type than the demanded
one.  The operands are given from the latest one on, whose instructions end
before `finish`; the result tells at which offset the earliest one begins. -/
def convert (demanded : ValueType) :
    List Operand → Nat → List Instruction → Nat × List Instruction
  | [], finish, instructions => (finish, instructions)
  | operand :: earlier, finish, instructions =>
    convert demanded earlier operand.start
      (if operand.type = demanded then instructions
        else instructions.insertIdx finish ⟨.coerce demanded, demanded⟩)

/-- Takes the latest operands away and converts them, but keeps their
instructions, of which the result tells where they begin. -/
def takeOperands (count : Nat) (demanded : ValueType) (shared : SharedCode) :
    Except ParseError (Nat × SharedCode) :=
  if shared.operands.length < count then
    .error (.internal (.missingOperands count shared.operands.length))
  else
    let (start, instructions) :=
      convert demanded (shared.operands.take count) shared.instructions.length
        shared.instructions
    .ok (start, ⟨instructions, shared.operands.drop count⟩)

/-- Adds an instruction that ends the instructions of an operand. -/
def addResult (start : Nat) (op : Op) (type : ValueType) (shared : SharedCode) :
    SharedCode :=
  ⟨shared.instructions ++ [⟨op, type⟩], ⟨start, type⟩ :: shared.operands⟩

def addLeaf (op : Op) (type : ValueType) (shared : SharedCode) : SharedCode :=
  shared.addResult shared.instructions.length op type

def push (shared : SharedCode) (token : Token) : Except ParseError SharedCode :=
  match token.kind with
  | .constant value => .ok (shared.addLeaf (.bool value) .boolean)
  | .number =>
    match token.value with
    | some value => .ok (shared.addLeaf (.int value) .integer)
    | none => .error (.internal .numberWithoutValue)
  | .name => .ok (shared.addLeaf (.load token.text) .integer)
  | .unary op => do
    let (start, below) ← shared.takeOperands 1 op.operandType
    return below.addResult start (.unary op) op.operandType
  | .binary op => do
    let (start, below) ← shared.takeOperands 2 op.operandType
    return below.addResult start (.binary op) op.resultType
  | .openParen | .closeParen => .error (.internal (.parenthesis token.index))

def build (tokens : List Token) (result : ValueType) :
    Except ParseError Program := do
  let shared ← tokens.foldlM push {}
  if shared.operands.length = 1 then
    let (_, whole) ← shared.takeOperands 1 result
    return { instructions := whole.instructions, result }
  else throw (.internal (.leftOverOperands shared.operands.length))

/-- The shared list of operands that have their instructions each to itself. -/
def ofFragments : List Fragment → SharedCode
  | [] => {}
  | fragment :: below =>
    let earlier := ofFragments below
    ⟨earlier.instructions ++ fragment.code,
      ⟨earlier.instructions.length, fragment.type⟩ :: earlier.operands⟩

@[simp] theorem length_operands_ofFragments (fragments : List Fragment) :
    (ofFragments fragments).operands.length = fragments.length := by
  induction fragments with
  | nil => rfl
  | cons fragment below induction => simp [ofFragments, induction]

theorem drop_operands_ofFragments (tops below : List Fragment) :
    (ofFragments (tops ++ below)).operands.drop tops.length =
      (ofFragments below).operands := by
  induction tops with
  | nil => rfl
  | cons fragment tops induction => simpa [ofFragments] using induction

/-- An insertion at the end of an operand leaves what is before it in place and
only moves what is `later`. -/
theorem insertIdx_length_append (before later : List Instruction)
    (instruction : Instruction) :
    (before ++ later).insertIdx before.length instruction =
      before ++ instruction :: later := by
  induction before with
  | nil => exact List.insertIdx_zero
  | cons first before induction =>
      rw [List.cons_append, List.length_cons, List.insertIdx_succ_cons,
        induction, List.cons_append]

/-- Conversion replaces the code of each operand by its converted code.  The
induction takes off the latest operand, and `later` is what has already been
converted behind the others. -/
theorem convert_ofFragments (demanded : ValueType) (tops below : List Fragment)
    (later : List Instruction) :
    convert demanded ((ofFragments (tops ++ below)).operands.take tops.length)
        (ofFragments (tops ++ below)).instructions.length
        ((ofFragments (tops ++ below)).instructions ++ later) =
      ((ofFragments below).instructions.length,
        (ofFragments below).instructions ++
          (tops.reverse.flatMap (·.converted demanded)) ++ later) := by
  induction tops generalizing later with
  | nil => simp [convert]
  | cons fragment tops induction =>
      have converted :
          (if fragment.type = demanded then
            (ofFragments (tops ++ below)).instructions ++ fragment.code ++ later
          else
            ((ofFragments (tops ++ below)).instructions ++ fragment.code ++
              later).insertIdx
                ((ofFragments (tops ++ below)).instructions ++
                  fragment.code).length ⟨.coerce demanded, demanded⟩) =
            (ofFragments (tops ++ below)).instructions ++
              (fragment.converted demanded ++ later) := by
        by_cases same : fragment.type = demanded
        · simp [Fragment.converted, same]
        · rw [if_neg same, insertIdx_length_append]
          simp [Fragment.converted, same]
      simp only [List.cons_append, ofFragments, List.length_cons,
        List.take_succ_cons, convert]
      rw [converted, induction]
      simp

theorem takeOperands_ofFragments (demanded : ValueType)
    (tops below : List Fragment) :
    (ofFragments (tops ++ below)).takeOperands tops.length demanded =
      .ok ((ofFragments below).instructions.length,
        ⟨(ofFragments below).instructions ++
          tops.reverse.flatMap (·.converted demanded),
          (ofFragments below).operands⟩) := by
  have enough :
      ¬ (ofFragments (tops ++ below)).operands.length < tops.length := by
    simp
  have converted := convert_ofFragments demanded tops below []
  rw [List.append_nil, List.append_nil] at converted
  rw [takeOperands, if_neg enough, converted, drop_operands_ofFragments]

theorem takeOperands_single (demanded : ValueType) (operand : Fragment)
    (below : List Fragment) :
    (ofFragments (operand :: below)).takeOperands 1 demanded =
      .ok ((ofFragments below).instructions.length,
        ⟨(ofFragments below).instructions ++ operand.converted demanded,
          (ofFragments below).operands⟩) := by
  simpa using takeOperands_ofFragments demanded [operand] below

theorem takeOperands_pair (demanded : ValueType) (left right : Fragment)
    (below : List Fragment) :
    (ofFragments (right :: left :: below)).takeOperands 2 demanded =
      .ok ((ofFragments below).instructions.length,
        ⟨(ofFragments below).instructions ++
          (left.converted demanded ++ right.converted demanded),
          (ofFragments below).operands⟩) := by
  simpa using takeOperands_ofFragments demanded [right, left] below

theorem takeOperands_missing {count : Nat} {few : List Fragment}
    (missing : few.length < count) (demanded : ValueType) :
    (ofFragments few).takeOperands count demanded =
      .error (.internal (.missingOperands count few.length)) := by
  simp [takeOperands, missing]

/-- A token does to the shared list what it does to the fragments. -/
theorem push_ofFragments (fragments : List Fragment) (token : Token) :
    (ofFragments fragments).push token =
      (Fragment.push fragments token).map ofFragments := by
  unfold push Fragment.push
  cases token.kind with
  | constant value => rfl
  | number => cases token.value <;> rfl
  | name => rfl
  | openParen => rfl
  | closeParen => rfl
  | unary op =>
      cases fragments with
      | nil => simp [takeOperands_missing, Except.map]
      | cons operand below =>
          simp only [takeOperands_single, ok_bind]
          simp [addResult, Except.map, ofFragments, Fragment.unary]
  | binary op =>
      rcases fragments with _ | ⟨right, _ | ⟨left, below⟩⟩
      · simp [takeOperands_missing, Except.map]
      · simp [takeOperands_missing, Except.map]
      · simp only [takeOperands_pair, ok_bind]
        simp [addResult, Except.map, ofFragments, Fragment.binary]

theorem foldlM_push_ofFragments (tokens : List Token)
    (fragments : List Fragment) :
    tokens.foldlM push (ofFragments fragments) =
      (tokens.foldlM Fragment.push fragments).map ofFragments := by
  induction tokens generalizing fragments with
  | nil => rfl
  | cons token tokens induction =>
      rw [List.foldlM_cons, List.foldlM_cons, push_ofFragments]
      cases Fragment.push fragments token with
      | error error => rfl
      | ok after => exact induction after

/-- Building in one list gives what building from separate fragments gives. -/
theorem build_eq_ofPostOrder (tokens : List Token) (result : ValueType) :
    build tokens result = Program.ofPostOrder tokens result := by
  have run : tokens.foldlM push {} =
      (tokens.foldlM Fragment.push []).map ofFragments :=
    foldlM_push_ofFragments tokens []
  rw [build, Program.ofPostOrder, run]
  cases tokens.foldlM Fragment.push [] with
  | error error => rfl
  | ok fragments =>
      rcases fragments with _ | ⟨fragment, _ | ⟨second, below⟩⟩
      · rfl
      · simp only [Except.map, ok_bind, length_operands_ofFragments,
          List.length_singleton, if_true, takeOperands_single]
        rfl
      · simp [Except.map]

end SharedCode

end Formula
