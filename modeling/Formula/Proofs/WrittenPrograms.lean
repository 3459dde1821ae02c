import Formula.Program.Codec
import Formula.Program.Compile
import Formula.Proofs.JsonValues

/-!
# Written programs

What is written of a program, in a line or over several, is read as the program
again, whatever its instructions are.
-/

namespace Formula

/-! ## Decoding what is encoded -/

theorem ValueType.ofJson_text (type : ValueType) :
    ValueType.ofJson (.text type.text) = .ok type := by
  cases type <;> rfl

theorem UnaryOp.asWord_title (op : UnaryOp) :
    Json.asWord UnaryOp.words (.text op.title) = .ok op := by
  cases op <;> rfl

theorem BinaryOp.asWord_title (op : BinaryOp) :
    Json.asWord BinaryOp.words (.text op.title) = .ok op := by
  cases op <;> rfl

theorem Json.asInt32_toInt (value : Int32) :
    Json.asInt32 (.integer value.toInt) = .ok value := by
  rw [Json.asInt32, int32?_eq_some_iff.mpr rfl]

/-- A member is taken in if the record has the field and no later member gives
it. -/
theorem Json.knownMembers_cons {fields : List String} {closed : Bool}
    {key : String} {value : Json} {rest : List (Option String × Json)}
    {known : List (String × Json)}
    (later : Json.knownMembers fields closed rest = .ok known)
    (isField : key ∈ fields) (once : known.lookup key = none) :
    Json.knownMembers fields closed ((some key, value) :: rest) =
      .ok ((key, value) :: known) := by
  simp only [Json.knownMembers, later, if_pos isField, bind, Except.bind]
  rw [once]
  rfl

/-- A record of two fields is read as these. -/
theorem Json.asRecord_record {first second : String}
    (different : first ≠ second) (left right : Json) (closed : Bool) :
    Json.asRecord [first, second] closed
        (.record [(first, left), (second, right)]) =
      .ok [(first, left), (second, right)] := by
  have last : Json.knownMembers [first, second] closed [(some second, right)] =
      .ok [(second, right)] :=
    Json.knownMembers_cons rfl (by simp) rfl
  exact Json.knownMembers_cons last (by simp) (by simp [different])

theorem Json.asList_map {α : Type} {encode : α → Json}
    {decode : Json → Except Json.Mismatch α}
    (inverse : ∀ item, decode (encode item) = .ok item) (items : List α) :
    Json.asList decode (.array (items.map encode)) = .ok items := by
  change (items.map encode).mapM decode = .ok items
  induction items with
  | nil => rfl
  | cons item items induction =>
      rw [List.map_cons, List.mapM_cons, inverse, induction]
      rfl

theorem Op.ofJson_toJson (op : Op) : Op.ofJson op.toJson = .ok op := by
  cases op with
  | int value =>
      change (Json.asInt32 (.integer value.toInt)).map Op.int = _
      rw [Json.asInt32_toInt]
      rfl
  | bool value => rfl
  | load name => rfl
  | unary op =>
      change (Json.asWord UnaryOp.words (.text op.title)).map Op.unary = _
      rw [UnaryOp.asWord_title]
      rfl
  | binary op =>
      change (Json.asWord BinaryOp.words (.text op.title)).map Op.binary = _
      rw [BinaryOp.asWord_title]
      rfl
  | coerce target =>
      change (ValueType.ofJson (.text target.text)).map Op.coerce = _
      rw [ValueType.ofJson_text]
      rfl

theorem Instruction.ofJson_toJson (instruction : Instruction) :
    Instruction.ofJson instruction.toJson = .ok instruction := by
  rw [Instruction.ofJson, Instruction.toJson, Json.asRecord_record (by decide)]
  -- both fields have been found, and their values are left to decode
  change (do
    let op ← Op.ofJson instruction.op.toJson
    let type ← ValueType.ofJson (.text instruction.type.text)
    return (⟨op, type⟩ : Instruction)) = _
  rw [Op.ofJson_toJson, ValueType.ofJson_text]
  rfl

namespace Program

theorem ofJson_toJson (program : Program) :
    ofJson program.toJson = .ok program := by
  rw [ofJson, toJson, Json.asRecord_record (by decide)]
  change (do
    let instructions ← Json.asList Instruction.ofJson
      (.array (program.instructions.map Instruction.toJson))
    let result ← ValueType.ofJson (.text program.result.text)
    return (⟨instructions, result⟩ : Program)) = _
  rw [Json.asList_map Instruction.ofJson_toJson, ValueType.ofJson_text]
  rfl

end Program

/-! ## Reading what is written -/

namespace Json

theorem plain_text (value : String) : Plain (.text value) :=
  .single (.text value)

theorem plain_record_singleton {key : String} {value : Json}
    (plain : Plain value) :
    Plain (.record [(key, value)]) := by
  apply Plain.record
  intro member inside
  cases List.mem_singleton.mp inside
  exact plain

theorem plain_record_pair {first second : String} {left right : Json}
    (one : Plain left) (other : Plain right) :
    Plain (.record [(first, left), (second, right)]) := by
  apply Plain.record
  rw [List.forall_mem_cons, List.forall_mem_singleton]
  exact ⟨one, other⟩

end Json

theorem Op.plain_toJson (op : Op) : Json.Plain op.toJson := by
  cases op with
  | int value => exact Json.plain_record_singleton (.single (.integer _))
  | bool value => exact Json.plain_record_singleton (.single (.bool _))
  | _ => exact Json.plain_record_singleton (Json.plain_text _)

theorem Instruction.plain_toJson (instruction : Instruction) :
    Json.Plain instruction.toJson :=
  Json.plain_record_pair instruction.op.plain_toJson (Json.plain_text _)

namespace Program

theorem plain_toJson (program : Program) : Json.Plain program.toJson := by
  apply Json.plain_record_pair
  · apply Json.Plain.array
    intro item inside
    obtain ⟨instruction, -, rfl⟩ := List.mem_map.mp inside
    exact instruction.plain_toJson
  · exact Json.plain_text _

theorem ofText_of_read? {text : String} {program : Program}
    (read : Json.read? text = some program.toJson) :
    ofText text = .ok program := by
  rw [ofText, Json.parse, read]
  exact ofJson_toJson program

/-- A program is read back from either written form, and so it compiles with the
same result. -/
theorem ofText_pretty_and_compact (program : Program) :
    ofText (Json.pretty program.toJson) = .ok program ∧
      ofText (Json.compact program.toJson) = .ok program ∧
      (ofText (Json.pretty program.toJson)).map compile = .ok program.compile ∧
      (ofText (Json.compact program.toJson)).map compile =
        .ok program.compile := by
  have pretty := ofText_of_read? program.plain_toJson.read?_pretty
  have compact := ofText_of_read? program.plain_toJson.read?_compact
  rw [pretty, compact]
  exact ⟨rfl, rfl, rfl, rfl⟩

end Program

end Formula
