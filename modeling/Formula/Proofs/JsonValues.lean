import Formula.Proofs.JsonLexemes

/-!
# Written JSON values

A value is written as the lexemes that it consists of, and blanks between them
make no difference.  So what is read of a written value, in a line or over
several, are its lexemes, and from these the value is put together again.
-/

namespace Formula.Json

/-! ## The lexemes of a value -/

/-- The lexemes that a value consists of. -/
def lexemes : Json → List Lexeme
  | .null => [.simple .null]
  | .bool value => [.simple (.bool value)]
  | .integer value => [.simple (.integer value)]
  | .decimal spelling => [.simple (.decimal spelling)]
  | .string text => [.string text]
  | .array items =>
    .openBracket ::
      ([.comma].intercalate (items.map lexemes) ++ [.closeBracket])
  | .object members =>
    .openBrace ::
      ([.comma].intercalate
          (members.map fun member =>
            .string member.1 :: .colon :: lexemes member.2) ++
        [.closeBrace])
termination_by value => sizeOf value
decreasing_by
  · decreasing_tactic
  · rename_i inside
    have smaller := List.sizeOf_lt_of_mem inside
    obtain ⟨key, value⟩ := member
    simp only [Prod.mk.sizeOf_spec, object.sizeOf_spec] at smaller ⊢
    omega

/-- A value that is neither an array nor an object: a constant, an integer or a
text. -/
inductive Single : Json → Prop where
  | null : Single .null
  | bool (value : Bool) : Single (.bool value)
  | integer (value : Int) : Single (.integer value)
  | text (value : String) : Single (.text value)

/-- All strings in a value denote texts, and all its numbers are integers. -/
inductive Plain : Json → Prop where
  | single {value : Json} : Single value → Plain value
  | array {items : List Json} :
      (∀ item ∈ items, Plain item) → Plain (.array items)
  | record {members : List (String × Json)} :
      (∀ member ∈ members, Plain member.2) → Plain (.record members)

/-- The lexemes of a member of a record. -/
def memberLexemes (member : String × Json) : List Lexeme :=
  .string (some member.1) :: .colon :: lexemes member.2

theorem lexemes_array (items : List Json) :
    lexemes (.array items) =
      .openBracket ::
        ([.comma].intercalate (items.map lexemes) ++ [.closeBracket]) := by
  rw [lexemes]

theorem lexemes_record (members : List (String × Json)) :
    lexemes (.record members) =
      .openBrace ::
        ([.comma].intercalate (members.map memberLexemes) ++
          [.closeBrace]) := by
  rw [record, lexemes, List.map_map]
  rfl

/-- Separated parts begin with the first of them. -/
theorem exists_intercalate_cons {α : Type} (separator first : List α)
    (rest : List (List α)) :
    ∃ later, separator.intercalate (first :: rest) = first ++ later := by
  cases rest with
  | nil => exact ⟨[], by simp⟩
  | cons next rest =>
      refine ⟨separator ++ separator.intercalate (next :: rest), ?_⟩
      rw [List.intercalate_cons_cons, List.append_assoc]

/-! ## Putting a value together -/

namespace Progress

/-- The value is put together of its lexemes wherever a value may come next. -/
def Completes (value : Json) : Prop :=
  ∀ around, (lexemes value).foldlM step? ⟨around, .value⟩ =
    some ⟨around, .complete value⟩

/-- What is no closing bracket begins the first item of an array. -/
theorem foldlM_firstItem (value : Json) (later : List Lexeme)
    (around : List Open) :
    (lexemes value ++ later).foldlM step? ⟨around, .firstItem⟩ =
      (lexemes value ++ later).foldlM step? ⟨around, .value⟩ := by
  -- only the first lexeme counts, and `step?` looks at what is open before it
  cases value <;> rw [lexemes] <;>
    rcases around with _ | ⟨_ | _, around⟩ <;> rfl

/-- Items with commas between them and a closing bracket complete an array. -/
theorem foldlM_items {item : Json} {rest : List Json} (first : Completes item)
    (others : ∀ later ∈ rest, Completes later) (done : List Json)
    (around : List Open) :
    ([.comma].intercalate ((item :: rest).map lexemes) ++
        [Lexeme.closeBracket]).foldlM step? ⟨.array done :: around, .value⟩ =
      some ⟨around, .complete (.array (done.reverse ++ item :: rest))⟩ := by
  induction rest generalizing item done with
  | nil =>
      rw [List.map_singleton, List.intercalate_singleton, List.foldlM_append,
        first, ← List.reverse_cons]
      rfl
  | cons next rest induction =>
      obtain ⟨nextCompletes, restComplete⟩ := List.forall_mem_cons.mp others
      have later := induction nextCompletes restComplete (item :: done)
      rw [List.reverse_cons, List.append_assoc] at later
      rw [List.map_cons, List.map_cons, List.intercalate_cons_cons,
        List.append_assoc, List.append_assoc, List.foldlM_append, first]
      exact later

theorem foldlM_memberLexemes {member : String × Json}
    (completes : Completes member.2) (done : List (Option String × Json))
    (around : List Open) (later : List Lexeme) :
    (memberLexemes member ++ later).foldlM step? ⟨around, .key done⟩ =
      later.foldlM step?
        ⟨.object done (some member.1) :: around, .complete member.2⟩ := by
  change (lexemes member.2 ++ later).foldlM step?
    ⟨.object done (some member.1) :: around, .value⟩ = _
  rw [List.foldlM_append, completes]
  rfl

/-- Members with commas between them and a closing brace complete an object. -/
theorem foldlM_members {member : String × Json} {rest : List (String × Json)}
    (first : Completes member.2) (others : ∀ later ∈ rest, Completes later.2)
    (done : List (Option String × Json)) (around : List Open) :
    ([.comma].intercalate ((member :: rest).map memberLexemes) ++
        [Lexeme.closeBrace]).foldlM step? ⟨around, .key done⟩ =
      some ⟨around, .complete (.object (done.reverse ++
        (member :: rest).map fun member => (some member.1, member.2)))⟩ := by
  induction rest generalizing member done with
  | nil =>
      rw [List.map_singleton, List.intercalate_singleton,
        foldlM_memberLexemes first, List.map_singleton, ← List.reverse_cons]
      rfl
  | cons next rest induction =>
      obtain ⟨nextCompletes, restComplete⟩ := List.forall_mem_cons.mp others
      have later := induction nextCompletes restComplete
        ((some member.1, member.2) :: done)
      rw [List.reverse_cons, List.append_assoc] at later
      rw [List.map_cons, List.map_cons, List.intercalate_cons_cons,
        List.append_assoc, List.append_assoc, foldlM_memberLexemes first]
      exact later

theorem completes_array {items : List Json}
    (all : ∀ item ∈ items, Completes item) : Completes (.array items) := by
  intro around
  rw [lexemes_array]
  cases items with
  | nil => rfl
  | cons item rest =>
      obtain ⟨first, others⟩ := List.forall_mem_cons.mp all
      have read := foldlM_items first others [] around
      obtain ⟨later, split⟩ :=
        exists_intercalate_cons [.comma] (lexemes item) (rest.map lexemes)
      rw [List.map_cons, split, List.append_assoc] at read ⊢
      rw [← foldlM_firstItem] at read
      exact read

theorem completes_record {members : List (String × Json)}
    (all : ∀ member ∈ members, Completes member.2) :
    Completes (.record members) := by
  intro around
  rw [lexemes_record]
  cases members with
  | nil => rfl
  | cons member rest =>
      obtain ⟨first, others⟩ := List.forall_mem_cons.mp all
      have read := foldlM_members first others [] around
      obtain ⟨later, split⟩ :=
        exists_intercalate_cons [.comma] (memberLexemes member)
          (rest.map memberLexemes)
      rw [List.map_cons, split] at read ⊢
      exact read

end Progress

theorem Single.completes {value : Json} (single : Single value) :
    Progress.Completes value := by
  intro around
  cases single with
  | text value =>
      rw [Json.text, lexemes]
      rfl
  | _ =>
      rw [lexemes]
      rfl

theorem Plain.completes {value : Json} (plain : Plain value) :
    Progress.Completes value := by
  induction plain with
  | single single => exact single.completes
  | array _ induction => exact Progress.completes_array induction
  | record _ induction => exact Progress.completes_record induction

/-- A text that is read as the lexemes of a value is read as the value. -/
theorem Plain.read?_of_reads {value : Json} (plain : Plain value)
    {text : String}
    (reads : Reads text.toList (lexemes value)) : read? text = some value := by
  have parts := reads [] (by simp [StopsNumber])
  rw [List.append_nil, lexemes?, Option.map_some, List.append_nil] at parts
  rw [read?, parts]
  change ((lexemes value).foldlM Progress.step? ⟨[], .value⟩).bind _ = _
  rw [plain.completes]
  rfl

/-! ## Writing -/

theorem compactItems_eq_map (items : List Json) :
    compactItems items = items.map compact := by
  induction items with
  | nil => rfl
  | cons item items induction => rw [compactItems, induction, List.map_cons]

theorem prettyItems_eq_map (depth : Nat) (items : List Json) :
    prettyItems depth items = items.map (prettyAt depth) := by
  induction items with
  | nil => rfl
  | cons item items induction => rw [prettyItems, induction, List.map_cons]

theorem compactMembers_eq_map (members : List (String × Json)) :
    compactMembers (members.map fun member => (some member.1, member.2)) =
      members.map fun member =>
        stringText member.1 ++ ":" ++ compact member.2 := by
  induction members with
  | nil => rfl
  | cons member members induction =>
      rw [List.map_cons, compactMembers, induction, List.map_cons]
      rfl

theorem prettyMembers_eq_map (depth : Nat) (members : List (String × Json)) :
    prettyMembers depth (members.map fun member => (some member.1, member.2)) =
      members.map fun member =>
        stringText member.1 ++ ": " ++ prettyAt depth member.2 := by
  induction members with
  | nil => rfl
  | cons member members induction =>
      rw [List.map_cons, prettyMembers, induction, List.map_cons]
      rfl

theorem isBlank_lineBreak (depth : Nat) :
    ∀ c ∈ (lineBreak depth).toList, isBlank c = true := by
  intro c member
  simp only [lineBreak, String.toList_append, String.reduceToList,
    List.mem_append,
    List.mem_singleton, String.toList_ofList, List.mem_replicate] at member
  rcases member with rfl | ⟨-, rfl⟩ <;> rfl

namespace Reads

variable {parts : List String} {readings : List (List Lexeme)}
  {left right : Char} {opens closes : Lexeme} {opening closing : String}

/-- Parts between two brackets in one line. -/
theorem line (opened : IsMark left opens) (closed : IsMark right closes)
    (all : List.Forall₂ (fun part => Reads part.toList) parts readings) :
    Reads (left :: ((",".intercalate parts).toList ++ [right]))
      (opens :: ([.comma].intercalate readings ++ [closes])) := by
  have noBlank : ∀ c ∈ ([] : List Char), isBlank c = true :=
    List.forall_mem_nil _
  rw [String.toList_intercalate]
  exact enclosed opened closed noBlank noBlank noBlank
    (List.forall₂_map_left_iff.mpr all)

/-- Parts between two brackets on lines of their own. -/
theorem block (opened : IsMark left opens) (closed : IsMark right closes)
    (begins : opening.toList = [left]) (ends : closing.toList = [right])
    (all : List.Forall₂ (fun part => Reads part.toList) parts readings)
    (depth : Nat) :
    Reads (Json.block depth opening closing parts).toList
      (opens :: ([.comma].intercalate readings ++ [closes])) := by
  have texts := List.forall₂_map_left_iff.mpr all
  unfold Json.block
  cases parts with
  | nil =>
      cases all
      have noBlank : ∀ c ∈ ([] : List Char), isBlank c = true :=
        List.forall_mem_nil _
      have empty :=
        enclosed opened closed noBlank noBlank noBlank List.Forall₂.nil
      simpa [begins, ends] using empty
  | cons part parts =>
      have whole := enclosed opened closed (isBlank_lineBreak (depth + 1))
        (isBlank_lineBreak (depth + 1)) (isBlank_lineBreak depth) texts
      simpa [begins, ends, String.toList_intercalate] using whole

theorem all_map {α : Type} {items : List α} {write : α → String}
    {reading : α → List Lexeme}
    (each : ∀ item ∈ items, Reads (write item).toList (reading item)) :
    List.Forall₂ (fun part => Reads part.toList) (items.map write)
      (items.map reading) :=
  List.forall₂_map_left_iff.mpr
    (List.forall₂_map_right_iff.mpr (List.forall₂_same.mpr each))

/-- A key, a colon and a value; blanks may come before the value. -/
theorem member {member : String × Json} {blank : List Char} {value : String}
    (isBlank : ∀ c ∈ blank, isBlank c = true)
    (reads : Reads value.toList (lexemes member.2)) :
    Reads ((stringText member.1).toList ++ ':' :: (blank ++ value.toList))
      (memberLexemes member) :=
  (string member.1).append (mark isMark_colon (blanks isBlank reads))
    (isMark_colon.stopsNumber _)

end Reads

theorem Single.compact_eq {value : Json} (single : Single value) :
    compact value = simpleText value := by
  cases single <;> rfl

theorem Single.prettyAt_eq {value : Json} (single : Single value)
    (depth : Nat) :
    prettyAt depth value = simpleText value := by
  cases single <;> rfl

theorem Single.reads {value : Json} (single : Single value) :
    Reads (simpleText value).toList (lexemes value) := by
  cases single with
  | null =>
      rw [lexemes]
      exact Reads.word rfl fun _ => rfl
  | bool value =>
      rw [lexemes]
      cases value <;> exact Reads.word rfl fun _ => rfl
  | integer value =>
      rw [lexemes]
      exact Reads.integer value
  | text value =>
      rw [Json.text, lexemes]
      exact Reads.string value

namespace Plain

variable {value : Json}

theorem reads_compact (plain : Plain value) :
    Reads (compact value).toList (lexemes value) := by
  induction plain with
  | single single =>
      rw [single.compact_eq]
      exact single.reads
  | array _ induction =>
      have items := Reads.all_map induction
      rw [compact, compactItems_eq_map, lexemes_array]
      simpa using Reads.line isMark_openBracket isMark_closeBracket items
  | @record members _ induction =>
      have written : ∀ member ∈ members,
          Reads (stringText member.1 ++ ":" ++ compact member.2).toList
            (memberLexemes member) := by
        intro member inside
        simpa using Reads.member (List.forall_mem_nil _)
          (induction member inside)
      have whole := Reads.line isMark_openBrace isMark_closeBrace
        (Reads.all_map written)
      rw [Json.record, compact, compactMembers_eq_map, ← Json.record,
        lexemes_record]
      simpa using whole

theorem reads_prettyAt (plain : Plain value) (depth : Nat) :
    Reads (prettyAt depth value).toList (lexemes value) := by
  induction plain generalizing depth with
  | single single =>
      rw [single.prettyAt_eq]
      exact single.reads
  | array _ induction =>
      have items :=
        Reads.all_map fun item inside => induction item inside (depth + 1)
      rw [prettyAt, prettyItems_eq_map, lexemes_array]
      exact Reads.block isMark_openBracket isMark_closeBracket rfl rfl
        items depth
  | @record members _ induction =>
      have written : ∀ member ∈ members,
          Reads (stringText member.1 ++ ": " ++
            prettyAt (depth + 1) member.2).toList
            (memberLexemes member) := by
        intro member inside
        have oneBlank : ∀ c ∈ [' '], isBlank c = true :=
          List.forall_mem_singleton.mpr rfl
        simpa using Reads.member oneBlank (induction member inside (depth + 1))
      rw [Json.record, prettyAt, prettyMembers_eq_map, ← Json.record,
        lexemes_record]
      exact Reads.block isMark_openBrace isMark_closeBrace rfl rfl
        (Reads.all_map written) depth

theorem read?_compact (plain : Plain value) :
    read? (compact value) = some value :=
  plain.read?_of_reads plain.reads_compact

theorem read?_pretty (plain : Plain value) :
    read? (pretty value) = some value :=
  plain.read?_of_reads (plain.reads_prettyAt 0)

end Plain

end Formula.Json
