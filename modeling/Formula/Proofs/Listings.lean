import Formula.Proofs.Names
import Formula.Proofs.WrittenPrograms
import Formula.Text.Lines
import Std.Data.String.ToInt

/-!
# Listings

A listing has one line for each instruction of a program.  It shows names as
they are, and not the type of the result.  Of programs that are compiled from
sources nothing is lost all the same, because there are no blanks in the names
of a source, and because the last instruction has the type of the result.
-/

namespace Formula

/-! ## Lines -/

/-- A text that can be a line: it is not empty, it has no line break, and no
carriage return that would belong to a line break after it. -/
structure IsLine (text : List Char) : Prop where
  nonempty : text ≠ []
  unbroken : '\n' ∉ text
  ends : text.getLast? ≠ some '\r'

theorem linesFrom_cons {c : Char} (visible : c ≠ '\n') (line rest : List Char) :
    linesFrom line (c :: rest) = linesFrom (c :: line) rest := by
  rw [linesFrom.eq_def]
  split
  · rename_i whole
    cases whole
  · rename_i whole
    cases whole
    exact absurd rfl visible
  · rename_i whole
    cases whole
    rfl

theorem linesFrom_last {text : List Char} (unbroken : '\n' ∉ text)
    (line : List Char) (nonempty : line.reverse ++ text ≠ []) :
    linesFrom line text = [line.reverse ++ text] := by
  induction text generalizing line with
  | nil =>
      have started : line ≠ [] := by simpa using nonempty
      simp [linesFrom, started]
  | cons c text induction =>
      obtain ⟨visible, later⟩ := not_or.mp (mt List.mem_cons.mpr unbroken)
      rw [linesFrom_cons (Ne.symm visible), induction later _ (by simp)]
      simp

theorem linesFrom_break {front : List Char} (unbroken : '\n' ∉ front)
    (line rest : List Char)
    (ends : (line.reverse ++ front).getLast? ≠ some '\r') :
    linesFrom line (front ++ '\n' :: rest) =
      (line.reverse ++ front) :: linesFrom [] rest := by
  induction front generalizing line with
  | nil =>
      rw [List.nil_append, List.append_nil, linesFrom]
      intro earlier same
      rw [same] at ends
      exact ends (by simp)
  | cons c front induction =>
      obtain ⟨visible, later⟩ := not_or.mp (mt List.mem_cons.mpr unbroken)
      rw [List.cons_append, linesFrom_cons (Ne.symm visible),
        induction later _ (by simpa using ends)]
      simp

theorem lines_intercalate {texts : List String}
    (all : ∀ text ∈ texts, IsLine text.toList) :
    lines ("\n".intercalate texts) = texts := by
  have cut : linesFrom [] (['\n'].intercalate (texts.map String.toList)) =
      texts.map String.toList := by
    induction texts with
    | nil => rfl
    | cons text texts induction =>
        obtain ⟨first, others⟩ := List.forall_mem_cons.mp all
        cases texts with
        | nil =>
            rw [List.map_singleton, List.intercalate_singleton]
            exact linesFrom_last first.unbroken [] first.nonempty
        | cons second texts =>
            rw [List.map_cons, List.map_cons, List.intercalate_cons_cons,
              List.append_assoc, List.singleton_append,
              linesFrom_break first.unbroken [] _ first.ends, ← List.map_cons,
              induction others]
            rfl
  rw [lines, String.toList_intercalate]
  change (linesFrom [] (['\n'].intercalate (texts.map String.toList))).map _ = _
  rw [cut, List.map_map]
  simp [Function.comp_def]

/-! ## The text of an instruction -/

/-- There is no blank in a text. -/
def isUnbroken (text : String) : Bool := text.toList.all fun c => !isBlank c

theorem isUnbroken_iff {text : String} :
    isUnbroken text = true ↔ ∀ c ∈ text.toList, isBlank c = false := by
  simp [isUnbroken]

/-- Up to the first blank, a text can be told from what comes after. -/
theorem append_space_inj {front other : String} {back rest : List Char}
    (unbroken : isUnbroken front = true)
    (otherUnbroken : isUnbroken other = true)
    (same : front.toList ++ ' ' :: back = other.toList ++ ' ' :: rest) :
    front = other ∧ back = rest := by
  have keeps (text : String) (unbroken : isUnbroken text = true) :
      ∀ c ∈ text.toList, (!isBlank c) = true := by
    simpa using isUnbroken_iff.mp unbroken
  have stops (later : List Char) :
      ∀ c ∈ (' ' :: later).head?, (!isBlank c) = false := by
    intro c first
    cases first
    rfl
  have fronts := congrArg (List.takeWhile fun c => !isBlank c) same
  rw [takeWhile_append_stop (keeps front unbroken) (stops back),
    takeWhile_append_stop (keeps other otherUnbroken) (stops rest)] at fronts
  rw [fronts] at same
  have backs := List.append_cancel_left same
  exact ⟨String.toList_inj.mp fronts, (List.cons.inj backs).2⟩

theorem integerText_injective {value other : Int32}
    (same : integerText value = integerText other) : value = other := by
  rw [integerText, integerText, Int.toString_eq_repr, Int.toString_eq_repr]
    at same
  exact Int32.toInt_inj.mp (Int.repr_injective same)

theorem isUnbroken_integerText (value : Int32) :
    isUnbroken (integerText value) = true := by
  have digits (number : Nat) : ∀ c ∈ number.repr.toList, isBlank c = false := by
    intro c member
    rw [Nat.toList_repr] at member
    exact CharClass.isBlank_of_isDigit ((isDigits_toDigits number).all c member)
  apply isUnbroken_iff.mpr
  rw [integerText, Int.toString_eq_repr]
  cases value.toInt with
  | ofNat number => exact digits number
  | negSucc number =>
      intro c member
      rw [Int.repr, String.toList_append] at member
      rcases List.mem_append.mp member with sign | digit
      · obtain rfl : c = '-' := by simpa using sign
        rfl
      · exact digits _ c digit

/-- What can be decoded again has been encoded as something else than all
others. -/
theorem eq_of_decoded {α : Type} {encode : α → String}
    {decode : Json → Except Json.Mismatch α}
    (inverse : ∀ item, decode (.text (encode item)) = .ok item) {item other : α}
    (same : encode item = encode other) : item = other := by
  have read := inverse item
  rw [same, inverse other] at read
  exact (Except.ok.inj read).symm

theorem UnaryOp.title_injective {op other : UnaryOp}
    (same : op.title = other.title) :
    op = other :=
  eq_of_decoded UnaryOp.asWord_title same

theorem BinaryOp.title_injective {op other : BinaryOp}
    (same : op.title = other.title) : op = other :=
  eq_of_decoded BinaryOp.asWord_title same

theorem ValueType.text_injective {type other : ValueType}
    (same : type.text = other.text) : type = other :=
  eq_of_decoded ValueType.ofJson_text same

namespace Op

/-- The word that an operation is shown by. -/
def word : Op → String
  | .int _ => "int"
  | .bool _ => "bool"
  | .load _ => "load"
  | .unary _ => "unary"
  | .binary _ => "binary"
  | .coerce _ => "coerce"

/-- What is shown of an operation behind its word. -/
def argument : Op → String
  | .int value => integerText value
  | .bool value => booleanText value
  | .load name => name
  | .unary op => op.title
  | .binary op => op.title
  | .coerce target => target.text

theorem toList_text (op : Op) :
    op.text.toList = op.word.toList ++ ' ' :: op.argument.toList := by
  cases op <;> simp [text, word, argument]

theorem isUnbroken_word (op : Op) : isUnbroken op.word = true := by
  cases op <;> simp [isUnbroken, word, isBlank]

/-- There is no blank in a name that an operation looks up. -/
def IsVisible (op : Op) : Prop := ∀ name ∈ op.loaded?, isUnbroken name = true

theorem IsVisible.isUnbroken_argument {op : Op} (visible : op.IsVisible) :
    isUnbroken op.argument = true := by
  cases op with
  | int value => exact isUnbroken_integerText value
  | bool value =>
    cases value <;> simp [isUnbroken, argument, booleanText, isBlank]
  | load name => exact visible name rfl
  | unary op => cases op <;> simp [isUnbroken, argument, UnaryOp.title, isBlank]
  | binary op =>
    cases op <;> simp [isUnbroken, argument, BinaryOp.title, isBlank]
  | coerce target =>
      cases target <;> simp [isUnbroken, argument, ValueType.text, isBlank]

/-- The word tells which operation it is, and what comes behind it on what. -/
theorem eq_of_word_argument {op other : Op} (words : op.word = other.word)
    (arguments : op.argument = other.argument) : op = other := by
  cases op with
  | int value =>
      cases other <;> simp [word] at words
      exact congrArg Op.int (integerText_injective arguments)
  | bool value =>
      cases other <;> simp [word] at words
      rename_i otherValue
      cases value <;> cases otherValue <;>
        simp [argument, booleanText] at arguments
      · rfl
      · rfl
  | load name =>
      cases other <;> simp [word] at words
      exact congrArg Op.load arguments
  | unary op =>
      cases other <;> simp [word] at words
      exact congrArg Op.unary (UnaryOp.title_injective arguments)
  | binary op =>
      cases other <;> simp [word] at words
      exact congrArg Op.binary (BinaryOp.title_injective arguments)
  | coerce target =>
      cases other <;> simp [word] at words
      exact congrArg Op.coerce (ValueType.text_injective arguments)

end Op

theorem ValueType.isUnbroken_text (type : ValueType) :
    isUnbroken type.text = true := by
  cases type <;> simp [isUnbroken, text, isBlank]

namespace Instruction

theorem toList_text (instruction : Instruction) :
    instruction.text.toList =
      instruction.op.word.toList ++ ' ' ::
        (instruction.op.argument.toList ++ ' ' :: ':' :: ' ' ::
          instruction.type.text.toList) := by
  simp [text, Op.toList_text]

variable {instruction other : Instruction}

theorem eq_of_text (visible : instruction.op.IsVisible)
    (otherVisible : other.op.IsVisible) (same : instruction.text = other.text) :
    instruction = other := by
  have texts := congrArg String.toList same
  rw [toList_text, toList_text] at texts
  obtain ⟨words, behind⟩ :=
    append_space_inj (Op.isUnbroken_word _) (Op.isUnbroken_word _) texts
  obtain ⟨arguments, types⟩ :=
    append_space_inj visible.isUnbroken_argument
      otherVisible.isUnbroken_argument
      behind
  have ops : instruction.op = other.op := Op.eq_of_word_argument words arguments
  have declared : instruction.type = other.type := by
    apply ValueType.text_injective
    apply String.toList_inj.mp
    simpa using types
  cases instruction
  cases other
  cases ops
  cases declared
  rfl

theorem isLine_text (visible : instruction.op.IsVisible) :
    IsLine instruction.text.toList where
  nonempty := by simp [toList_text]
  unbroken := by
    have noBreak {text : String} (unbroken : isUnbroken text = true) :
        '\n' ∉ text.toList := by
      intro member
      cases isUnbroken_iff.mp unbroken '\n' member
    simp [toList_text, noBreak instruction.op.isUnbroken_word,
      noBreak visible.isUnbroken_argument,
      noBreak instruction.type.isUnbroken_text]
  ends := by
    have shown : instruction.text.toList =
        (instruction.op.text ++ " : ").toList ++
          instruction.type.text.toList := by
      simp [text]
    rw [shown, List.getLast?_append]
    cases instruction.type <;> simp [ValueType.text]

end Instruction

/-! ## Listings of programs -/

namespace Program

/-- What is left out of a listing, and what cannot be told from blanks, is not
missed. -/
structure IsListable (program : Program) : Prop where
  visible : ∀ instruction ∈ program.instructions, instruction.op.IsVisible
  result : program.instructions.getLast?.map Instruction.type =
    some program.result

variable {program other : Program}

theorem IsListable.lines_text (listable : program.IsListable) :
    lines program.text = program.instructions.map Instruction.text := by
  apply lines_intercalate
  intro text member
  obtain ⟨instruction, inside, rfl⟩ := List.mem_map.mp member
  exact Instruction.isLine_text (listable.visible instruction inside)

theorem instructions_eq_of_texts {instructions others : List Instruction}
    (visible : ∀ instruction ∈ instructions, instruction.op.IsVisible)
    (othersVisible : ∀ instruction ∈ others, instruction.op.IsVisible)
    (same : instructions.map Instruction.text = others.map Instruction.text) :
    instructions = others := by
  induction instructions generalizing others with
  | nil => exact (List.map_eq_nil_iff.mp same.symm).symm
  | cons instruction instructions induction =>
      cases others with
      | nil => cases same
      | cons other others =>
          obtain ⟨first, later⟩ := List.forall_mem_cons.mp visible
          obtain ⟨otherFirst, otherLater⟩ :=
            List.forall_mem_cons.mp othersVisible
          obtain ⟨firstSame, laterSame⟩ := List.cons.inj same
          rw [Instruction.eq_of_text first otherFirst firstSame,
            induction later otherLater laterSame]

theorem IsListable.eq_of_text (listable : program.IsListable)
    (otherListable : other.IsListable) (same : program.text = other.text) :
    program = other := by
  have texts := congrArg lines same
  rw [listable.lines_text, otherListable.lines_text] at texts
  have instructions :=
    instructions_eq_of_texts listable.visible otherListable.visible texts
  have results := listable.result
  rw [instructions, otherListable.result] at results
  cases program
  cases other
  cases instructions
  cases results
  rfl

end Program

/-! ## Programs of sources -/

theorem Layout.isUnbroken_text {last : Option TokenKind} {offset : Nat}
    {source : List Char} {tokens : List Token}
    (layout : Layout last offset source tokens) :
    ∀ token ∈ tokens, isUnbroken token.text = true := by
  induction layout with
  | blanks => simp
  | @token last offset blanks after token tokens placed _ induction =>
      rw [List.forall_mem_cons]
      refine ⟨isUnbroken_iff.mpr ?_, induction⟩
      intro c inside
      apply Bool.eq_false_iff.mpr
      intro blank
      have whitespace := (CharClass.of_eq_whitespace_iff c).mpr blank
      exact (placed.written.visible inside).1 whitespace

theorem Layout.isUnbroken_name {last : Option TokenKind} {offset : Nat}
    {source : List Char} {tokens : List Token}
    (layout : Layout last offset source tokens) {name : String}
    (occurs : name ∈ namesIn tokens) : isUnbroken name = true := by
  obtain ⟨token, member, named⟩ := List.mem_filterMap.mp occurs
  obtain ⟨-, rfl⟩ : token.kind = .name ∧ token.text = name := by
    simpa [Token.name?] using named
  exact layout.isUnbroken_text token member

namespace Tree

theorem getLast?_code (tree : Tree) :
    tree.code.getLast?.map Instruction.type = some tree.type := by
  cases tree with
  | leaf token atom spelled => rfl
  | unary token op spelled operand => simp [code, type]
  | binary token op spelled left right => simp [code, type, ← List.append_assoc]

/-- The last instruction of a program has the type of the result. -/
theorem getLast?_program (tree : Tree) (result : ValueType) :
    (tree.program result).instructions.getLast?.map Instruction.type =
      some result := by
  unfold program coercion
  split_ifs with own
  · rw [List.append_nil, getLast?_code, own]
  · simp

end Tree

namespace Expression

theorem isListable_program {type : ValueType} {source : String}
    {expression : Expression type}
    (compiles : ofSource type source = .ok expression) :
    expression.program.IsListable := by
  obtain ⟨tokens, tree, ⟨layout, spells⟩, -, program, -⟩ :=
    exists_reading compiles
  constructor
  · intro instruction inside name loads
    apply layout.isUnbroken_name
    rw [spells.namesIn_eq, ← tree.loadedBy_program type, ← program]
    exact List.mem_filterMap.mpr ⟨instruction, inside, loads⟩
  · rw [program]
    exact tree.getLast?_program type

/-- Listings of programs lose nothing: sources whose programs have the same
listing have the same program, whatever types they are compiled for.  The lines
of a listing are the texts of the instructions, one for each and in order. -/
theorem program_of_listing :
    (∀ {type otherType : ValueType} {source otherSource : String}
      {expression : Expression type} {other : Expression otherType},
      ofSource type source = .ok expression →
      ofSource otherType otherSource = .ok other →
      expression.program.text = other.program.text →
      expression.program = other.program) ∧
    ∀ {type : ValueType} {source : String} {expression : Expression type},
      ofSource type source = .ok expression →
      lines expression.program.text =
        expression.program.instructions.map Instruction.text := by
  constructor
  · intro type otherType source otherSource expression other compiles
      otherCompiles same
    exact (isListable_program compiles).eq_of_text
      (isListable_program otherCompiles)
      same
  · intro type source expression compiles
    exact (isListable_program compiles).lines_text

/-- Parentheses leave no trace in a program, and so none in its listing. -/
theorem program_of_listing_parentheses :
    ∃ expression other, ofSource .integer "!a.b" = .ok expression ∧
      ofSource .integer "! (a.b)" = .ok other ∧
      expression.program.text = other.program.text ∧
      expression.program = other.program ∧
      lines other.program.text =
        other.program.instructions.map Instruction.text := by
  have listing : ∀ source ∈ ["!a.b", "! (a.b)"],
      (ofSource .integer source).map
        (fun expression => expression.program.text) =
        .ok ("load a.b : integer\ncoerce boolean : boolean\n" ++
          "unary Not : boolean\ncoerce integer : integer") := by
    decide +kernel
  obtain ⟨expression, compiles, text⟩ :=
    map_eq_ok_iff.mp (listing "!a.b" (by simp))
  obtain ⟨other, otherCompiles, otherText⟩ :=
    map_eq_ok_iff.mp (listing "! (a.b)" (by simp))
  have same := text.trans otherText.symm
  exact ⟨expression, other, compiles, otherCompiles, same,
    program_of_listing.1 compiles otherCompiles same,
    program_of_listing.2 otherCompiles⟩

end Expression

end Formula
