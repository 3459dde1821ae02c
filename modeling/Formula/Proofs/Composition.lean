import Formula.Proofs.Continuation
import Formula.Proofs.Relocation

/-!
# Composing sources

A source in parentheses may stand wherever a formula takes an operand.  Its
tokens stay what they are, since a parenthesis ends every token that a formula
can end with, and begins none with a character before it; its operators are
shut in, so that no operator outside takes apart what they join.
-/

namespace Formula

namespace TokenKind

theorem needsBlankBefore_eq_false {kind : TokenKind}
    (takesNone : kind.takesLeft = false) : kind.needsBlankBefore = false := by
  have checked : ∀ kind ∈ all,
      kind.takesLeft = false → kind.needsBlankBefore = false := by
    decide
  exact checked kind (mem_all kind) takesNone

theorem needsBlankAfter_eq_false {kind : TokenKind}
    (takesNone : kind.takesRight = false) : kind.needsBlankAfter = false := by
  have checked : ∀ kind ∈ all,
      kind.takesRight = false → kind.needsBlankAfter = false := by
    decide
  exact checked kind (mem_all kind) takesNone

theorem endsBefore_operator (kind : TokenKind) {c : Char}
    (operator : CharClass.of c = .operator) : kind.EndsBefore c := by
  cases kind with
  | constant value => exact operator
  | number => exact .inl operator
  | name => exact operator
  | openParen => trivial
  | closeParen => trivial
  | unary op =>
      cases op with
      | not => trivial
      | negate => simp [EndsBefore, operator]
      | complement => trivial
  | binary op => trivial

theorem Ends.closed {kind : TokenKind} {after : List Char}
    (ends : kind.Ends after) (more : List Char) :
    kind.Ends (after ++ ')' :: more) := by
  cases after with
  | nil =>
      intro c first
      cases first
      exact .inr (kind.endsBefore_operator (by decide))
  | cons c after => exact ends

end TokenKind

namespace Grammatical

theorem begins {kinds : List TokenKind} (grammatical : Grammatical kinds) :
    ∃ first rest, kinds = first :: rest ∧ first.takesLeft = false := by
  induction grammatical with
  | constant value => exact ⟨_, _, rfl, rfl⟩
  | number => exact ⟨_, _, rfl, rfl⟩
  | name => exact ⟨_, _, rfl, rfl⟩
  | unary op _ _ => exact ⟨_, _, rfl, rfl⟩
  | binary op _ _ leftInduction _ =>
      obtain ⟨first, rest, rfl, free⟩ := leftInduction
      exact ⟨first, _, rfl, free⟩
  | group _ _ => exact ⟨_, _, rfl, rfl⟩

theorem ends {kinds : List TokenKind} (grammatical : Grammatical kinds) :
    ∃ front last, kinds = front ++ [last] ∧ last.takesRight = false := by
  induction grammatical with
  | constant value => exact ⟨[], _, rfl, rfl⟩
  | number => exact ⟨[], _, rfl, rfl⟩
  | name => exact ⟨[], _, rfl, rfl⟩
  | unary op _ induction =>
      obtain ⟨front, last, rfl, free⟩ := induction
      exact ⟨.unary op :: front, last, rfl, free⟩
  | @binary op left right _ _ _ rightInduction =>
      obtain ⟨front, last, rfl, free⟩ := rightInduction
      exact ⟨left ++ .binary op :: front, last, by simp, free⟩
  | @group inner _ _ => exact ⟨.openParen :: inner, _, rfl, rfl⟩

end Grammatical

def Token.openerAt (index : Nat) : Token := ⟨.openParen, index, "(", none⟩

/-- A source in parentheses. -/
def enclosed (source : String) : String := "(" ++ source ++ ")"

@[simp] theorem toList_enclosed (source : String) :
    (enclosed source).toList = '(' :: (source.toList ++ [')']) := by
  simp [enclosed]

/-- The tokens of a source in parentheses that begins at `start`. -/
def grouped (start : Nat) (source : String) (tokens : List Token) :
    List Token :=
  Token.openerAt start ::
    (tokens.map (Token.moved (start + 1)) ++
      [Token.closerAt (start + 1 + byteLength source.toList)])

/-- The kind of the last of some tokens, which stand behind a token of kind
`last`. -/
def latestKind (last : Option TokenKind) (tokens : List Token) :
    Option TokenKind :=
  (tokens.getLast?.map Token.kind).or last

theorem latestKind_cons (last : Option TokenKind) (token : Token)
    (tokens : List Token) :
    latestKind last (token :: tokens) =
      latestKind (some token.kind) tokens := by
  rw [latestKind, latestKind, List.getLast?_cons]
  cases tokens.getLast? <;> rfl

theorem needsBlankAfter_latestKind {tokens : List Token}
    (grammatical : Grammatical (tokens.map Token.kind))
    (last : Option TokenKind) :
    ∀ kind ∈ latestKind last tokens, kind.needsBlankAfter = false := by
  obtain ⟨front, final, ends, complete⟩ := grammatical.ends
  intro kind isLatest
  rw [latestKind, ← List.getLast?_map, ends] at isLatest
  obtain rfl : final = kind := by simpa using isLatest
  exact TokenKind.needsBlankAfter_eq_false complete

namespace Layout

variable {last : Option TokenKind} {offset : Nat}
  {blanks source after : List Char} {tokens later : List Token}

/-- A parenthesis may be written behind a source, and more behind it. -/
theorem closed (layout : Layout last offset source tokens)
    (complete : ∀ kind ∈ latestKind last tokens, kind.needsBlankAfter = false)
    (behind : Layout (some .closeParen)
      (offset + byteLength source + 1) after later) :
    Layout last offset (source ++ ')' :: after)
      (tokens ++ Token.closerAt (offset + byteLength source) :: later) := by
  -- the offset of the parenthesis is the same at every point of the source
  induction layout with
  | @blanks last offset blanks blank =>
      have separated : ∀ before ∈ last, before.needsBlankAfter = true →
          blanks ≠ [] := by
        intro before isLast demands
        cases (complete before isLast).symm.trans demands
      have placed :
          (Token.closerAt (offset + byteLength blanks)).Placed last
            offset blanks
            after :=
        Token.closerAt_placed blank separated after
      have size : byteLength ")".toList = 1 := rfl
      have whole := Layout.token placed (by rwa [Token.closerAt, size])
      simpa [Token.closerAt] using whole
  | @token last offset blanks rest token tokens placed _ induction =>
      have closedPlaced :
          token.Placed last offset blanks (rest ++ ')' :: after) :=
        { placed with ends := placed.ends.closed after }
      have position : token.index + byteLength token.text.toList +
          byteLength rest =
          offset + byteLength (blanks ++ token.text.toList ++ rest) := by
        rw [placed.index, byteLength_append, byteLength_append]
        omega
      rw [latestKind_cons] at complete
      rw [← position] at behind ⊢
      simpa using Layout.token closedPlaced (induction complete behind)

/-- What may begin a source may also stand behind an opening parenthesis. -/
theorem opened {first : Token}
    (layout : Layout none offset source (first :: tokens))
    (free : first.kind.takesLeft = false) :
    Layout (some .openParen) offset source (first :: tokens) := by
  cases layout with
  | token placed rest =>
      refine .token { placed with written := ?_, separated := ?_ } rest
      · -- an operand is expected in both places, so that a minus sign is a sign
        have written := placed.written
        revert written
        unfold TokenKind.WrittenAs
        cases first.kind <;> exact id
      · intro before isLast demands
        cases isLast
        rcases demands with afterOpener | beforeFirst
        · cases afterOpener
        · cases (TokenKind.needsBlankBefore_eq_false free).symm.trans
            beforeFirst

/-- A source in parentheses may be written behind any token, if there is a blank
where that token demands one. -/
theorem group {source : String}
    (blank : ∀ c ∈ blanks, CharClass.of c = .whitespace)
    (separated : ∀ before ∈ last, before.needsBlankAfter = true → blanks ≠ [])
    (inner : Layout none 0 source.toList tokens)
    (grammatical : Grammatical (tokens.map Token.kind))
    (behind : Layout (some .closeParen)
      (offset + byteLength blanks + 1 + byteLength source.toList + 1) after
      later) :
    Layout last offset (blanks ++ (enclosed source).toList ++ after)
      (grouped (offset + byteLength blanks) source tokens ++ later) := by
  have opener :
      (Token.openerAt (offset + byteLength blanks)).Placed last offset blanks
        (source.toList ++ ')' :: after) := by
    refine ⟨blank, rfl, rfl, rfl, ?_, fun _ _ => .inr trivial⟩
    intro before isLast demands
    rcases demands with afterLast | beforeOpener
    · exact separated before isLast afterLast
    · cases beforeOpener
  obtain ⟨firstKind, restKinds, begins, free⟩ := grammatical.begins
  obtain ⟨first, rest, rfl, rfl, -⟩ := List.map_eq_cons_iff.mp begins
  have stillGrammatical := grammatical
  rw [← kinds_moved (offset + byteLength blanks + 1)] at stillGrammatical
  have complete :=
    needsBlankAfter_latestKind stillGrammatical (some .openParen)
  have moved := inner.moved (offset + byteLength blanks + 1)
  rw [Nat.zero_add] at moved
  have whole := (moved.opened free).closed complete behind
  have size : byteLength "(".toList = 1 := rfl
  have group := Layout.token opener (by rwa [Token.openerAt, size])
  simpa [grouped, Token.openerAt] using group

end Layout

/-! ## Sources made of sources -/

/-- A source in parentheses directly behind a prefix operator. -/
def UnaryOp.before (op : UnaryOp) (source : String) : String :=
  op.symbol ++ enclosed source

/-- Two sources in parentheses and a binary operator with a blank on each of its
sides. -/
def BinaryOp.between (op : BinaryOp) (first second : String) : String :=
  enclosed first ++ " " ++ op.symbol ++ " " ++ enclosed second

def UnaryOp.tokenAt (op : UnaryOp) (index : Nat) : Token :=
  ⟨.unary op, index, op.symbol, none⟩

def BinaryOp.tokenAt (op : BinaryOp) (index : Nat) : Token :=
  ⟨.binary op, index, op.symbol, none⟩

theorem namesIn_grouped (start : Nat) (source : String)
    (tokens : List Token) :
    namesIn (grouped start source tokens) = namesIn tokens := by
  have opener : (Token.openerAt start).kind ≠ .name := TokenKind.noConfusion
  have closer : ∀ index, (Token.closerAt index).kind ≠ .name :=
    fun _ => TokenKind.noConfusion
  rw [grouped, namesIn_cons_of_ne opener, namesIn_append, namesIn_moved,
    namesIn_cons_of_ne (closer _)]
  exact List.append_nil _

theorem Spells.grouped {tokens : List Token} {tree : Tree}
    (spells : Spells 0 tokens tree) (start : Nat) (source : String) :
    Spells 7 (grouped start source tokens) (tree.moved (start + 1)) :=
  .group rfl rfl (spells.moved _)

theorem BinaryOp.tokenAt_placed (op : BinaryOp) (offset : Nat)
    (after : List Char) :
    (op.tokenAt (offset + byteLength [' '])).Placed (some .closeParen) offset
      [' '] (' ' :: after) := by
  have written : (TokenKind.binary op).WrittenAs (some .closeParen)
      op.symbol.toList := by
    cases op
    case subtract => exact ⟨rfl, rfl⟩
    all_goals exact rfl
  refine ⟨blank_space, rfl, written, rfl, by simp, ?_⟩
  intro c first
  cases first
  exact .inl (blank_space ' ' (by simp))

theorem UnaryOp.tokenAt_placed (op : UnaryOp) (after : List Char) :
    (op.tokenAt 0).Placed none 0 [] ('(' :: after) := by
  have written : (TokenKind.unary op).WrittenAs none op.symbol.toList := by
    cases op
    case negate => exact ⟨rfl, rfl⟩
    all_goals exact rfl
  refine ⟨by simp, rfl, written, rfl, by simp, ?_⟩
  intro c first
  cases first
  exact .inr (TokenKind.endsBefore_operator _ (by decide))

namespace Reading

variable {source secondSource : String} {tokens secondTokens : List Token}
  {tree secondTree : Tree}

/-- A source in parentheses may be written at the end of another. -/
theorem layout_enclosed (reading : Reading source tokens tree)
    (last : Option TokenKind) (offset : Nat) {blanks : List Char}
    (blank : ∀ c ∈ blanks, CharClass.of c = .whitespace)
    (separated : ∀ before ∈ last, before.needsBlankAfter = true → blanks ≠ []) :
    Layout last offset (blanks ++ (Formula.enclosed source).toList)
      (grouped (offset + byteLength blanks) source tokens) := by
  have layout :
      Layout last offset (blanks ++ (Formula.enclosed source).toList ++ [])
        (grouped (offset + byteLength blanks) source tokens ++ []) :=
    Layout.group blank separated reading.layout reading.spells.grammatical
      (.blanks (List.forall_mem_nil _))
  simpa using layout

theorem enclosed (reading : Reading source tokens tree) :
    Reading (enclosed source) (grouped 0 source tokens) (tree.moved 1) := by
  refine ⟨?_, (reading.spells.grouped 0 _).loosen (Nat.zero_le 7)⟩
  exact reading.layout_enclosed none 0 (List.forall_mem_nil _) (by simp)

theorem before (reading : Reading source tokens tree) (op : UnaryOp) :
    ∃ start, Reading (op.before source)
      (op.tokenAt 0 :: grouped start source tokens)
      (.unary (op.tokenAt 0) op rfl (tree.moved (start + 1))) := by
  have free : ∀ before ∈ some (TokenKind.unary op),
      before.needsBlankAfter = true → ([] : List Char) ≠ [] := by
    intro before isLast demands
    cases isLast
    cases demands
  have operand := reading.layout_enclosed (some (.unary op))
    (0 + byteLength op.symbol.toList) (List.forall_mem_nil _) free
  rw [List.nil_append, toList_enclosed] at operand
  have whole := Layout.token (op.tokenAt_placed _) operand
  refine ⟨0 + byteLength op.symbol.toList + byteLength [], ?_, ?_⟩
  · simpa [UnaryOp.before, UnaryOp.tokenAt] using whole
  · have inner := reading.spells.grouped
      (0 + byteLength op.symbol.toList + byteLength []) source
    exact (Spells.unary rfl (inner.loosen (by decide))).loosen (Nat.zero_le 6)

theorem layout_operand (reading : Reading source tokens tree) (op : BinaryOp)
    (offset : Nat) :
    ∃ index start, Layout (some .closeParen) offset
      ([' '] ++ op.symbol.toList ++ ([' '] ++ (Formula.enclosed source).toList))
      (op.tokenAt index :: grouped start source tokens) := by
  have operand := reading.layout_enclosed (some (.binary op))
    (offset + byteLength [' '] + byteLength op.symbol.toList) blank_space
    (by simp)
  exact ⟨_, _, Layout.token (op.tokenAt_placed offset _) operand⟩

theorem between (first : Reading source tokens tree)
    (second : Reading secondSource secondTokens secondTree) (op : BinaryOp) :
    ∃ index start, Reading (op.between source secondSource)
      (grouped 0 source tokens ++
        op.tokenAt index :: grouped start secondSource secondTokens)
      (.binary (op.tokenAt index) op rfl (tree.moved 1)
        (secondTree.moved (start + 1))) := by
  obtain ⟨index, start, behind⟩ := second.layout_operand op
    (0 + byteLength [] + 1 + byteLength source.toList + 1)
  have whole :
      Layout none 0 ([] ++ (Formula.enclosed source).toList ++ _)
        (grouped 0 source tokens ++ _) :=
    Layout.group (List.forall_mem_nil _) (by simp) first.layout
      first.spells.grammatical behind
  have left := first.spells.grouped 0 source
  have right := second.spells.grouped start secondSource
  have tight := op.layer_lt_six
  refine ⟨index, start, ?_, ?_⟩
  · simpa [BinaryOp.between] using whole
  · have spelled : (op.tokenAt index).kind = .binary op := rfl
    have joined := Spells.binary spelled (left.loosen (by omega))
      (right.loosen (by omega))
    exact joined.loosen (Nat.zero_le _)

end Reading

theorem eraseDups_filter (keeps : String → Bool) (items : List String) :
    (items.filter keeps).eraseDups = items.eraseDups.filter keeps := by
  induction items using List.reverseRecOn with
  | nil => rfl
  | append_singleton front last induction =>
      rw [List.filter_append, eraseDups_concat]
      cases kept : keeps last with
      | false =>
          have none : [last].filter keeps = [] := by simp [kept]
          rw [none, List.append_nil, induction]
          split_ifs <;> simp [kept]
      | true =>
          have whole : [last].filter keeps = [last] := by simp [kept]
          rw [whole, eraseDups_concat, induction]
          by_cases repeated : last ∈ front <;> simp [repeated, kept]

theorem eraseDups_append_eq (front back : List String) :
    (front ++ back).eraseDups =
      front.eraseDups ++
        back.eraseDups.filter fun name => name ∉ front.eraseDups := by
  rw [List.eraseDups_append, List.removeAll, eraseDups_filter]
  simp

namespace Expression

/-- The source is one of a formula. -/
def Compiles (source : String) : Prop :=
  ∃ type, ∃ expression : Expression type, ofSource type source = .ok expression

/-- The source is one of a formula that has these names, whatever its type. -/
def CompilesWith (source : String) (names : List String) : Prop :=
  ∀ type, ∃ expression, ofSource type source = .ok expression ∧
    expression.names = names

theorem compiles_of_reading {source : String} {tokens : List Token}
    {tree : Tree} (reading : Reading source tokens tree) : Compiles source := by
  obtain ⟨expression, compiles, -⟩ := reading.exists_ofSource .integer
  exact ⟨.integer, expression, compiles⟩

theorem compilesWith_of_reading {source : String} {tokens : List Token}
    {tree : Tree} (reading : Reading source tokens tree) :
    CompilesWith source (namesIn tokens).eraseDups := by
  intro type
  obtain ⟨expression, compiles, means⟩ := reading.exists_ofSource type
  exact ⟨expression, compiles, means.names⟩

/-- Both sources compile for the operands of the operator, and the operator
between them in parentheses gives a formula of their values and names. -/
def JoinedBy (op : BinaryOp) (first second : String) : Prop :=
  ∃ left right whole,
    ofSource op.operandType first = .ok left ∧
    ofSource op.operandType second = .ok right ∧
    ofSource op.resultType (op.between first second) = .ok whole ∧
    CompilesWith (op.between first second)
      (left.names ++ right.names.filter fun name => name ∉ left.names) ∧
    ∀ {Table : Type} [ValueTable Table] (table : Table),
      whole.evaluate table =
        op.denote (left.evaluate table) (right.evaluate table)

/-- The source compiles for the operand of the operator, and the operator before
it in parentheses gives a formula of its value and names. -/
def AppliedBy (op : UnaryOp) (source : String) : Prop :=
  ∃ operand whole,
    ofSource op.operandType source = .ok operand ∧
    ofSource op.operandType (op.before source) = .ok whole ∧
    CompilesWith (op.before source) operand.names ∧
    ∀ {Table : Type} [ValueTable Table] (table : Table),
      whole.evaluate table = op.denote (operand.evaluate table)

/-- Parentheses around the source change neither its program nor its names. -/
def KeptEnclosed (type : ValueType) (source : String) : Prop :=
  ∃ inner whole,
    ofSource type source = .ok inner ∧
    ofSource type (enclosed source) = .ok whole ∧
    whole.program = inner.program ∧ whole.names = inner.names

section Composed

variable {first second : String} {firstTokens secondTokens : List Token}
  {firstTree secondTree : Tree}

theorem joinedBy_of_readings
    (firstReading : Reading first firstTokens firstTree)
    (secondReading : Reading second secondTokens secondTree) (op : BinaryOp) :
    JoinedBy op first second := by
  obtain ⟨left, leftCompiles, leftMeans⟩ :=
    firstReading.exists_ofSource op.operandType
  obtain ⟨right, rightCompiles, rightMeans⟩ :=
    secondReading.exists_ofSource op.operandType
  obtain ⟨index, start, reading⟩ := firstReading.between secondReading op
  obtain ⟨whole, wholeCompiles, wholeMeans⟩ :=
    reading.exists_ofSource op.resultType
  refine ⟨left, right, whole, leftCompiles, rightCompiles, wholeCompiles,
    ?_, ?_⟩
  · have named := compilesWith_of_reading reading
    have operator : (op.tokenAt index).kind ≠ .name := TokenKind.noConfusion
    rw [namesIn_append, namesIn_cons_of_ne operator, namesIn_grouped,
      namesIn_grouped, eraseDups_append_eq] at named
    rwa [leftMeans.names, rightMeans.names]
  · intro Table _ table
    rw [wholeMeans.value, leftMeans.value, rightMeans.value]
    simp only [Tree.denote, Tree.denote_moved, Value.coerced_of]

theorem appliedBy_of_reading (reading : Reading first firstTokens firstTree)
    (op : UnaryOp) : AppliedBy op first := by
  obtain ⟨operand, operandCompiles, operandMeans⟩ :=
    reading.exists_ofSource op.operandType
  obtain ⟨start, wholeReading⟩ := reading.before op
  obtain ⟨whole, wholeCompiles, wholeMeans⟩ :=
    wholeReading.exists_ofSource op.operandType
  refine ⟨operand, whole, operandCompiles, wholeCompiles, ?_, ?_⟩
  · have named := compilesWith_of_reading wholeReading
    have operator : (op.tokenAt 0).kind ≠ .name := TokenKind.noConfusion
    rw [namesIn_cons_of_ne operator, namesIn_grouped] at named
    rwa [operandMeans.names]
  · intro Table _ table
    rw [wholeMeans.value, operandMeans.value]
    simp only [Tree.denote, Tree.denote_moved, Value.coerced_of]

theorem keptEnclosed_of_reading (reading : Reading first firstTokens firstTree)
    (type : ValueType) : KeptEnclosed type first := by
  obtain ⟨inner, innerCompiles, innerMeans⟩ := reading.exists_ofSource type
  obtain ⟨whole, wholeCompiles, wholeMeans⟩ :=
    reading.enclosed.exists_ofSource type
  refine ⟨inner, whole, innerCompiles, wholeCompiles, ?_, ?_⟩
  · rw [wholeMeans.program, innerMeans.program, Tree.program_moved]
  · rw [wholeMeans.names, innerMeans.names, namesIn_grouped]

end Composed

/-- Sources in parentheses are put together without regard to what they are
made of: the operator between or before them is applied to their values, their
names are put together, and parentheses alone change nothing. -/
theorem composition_hygienic {first second : String}
    (firstCompiles : Compiles first) (secondCompiles : Compiles second) :
    (∀ op : BinaryOp, JoinedBy op first second) ∧
      (∀ op : UnaryOp, AppliedBy op first) ∧
      ∀ type, KeptEnclosed type first := by
  obtain ⟨firstType, firstExpression, firstOk⟩ := firstCompiles
  obtain ⟨secondType, secondExpression, secondOk⟩ := secondCompiles
  obtain ⟨firstTokens, firstTree, firstReading, -⟩ := exists_reading firstOk
  obtain ⟨secondTokens, secondTree, secondReading, -⟩ := exists_reading secondOk
  exact ⟨joinedBy_of_readings firstReading secondReading,
    appliedBy_of_reading firstReading, keptEnclosed_of_reading firstReading⟩

/-- A minus sign before a digit stays that of a literal, and one between
parentheses is a subtraction. -/
theorem composition_of_literal :
    Compiles "-1" ∧ Compiles "x" ∧
      BinaryOp.subtract.between "-1" "x" = "(-1) - (x)" ∧
      JoinedBy .subtract "-1" "x" := by
  have literal :
      (Lexer.ofSource "-1").next =
        (.ok (some ⟨.number, 0, "-1", some (-1)⟩), ⟨[], 2, some .number⟩) :=
    rfl
  have name :
      (Lexer.ofSource "x").next =
        (.ok (some ⟨.name, 0, "x", none⟩), ⟨[], 1, some .name⟩) :=
    rfl
  have literalCompiles := compiles_of_reading (Reading.atom literal rfl rfl)
  have nameCompiles := compiles_of_reading (Reading.atom name rfl rfl)
  exact ⟨literalCompiles, nameCompiles, rfl,
    (composition_hygienic literalCompiles nameCompiles).1 .subtract⟩

end Expression

end Formula
