import Formula.Proofs.MinusSigns
import Formula.Proofs.Replacement

/-!
# Negative literals

A minus sign directly before digits belongs to the literal where an operand has
to come.  Parted from the digits by a blank it is a prefix operator there, which
binds to them alone and negates them: the value stays the same.  Only the digits
of the least integer have no value of their own.
-/

namespace Formula

/-- The text with a blank put in at a byte offset. -/
def insertBlank : Nat → List Char → List Char
  | 0, text => ' ' :: text
  | _ + 1, [] => [' ']
  | offset + 1, c :: rest => c :: insertBlank (offset + 1 - c.utf8Size) rest

theorem insertBlank_byteLength (front back : List Char) :
    insertBlank (byteLength front) (front ++ back) = front ++ ' ' :: back := by
  induction front with
  | nil => simp [insertBlank]
  | cons c front induction =>
      have first := Char.utf8Size_pos c
      obtain ⟨offset, size⟩ :
          ∃ offset, c.utf8Size + byteLength front = offset + 1 :=
        ⟨c.utf8Size + byteLength front - 1, by omega⟩
      have behind : offset + 1 - c.utf8Size = byteLength front := by omega
      rw [byteLength_cons, size, List.cons_append, insertBlank, behind,
        induction, List.cons_append]

/-- The source with a blank behind the sign with which a token begins. -/
def spaced (source : String) (token : Token) : String :=
  String.ofList (insertBlank (token.index + 1) source.toList)

theorem toList_spaced {source : String} {token : Token} {front back : List Char}
    (whole : source.toList = front ++ '-' :: back)
    (index : token.index = byteLength front) :
    (spaced source token).toList = front ++ '-' :: ' ' :: back := by
  have size : token.index + 1 = byteLength (front ++ ['-']) := by
    rw [index, byteLength_append]
    rfl
  have cut : source.toList = front ++ ['-'] ++ back := by
    rw [whole]
    simp
  rw [spaced, String.toList_ofList, size, cut, insertBlank_byteLength]
  simp

theorem TokenKind.WrittenAs.exists_digits {last : Option TokenKind}
    {text : List Char} (written : number.WrittenAs last text)
    (minus : text.head? = some '-') :
    expectsOperand last = true ∧ ∃ digits, text = '-' :: digits ∧
      IsDigits digits := by
  obtain ⟨⟨value, numeral⟩, sign⟩ := written
  refine ⟨sign minus, ?_⟩
  cases numeral with
  | plain isDigits => exact absurd minus isDigits.head_ne
  | negative isDigits => exact ⟨_, rfl, isDigits⟩

theorem TokenKind.Records.decimal_eq {digits : List Char} {value : Int32}
    (isDigits : IsDigits digits)
    (records : TokenKind.number.Records ('-' :: digits) (some value)) :
    (decimal digits : Int) = -value.toInt := by
  obtain ⟨number, same, numeral⟩ := records
  cases same
  have denoted := numeral.signedValue_eq
  rw [(Numeral.negative isDigits).signedValue_eq] at denoted
  omega

theorem toInt_neg_of_ne {value : Int32} (notLeast : value ≠ -2147483648) :
    (-value).toInt = -value.toInt := by
  have lower := value.le_toInt
  have upper := value.toInt_lt
  have different : value.toInt ≠ -2147483648 := by
    intro least
    exact notLeast (Int32.toInt_inj.mp least)
  rw [Int32.toInt_neg]
  apply Int.bmod_eq_of_le <;> omega

namespace Token

variable {literal : Token}

/-- The sign of a literal as an operator of its own. -/
def sign (literal : Token) : Token := ⟨.unary .negate, literal.index, "-", none⟩

/-- The digits of a negative literal as a literal of their own, with a blank
between the sign and them. -/
def digits (literal : Token) : Token where
  kind := .number
  index := literal.index + 2
  text := String.ofList literal.text.toList.tail
  value := literal.value.map fun value => -value

/-- What becomes of a token of a source when a literal in it is parted from its
sign. -/
def parted (literal token : Token) : List Token :=
  if token = literal then [literal.sign, literal.digits]
  else if token.index < literal.index then [token]
  else [token.moved 1]

@[simp] theorem toList_text_sign (literal : Token) :
    literal.sign.text.toList = ['-'] := by
  simp [sign]

@[simp] theorem toList_text_digits (literal : Token) :
    literal.digits.text.toList = literal.text.toList.tail := by
  simp [digits]

theorem parted_of_ne {token : Token} (other : token ≠ literal) :
    literal.parted token = [token] ∨
      literal.parted token = [token.moved 1] := by
  rw [parted, if_neg other]
  split
  · exact .inl rfl
  · exact .inr rfl

theorem keepsValues_parted {value : Int32} (number : literal.kind = .number)
    (held : literal.value = some value) : KeepsValues literal.parted where
  operators := by
    intro token noOperand
    have other : token ≠ literal := by
      rintro rfl
      simp [atom?, number, held] at noOperand
    rcases parted_of_ne other with kept | moved
    · exact ⟨token, kept, rfl⟩
    · exact ⟨token.moved 1, moved, rfl⟩
  operands := by
    intro token atom spelled
    by_cases same : token = literal
    · subst same
      obtain rfl : Atom.number value = atom := by
        simpa [atom?, number, held] using spelled
      have digitsSpelled : token.digits.atom? = some (.number (-value)) := by
        simp [atom?, digits, held]
      refine ⟨.unary token.sign .negate rfl
        (.leaf token.digits _ digitsSpelled), ?_, ?_⟩
      · rw [parted, if_pos rfl]
        exact .unary rfl (Spells.atom digitsSpelled).tighter
      · intro lookup
        change Value.integer (UnaryOp.negate.denote (-value)) =
          Value.integer value
        rw [UnaryOp.denote_eq_apply]
        exact congrArg Value.integer Int32.neg_neg
    · rcases parted_of_ne same with kept | moved
      · rw [kept]
        exact ⟨.leaf token atom spelled, (Spells.atom spelled).tighter,
          fun _ => rfl⟩
      · have movedSpelled : (token.moved 1).atom? = some atom := spelled
        rw [moved]
        exact ⟨.leaf _ atom movedSpelled, (Spells.atom movedSpelled).tighter,
          fun _ => rfl⟩

theorem flatMap_parted {front back : List Token}
    (ordered : (front ++ literal :: back).Pairwise fun token later =>
      token.index < later.index) :
    (front ++ literal :: back).flatMap literal.parted =
      front ++ literal.sign :: literal.digits :: back.map (moved 1) := by
  obtain ⟨-, behind, before⟩ := List.pairwise_append.mp ordered
  obtain ⟨behind, -⟩ := List.pairwise_cons.mp behind
  have frontKept : ∀ token ∈ front, literal.parted token = [token] := by
    intro token member
    have earlier := before token member literal (by simp)
    have other : token ≠ literal := by
      rintro rfl
      omega
    rw [parted, if_neg other, if_pos earlier]
  have backMoved : ∀ token ∈ back, literal.parted token = [token.moved 1] := by
    intro token member
    have later := behind token member
    have other : token ≠ literal := by
      rintro rfl
      omega
    rw [parted, if_neg other, if_neg (by omega)]
  have literalParted :
      literal.parted literal = [literal.sign, literal.digits] :=
    if_pos rfl
  rw [List.flatMap_append, List.flatMap_cons, literalParted,
    List.flatMap_congr frontKept, List.flatMap_congr backMoved,
    ← List.map_eq_flatMap, ← List.map_eq_flatMap, List.map_id']
  rfl

end Token

namespace Lexer

theorem next_out_of_range {lexer : Lexer} {blanks text after : List Char}
    {value : Int} (whole : lexer.rest = blanks ++ (text ++ after))
    (blank : ∀ c ∈ blanks, CharClass.of c = .whitespace)
    (separated : ∀ before ∈ lexer.last,
      before.needsBlankAfter = true → blanks ≠ [])
    (written : TokenKind.number.WrittenAs lexer.last text)
    (ends : TokenKind.number.Ends after) (numeral : Numeral text value)
    (outside : int32? value = none) :
    ∃ later, lexer.next =
      (.error (.numberOutOfRange (lexer.position + byteLength blanks)
        (String.ofList text)), later) := by
  obtain ⟨c, rest, begins, visible, -⟩ := written.begins
  have first : text ++ after = c :: (rest ++ after) := by
    rw [begins, List.cons_append]
  have isBlank : ∀ c ∈ blanks, isBlank c = true := by
    intro c member
    exact (CharClass.of_eq_whitespace_iff c).mp (blank c member)
  have stops : ∀ d ∈ (text ++ after).head?, Formula.isBlank d = false := by
    intro d isFirst
    rw [first] at isFirst
    cases isFirst
    exact visible
  have start := lexer.skipBlanks_append whole isBlank stops
  have unseparated := unseparated?_eq_none whole isBlank stops separated
  have piece :
      Piece.cut lexer.last (lexer.position + byteLength blanks) c
        (rest ++ after) = Piece.accept text after .number :=
    Piece.cut_number written ends first
  have refused :
      (Piece.accept text after .number).token
          (lexer.position + byteLength blanks) lexer.separated =
        .error (.numberOutOfRange (lexer.position + byteLength blanks)
          (String.ofList text)) := by
    have free : TokenKind.number.needsBlankBefore = false := rfl
    simp [Piece.token, Piece.accept, free, numeral.signedValue_eq, outside]
  rw [first] at start
  simp only [next, start, unseparated, piece, refused]
  exact ⟨_, rfl⟩

end Lexer

theorem Token.Placed.sign {last : Option TokenKind} {offset : Nat}
    {blanks after : List Char} {literal : Token}
    (placed : literal.Placed last offset blanks after)
    (expects : TokenKind.expectsOperand last = true) (rest : List Char) :
    literal.sign.Placed last offset blanks (' ' :: rest) := by
  refine ⟨placed.blank, placed.index, ⟨literal.toList_text_sign, expects⟩, rfl,
    ?_, ?_⟩
  · intro before isLast demands
    exact placed.separated before isLast (demands.imp_right nofun)
  · intro c first
    cases first
    exact .inl (blank_space ' ' (by simp))

/-- The scanner takes such a sign for a token of its own. -/
theorem Token.Placed.finds_sign {last : Option TokenKind} {offset : Nat}
    {blanks after : List Char} {literal : Token}
    (placed : literal.Placed last offset blanks after)
    (expects : TokenKind.expectsOperand last = true) (rest : List Char) :
    Lexer.Finds ⟨blanks ++ '-' :: ' ' :: rest, offset, last⟩ [literal.sign]
      ⟨' ' :: rest, literal.index + 1, some (.unary .negate)⟩ := by
  have text := literal.toList_text_sign
  have whole : blanks ++ '-' :: ' ' :: rest =
      blanks ++ literal.sign.text.toList ++ ' ' :: rest := by
    rw [text]
    simp
  have found :
      Lexer.next ⟨blanks ++ '-' :: ' ' :: rest, offset, last⟩ =
        (.ok (some literal.sign), _) :=
    Lexer.next_of_placed whole (placed.sign expects rest) (by simp)
  rw [text] at found
  exact .cons found (.refl _)

/-- Between a sign and the digits of its literal stands a blank: the scanner
comes to the sign, and behind it to the blank and the digits. -/
structure Parting (source : String) (front back : List Token) (literal : Token)
    (digits after : List Char) : Prop where
  text : literal.text.toList = '-' :: digits
  isDigits : IsDigits digits
  records : TokenKind.number.Records ('-' :: digits) literal.value
  ends : TokenKind.number.Ends after
  behind : Layout (some .number) (literal.index + 1 + byteLength digits)
    after back
  finds : (Lexer.ofSource (spaced source literal)).Finds
    (front ++ [literal.sign])
    ⟨' ' :: (digits ++ after), literal.index + 1, some (.unary .negate)⟩

theorem Layout.exists_parting {source : String} {front back : List Token}
    {literal : Token}
    (layout : Layout none 0 source.toList (front ++ literal :: back))
    (number : literal.kind = .number) (minus : literal.BeginsMinus) :
    ∃ digits after, Parting source front back literal digits after := by
  obtain ⟨before, rest, whole, cut, finds⟩ := layout.exists_cut
  cases cut with
  | @token _ _ blanks after _ _ placed behind =>
      have written := placed.written
      have records := placed.records
      have ends := placed.ends
      rw [number] at written records ends behind
      obtain ⟨expects, digits, text, isDigits⟩ := written.exists_digits minus
      rw [text] at records whole behind finds
      have size : byteLength ('-' :: digits) = 1 + byteLength digits := rfl
      rw [size, ← Nat.add_assoc] at behind
      refine ⟨digits, after, text, isDigits, records, ends, behind, ?_⟩
      have split : source.toList =
          (before ++ blanks) ++ '-' :: (digits ++ after) := by
        simpa using whole
      have index : literal.index = byteLength (before ++ blanks) := by
        rw [placed.index, Nat.zero_add, byteLength_append]
      have parted : (spaced source literal).toList =
          before ++ (blanks ++ '-' :: ' ' :: (digits ++ after)) := by
        rw [toList_spaced split index, List.append_assoc]
      have sameHead : (blanks ++ '-' :: ' ' :: (digits ++ after)).head? =
          (blanks ++ '-' :: digits ++ after).head? := by
        cases blanks <;> rfl
      rw [Lexer.ofSource, parted]
      exact (finds _ sameHead).trans (placed.finds_sign expects _)

namespace Parting

variable {source : String} {front back : List Token} {literal : Token}
  {digits after : List Char} {value : Int32}

theorem written (parting : Parting source front back literal digits after)
    (last : Option TokenKind) : TokenKind.number.WrittenAs last digits :=
  ⟨⟨_, .plain parting.isDigits⟩,
    fun minus => absurd minus parting.isDigits.head_ne⟩

theorem text_digits (parting : Parting source front back literal digits after) :
    literal.digits.text.toList = digits := by
  rw [Token.toList_text_digits, parting.text]
  rfl

theorem placed (parting : Parting source front back literal digits after)
    (held : literal.value = some value) (notLeast : value ≠ -2147483648) :
    literal.digits.Placed (some (.unary .negate)) (literal.index + 1) [' ']
      after where
  blank := blank_space
  index := rfl
  written := by
    rw [parting.text_digits]
    exact parting.written _
  records := by
    have records := parting.records
    rw [held] at records
    have numeral := Numeral.plain parting.isDigits
    rw [records.decimal_eq parting.isDigits,
      ← toInt_neg_of_ne notLeast] at numeral
    rw [parting.text_digits]
    exact ⟨-value, by simp [Token.digits, held], numeral⟩
  separated := by simp
  ends := parting.ends

theorem layout (parting : Parting source front back literal digits after)
    (held : literal.value = some value) (notLeast : value ≠ -2147483648) :
    Layout none 0 (spaced source literal).toList
      (front ++
        literal.sign :: literal.digits :: back.map (Token.moved 1)) := by
  have text := parting.text_digits
  have found :
      Lexer.next ⟨[' '] ++ literal.digits.text.toList ++ after,
          literal.index + 1, some (.unary .negate)⟩ =
        (.ok (some literal.digits), _) :=
    Lexer.next_of_placed rfl (parting.placed held notLeast)
      parting.behind.head?_ne
  rw [text] at found
  have position : literal.index + 1 + byteLength digits + 1 =
      literal.digits.index + byteLength digits := by
    simp only [Token.digits]
    omega
  have behind := parting.behind.moved 1
  rw [position] at behind
  have finds := parting.finds.trans (.cons found (.refl _))
  have whole : Layout none 0 (spaced source literal).toList
      (front ++ [literal.sign] ++ [literal.digits] ++
        back.map (Token.moved 1)) :=
    Lexer.layout_of_tokens (finds.tokens_eq_ok behind.tokens)
  simpa using whole

theorem scan_eq (parting : Parting source front back literal digits after)
    (least : literal.value = some (-2147483648)) :
    (Lexer.ofSource (spaced source literal)).scan =
      (front ++ [literal.sign],
        some (.numberOutOfRange (literal.index + 2)
          (String.ofList digits))) := by
  have records := parting.records
  rw [least] at records
  have outside : int32? (decimal digits) = none := by
    rw [int32?_eq_none_iff, records.decimal_eq parting.isDigits]
    decide
  obtain ⟨later, refused⟩ :
      ∃ later, Lexer.next ⟨' ' :: (digits ++ after), literal.index + 1,
          some (.unary .negate)⟩ =
        (.error (.numberOutOfRange (literal.index + 1 + byteLength [' '])
          (String.ofList digits)), later) :=
    Lexer.next_out_of_range rfl blank_space (by simp) (parting.written _)
      parting.ends (.plain parting.isDigits) outside
  rw [parting.finds, Lexer.scan_error refused, List.append_nil]
  rfl

end Parting

namespace Sentence

/-- Where the check accepts a token that takes nothing on its left, it accepts a
prefix operator. -/
theorem Progress.exists_accept_prefix {front back : List Token}
    {literal sign : Token} {op : UnaryOp}
    (grammatical : Grammatical ((front ++ literal :: back).map Token.kind))
    (free : literal.kind.takesLeft = false) (kind : sign.kind = .unary op) :
    ∃ checked, (front ++ [sign]).foldlM accept {} = .ok checked := by
  obtain ⟨checked, sentence, accepted, -⟩ :=
    (check_iff_grammatical (front ++ literal :: back)).mpr grammatical
  rw [List.foldlM_append] at accepted
  cases ran : front.foldlM accept {} with
  | error error =>
      rw [ran] at accepted
      cases accepted
  | ok middle =>
      rw [ran, ok_bind] at accepted
      obtain ⟨next, first, -⟩ := foldlM_cons_eq_ok_iff.mp accepted
      obtain ⟨-, -, fits, -⟩ := (accept_eq_ok_iff middle next literal).mp first
      have signFits : middle.expectsOperand = (!sign.kind.takesLeft) := by
        rw [fits, free, kind]
        rfl
      have signAccepted := accept_of_fits signFits
        (openersAfter_other (by simp [kind]) (by simp [kind]) middle.openers)
      refine ⟨middle.extended middle.openers sign, ?_⟩
      rw [List.foldlM_append, ran, ok_bind]
      exact foldlM_cons_eq_ok_iff.mpr ⟨_, signAccepted, rfl⟩

/-- The least integer is refused without its sign, since the sign is
accepted. -/
theorem ofSource_spaced_least {source : String} {front back : List Token}
    {literal : Token} {digits after : List Char}
    (parting : Parting source front back literal digits after)
    (grammatical : Grammatical ((front ++ literal :: back).map Token.kind))
    (number : literal.kind = .number)
    (least : literal.value = some (-2147483648)) :
    ofSource (spaced source literal) =
      .error (.numberOutOfRange (literal.index + 2)
        (String.ofList digits)) := by
  have free : literal.kind.takesLeft = false := by
    rw [number]
    rfl
  have kind : literal.sign.kind = .unary .negate := rfl
  obtain ⟨checked, accepted⟩ :=
    Progress.exists_accept_prefix grammatical free kind
  rw [ofSource, Progress.read_eq_scan, parting.scan_eq least, accepted]
  rfl

end Sentence

theorem Reading.exists_spaced {source : String} {front back : List Token}
    {literal : Token} {digits after : List Char} {tree : Tree} {value : Int32}
    (reading : Reading source (front ++ literal :: back) tree)
    (parting : Parting source front back literal digits after)
    (number : literal.kind = .number) (held : literal.value = some value)
    (notLeast : value ≠ -2147483648) :
    ∃ tokens other, Reading (spaced source literal) tokens other ∧
      namesIn tokens = namesIn (front ++ literal :: back) ∧
      ∀ lookup, other.denote lookup = tree.denote lookup := by
  have layout := parting.layout held notLeast
  have ordered := reading.layout.increasing.2
  obtain ⟨other, spells, same⟩ :=
    (Token.keepsValues_parted number held).exists_spells reading.spells
  rw [Token.flatMap_parted ordered, Nat.zero_min] at spells
  refine ⟨_, other, ⟨layout, spells⟩, ?_, same⟩
  have noName : literal.kind ≠ .name := by simp [number]
  have signNoName : literal.sign.kind ≠ .name := TokenKind.noConfusion
  have digitsNoName : literal.digits.kind ≠ .name := TokenKind.noConfusion
  rw [namesIn_append, namesIn_append, namesIn_cons_of_ne signNoName,
    namesIn_cons_of_ne digitsNoName, namesIn_cons_of_ne noName, namesIn_moved]

namespace Expression

theorem compiles_of_sentence {source : String} {sentence : Sentence}
    (valid : Sentence.ofSource source = .ok sentence) : Compiles source := by
  obtain ⟨tokenized, tree, spells⟩ := Sentence.spells_of_ofSource valid
  exact compiles_of_reading ⟨Lexer.layout_of_tokens tokenized, spells⟩

/-- The sources compile to expressions with the same names and the same
values. -/
def SameMeaning (type : ValueType) (first second : String) : Prop :=
  ∃ one other, ofSource type first = .ok one ∧
    ofSource type second = .ok other ∧ one.names = other.names ∧
    ∀ {Table : Type} [ValueTable Table] (table : Table),
      one.evaluate table = other.evaluate table

/-- A blank behind the sign of a negative literal changes neither the names of a
formula nor its values.  Only the least integer is then refused, at the first of
its digits, since without the sign it is out of range. -/
theorem ofSource_spaced {source : String} {tokens : List Token}
    {literal : Token}
    (compiles : Compiles source) (tokenized : tokenize source = .ok tokens)
    (member : literal ∈ tokens) (number : literal.kind = .number)
    (minus : literal.BeginsMinus) :
    ∃ value, literal.value = some value ∧
      (value ≠ -2147483648 →
        ∀ type, SameMeaning type source (spaced source literal)) ∧
      (value = -2147483648 → ∀ type,
        ofSource type (spaced source literal) =
          .error (.numberOutOfRange (literal.index + 2)
            (String.ofList literal.text.toList.tail))) := by
  obtain ⟨compiledType, expression, compiled⟩ := compiles
  obtain ⟨otherTokens, tree, reading, -⟩ := exists_reading compiled
  obtain rfl := Except.ok.inj (tokenized.symm.trans reading.layout.tokens)
  obtain ⟨front, back, rfl⟩ := List.append_of_mem member
  obtain ⟨digits, after, parting⟩ := reading.layout.exists_parting number minus
  obtain ⟨value, held, -⟩ := parting.records
  refine ⟨value, held, ?_, ?_⟩
  · intro notLeast type
    obtain ⟨one, oneCompiles, oneMeans⟩ := reading.exists_ofSource type
    obtain ⟨spacedTokens, spacedTree, spacedReading, sameNames, sameValue⟩ :=
      reading.exists_spaced parting number held notLeast
    obtain ⟨other, otherCompiles, otherMeans⟩ :=
      spacedReading.exists_ofSource type
    refine ⟨one, other, oneCompiles, otherCompiles, ?_, ?_⟩
    · rw [oneMeans.names, otherMeans.names, sameNames]
    · intro Table _ table
      rw [oneMeans.value, otherMeans.value, sameValue]
  · rintro rfl type
    rw [parting.text]
    exact ofSource_of_sentence_error type
      (Sentence.ofSource_spaced_least parting reading.spells.grammatical number
        held)

/-- In `2 * -5` the literal may be parted from its sign, and `-2147483648` may
not. -/
theorem ofSource_spaced_product :
    spaced "2 * -5" ⟨.number, 4, "-5", some (-5)⟩ = "2 * - 5" ∧
    (∀ type, SameMeaning type "2 * -5" "2 * - 5") ∧
    spaced "-2147483648" ⟨.number, 0, "-2147483648", some (-2147483648)⟩ =
      "- 2147483648" ∧
    ∀ type, ofSource type "- 2147483648" =
      .error (.numberOutOfRange 2 "2147483648") := by
  have product :
      Sentence.ofSource "2 * -5" =
        .ok
          { tokens :=
              [⟨.number, 0, "2", some 2⟩, ⟨.binary .multiply, 2, "*", none⟩,
                ⟨.number, 4, "-5", some (-5)⟩]
            names := [] } := by
    decide +kernel
  have least :
      Sentence.ofSource "-2147483648" =
        .ok
          { tokens := [⟨.number, 0, "-2147483648", some (-2147483648)⟩]
            names := [] } := by
    decide +kernel
  have productMinus :
      (⟨.number, 4, "-5", some (-5)⟩ : Token).BeginsMinus := by
    simp [Token.BeginsMinus]
  have leastMinus : Token.BeginsMinus
      ⟨.number, 0, "-2147483648", some (-2147483648)⟩ := by
    simp [Token.BeginsMinus]
  obtain ⟨value, held, same, -⟩ :=
    ofSource_spaced (compiles_of_sentence product)
      (Sentence.spells_of_ofSource product).1 (by simp) rfl productMinus
  obtain ⟨leastValue, leastHeld, -, refused⟩ :=
    ofSource_spaced (compiles_of_sentence least)
      (Sentence.spells_of_ofSource least).1 (by simp) rfl leastMinus
  cases held
  cases leastHeld
  have productSpaced :
      spaced "2 * -5" ⟨.number, 4, "-5", some (-5)⟩ = "2 * - 5" := by
    decide +kernel
  have leastSpaced :
      spaced "-2147483648" ⟨.number, 0, "-2147483648", some (-2147483648)⟩ =
        "- 2147483648" := by
    decide +kernel
  rw [productSpaced] at same
  rw [leastSpaced] at refused
  exact ⟨productSpaced, same (by decide), leastSpaced, refused rfl⟩

end Expression

end Formula
