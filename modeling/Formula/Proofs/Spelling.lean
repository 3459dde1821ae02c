import Formula.Proofs.Span
import Formula.Token.Piece
import Mathlib.Data.Nat.Digits.Defs

/-!
# Spelling of tokens

`TokenKind.WrittenAs` says how a token of a kind may be written, and
`TokenKind.EndsBefore` which characters may stand directly behind it.  A piece
is cut off the front of a text exactly if it is so written and so ends.
-/

namespace Formula

namespace CharClass

theorem isDigit_of_mem_tables {c : Char}
    (member : c ∈ operatorCharacters ∨ c ∈ mixedCharacters) :
    c.isDigit = false := by
  have operators : ∀ c ∈ operatorCharacters, c.isDigit = false := by
    simp [operatorCharacters]
  have mixed : ∀ c ∈ mixedCharacters, c.isDigit = false := by
    simp [mixedCharacters]
  exact member.elim (operators c) (mixed c)

theorem isBlank_of_mem_tables {c : Char}
    (member : c ∈ operatorCharacters ∨ c ∈ mixedCharacters) :
    isBlank c = false := by
  have operators : ∀ c ∈ operatorCharacters, isBlank c = false := by
    simp [operatorCharacters, isBlank]
  have mixed : ∀ c ∈ mixedCharacters, isBlank c = false := by
    simp [mixedCharacters, isBlank]
  exact member.elim (operators c) (mixed c)

theorem isBlank_of_isDigit {c : Char} (digit : c.isDigit = true) :
    isBlank c = false := by
  simp only [Char.isDigit, Bool.and_eq_true, decide_eq_true_eq] at digit
  have low : 48 ≤ c.toNat := digit.1
  have high : c.toNat ≤ 57 := digit.2
  simp only [isBlank, Bool.or_eq_false_iff, Bool.and_eq_false_iff,
    decide_eq_false_iff_not, beq_eq_false_iff_ne]
  omega

theorem of_eq_digit_iff (c : Char) : of c = .digit ↔ c.isDigit = true := by
  have tables := @isDigit_of_mem_tables c
  unfold of
  split_ifs <;> simp_all

theorem of_eq_whitespace_iff (c : Char) :
    of c = .whitespace ↔ isBlank c = true := by
  have tables := @isBlank_of_mem_tables c
  have digits := @isBlank_of_isDigit c
  unfold of
  split_ifs <;> simp_all

end CharClass

/-- The number that decimal digits denote, the most significant one first. -/
def decimal (digits : List Char) : Nat :=
  Nat.ofDigits 10 (digits.reverse.map fun digit => digit.toNat - '0'.toNat)

theorem int32?_eq_some_iff {value : Int} {number : Int32} :
    int32? value = some number ↔ number.toInt = value := by
  constructor
  · intro fits
    unfold int32? at fits
    split_ifs at fits with bounds
    cases fits
    rw [Int32.toInt_ofInt]
    apply Int.bmod_eq_of_le
    · exact bounds.1
    · exact Int.lt_of_le_of_lt bounds.2 (by decide)
  · rintro rfl
    have lower := number.le_toInt
    have upper := number.toInt_lt
    rw [int32?, if_pos (by omega), Int32.ofInt_toInt]

theorem int32?_eq_none_iff {value : Int} :
    int32? value = none ↔ value < -2147483648 ∨ 2147483647 < value := by
  unfold int32?
  split_ifs with bounds
  · simp only [false_iff]
    omega
  · simp only [true_iff]
    omega

theorem digitsValue_eq_decimal (digits : List Char) :
    digitsValue digits = decimal digits := by
  rw [decimal, Nat.ofDigits_eq_foldr, List.map_reverse, List.foldr_reverse,
    List.foldl_map]
  unfold digitsValue
  congr 1
  funext value digit
  simp [Nat.add_comm]

/-- At least one digit, and nothing else. -/
structure IsDigits (digits : List Char) : Prop where
  nonempty : digits ≠ []
  all : ∀ c ∈ digits, c.isDigit = true

theorem IsDigits.head_ne {digits : List Char} (isDigits : IsDigits digits) :
    digits.head? ≠ some '-' := by
  intro minus
  have digit := isDigits.all '-' (List.mem_of_head? minus)
  cases digit

/-- `Numeral text value`: the text is digits behind an optional minus sign, and
denotes the value. -/
inductive Numeral : List Char → Int → Prop where
  | plain {digits : List Char} :
      IsDigits digits → Numeral digits (decimal digits)
  | negative {digits : List Char} :
      IsDigits digits → Numeral ('-' :: digits) (-decimal digits)

theorem Numeral.signedValue_eq {text : List Char} {value : Int}
    (numeral : Numeral text value) : signedValue text = value := by
  cases numeral with
  | plain isDigits =>
      unfold signedValue
      split
      · exact absurd rfl isDigits.head_ne
      · rw [digitsValue_eq_decimal]
  | negative isDigits =>
      rw [signedValue, digitsValue_eq_decimal]

/-- Words begin with an identifier character and do not end with a character
that only joins parts of words. -/
structure IsWord (text : List Char) : Prop where
  begins : text.head?.map CharClass.of = some .identifier
  inside : ∀ c ∈ text, CharClass.of c = .identifier ∨
    CharClass.of c = .mixed ∨ CharClass.of c = .digit
  ends : text.getLast?.map CharClass.of ≠ some .mixed

theorem Numeral.mem_cases {text : List Char} {value : Int} {c : Char}
    (numeral : Numeral text value) (member : c ∈ text) :
    c.isDigit = true ∨ c = '-' := by
  cases numeral with
  | plain isDigits => exact .inl (isDigits.all c member)
  | negative isDigits =>
      rcases List.mem_cons.mp member with minus | digit
      · exact .inr minus
      · exact .inl (isDigits.all c digit)

namespace TokenKind

/-- How a token of a kind is written behind a token of kind `last`. -/
def WrittenAs (last : Option TokenKind) (text : List Char) : TokenKind → Prop
  | .number =>
    (∃ value, Numeral text value) ∧
      (text.head? = some '-' → expectsOperand last = true)
  | .name => IsWord text ∧ text ≠ "true".toList ∧ text ≠ "false".toList
  | .unary .negate => text = ['-'] ∧ expectsOperand last = true
  | .binary .subtract => text = ['-'] ∧ expectsOperand last = false
  | kind => text = kind.symbol.toList

/-- The value that a token of a kind records of its text: for a number what the
text denotes, which therefore has to be in the range of a word. -/
def Records (text : List Char) (value : Option Int32) : TokenKind → Prop
  | .number => ∃ number, value = some number ∧ Numeral text number.toInt
  | _ => value = none

/-- The characters that may follow a token of a kind without a blank. -/
def EndsBefore (c : Char) : TokenKind → Prop
  -- a word takes up whatever can stand inside a word
  | .constant _ | .name => CharClass.of c = .operator
  -- a number takes up digits, and no word may follow it
  | .number => CharClass.of c = .operator ∨ CharClass.of c = .mixed
  -- before a digit the minus sign is the sign of a number
  | .unary .negate => CharClass.of c ≠ .digit
  | _ => True

/-- What is left of a source may follow a token of a kind. -/
def Ends (kind : TokenKind) (after : List Char) : Prop :=
  ∀ c ∈ after.head?, CharClass.of c = .whitespace ∨ kind.EndsBefore c

variable {kind : TokenKind} {last : Option TokenKind} {text : List Char}

theorem records_other (other : kind ≠ .number) (value : Option Int32) :
    kind.Records text value ↔ value = none := by
  cases kind <;> first | rfl | exact absurd rfl other

/-- What is written for a token begins with no blank, and with an equals sign
only if the token demands a blank before it. -/
theorem WrittenAs.begins (written : kind.WrittenAs last text) :
    ∃ c rest, text = c :: rest ∧ isBlank c = false ∧
      (c = '=' → kind.needsBlankBefore = true) := by
  cases kind with
  | constant value =>
      cases value
      · obtain rfl : text = ['f', 'a', 'l', 's', 'e'] := written
        exact ⟨_, _, rfl, rfl, by decide⟩
      · obtain rfl : text = ['t', 'r', 'u', 'e'] := written
        exact ⟨_, _, rfl, rfl, by decide⟩
  | number =>
      obtain ⟨⟨value, numeral⟩, -⟩ := written
      cases numeral with
      | plain isDigits =>
          obtain ⟨c, rest, rfl⟩ := List.exists_cons_of_ne_nil isDigits.nonempty
          have digit := isDigits.all c (by simp)
          refine ⟨c, rest, rfl, CharClass.isBlank_of_isDigit digit, ?_⟩
          rintro rfl
          cases digit
      | negative isDigits => exact ⟨_, _, rfl, rfl, by decide⟩
  | name =>
      have begins := written.1.begins
      cases text with
      | nil => cases begins
      | cons c rest =>
          rw [List.head?_cons, Option.map_some, Option.some.injEq] at begins
          refine ⟨c, rest, rfl, ?_, ?_⟩
          · apply Bool.eq_false_iff.mpr
            intro blank
            cases begins.symm.trans
              ((CharClass.of_eq_whitespace_iff c).mpr blank)
          · rintro rfl
            exact absurd begins (by decide)
  | openParen =>
      obtain rfl : text = ['('] := written
      exact ⟨_, _, rfl, rfl, by decide⟩
  | closeParen =>
      obtain rfl : text = [')'] := written
      exact ⟨_, _, rfl, rfl, by decide⟩
  | unary op =>
      cases op with
      | not =>
          obtain rfl : text = ['!'] := written
          exact ⟨_, _, rfl, rfl, by decide⟩
      | negate =>
          obtain ⟨rfl, -⟩ := written
          exact ⟨_, _, rfl, rfl, by decide⟩
      | complement =>
          obtain rfl : text = ['~'] := written
          exact ⟨_, _, rfl, rfl, by decide⟩
  | binary op =>
      cases op
      case subtract =>
        obtain ⟨rfl, -⟩ := written
        exact ⟨_, _, rfl, rfl, by decide⟩
      all_goals
        simp only [WrittenAs, symbol, BinaryOp.symbol,
          String.reduceToList] at written
        subst written
        exact ⟨_, _, rfl, rfl, by decide⟩

/-- Numbers and names are written in many ways, all other kinds in one. -/
theorem WrittenAs.cases (written : kind.WrittenAs last text) :
    (kind = .number ∧ ∃ value, Numeral text value) ∨
      (kind = .name ∧ IsWord text) ∨
      (kind ≠ .number ∧ kind ≠ .name ∧ text = kind.symbol.toList) := by
  cases kind with
  | number => exact .inl ⟨rfl, written.1⟩
  | name => exact .inr (.inl ⟨rfl, written.1⟩)
  | constant value => exact .inr (.inr ⟨by simp, by simp, written⟩)
  | openParen => exact .inr (.inr ⟨by simp, by simp, written⟩)
  | closeParen => exact .inr (.inr ⟨by simp, by simp, written⟩)
  | unary op =>
      refine .inr (.inr ⟨by simp, by simp, ?_⟩)
      cases op with
      | not => exact written
      | negate => exact written.1
      | complement => exact written
  | binary op =>
      refine .inr (.inr ⟨by simp, by simp, ?_⟩)
      cases op
      case subtract => exact written.1
      all_goals exact written

theorem WrittenAs.eq_symbol (written : kind.WrittenAs last text)
    (notNumber : kind ≠ .number) (notName : kind ≠ .name) :
    text = kind.symbol.toList := by
  rcases written.cases with ⟨number, -⟩ | ⟨name, -⟩ | ⟨-, -, same⟩
  · exact absurd number notNumber
  · exact absurd name notName
  · exact same

theorem symbol_visible (notNumber : kind ≠ .number) (notName : kind ≠ .name)
    {c : Char} (member : c ∈ kind.symbol.toList) :
    CharClass.of c ≠ .whitespace ∧ (c = '(' → kind = .openParen) ∧
      (c = ')' → kind = .closeParen) := by
  cases kind with
  | number => exact absurd rfl notNumber
  | name => exact absurd rfl notName
  | constant value =>
      cases value <;>
        simp only [symbol, String.reduceToList, List.mem_cons, List.not_mem_nil,
          or_false] at member <;>
        rcases member with rfl | rfl | rfl | rfl | rfl <;> decide
  | openParen =>
      obtain rfl : c = '(' := by simpa [symbol] using member
      decide
  | closeParen =>
      obtain rfl : c = ')' := by simpa [symbol] using member
      decide
  | unary op =>
      cases op <;>
        simp only [symbol, UnaryOp.symbol, String.reduceToList,
          List.mem_singleton] at member <;>
        subst member <;> decide
  | binary op =>
      cases op <;>
        simp only [symbol, BinaryOp.symbol, String.reduceToList, List.mem_cons,
          List.not_mem_nil, or_false] at member <;>
        rcases member with rfl | rfl <;> decide

/-- No blank stands in a token, and a parenthesis only where it is the token. -/
theorem WrittenAs.visible (written : kind.WrittenAs last text) {c : Char}
    (member : c ∈ text) :
    CharClass.of c ≠ .whitespace ∧ (c = '(' → kind = .openParen) ∧
      (c = ')' → kind = .closeParen) := by
  rcases written.cases with
    ⟨rfl, value, numeral⟩ | ⟨rfl, isWord⟩ | ⟨notNumber, notName, rfl⟩
  · rcases numeral.mem_cases member with digit | rfl
    · refine ⟨?_, ?_, ?_⟩
      · rw [(CharClass.of_eq_digit_iff c).mpr digit]
        exact CharClass.noConfusion
      · rintro rfl
        cases digit
      · rintro rfl
        cases digit
    · decide
  · have inside := isWord.inside c member
    refine ⟨?_, ?_, ?_⟩
    · intro whitespace
      simp [whitespace] at inside
    · rintro rfl
      exact absurd inside (by decide)
    · rintro rfl
      exact absurd inside (by decide)
  · exact symbol_visible notNumber notName member

theorem WrittenAs.records_number (written : number.WrittenAs last text)
    (value : Int32) :
    int32? (signedValue text) = some value ↔ Numeral text value.toInt := by
  obtain ⟨⟨denoted, numeral⟩, -⟩ := written
  rw [int32?_eq_some_iff]
  constructor
  · intro same
    rw [same, numeral.signedValue_eq]
    exact numeral
  · intro denotes
    exact denotes.signedValue_eq.symm

end TokenKind

end Formula
