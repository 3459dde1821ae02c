import Formula.Proofs.JsonStrings
import Formula.Proofs.Spelling
import Mathlib.Data.List.Forall2

/-!
# Written parts of JSON texts

`Reads text parts` says that a text is read as the given parts wherever it
stands, unless a number goes on behind it.  Marks, blanks, words, strings and
integers are so read as they are written, one behind another and with commas
between them.
-/

namespace Formula

/-! ## Decimal digits -/

theorem isDigits_toDigits (number : Nat) :
    IsDigits (Nat.toDigits 10 number) where
  nonempty := Nat.toDigits_ne_nil
  all _ member := Nat.isDigit_of_mem_toDigits (by decide) (by decide) member

theorem decimal_toDigits (number : Nat) :
    decimal (Nat.toDigits 10 number) = number := by
  rw [← digitsValue_eq_decimal, digitsValue, ← Nat.ofDigitChars_eq_foldl,
    Nat.ofDigitChars_ten_toDigits]

/-- No zero is written in front of other digits. -/
theorem eq_zero_of_head?_toDigits {number : Nat}
    (zero : (Nat.toDigits 10 number).head? = some '0') : number = 0 := by
  induction number using Nat.strong_induction_on with
  | _ number induction =>
      rcases Nat.lt_or_ge number 10 with small | large
      · rw [Nat.toDigits_of_lt_base small] at zero
        have digits : ∀ digit < 10, [Nat.digitChar digit].head? = some '0' →
            digit = 0 := by decide
        exact digits number small zero
      · have shorter : number / 10 < number := by omega
        rw [Nat.toDigits_of_base_le (by decide) large,
          List.head?_append_of_ne_nil _ Nat.toDigits_ne_nil] at zero
        have tenth := induction (number / 10) shorter zero
        omega

theorem toDigits_of_head? {number : Nat}
    (zero : (Nat.toDigits 10 number).head? = some '0') :
    Nat.toDigits 10 number = ['0'] := by
  rw [eq_zero_of_head?_toDigits zero]
  rfl

namespace Json

/-! ## Marks and blanks -/

/-- A character that belongs to a number in front of it. -/
def continuesNumber (c : Char) : Bool :=
  c.isDigit || c == '.' || c == 'e' || c == 'E'

/-- No number goes on in a text. -/
def StopsNumber (text : List Char) : Prop :=
  ∀ c ∈ text.head?, continuesNumber c = false

/-- A text is read as the given parts in front of any text in which no number
goes on. -/
def Reads (text : List Char) (parts : List Lexeme) : Prop :=
  ∀ rest, StopsNumber rest →
    lexemes? (text ++ rest) = (lexemes? rest).map (parts ++ ·)

/-- A character that is a part of a text by itself. -/
structure IsMark (c : Char) (lexeme : Lexeme) : Prop where
  visible : isBlank c = false
  stops : continuesNumber c = false
  alone : ∀ rest, lexeme? c rest = some (lexeme, rest)

theorem isMark_openBracket : IsMark '[' .openBracket := ⟨rfl, rfl, fun _ => rfl⟩

theorem isMark_closeBracket : IsMark ']' .closeBracket :=
  ⟨rfl, rfl, fun _ => rfl⟩

theorem isMark_openBrace : IsMark '\x7b' .openBrace := ⟨rfl, rfl, fun _ => rfl⟩

theorem isMark_closeBrace : IsMark '\x7d' .closeBrace :=
  ⟨rfl, rfl, fun _ => rfl⟩

theorem isMark_comma : IsMark ',' .comma := ⟨rfl, rfl, fun _ => rfl⟩

theorem isMark_colon : IsMark ':' .colon := ⟨rfl, rfl, fun _ => rfl⟩

theorem IsMark.stopsNumber {c : Char} {lexeme : Lexeme} (mark : IsMark c lexeme)
    (text : List Char) : StopsNumber (c :: text) := by
  intro first same
  cases same
  exact mark.stops

theorem StopsNumber.append {front back : List Char} (first : StopsNumber front)
    (second : StopsNumber back) : StopsNumber (front ++ back) := by
  cases front with
  | nil => exact second
  | cons c front => exact first

theorem stopsNumber_of_blank {text : List Char}
    (blank : ∀ c ∈ text, isBlank c = true) : StopsNumber text := by
  intro c first
  have inside := blank c (List.mem_of_head? first)
  simp only [isBlank, Bool.or_eq_true, beq_iff_eq] at inside
  rcases inside with ((rfl | rfl) | rfl) | rfl <;> rfl

namespace Reads

variable {text front back : List Char} {parts more : List Lexeme}

theorem nil : Reads [] [] := by
  intro rest _
  simp

/-- One text is read behind another if the first one does not end in a number
that goes on in the second. -/
theorem append (first : Reads front parts) (second : Reads back more)
    (ends : StopsNumber back) : Reads (front ++ back) (parts ++ more) := by
  intro rest stops
  rw [List.append_assoc, first (back ++ rest) (ends.append stops),
    second rest stops, Option.map_map]
  simp [Function.comp_def]

theorem mark {c : Char} {lexeme : Lexeme} (mark : IsMark c lexeme)
    (reads : Reads text parts) : Reads (c :: text) (lexeme :: parts) := by
  intro rest stops
  rw [List.cons_append, lexemes?_visible mark.visible, mark.alone,
    Option.bind_some, reads rest stops, Option.map_map]
  rfl

theorem blanks (blank : ∀ c ∈ front, isBlank c = true)
    (reads : Reads text parts) : Reads (front ++ text) parts := by
  intro rest stops
  induction front with
  | nil => exact reads rest stops
  | cons c front induction =>
      obtain ⟨first, others⟩ := List.forall_mem_cons.mp blank
      rw [List.cons_append, List.cons_append, lexemes?_blank first]
      exact induction others

/-- Texts with commas between them, and blanks behind the commas. -/
theorem separated {between : List Char} {texts : List (List Char)}
    {readings : List (List Lexeme)} (blank : ∀ c ∈ between, isBlank c = true)
    (all : List.Forall₂ Reads texts readings) :
    Reads ((',' :: between).intercalate texts)
      ([.comma].intercalate readings) := by
  induction all with
  | nil => exact nil
  | cons first others induction =>
      cases others with
      | nil =>
          rw [List.intercalate_singleton, List.intercalate_singleton]
          exact first
      | cons second others =>
          rw [List.intercalate_cons_cons, List.intercalate_cons_cons,
            List.append_assoc, List.append_assoc]
          exact first.append (mark isMark_comma (blanks blank induction))
            (isMark_comma.stopsNumber _)

/-- Separated texts between two brackets. -/
theorem enclosed {opening closing : Char} {opens closes : Lexeme}
    {before between after : List Char} {texts : List (List Char)}
    {readings : List (List Lexeme)} (left : IsMark opening opens)
    (right : IsMark closing closes)
    (blankBefore : ∀ c ∈ before, isBlank c = true)
    (blankBetween : ∀ c ∈ between, isBlank c = true)
    (blankAfter : ∀ c ∈ after, isBlank c = true)
    (all : List.Forall₂ Reads texts readings) :
    Reads
      (opening :: (before ++ ((',' :: between).intercalate texts ++
        (after ++ [closing]))))
      (opens :: ([.comma].intercalate readings ++ [closes])) := by
  have ends : StopsNumber (after ++ [closing]) :=
    (stopsNumber_of_blank blankAfter).append (right.stopsNumber [])
  have closed : Reads (after ++ [closing]) [closes] :=
    blanks blankAfter (mark right nil)
  exact mark left
    (blanks blankBefore ((separated blankBetween all).append closed ends))

/-! ## Words and strings -/

theorem word {c : Char} {letters : List Char} {value : Json}
    (visible : isBlank c = false)
    (begins : ∀ rest, lexeme? c rest = word? letters value rest) :
    Reads (c :: letters) [.simple value] := by
  intro rest _
  have found :
      word? letters value (letters ++ rest) = some (.simple value, rest) := by
    simp [word?]
  rw [List.cons_append, lexemes?_visible visible, begins, found]
  rfl

theorem string (text : String) :
    Reads (stringText text).toList [.string (some text)] := by
  intro rest _
  rw [toList_stringText, List.cons_append, List.append_assoc,
    List.singleton_append,
    lexemes?_visible rfl, lexeme?_written]
  rfl

end Reads

/-! ## Integers -/

theorem digits?_append {digits rest : List Char} (isDigits : IsDigits digits)
    (stops : StopsNumber rest) :
    digits? (digits ++ rest) = some (digits, rest) := by
  have ends : ∀ c ∈ rest.head?, c.isDigit = false := by
    intro c first
    have stop := stops c first
    simp only [continuesNumber, Bool.or_eq_false_iff] at stop
    exact stop.1.1.1
  unfold digits?
  rw [takeWhile_append_stop isDigits.all ends,
    dropWhile_append_stop isDigits.all ends]
  obtain ⟨c, later, rfl⟩ := List.exists_cons_of_ne_nil isDigits.nonempty
  rfl

theorem fraction?_stops {rest : List Char} (stops : StopsNumber rest) :
    fraction? rest = some ([], rest) := by
  unfold fraction?
  split
  · cases stops '.' rfl
  · rfl

theorem exponent?_stops {rest : List Char} (stops : StopsNumber rest) :
    exponent? rest = some ([], rest) := by
  unfold exponent?
  split
  · rename_i c after
    rw [if_neg]
    rintro (rfl | rfl) <;> cases stops _ rfl
  · rfl

/-- Digits are read as an integer unless a zero stands in front of others, or
alone behind a minus sign. -/
theorem unsigned?_append (negative : Bool) {digits rest : List Char}
    (isDigits : IsDigits digits)
    (noZero : digits.head? = some '0' → digits = ['0'])
    (notMinusZero : negative = true → digits ≠ ['0'])
    (stops : StopsNumber rest) :
    unsigned? negative (digits ++ rest) =
      some (.integer (signedValue ((if negative then ['-'] else []) ++ digits)),
        rest) := by
  have accepted : ¬ (digits.head? = some '0' ∧ digits ≠ ['0']) := by
    rintro ⟨zero, others⟩
    exact others (noZero zero)
  have whole : ¬ (negative = true ∧ digits = ['0']) := by
    rintro ⟨minus, zero⟩
    exact notMinusZero minus zero
  simp [unsigned?, digits?_append isDigits stops, fraction?_stops stops,
    exponent?_stops stops, accepted, whole]

theorem isBlank_of_isDigit {c : Char} (digit : c.isDigit = true) :
    isBlank c = false := by
  apply Bool.eq_false_iff.mpr
  intro blank
  simp only [isBlank, Bool.or_eq_true, beq_iff_eq] at blank
  rcases blank with ((rfl | rfl) | rfl) | rfl <;> cases digit

theorem lexeme?_of_isDigit {c : Char} (digit : c.isDigit = true)
    (rest : List Char) :
    lexeme? c rest =
      (unsigned? false (c :: rest)).map fun found =>
        (.simple found.1, found.2) := by
  unfold lexeme?
  split
  case h_12 => rfl
  all_goals cases digit

namespace Reads

theorem natural (number : Nat) :
    Reads (Nat.toDigits 10 number) [.simple (.integer number)] := by
  intro rest stops
  have isDigits := isDigits_toDigits number
  have read := unsigned?_append false isDigits toDigits_of_head?
    (fun minus => absurd minus Bool.false_ne_true) stops
  have value := (Numeral.plain isDigits).signedValue_eq
  rw [decimal_toDigits] at value
  obtain ⟨c, later, split⟩ := List.exists_cons_of_ne_nil isDigits.nonempty
  have digit : c.isDigit = true := isDigits.all c (by simp [split])
  rw [if_neg Bool.false_ne_true, List.nil_append, value, split] at read
  rw [split, List.cons_append, lexemes?_visible (isBlank_of_isDigit digit),
    lexeme?_of_isDigit digit, ← List.cons_append, read]
  rfl

theorem negative {number : Nat} (positive : number ≠ 0) :
    Reads ('-' :: Nat.toDigits 10 number) [.simple (.integer (-number))] := by
  intro rest stops
  have isDigits := isDigits_toDigits number
  have notZero : Nat.toDigits 10 number ≠ ['0'] := by
    intro zero
    exact positive (eq_zero_of_head?_toDigits (by rw [zero]; rfl))
  have read := unsigned?_append true isDigits toDigits_of_head?
    (fun _ => notZero) stops
  have value := (Numeral.negative isDigits).signedValue_eq
  rw [decimal_toDigits] at value
  rw [if_pos rfl, List.singleton_append, value] at read
  rw [List.cons_append, lexemes?_visible rfl, lexeme?, read]
  rfl

theorem integer (value : Int) :
    Reads (toString value).toList [.simple (.integer value)] := by
  cases value with
  | ofNat number =>
      rw [Int.toString_eq_repr, Int.repr, Nat.toList_repr]
      exact natural number
  | negSucc number =>
      rw [Int.toString_eq_repr, Int.repr, String.toList_append, Nat.toList_repr]
      exact negative (Nat.succ_ne_zero number)

end Reads

end Json

end Formula
