import Formula.Json.Printer
import Formula.Json.Reader
import Formula.Proofs.Span

/-!
# Strings in JSON

Every text can be written as a JSON string, and reading the string gives the
text back.  A JSON text that is a string can be read in two ways, as a value and
from its beginning, and both of them give the same text.
-/

namespace Formula.Json

/-! ## Writing and reading back -/

/-- The two last digits of a control character that is written as its code. -/
def controlDigits (code : Nat) : List Char :=
  [if code < 0x10 then '0' else '1', Nat.digitChar (code % 16)]

theorem toDigits_control : ∀ code < 0x20,
    (if code < 0x10 then ['0'] else []) ++ Nat.toDigits 16 code =
      controlDigits code := by
  decide

theorem hexValue?_control : ∀ code < 0x20,
    hexValue? (['0', '0'] ++ controlDigits code) = some code := by
  decide

/-- A code is read in front of whatever else is read. -/
def withCode (code : Nat) (read : List Nat × List Char) :
    List Nat × List Char :=
  (code :: read.1, read.2)

theorem stringCodes_code (code : Nat) (small : code < 0x20) (rest : List Char) :
    stringCodes (['\\', 'u', '0', '0'] ++ controlDigits code ++ rest) =
      (stringCodes rest).map (withCode code) := by
  have value := hexValue?_control code small
  simp only [controlDigits, List.cons_append, List.nil_append] at value ⊢
  rw [stringCodes, value]
  cases stringCodes rest <;> rfl

theorem stringCodes_escaped {letter c : Char}
    (stands : escaped? letter = some c) (rest : List Char) :
    stringCodes ('\\' :: letter :: rest) =
      (stringCodes rest).map (withCode c.toNat) := by
  rw [stringCodes.eq_def]
  split
  case h_4 =>
    rename_i whole
    cases whole
    rw [stands]
    cases stringCodes rest <;> rfl
  all_goals
    rename_i whole
    cases whole
  · cases stands
  · rename_i noEscape
    exact absurd rfl (noEscape letter rest rfl)

theorem stringCodes_plain {c : Char} (notQuote : c ≠ '"')
    (notBackslash : c ≠ '\\') (visible : ¬ c.toNat < 0x20) (rest : List Char) :
    stringCodes (c :: rest) = (stringCodes rest).map (withCode c.toNat) := by
  rw [stringCodes.eq_def]
  split
  case h_5 =>
    rename_i whole
    cases whole
    rw [if_neg visible]
    cases stringCodes rest <;> rfl
  all_goals
    rename_i whole
    cases whole
  · exact absurd rfl notQuote
  · exact absurd rfl notBackslash
  · exact absurd rfl notBackslash

/-- What is written for a character is read as the code of the character. -/
theorem stringCodes_charText (c : Char) (rest : List Char) :
    stringCodes ((charText c).toList ++ rest) =
      (stringCodes rest).map (withCode c.toNat) := by
  unfold charText
  split
  -- the characters that have an escape of their own
  iterate 7 exact stringCodes_escaped rfl rest
  rename_i notQuote notBackslash _ _ _ _ _
  split_ifs with single control
  · have written := stringCodes_code c.toNat (by omega) rest
    rw [← toDigits_control c.toNat (by omega), if_pos single] at written
    simpa [hexText] using written
  · have written := stringCodes_code c.toNat control rest
    rw [← toDigits_control c.toNat control, if_neg single] at written
    simpa [hexText] using written
  · have read := stringCodes_plain notQuote notBackslash control rest
    simpa using read

theorem stringCodes_written (characters after : List Char) :
    stringCodes ((characters.map charText).flatMap String.toList ++
      '"' :: after) =
      some (characters.map Char.toNat, after) := by
  induction characters with
  | nil => rfl
  | cons c characters induction =>
      rw [List.map_cons, List.flatMap_cons, List.append_assoc,
        stringCodes_charText, induction]
      rfl

/-- No character is half of one. -/
theorem textOfCodes?_map_toNat (characters : List Char) :
    textOfCodes? (characters.map Char.toNat) = some characters := by
  induction characters with
  | nil => rfl
  | cons c characters induction =>
      have valid : c.toNat < 0xD800 ∨ 0xDFFF < c.toNat ∧ c.toNat < 0x110000 :=
        c.valid
      rw [List.map_cons, textOfCodes?.eq_def]
      dsimp only
      rw [if_neg (by omega), if_neg (by omega), induction, Char.ofNat_toNat]
      rfl

theorem toList_stringText (text : String) :
    (stringText text).toList =
      '"' :: ((text.toList.map charText).flatMap String.toList ++ ['"']) := by
  simp [stringText]

theorem lexemes?_blank {c : Char} (blank : isBlank c = true)
    (rest : List Char) :
    lexemes? (c :: rest) = lexemes? rest := by
  rw [lexemes?, if_pos blank]

theorem lexemes?_visible {c : Char} (visible : isBlank c = false)
    (rest : List Char) :
    lexemes? (c :: rest) =
      (lexeme? c rest).bind fun found =>
        (lexemes? found.2).map (found.1 :: ·) := by
  rw [lexemes?, if_neg (by simp [visible])]
  split
  · rename_i none
    rw [none]
    rfl
  · rename_i lexeme after found
    rw [found]
    rfl

theorem lexeme?_written (text : String) (rest : List Char) :
    lexeme? '"' ((text.toList.map charText).flatMap String.toList ++
      '"' :: rest) =
      some (.string (some text), rest) := by
  have codes := stringCodes_written text.toList rest
  simp [lexeme?, codes, textOfCodes?_map_toNat]

namespace Progress

/-- What has been read is the beginning of an array or of an object, or it is a
value other than a string. -/
def Composite (progress : Progress) : Prop :=
  progress.around ≠ [] ∨
    match progress.place with
    | .value | .firstItem => False
    | .complete value => ∀ text, value ≠ .string text
    | .firstKey | .key _ | .colon _ _ => True

theorem begin?_composite {around : List Open} {lexeme : Lexeme}
    {progress : Progress} (inside : around ≠ [])
    (begun : begin? around lexeme = some progress) : progress.Composite := by
  cases lexeme <;> cases begun
  case openBracket => exact .inl (List.cons_ne_nil _ _)
  all_goals exact .inl inside

namespace Composite

variable {progress later : Progress}

/-- Where only a value can come next, an array or an object is open. -/
theorem step? {lexeme : Lexeme} (composite : progress.Composite)
    (stepped : progress.step? lexeme = some later) : later.Composite := by
  unfold Progress.step? at stepped
  split at stepped
  case h_1 | h_3 => exact begin?_composite (composite.resolve_right id) stepped
  -- an array or an object ends
  case h_2 | h_4 | h_9 | h_11 =>
    cases stepped
    exact .inr fun _ => Json.noConfusion
  -- a key has come, or comes next
  case h_5 | h_6 | h_10 =>
    cases stepped
    exact .inr trivial
  case h_7 | h_8 =>
    cases stepped
    exact .inl (List.cons_ne_nil _ _)
  case h_12 => cases stepped

end Composite

end Progress

end Formula.Json
