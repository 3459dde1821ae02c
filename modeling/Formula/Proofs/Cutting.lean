import Formula.Proofs.Spelling

/-!
# Cutting off one token

A piece is accepted exactly if it is written as its kind demands and what comes
behind it may come there.  The spelling of a kind thereby determines where a
piece ends, except that an equals sign may extend `!`, `<` and `>`.
-/

namespace Formula

namespace CharClass

theorem isDigit_eq_false {c : Char} (other : of c ≠ .digit) :
    c.isDigit = false := by
  apply Bool.eq_false_iff.mpr
  intro digit
  exact other ((of_eq_digit_iff c).mpr digit)

end CharClass

namespace Piece

variable {last : Option TokenKind} {index : Nat} {c : Char}
  {sign digits rest after text : List Char} {kind : TokenKind}

theorem extensible_short {second : Char} {short long : TokenKind}
    (short_ends : rest.head? ≠ some second) :
    extensible c second short long rest = accept [c] rest short := by
  cases rest with
  | nil => rfl
  | cons d rest =>
      have different : d ≠ second := by
        simpa using short_ends
      rw [extensible, if_neg different]

theorem extensible_long {second : Char} {short long : TokenKind} :
    extensible c second short long (second :: rest) =
      accept [c, second] rest long := by
  rw [extensible, if_pos rfl]

theorem doubled_same :
    doubled index c kind (c :: rest) = accept [c, c] rest kind := by
  rw [doubled, if_pos rfl]

theorem number?_eq_none_iff :
    number? index sign rest = none ↔ ∀ c ∈ rest.head?, c.isDigit = false := by
  cases rest with
  | nil => simp [number?]
  | cons c rest =>
      cases digit : c.isDigit with
      | false => simp [number?, digit]
      | true =>
          simp only [number?, List.takeWhile_cons, digit, if_true]
          split
          · simp [digit]
          · split <;> simp [digit]

theorem number?_append (isDigits : IsDigits digits)
    (ends : TokenKind.number.Ends after) :
    number? index sign (digits ++ after) =
      some (accept (sign ++ digits) after .number) := by
  have stops : ∀ c ∈ after.head?, c.isDigit = false := by
    intro c next
    apply CharClass.isDigit_eq_false
    intro digit
    simpa [TokenKind.EndsBefore, digit] using ends c next
  rw [number?, takeWhile_append_stop isDigits.all stops,
    dropWhile_append_stop isDigits.all stops]
  cases digits with
  | nil => exact absurd rfl isDigits.nonempty
  | cons digit digits =>
      cases after with
      | nil => simp
      | cons c after =>
          have other : CharClass.of c ≠ .identifier := by
            intro identifier
            simpa [TokenKind.EndsBefore, identifier] using ends c rfl
          simp [other]

theorem number?_accepted {piece : Piece}
    (found : number? index sign rest = some piece)
    (accepted : piece.verdict = .ok kind) :
    kind = .number ∧ (∃ digits, IsDigits digits ∧ piece.text = sign ++ digits) ∧
      kind.Ends piece.rest := by
  have isDigits : rest.takeWhile Char.isDigit ≠ [] →
      IsDigits (rest.takeWhile Char.isDigit) := by
    intro nonempty
    exact ⟨nonempty, fun c member => List.mem_takeWhile_imp member⟩
  have stops := head?_dropWhile_stops Char.isDigit rest
  unfold number? at found
  split at found
  · cases found
  · rename_i nonempty
    split at found
    · rename_i atEnd
      cases found
      cases accepted
      refine ⟨rfl, ⟨_, isDigits nonempty, rfl⟩, ?_⟩
      simp [TokenKind.Ends, accept]
    · rename_i c after atNext
      split at found
      · cases found
        cases accepted
      · rename_i other
        cases found
        cases accepted
        refine ⟨rfl, ⟨_, isDigits nonempty, rfl⟩, ?_⟩
        intro d next
        cases next
        have notDigit : CharClass.of c ≠ .digit := by
          intro digit
          have isDigit := (CharClass.of_eq_digit_iff c).mp digit
          simp [atNext, isDigit] at stops
        cases between : CharClass.of c <;> simp_all [TokenKind.EndsBefore]

theorem inWord_iff (c : Char) :
    inWord c = true ↔ CharClass.of c = .identifier ∨
      CharClass.of c = .mixed ∨ CharClass.of c = .digit := by
  unfold inWord
  cases CharClass.of c <;> simp

theorem inWord_eq_false_iff (c : Char) :
    inWord c = false ↔
      CharClass.of c = .whitespace ∨ CharClass.of c = .operator := by
  unfold inWord
  cases CharClass.of c <;> simp

theorem ofList_eq_iff {text : List Char} {name : String} :
    String.ofList text = name ↔ text = name.toList := by
  constructor
  · rintro rfl
    simp
  · rintro rfl
    simp

theorem wordVerdict_eq_ok_iff :
    wordVerdict index text = .ok kind ↔
      text.getLast?.map CharClass.of ≠ some .mixed ∧
        (text = "true".toList ∧ kind = .constant true ∨
          text = "false".toList ∧ kind = .constant false ∨
          text ≠ "true".toList ∧ text ≠ "false".toList ∧ kind = .name) := by
  have different : "true".toList ≠ "false".toList := by decide
  simp only [wordVerdict, ofList_eq_iff]
  split_ifs <;> grind

theorem word_append (inside : ∀ c ∈ text, inWord c = true)
    (stops : ∀ c ∈ after.head?, inWord c = false) :
    word index (text ++ after) = ⟨text, after, wordVerdict index text⟩ := by
  rw [word, takeWhile_append_stop inside stops,
    dropWhile_append_stop inside stops]

theorem extensible_accepted {second : Char} {short long : TokenKind}
    (accepted : (extensible c second short long rest).verdict = .ok kind) :
    kind = short ∧ (extensible c second short long rest).text = [c] ∨
      kind = long ∧
        (extensible c second short long rest).text = [c, second] := by
  by_cases extended : rest.head? = some second
  · obtain ⟨after, rfl⟩ := List.head?_eq_some_iff.mp extended
    rw [extensible_long] at accepted ⊢
    cases accepted
    exact .inr ⟨rfl, rfl⟩
  · rw [extensible_short extended] at accepted ⊢
    cases accepted
    exact .inl ⟨rfl, rfl⟩

theorem doubled_accepted {long : TokenKind}
    (accepted : (doubled index c long rest).verdict = .ok kind) :
    kind = long ∧ (doubled index c long rest).text = [c, c] := by
  cases rest with
  | nil => cases accepted
  | cons d rest =>
      by_cases same : d = c
      · subst same
        rw [doubled_same] at accepted ⊢
        cases accepted
        exact ⟨rfl, rfl⟩
      · rw [doubled, if_neg same] at accepted
        cases accepted

theorem word_accepted (identifier : CharClass.of c = .identifier)
    (accepted : (word index (c :: rest)).verdict = .ok kind) :
    kind.WrittenAs last (word index (c :: rest)).text ∧
      kind.Ends (word index (c :: rest)).rest := by
  obtain ⟨ends, named⟩ := wordVerdict_eq_ok_iff.mp accepted
  have starts : inWord c = true := (inWord_iff c).mpr (.inl identifier)
  have isWord : IsWord (word index (c :: rest)).text := by
    refine ⟨?_, ?_, ends⟩
    · simp [word, starts, identifier]
    · intro d member
      exact (inWord_iff d).mp (List.mem_takeWhile_imp member)
  have stops : ∀ d ∈ (word index (c :: rest)).rest.head?,
      CharClass.of d = .whitespace ∨ CharClass.of d = .operator := by
    intro d next
    exact (inWord_eq_false_iff d).mp
      (head?_dropWhile_stops inWord (c :: rest) d next)
  rcases named with ⟨isTrue, rfl⟩ | ⟨isFalse, rfl⟩ | ⟨notTrue, notFalse, rfl⟩
  · exact ⟨isTrue, stops⟩
  · exact ⟨isFalse, stops⟩
  · exact ⟨⟨isWord, notTrue, notFalse⟩, stops⟩

/-- What is cut off is written as its kind demands, and ends where it may. -/
theorem cut_accepted {piece : Piece} (found : cut last index c rest = piece)
    (accepted : piece.verdict = .ok kind) :
    kind.WrittenAs last piece.text ∧ kind.Ends piece.rest := by
  unfold cut at found
  split at found
  -- the operators `!`, `<` and `>`
  iterate 3
    subst found
    rcases extensible_accepted accepted with ⟨rfl, written⟩ | ⟨rfl, written⟩
    · exact ⟨written, fun _ _ => .inr trivial⟩
    · exact ⟨written, fun _ _ => .inr trivial⟩
  -- the operators `==`, `&&` and `||`
  iterate 3
    subst found
    obtain ⟨rfl, written⟩ := doubled_accepted accepted
    exact ⟨written, fun _ _ => .inr trivial⟩
  -- parentheses and the operators `~`, `+`, `*`, `/` and `%`
  iterate 7
    subst found
    cases accepted
    exact ⟨rfl, fun _ _ => .inr trivial⟩
  · split at found
    · rename_i expects
      cases number : number? index ['-'] rest with
      | none =>
          rw [number, Option.getD_none] at found
          subst found
          cases accepted
          refine ⟨⟨rfl, expects⟩, ?_⟩
          intro c next
          apply Or.inr
          intro digit
          have notDigit := number?_eq_none_iff.mp number c next
          rw [(CharClass.of_eq_digit_iff c).mp digit] at notDigit
          cases notDigit
      | some numeral =>
          rw [number, Option.getD_some] at found
          subst found
          obtain ⟨rfl, ⟨digits, isDigits, written⟩, ends⟩ :=
            number?_accepted number accepted
          refine ⟨⟨⟨-decimal digits, ?_⟩, fun _ => expects⟩, ends⟩
          rw [written]
          exact .negative isDigits
    · rename_i refuses
      subst found
      cases accepted
      exact ⟨⟨rfl, Bool.eq_false_iff.mpr refuses⟩, fun _ _ => .inr trivial⟩
  · split at found
    · rename_i number
      subst found
      obtain ⟨rfl, ⟨digits, isDigits, written⟩, ends⟩ :=
        number?_accepted number accepted
      rw [List.nil_append] at written
      refine ⟨⟨⟨decimal digits, ?_⟩, ?_⟩, ends⟩
      · rw [written]
        exact .plain isDigits
      · rw [written]
        intro minus
        exact absurd minus isDigits.head_ne
    · split at found
      · rename_i identifier
        subst found
        exact word_accepted identifier accepted
      · subst found
        cases accepted

theorem cut_identifier (identifier : CharClass.of c = .identifier) :
    cut last index c rest = word index (c :: rest) := by
  have notDigit : c.isDigit = false := by
    apply CharClass.isDigit_eq_false
    simp [identifier]
  have noNumber : number? index [] (c :: rest) = none := by
    apply number?_eq_none_iff.mpr
    intro d next
    cases next
    exact notDigit
  unfold cut
  split
  iterate 14 exact absurd identifier (by decide)
  rw [noNumber]
  exact if_pos identifier

theorem cut_digit {piece : Piece} (digit : c.isDigit = true)
    (number : number? index [] (c :: rest) = some piece) :
    cut last index c rest = piece := by
  unfold cut
  split
  iterate 14 exact absurd digit (by decide)
  rw [number]

theorem cut_minus (expects : TokenKind.expectsOperand last = true) :
    cut last index '-' rest =
      (number? index ['-'] rest).getD (accept ['-'] rest (.unary .negate)) :=
  if_pos expects

theorem cut_word (isWord : IsWord text)
    (ends : ∀ c ∈ after.head?,
      CharClass.of c = .whitespace ∨ CharClass.of c = .operator)
    (split : text ++ after = c :: rest)
    (verdict : wordVerdict index text = .ok kind) :
    cut last index c rest = accept text after kind := by
  have identifier : CharClass.of c = .identifier := by
    cases text with
    | nil => cases isWord.begins
    | cons first text =>
        cases split
        simpa using isWord.begins
  have inside : ∀ c ∈ text, inWord c = true := by
    intro c member
    exact (inWord_iff c).mpr (isWord.inside c member)
  have stops : ∀ c ∈ after.head?, inWord c = false := by
    intro c next
    exact (inWord_eq_false_iff c).mpr (ends c next)
  rw [cut_identifier identifier, ← split, word_append inside stops, verdict]
  rfl

theorem cut_number (written : TokenKind.number.WrittenAs last text)
    (ends : TokenKind.number.Ends after) (split : text ++ after = c :: rest) :
    cut last index c rest = accept text after .number := by
  obtain ⟨⟨value, numeral⟩, sign⟩ := written
  cases numeral with
  | plain isDigits =>
      have number : number? index [] (text ++ after) =
          some (accept text after .number) :=
        number?_append isDigits ends
      have digit : c.isDigit = true := by
        cases text with
        | nil => exact absurd rfl isDigits.nonempty
        | cons first text =>
            cases split
            exact isDigits.all c (by simp)
      rw [split] at number
      exact cut_digit digit number
  | negative isDigits =>
      rw [List.cons_append] at split
      cases split
      rw [cut_minus (sign rfl), number?_append isDigits ends]
      rfl

theorem cut_unary {op : UnaryOp}
    (written : (TokenKind.unary op).WrittenAs last text)
    (ends : (TokenKind.unary op).Ends after) (noEquals : after.head? ≠ some '=')
    (split : text ++ after = c :: rest) :
    cut last index c rest = accept text after (.unary op) := by
  cases op with
  | not =>
      obtain rfl : text = ['!'] := written
      cases split
      exact extensible_short noEquals
  | negate =>
      obtain ⟨rfl, expects⟩ := written
      rw [List.singleton_append] at split
      obtain ⟨rfl, rfl⟩ := List.cons.inj split
      have noNumber : number? index ['-'] after = none := by
        apply number?_eq_none_iff.mpr
        intro c next
        apply CharClass.isDigit_eq_false
        intro digit
        simpa [TokenKind.EndsBefore, digit] using ends c next
      rw [cut_minus expects, noNumber]
      rfl
  | complement =>
      obtain rfl : text = ['~'] := written
      cases split
      rfl

theorem cut_binary {op : BinaryOp}
    (written : (TokenKind.binary op).WrittenAs last text)
    (noEquals : after.head? ≠ some '=') (split : text ++ after = c :: rest) :
    cut last index c rest = accept text after (.binary op) := by
  cases op
  case subtract =>
    obtain ⟨rfl, refuses⟩ := written
    cases split
    exact if_neg (by simp [refuses])
  all_goals
    simp only [TokenKind.WrittenAs, TokenKind.symbol, BinaryOp.symbol,
      String.reduceToList] at written
    subst written
    simp only [List.cons_append, List.nil_append, List.cons.injEq] at split
    obtain ⟨rfl, rfl⟩ := split
  case lessThan | greaterThan => exact extensible_short noEquals
  all_goals rfl

theorem isWord_constant (value : Bool) :
    IsWord (TokenKind.constant value).symbol.toList := by
  cases value <;> constructor <;>
    simp [TokenKind.symbol, CharClass.of, operatorCharacters, mixedCharacters,
      isBlank]

/-- A text that is written and ends as a kind demands is cut off. -/
theorem cut_writtenAs (written : kind.WrittenAs last text)
    (ends : kind.Ends after) (noEquals : after.head? ≠ some '=')
    (split : text ++ after = c :: rest) :
    cut last index c rest = accept text after kind := by
  cases kind with
  | constant value =>
      have isWord : IsWord text := by
        subst written
        exact isWord_constant value
      apply cut_word isWord ends split
      apply wordVerdict_eq_ok_iff.mpr
      refine ⟨isWord.ends, ?_⟩
      cases value
      · exact .inr (.inl ⟨written, rfl⟩)
      · exact .inl ⟨written, rfl⟩
  | number => exact cut_number written ends split
  | name =>
      obtain ⟨isWord, notTrue, notFalse⟩ := written
      apply cut_word isWord ends split
      apply wordVerdict_eq_ok_iff.mpr
      exact ⟨isWord.ends, .inr (.inr ⟨notTrue, notFalse, rfl⟩)⟩
  | openParen =>
      obtain rfl : text = ['('] := written
      cases split
      rfl
  | closeParen =>
      obtain rfl : text = [')'] := written
      cases split
      rfl
  | unary op => exact cut_unary written ends noEquals split
  | binary op => exact cut_binary written noEquals split

end Piece

end Formula
