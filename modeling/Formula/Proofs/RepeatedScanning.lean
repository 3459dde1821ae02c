import Formula.Proofs.Layout
import Mathlib.Data.String.Basic
import Mathlib.Logic.Function.Iterate

/-!
# Calling the scanner again and again

A caller may go on after a refusal, from wherever the scanner then stands.  A
call only moves the scanner over characters of its source, and one that moves
it over none changes nothing at all.  Hence the calls come to an end: each of
them reads a byte or is like all that follow.
-/

namespace Formula

theorem byteLength_eq_utf8Len (text : List Char) :
    byteLength text = String.utf8Len text := by
  induction text with
  | nil => rfl
  | cons c rest induction =>
      rw [byteLength_cons, String.utf8Len_cons, induction, Nat.add_comm]

theorem byteLength_toList (text : String) :
    byteLength text.toList = text.utf8ByteSize := by
  rw [byteLength_eq_utf8Len, String.utf8Len_toList]

namespace Lexer

/-- What the scanner has not read is the end of the source, and its place is
behind all that stands before. -/
def StandsIn (source : String) (lexer : Lexer) : Prop :=
  ∃ before, source.toList = before ++ lexer.rest ∧
    lexer.position = byteLength before

/-- The scanner after a number of calls, whatever they have answered. -/
def afterCalls (lexer : Lexer) (calls : Nat) : Lexer :=
  (fun lexer => lexer.next.2)^[calls] lexer

/-- The answer of a call; the first one has the number zero. -/
def answer (lexer : Lexer) (call : Nat) : Except ParseError (Option Token) :=
  (lexer.afterCalls call).next.1

/-- What the scanner yields as a sequence; the first place has the number
zero. -/
def yields (lexer : Lexer) (place : Nat) : Option (Except ParseError Token) :=
  ((fun lexer => lexer.step.2)^[place] lexer).step.1

/-- A call that gives no token and leaves everything as it was. -/
structure Stalls (lexer : Lexer) : Prop where
  same : lexer.next.2 = lexer
  noToken : lexer.next.1 = .ok none ∨ ∃ error, lexer.next.1 = .error error

/-- Where a scanner stands in a source, and what a call does to it there. -/
structure Advances (source : String) (lexer : Lexer) : Prop where
  inside : lexer.position ≤ source.utf8ByteSize
  boundary : String.Pos.Raw.IsValid source ⟨lexer.position⟩
  forward : lexer.position ≤ lexer.next.2.position
  token : ∀ token, lexer.next.1 = .ok (some token) →
    token.text ≠ "" ∧ lexer.position ≤ token.index ∧
      String.Pos.Raw.extract source ⟨token.index⟩ ⟨lexer.next.2.position⟩ =
        token.text
  moves : lexer.position < lexer.next.2.position ∨
    lexer.Stalls ∧ ∀ call, lexer.answer call = lexer.next.1

variable {source : String} {lexer later : Lexer} {token : Token}

/-- A call reads some characters, perhaps none, and the last kind only changes
with a token. -/
theorem exists_read (lexer : Lexer) :
    ∃ read, lexer.rest = read ++ lexer.next.2.rest ∧
      lexer.next.2.position = lexer.position + byteLength read ∧
      ((∀ token, lexer.next.1 ≠ .ok (some token)) →
        lexer.next.2.last = lexer.last) := by
  obtain ⟨blanks, front, whole, -, -, start⟩ := lexer.exists_skipped
  unfold next
  rw [start]
  cases front with
  | nil => exact ⟨blanks, whole, rfl, fun _ => rfl⟩
  | cons c rest =>
      cases lexer.unseparated? with
      | some kind => exact ⟨blanks, whole, rfl, fun _ => rfl⟩
      | none =>
          have split := Piece.cut_split lexer.last
            (lexer.position + byteLength blanks) c rest
          refine ⟨blanks ++ (Piece.cut lexer.last
            (lexer.position + byteLength blanks) c rest).text, ?_, ?_, ?_⟩
          · dsimp only
            rw [whole, ← split, ← List.append_assoc]
            split <;> rfl
          · dsimp only
            rw [byteLength_append, ← Nat.add_assoc]
            split <;> rfl
          · dsimp only
            split
            · exact fun _ => rfl
            · intro noToken
              exact absurd rfl (noToken _)

theorem standsIn_ofSource (source : String) :
    StandsIn source (ofSource source) :=
  ⟨[], rfl, rfl⟩

namespace StandsIn

theorem next (stands : StandsIn source lexer) :
    StandsIn source lexer.next.2 := by
  obtain ⟨before, whole, position⟩ := stands
  obtain ⟨read, split, moved, -⟩ := lexer.exists_read
  refine ⟨before ++ read, ?_, ?_⟩
  · rw [whole, split, List.append_assoc]
  · rw [moved, position, byteLength_append]

theorem afterCalls (stands : StandsIn source lexer) (calls : Nat) :
    StandsIn source (lexer.afterCalls calls) := by
  induction calls with
  | zero => exact stands
  | succ calls induction =>
      rw [Lexer.afterCalls, Function.iterate_succ_apply']
      exact induction.next

theorem position_le (stands : StandsIn source lexer) :
    lexer.position ≤ source.utf8ByteSize := by
  obtain ⟨before, whole, position⟩ := stands
  rw [← byteLength_toList, whole, byteLength_append, position]
  exact Nat.le_add_right _ _

theorem isValid (stands : StandsIn source lexer) :
    String.Pos.Raw.IsValid source ⟨lexer.position⟩ := by
  obtain ⟨before, whole, position⟩ := stands
  apply String.Pos.Raw.isValid_iff_exists_append.mpr
  refine ⟨String.ofList before, String.ofList lexer.rest, ?_, ?_⟩
  · rw [← String.ofList_append, ← whole, String.ofList_toList]
  · rw [String.rawEndPos_ofList, position, byteLength_eq_utf8Len]

theorem extract_token (stands : StandsIn source lexer)
    (found : lexer.next = (.ok (some token), later)) :
    String.Pos.Raw.extract source ⟨token.index⟩ ⟨later.position⟩ =
      token.text := by
  obtain ⟨before, whole, position⟩ := stands
  obtain ⟨blanks, after, split, placed, rfl⟩ := placed_of_next found
  have sourceSplit :
      source = String.ofList
        (before ++ blanks ++ token.text.toList ++ after) := by
    rw [← String.ofList_toList (s := source), whole, split]
    simp
  have index : token.index = String.utf8Len (before ++ blanks) := by
    rw [placed.index, position, ← byteLength_append, byteLength_eq_utf8Len]
  have cut := String.extract_of_valid (before ++ blanks) token.text.toList after
  rw [← sourceSplit, ← index, ← byteLength_eq_utf8Len,
    String.ofList_toList] at cut
  exact cut

end StandsIn

theorem text_ne_empty (found : lexer.next = (.ok (some token), later)) :
    token.text ≠ "" := by
  obtain ⟨blanks, after, -, placed, -⟩ := placed_of_next found
  obtain ⟨c, rest, text, -⟩ := placed.written.begins
  intro empty
  rw [empty] at text
  cases text

/-- Either a call moves the scanner on, or it stalls. -/
theorem moves_or_stalls (lexer : Lexer) :
    lexer.position < lexer.next.2.position ∨ lexer.Stalls := by
  obtain ⟨read, split, moved, keepsLast⟩ := lexer.exists_read
  cases read with
  | cons c read =>
      have first := Char.utf8Size_pos c
      rw [byteLength_cons] at moved
      exact .inl (by omega)
  | nil =>
      rw [List.nil_append] at split
      have noToken : ∀ token, lexer.next.1 ≠ .ok (some token) := by
        intro token isToken
        have found : lexer.next = (.ok (some token), lexer.next.2) :=
          Prod.ext isToken rfl
        have progress := next_length found
        rw [← split] at progress
        exact Nat.lt_irrefl _ progress
      have same : lexer.next.2 = lexer := by
        cases afterwards : lexer.next.2 with
        | mk rest position last =>
            rw [afterwards] at split moved keepsLast
            cases lexer
            cases split
            cases moved
            cases keepsLast noToken
            rfl
      refine .inr ⟨same, ?_⟩
      cases answered : lexer.next.1 with
      | error error => exact .inr ⟨error, rfl⟩
      | ok found =>
          cases found with
          | none => exact .inl rfl
          | some token => exact absurd answered (noToken token)

theorem Stalls.afterCalls_eq (stalls : lexer.Stalls) (calls : Nat) :
    lexer.afterCalls calls = lexer :=
  Function.iterate_fixed stalls.same calls

theorem advances (stands : StandsIn source lexer) : Advances source lexer where
  inside := stands.position_le
  boundary := stands.isValid
  forward := by
    obtain ⟨read, -, moved, -⟩ := lexer.exists_read
    rw [moved]
    exact Nat.le_add_right _ _
  token := by
    intro token isToken
    have found : lexer.next = (.ok (some token), lexer.next.2) :=
      Prod.ext isToken rfl
    obtain ⟨blanks, after, -, placed, -⟩ := placed_of_next found
    refine ⟨text_ne_empty found, ?_, stands.extract_token found⟩
    rw [placed.index]
    exact Nat.le_add_right _ _
  moves := by
    rcases lexer.moves_or_stalls with moves | stalls
    · exact .inl moves
    · refine .inr ⟨stalls, ?_⟩
      intro call
      rw [answer, stalls.afterCalls_eq]

theorem exists_stalls_or_le (lexer : Lexer) (calls : Nat) :
    (∃ call < calls, (lexer.afterCalls call).Stalls) ∨
      calls ≤ (lexer.afterCalls calls).position := by
  induction calls with
  | zero => exact .inr (Nat.zero_le _)
  | succ calls induction =>
      rcases induction with ⟨call, earlier, stalls⟩ | far
      · exact .inl ⟨call, by omega, stalls⟩
      · rcases (lexer.afterCalls calls).moves_or_stalls with moves | stalls
        · rw [Lexer.afterCalls, Function.iterate_succ_apply']
          exact .inr (Nat.lt_of_le_of_lt far moves)
        · exact .inl ⟨calls, by omega, stalls⟩

/-- Some call stalls before the calls outnumber the bytes of the source. -/
theorem StandsIn.exists_stalls (stands : StandsIn source lexer) :
    ∃ call ≤ source.utf8ByteSize, (lexer.afterCalls call).Stalls := by
  rcases lexer.exists_stalls_or_le (source.utf8ByteSize + 1) with
    ⟨call, earlier, stalls⟩ | far
  · exact ⟨call, by omega, stalls⟩
  · have bound := (stands.afterCalls (source.utf8ByteSize + 1)).position_le
    omega

theorem Stalls.answer_eq {call : Nat} (stalls : (lexer.afterCalls call).Stalls)
    {other : Nat} (later : call ≤ other) :
    lexer.answer other = lexer.answer call := by
  obtain ⟨more, rfl⟩ := Nat.exists_eq_add_of_le' later
  have same := stalls.afterCalls_eq more
  rw [answer, answer, Lexer.afterCalls, Function.iterate_add_apply]
  exact congrArg (fun lexer => lexer.next.1) same

theorem yields_of_atEnd (atEnd : lexer.rest = []) (place : Nat) :
    lexer.yields place = none := by
  have stays : lexer.step = (none, lexer) := by
    have found : lexer.next = (.ok none, lexer) := by
      rw [next_none (by simp [atEnd]), skipBlanks, atEnd]
      cases lexer
      cases atEnd
      rfl
    rw [step, found]
    rfl
  have same : (fun lexer => lexer.step.2)^[place] lexer = lexer :=
    Function.iterate_fixed (congrArg Prod.snd stays) place
  rw [yields, same, stays]

theorem rest_of_step_error {error : ParseError}
    (refused : lexer.step.1 = some (.error error)) :
    lexer.step.2.rest = [] := by
  unfold step at refused ⊢
  split at refused
  · rename_i token later found
    cases token <;> cases refused
  · rfl

theorem yields_after_error {place later : Nat} {error : ParseError}
    (refused : lexer.yields place = some (.error error))
    (behind : place < later) :
    lexer.yields later = none := by
  obtain ⟨more, rfl⟩ := Nat.exists_eq_add_of_le' (Nat.succ_le_of_lt behind)
  have atEnd := rest_of_step_error refused
  have nothing := yields_of_atEnd atEnd more
  rw [yields] at nothing ⊢
  rw [Function.iterate_add_apply, Function.iterate_succ_apply']
  exact nothing

/-- However often a scanner is called, it stands inside its source, on the
boundary of a character, and no call moves it back; the text of a token ends
where the scanner then stands.  A call that does not move the scanner on has
given no token and is like all calls after it, so that with one call more than
there are bytes in the source the answers have become constant.  As a sequence
the scanner ends with its first error. -/
theorem calls_advance (source : String) :
    (∀ calls, Advances source ((ofSource source).afterCalls calls)) ∧
    (∀ call, source.utf8ByteSize ≤ call →
      (ofSource source).answer call =
        (ofSource source).answer source.utf8ByteSize) ∧
    ∀ place error, (ofSource source).yields place = some (.error error) →
      ∀ later, place < later → (ofSource source).yields later = none := by
  have stands := standsIn_ofSource source
  refine ⟨fun calls => advances (stands.afterCalls calls), ?_, ?_⟩
  · intro call beyond
    obtain ⟨stalled, inside, stalls⟩ := stands.exists_stalls
    rw [stalls.answer_eq (Nat.le_trans inside beyond), stalls.answer_eq inside]
  · intro place error refused later behind
    exact yields_after_error refused behind

/-- A caller who goes on behind the foreign character in `1 + ^` is told from
then on that a blank is missing, since the one before it has been read
already. -/
theorem calls_advance_past_refusal :
    (ofSource "1 + ^").answer 2 = .error (.invalidCharacter 4 '^') ∧
    (∀ call, 5 ≤ call →
      (ofSource "1 + ^").answer call = .error (.missingWhitespaceAfter 4 "+")) ∧
    (ofSource "1 + ^").yields 2 = some (.error (.invalidCharacter 4 '^')) ∧
    ∀ later, 2 < later → (ofSource "1 + ^").yields later = none := by
  obtain ⟨-, constant, ends⟩ := calls_advance "1 + ^"
  have last : (ofSource "1 + ^").answer 5 =
      .error (.missingWhitespaceAfter 4 "+") := by
    decide +kernel
  have refused : (ofSource "1 + ^").yields 2 =
      some (.error (.invalidCharacter 4 '^')) := by
    decide +kernel
  refine ⟨by decide +kernel, ?_, refused, ends 2 _ refused⟩
  intro call beyond
  exact (constant call beyond).trans last

end Lexer

end Formula
