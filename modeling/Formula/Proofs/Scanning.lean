import Formula.Proofs.Outcome
import Formula.Proofs.Grammar
import Formula.Sentence

/-!
# Scanning to the end

`Lexer.scan` lists all tokens up to the end of a source or up to the first
fault.  Cutting a source into tokens and reading it as a sentence are both
functions of that list: the former drops it at a fault, the latter runs the
structure check over it first.
-/

namespace Formula

namespace Piece

theorem token_valued {piece : Piece} {index : Nat} {separated : Bool}
    {token : Token} (made : piece.token index separated = .ok token) :
    token.Valued := by
  unfold Piece.token at made
  split at made
  · cases made
  · split at made
    · cases made
    · split at made
      · split at made
        · cases made
          intro _
          rfl
        · cases made
      · rename_i notNumber
        cases made
        intro number
        exact absurd number notNumber

end Piece

namespace Lexer

/-- The tokens that are left up to the first fault, and that fault. -/
def scan (lexer : Lexer) : List Token × Option ParseError :=
  match _found : lexer.next with
  | (.error error, _) => ([], some error)
  | (.ok none, _) => ([], none)
  | (.ok (some token), after) =>
    (token :: after.scan.1, after.scan.2)
termination_by lexer.rest.length
decreasing_by all_goals exact next_length _found

theorem next_valued {lexer after : Lexer} {token : Token}
    (found : lexer.next = (.ok (some token), after)) : token.Valued := by
  simp only [next] at found
  split at found
  · cases found
  · split at found
    · cases found
    · split at found
      · cases found
      · rename_i made
        cases found
        exact Piece.token_valued made

theorem scan_error {lexer after : Lexer} {error : ParseError}
    (found : lexer.next = (.error error, after)) :
    lexer.scan = ([], some error) := by
  rw [scan]
  split <;> simp_all

theorem scan_none {lexer after : Lexer}
    (found : lexer.next = (.ok none, after)) :
    lexer.scan = ([], none) := by
  rw [scan]
  split <;> simp_all

theorem scan_some {lexer after : Lexer} {token : Token}
    (found : lexer.next = (.ok (some token), after)) :
    lexer.scan = (token :: after.scan.1, after.scan.2) := by
  rw [scan]
  split <;> simp_all

theorem tokens_error {lexer after : Lexer} {error : ParseError}
    (found : lexer.next = (.error error, after)) :
    lexer.tokens = .error error := by
  have stepped : lexer.step.1 = some (.error error) := by
    rw [step, found]
  rw [tokens]
  split <;> simp_all

theorem tokens_none {lexer after : Lexer}
    (found : lexer.next = (.ok none, after)) : lexer.tokens = .ok [] := by
  have stepped : lexer.step.1 = none := by
    rw [step, found]
    rfl
  rw [tokens]
  split <;> simp_all

theorem tokens_some {lexer after : Lexer} {token : Token}
    (found : lexer.next = (.ok (some token), after)) :
    lexer.tokens = after.tokens.map (token :: ·) := by
  have stepped : lexer.step = (some (.ok token), after) := by
    rw [step, found]
    rfl
  rw [tokens]
  split <;> simp_all

/-- The outcome of reading a source of which tokens and perhaps a fault are
known. -/
def outcome {α : Type} (value : α) : Option ParseError → Except ParseError α
  | none => .ok value
  | some error => .error error

/-- Cutting into tokens keeps the scanned ones unless a fault ends them. -/
theorem tokens_eq_scan (lexer : Lexer) :
    lexer.tokens = outcome lexer.scan.1 lexer.scan.2 := by
  induction lexer using scan.induct with
  | case1 lexer error after found =>
      rw [tokens_error found, scan_error found]
      rfl
  | case2 lexer after found =>
      rw [tokens_none found, scan_none found]
      rfl
  | case3 lexer token after found induction =>
      rw [tokens_some found, scan_some found, induction]
      cases after.scan.2 <;> rfl

/-- Numbers come out of the scanner with their values. -/
theorem scan_valued (lexer : Lexer) : ∀ token ∈ lexer.scan.1, token.Valued := by
  induction lexer using scan.induct with
  | case1 lexer error after found =>
      rw [scan_error found]
      simp
  | case2 lexer after found =>
      rw [scan_none found]
      simp
  | case3 lexer token after found induction =>
      rw [scan_some found]
      intro other member
      rcases List.mem_cons.mp member with rfl | later
      · exact next_valued found
      · exact induction other later

end Lexer

namespace Sentence.Progress

/-- What a check that has accepted all tokens makes of a fault behind them. -/
def conclude (checked : Progress) :
    Option ParseError → Except ParseError Sentence
  | none => checked.finish
  | some error => .error error

variable {progress : Progress} {lexer after : Lexer}

theorem read_error {error : ParseError}
    (found : lexer.next = (.error error, after)) :
    progress.read lexer = .error error := by
  rw [read]
  split <;> simp_all

theorem read_none (found : lexer.next = (.ok none, after)) :
    progress.read lexer = progress.finish := by
  rw [read]
  split <;> simp_all

theorem read_some {token : Token}
    (found : lexer.next = (.ok (some token), after)) :
    progress.read lexer =
      progress.accept token >>= fun checked => checked.read after := by
  rw [read]
  split
  · simp_all
  · simp_all
  · rename_i sameFound
    rw [found] at sameFound
    cases sameFound
    cases progress.accept token <;> rfl

/-- Reading a sentence runs the check over the scanned tokens, and a fault of
the scanner counts only if the check has accepted all tokens before it. -/
theorem read_eq_scan (progress : Progress) (lexer : Lexer) :
    progress.read lexer =
      lexer.scan.1.foldlM accept progress >>= fun checked =>
        checked.conclude lexer.scan.2 := by
  induction lexer using Lexer.scan.induct generalizing progress with
  | case1 lexer error after found =>
      rw [read_error found, Lexer.scan_error found]
      rfl
  | case2 lexer after found =>
      rw [read_none found, Lexer.scan_none found]
      rfl
  | case3 lexer token after found induction =>
      rw [read_some found, Lexer.scan_some found, List.foldlM_cons]
      cases progress.accept token with
      | error error => rfl
      | ok checked => exact induction checked

end Sentence.Progress

end Formula
