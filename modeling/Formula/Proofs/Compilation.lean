import Formula.Expression
import Formula.Proofs.Ordering
import Formula.Proofs.Rejection
import Formula.Proofs.Structure

/-!
# Compiling a source

A source compiles exactly if it can be cut into tokens whose kinds are those of
a formula, and it then evaluates to the value of the tree that its tokens spell.
No step behind the structure check can fail.
-/

namespace Formula

namespace Sentence

theorem spells_of_ofSource {source : String} {sentence : Sentence}
    (valid : ofSource source = .ok sentence) :
    tokenize source = .ok sentence.tokens ∧
      ∃ tree, Spells 0 sentence.tokens tree := by
  rw [ofSource, Progress.read_eq_scan] at valid
  rw [tokenize, Lexer.tokens_eq_scan]
  have valued := (Lexer.ofSource source).scan_valued
  generalize (Lexer.ofSource source).scan = scanned at valid valued ⊢
  obtain ⟨tokens, fault⟩ := scanned
  cases accepted : tokens.foldlM Progress.accept {} with
  | error error =>
      rw [accepted] at valid
      cases valid
  | ok checked =>
      rw [accepted, ok_bind] at valid
      cases fault with
      | some error => cases valid
      | none =>
          have grammatical := Progress.grammatical_of_check accepted valid
          obtain ⟨-, -, rfl⟩ :=
            (Progress.finish_eq_ok_iff checked sentence).mp valid
          have all : checked.tokens.reverse = tokens := by
            rw [Progress.tokens_of_foldlM_accept accepted]
            simp
          rw [all]
          exact ⟨rfl, grammatical.exists_spells tokens rfl valued⟩

theorem exists_ofSource {source : String} {tokens : List Token}
    (tokenized : tokenize source = .ok tokens)
    (grammatical : Grammatical (tokens.map Token.kind)) :
    ∃ sentence, ofSource source = .ok sentence := by
  rw [tokenize, Lexer.tokens_eq_scan] at tokenized
  rw [ofSource, Progress.read_eq_scan]
  generalize (Lexer.ofSource source).scan = scanned at tokenized ⊢
  obtain ⟨scannedTokens, fault⟩ := scanned
  cases fault with
  | some error => cases tokenized
  | none =>
      cases tokenized
      obtain ⟨checked, sentence, accepted, finished⟩ :=
        (Progress.check_iff_grammatical scannedTokens).mpr grammatical
      exact ⟨sentence, by rw [accepted, ok_bind, Progress.conclude, finished]⟩

theorem kind_of_ofSource_error {source : String} {error : ParseError}
    (refused : ofSource source = .error error) :
    error.kind = .lexical ∨ error.kind = .structural := by
  rw [ofSource, Progress.read_eq_scan] at refused
  cases accepted :
      (Lexer.ofSource source).scan.1.foldlM Progress.accept {} with
  | error first =>
      rw [accepted] at refused
      cases refused
      exact .inr (Progress.kind_of_foldlM_accept_error accepted)
  | ok checked =>
      rw [accepted, ok_bind] at refused
      cases fault : (Lexer.ofSource source).scan.2 with
      | none =>
          rw [fault] at refused
          exact .inr (Progress.kind_of_finish_error refused)
      | some first =>
          rw [fault] at refused
          cases refused
          exact .inl (Lexer.kind_of_scan_fault fault)

end Sentence

namespace Expression

variable (type : ValueType)

theorem ofSource_of_sentence_error {source : String} {error : ParseError}
    (refused : Sentence.ofSource source = .error error) :
    ofSource type source = .error error := by
  simp [ofSource, compile, Program.ofSource, refused]

theorem ofSource_of_spells {source : String} {sentence : Sentence} {tree : Tree}
    (valid : Sentence.ofSource source = .ok sentence)
    (spells : Spells 0 sentence.tokens tree) :
    ∃ expression, ofSource type source = .ok expression ∧
      expression.names = sentence.names ∧
      expression.program = tree.program type ∧
      ∀ lookup : String → Option Int32,
        expression.evaluator (.ofLookup lookup) =
          (tree.denote lookup).coerced type := by
  obtain ⟨⟨compiledType, value⟩, compiles, declared, means⟩ :=
    tree.compile_program type
  cases declared
  have evaluated : ∀ lookup : String → Option Int32,
      value (.ofLookup lookup) = (tree.denote lookup).coerced compiledType := by
    intro lookup
    exact Value.of_injective compiledType (means lookup)
  refine ⟨⟨source, sentence.names, tree.program compiledType, value⟩, ?_, rfl,
    rfl, evaluated⟩
  simp only [ofSource, compile, Program.ofSource, valid, spells.postOrder_eq,
    Tree.ofPostOrder_postOrder, Except.map, compiles]
  cases compiledType <;> rfl

/-- A source that passes the structure check compiles for either type, and for
every table it evaluates to the value of its only tree. -/
theorem evaluates_to_denote (source : String)
    (sentence : Sentence) (valid : Sentence.ofSource source = .ok sentence) :
    tokenize source = .ok sentence.tokens ∧
    ∃ tree, Spells 0 sentence.tokens tree ∧
      (∀ other, Spells 0 sentence.tokens other → other = tree) ∧
      ∃ expression, ofSource type source = .ok expression ∧
        ∀ {Table : Type} [ValueTable Table] (table : Table),
          expression.evaluate table =
            (tree.denote (ValueTable.value? table)).coerced type := by
  obtain ⟨tokenized, tree, spells⟩ := Sentence.spells_of_ofSource valid
  obtain ⟨expression, compiles, -, -, evaluated⟩ :=
    ofSource_of_spells type valid spells
  refine ⟨tokenized, tree, spells, ?_, expression, compiles, ?_⟩
  · intro other otherSpells
    exact otherSpells.unique spells
  · intro Table _ table
    exact evaluated (ValueTable.value? table)

theorem evaluates_difference :
    Sentence.ofSource "x - true" =
      .ok
        { tokens :=
            [⟨.name, 0, "x", none⟩, ⟨.binary .subtract, 2, "-", none⟩,
              ⟨.constant true, 4, "true", none⟩]
          names := ["x"] } ∧
    ∃ expression, ofSource .integer "x - true" = .ok expression ∧
      expression.evaluate NoValues.mk = (-1 : Int32) := by
  have first :
      (Lexer.ofSource "x - true").next =
        (.ok (some ⟨.name, 0, "x", none⟩),
          ⟨[' ', '-', ' ', 't', 'r', 'u', 'e'], 1, some .name⟩) :=
    rfl
  have second :
      Lexer.next ⟨[' ', '-', ' ', 't', 'r', 'u', 'e'], 1, some .name⟩ =
        (.ok (some ⟨.binary .subtract, 2, "-", none⟩),
          ⟨[' ', 't', 'r', 'u', 'e'], 3, some (.binary .subtract)⟩) :=
    rfl
  have third :
      Lexer.next ⟨[' ', 't', 'r', 'u', 'e'], 3, some (.binary .subtract)⟩ =
        (.ok (some ⟨.constant true, 4, "true", none⟩),
          ⟨[], 8, some (.constant true)⟩) :=
    rfl
  have atEnd :
      Lexer.next ⟨[], 8, some (.constant true)⟩ =
        (.ok none, ⟨[], 8, some (.constant true)⟩) :=
    rfl
  have valid :
      Sentence.ofSource "x - true" =
        .ok
          { tokens :=
              [⟨.name, 0, "x", none⟩, ⟨.binary .subtract, 2, "-", none⟩,
                ⟨.constant true, 4, "true", none⟩]
            names := ["x"] } := by
    rw [Sentence.ofSource, Sentence.Progress.read_eq_scan,
      Lexer.scan_some first, Lexer.scan_some second, Lexer.scan_some third,
      Lexer.scan_none atEnd]
    rfl
  refine ⟨valid, ?_⟩
  obtain ⟨-, tree, -, unique, expression, compiles, evaluated⟩ :=
    evaluates_to_denote .integer _ _ valid
  have minus :
      (⟨.binary .subtract, 2, "-", none⟩ : Token).kind = .binary .subtract :=
    rfl
  have left : Spells 7 [⟨.name, 0, "x", none⟩] (.leaf _ (.name "x") rfl) :=
    .atom rfl
  have right :
      Spells 7 [⟨.constant true, 4, "true", none⟩]
        (.leaf _ (.constant true) rfl) :=
    .atom rfl
  have whole :=
    Spells.binary minus (left.loosen (by decide)) (right.loosen (by decide))
  refine ⟨expression, compiles, ?_⟩
  rw [evaluated NoValues.mk, ← unique _ (whole.loosen (Nat.zero_le _))]
  rfl

/-- A source compiles exactly if it is grammatical; otherwise the error is a
lexical or a structural one, and never an internal one. -/
theorem compiles_iff_grammatical (source : String) :
    ((∃ expression, ofSource type source = .ok expression) ↔
      ∃ tokens, tokenize source = .ok tokens ∧
        Grammatical (tokens.map Token.kind)) ∧
    ((∃ expression, ofSource type source = .ok expression) ∨
      ∃ error, ofSource type source = .error error ∧
        (error.kind = .lexical ∨ error.kind = .structural)) := by
  cases valid : Sentence.ofSource source with
  | ok sentence =>
      obtain ⟨tokenized, tree, spells⟩ := Sentence.spells_of_ofSource valid
      obtain ⟨expression, compiles, -⟩ :=
        ofSource_of_spells type valid spells
      refine ⟨⟨fun _ => ?_, fun _ => ⟨expression, compiles⟩⟩,
        .inl ⟨expression, compiles⟩⟩
      exact ⟨sentence.tokens, tokenized, spells.grammatical⟩
  | error error =>
      have refused := ofSource_of_sentence_error type valid
      refine ⟨⟨?_, ?_⟩,
        .inr ⟨error, refused, Sentence.kind_of_ofSource_error valid⟩⟩
      · rintro ⟨expression, compiles⟩
        cases refused.symm.trans compiles
      · rintro ⟨tokens, tokenized, grammatical⟩
        obtain ⟨sentence, accepted⟩ :=
          Sentence.exists_ofSource tokenized grammatical
        cases valid.symm.trans accepted

end Expression

end Formula
