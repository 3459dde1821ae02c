import Formula.Proofs.Compilation
import Formula.Proofs.Layout
import Mathlib.Data.List.Basic
import Mathlib.Data.List.Induction

/-!
# The names of a formula

The names of an expression are gathered from its tokens as they are written,
while values are looked up by instructions, which have been ordered and given
conversions since.  Both see the same occurrences of names in the same order,
because ordering never swaps operands.  The value of an expression therefore
depends on the values of its listed names only.
-/

namespace Formula

/-- The name that a token is, if it is one. -/
def Token.name? (token : Token) : Option String :=
  if token.kind = .name then some token.text else none

/-- The occurrences of names in tokens, from left to right. -/
def namesIn (tokens : List Token) : List String := tokens.filterMap Token.name?

/-- The name that an operation looks up, if it looks up one. -/
def Op.loaded? : Op → Option String
  | .load name => some name
  | .int _ | .bool _ | .unary _ | .binary _ | .coerce _ => none

/-- The names that instructions look up, in the order in which they do so. -/
def loadedBy (instructions : List Instruction) : List String :=
  instructions.filterMap fun instruction => instruction.op.loaded?

/-- The names are those of the occurrences, each once, and in the order of their
first occurrences. -/
structure ListsOnce (names occurrences : List String) : Prop where
  nodup : names.Nodup
  mem_iff : ∀ name, name ∈ names ↔ name ∈ occurrences
  ordered : names.Pairwise fun name later =>
    occurrences.idxOf name < occurrences.idxOf later

theorem eraseDups_concat (items : List String) (last : String) :
    (items ++ [last]).eraseDups =
      if last ∈ items then items.eraseDups else items.eraseDups ++ [last] := by
  rw [List.eraseDups_append]
  by_cases repeated : last ∈ items <;>
    simp [List.removeAll, repeated, List.eraseDups_cons]

theorem listsOnce_eraseDups (occurrences : List String) :
    ListsOnce occurrences.eraseDups occurrences := by
  have ordered : occurrences.eraseDups.Pairwise fun name later =>
      occurrences.idxOf name < occurrences.idxOf later := by
    -- from the right, because of equal items it is the later one that is left
    -- out
    induction occurrences using List.reverseRecOn with
    | nil => simp
    | append_singleton front last induction =>
        have inFront : front.eraseDups.Pairwise fun name later =>
            (front ++ [last]).idxOf name < (front ++ [last]).idxOf later := by
          refine induction.imp_of_mem ?_
          intro name later member laterMember before
          rw [List.idxOf_append_of_mem (List.mem_eraseDups.mp member),
            List.idxOf_append_of_mem (List.mem_eraseDups.mp laterMember)]
          exact before
        rw [eraseDups_concat]
        split_ifs with repeated
        · exact inFront
        · refine List.pairwise_append.mpr
            ⟨inFront, List.pairwise_singleton _ _, ?_⟩
          intro name member other isLast
          obtain rfl := List.mem_singleton.mp isLast
          rw [List.idxOf_append_of_mem (List.mem_eraseDups.mp member),
            List.idxOf_append_of_notMem repeated]
          have inside :=
            List.idxOf_lt_length_of_mem (List.mem_eraseDups.mp member)
          omega
  refine ⟨ordered.imp ?_, fun _ => List.mem_eraseDups, ordered⟩
  rintro name other before rfl
  exact absurd before (Nat.lt_irrefl _)

/-! ## Names in the source, in the tree and in the program -/

theorem namesIn_append (front back : List Token) :
    namesIn (front ++ back) = namesIn front ++ namesIn back :=
  List.filterMap_append

theorem namesIn_cons_of_ne {token : Token} (other : token.kind ≠ .name)
    (tokens : List Token) : namesIn (token :: tokens) = namesIn tokens := by
  simp [namesIn, Token.name?, other]

theorem loadedBy_append (front back : List Instruction) :
    loadedBy (front ++ back) = loadedBy front ++ loadedBy back :=
  List.filterMap_append

@[simp] theorem loadedBy_coercion (own demanded : ValueType) :
    loadedBy (coercion own demanded) = [] := by
  cases own <;> cases demanded <;> rfl

def Atom.name? : Atom → Option String
  | .name text => some text
  | .constant _ | .number _ => none

theorem Token.name?_eq {token : Token} {atom : Atom}
    (spelled : token.atom? = some atom) : token.name? = atom.name? := by
  unfold Token.atom? at spelled
  unfold Token.name?
  cases kind : token.kind with
  | number =>
      simp only [kind, Option.map_eq_some_iff] at spelled
      obtain ⟨value, -, rfl⟩ := spelled
      rfl
  | constant value =>
      simp only [kind] at spelled
      cases spelled
      rfl
  | name =>
      simp only [kind] at spelled
      cases spelled
      rfl
  | openParen => simp [kind] at spelled
  | closeParen => simp [kind] at spelled
  | unary op => simp [kind] at spelled
  | binary op => simp [kind] at spelled

namespace Tree

/-- The occurrences of names in a tree, from left to right. -/
def names : Tree → List String
  | .leaf _ atom _ => atom.name?.toList
  | .unary _ _ _ operand => operand.names
  | .binary _ _ _ left right => left.names ++ right.names

theorem loadedBy_code (tree : Tree) : loadedBy tree.code = tree.names := by
  induction tree with
  | leaf token atom spelled => cases atom <;> rfl
  | unary token op spelled operand induction =>
      rw [code, loadedBy_append, loadedBy_append, induction, loadedBy_coercion]
      simp [loadedBy, Op.loaded?, names]
  | binary token op spelled left right leftInduction rightInduction =>
      simp only [code, loadedBy_append, leftInduction, rightInduction,
        loadedBy_coercion]
      simp [loadedBy, Op.loaded?, names]

/-- Programs look up the names of their tree in the order of the tree. -/
theorem loadedBy_program (tree : Tree) (result : ValueType) :
    loadedBy (tree.program result).instructions = tree.names := by
  rw [program, loadedBy_append, loadedBy_code, loadedBy_coercion,
    List.append_nil]

theorem denote_congr {lookup other : String → Option Int32} (tree : Tree)
    (agree : ∀ name ∈ tree.names, (lookup name).getD 0 = (other name).getD 0) :
    tree.denote lookup = tree.denote other := by
  induction tree with
  | leaf token atom spelled =>
      cases atom with
      | constant value => rfl
      | number value => rfl
      | name text =>
          have same := agree text (by simp [names, Atom.name?])
          simp [denote, Atom.denote, same]
  | unary token op spelled operand induction =>
      rw [denote, denote, induction agree]
  | binary token op spelled left right leftInduction rightInduction =>
      have leftSame := leftInduction fun name member =>
        agree name (List.mem_append_left _ member)
      have rightSame := rightInduction fun name member =>
        agree name (List.mem_append_right _ member)
      rw [denote, denote, leftSame, rightSame]

end Tree

/-- The tokens of an expression have the names of its tree, in the same
order. -/
theorem Spells.namesIn_eq {layer : Nat} {tokens : List Token} {tree : Tree}
    (spells : Spells layer tokens tree) : namesIn tokens = tree.names := by
  induction spells with
  | @atom token atom spelled =>
      rw [namesIn, List.filterMap_cons, Token.name?_eq spelled]
      cases atom <;> rfl
  | @group opener closer inner tree opens closes _ induction =>
      rw [namesIn_cons_of_ne (by simp [opens]), namesIn_append, induction,
        namesIn_cons_of_ne (by simp [closes])]
      exact List.append_nil _
  | unary spelled _ induction =>
      rw [namesIn_cons_of_ne (by simp [spelled]), induction]
      rfl
  | binary spelled _ _ leftInduction rightInduction =>
      rw [namesIn_append, namesIn_cons_of_ne (by simp [spelled]), leftInduction,
        rightInduction]
      rfl
  | tighter _ induction => exact induction

namespace Sentence

theorem namesAfter_eraseDups (tokens : List Token) (token : Token) :
    namesAfter (namesIn tokens).eraseDups token =
      (namesIn (tokens ++ [token])).eraseDups := by
  rw [namesIn_append, namesAfter]
  by_cases isName : token.kind = .name
  · have last : namesIn [token] = [token.text] := by
      simp [namesIn, Token.name?, isName]
    rw [last, eraseDups_concat]
    by_cases listed : token.text ∈ namesIn tokens <;> simp [isName, listed]
  · rw [namesIn_cons_of_ne isName]
    simp [isName, namesIn]

namespace Progress

theorem names_of_foldlM_accept {tokens : List Token}
    {progress after : Progress}
    (accepted : tokens.foldlM accept progress = .ok after)
    (listed : progress.names = (namesIn progress.tokens.reverse).eraseDups) :
    after.names = (namesIn after.tokens.reverse).eraseDups := by
  induction tokens generalizing progress with
  | nil =>
      cases accepted
      exact listed
  | cons token tokens induction =>
      obtain ⟨middle, first, rest⟩ := foldlM_cons_eq_ok_iff.mp accepted
      obtain ⟨openers, -, -, rfl⟩ :=
        (accept_eq_ok_iff progress middle token).mp first
      apply induction rest
      simp only [extended, listed, List.reverse_cons]
      exact namesAfter_eraseDups _ token

end Progress

theorem names_of_ofSource {source : String} {sentence : Sentence}
    (valid : ofSource source = .ok sentence) :
    sentence.names = (namesIn sentence.tokens).eraseDups := by
  rw [ofSource, Progress.read_eq_scan] at valid
  generalize (Lexer.ofSource source).scan = scanned at valid
  obtain ⟨tokens, fault⟩ := scanned
  cases accepted : tokens.foldlM Progress.accept {} with
  | error error =>
      rw [accepted] at valid
      cases valid
  | ok checked =>
      rw [accepted, ok_bind] at valid
      cases fault with
      | some error => cases valid
      | none =>
          obtain ⟨-, -, rfl⟩ :=
            (Progress.finish_eq_ok_iff checked sentence).mp valid
          exact Progress.names_of_foldlM_accept accepted rfl

end Sentence

theorem Layout.increasing {last : Option TokenKind} {offset : Nat}
    {source : List Char} {tokens : List Token}
    (layout : Layout last offset source tokens) :
    (∀ token ∈ tokens, offset ≤ token.index) ∧
      tokens.Pairwise fun token later => token.index < later.index := by
  induction layout with
  | blanks => simp
  | @token last offset blanks after token tokens placed _ induction =>
      obtain ⟨behind, ordered⟩ := induction
      obtain ⟨c, rest, text, -⟩ := placed.written.begins
      have size : 0 < byteLength token.text.toList := by
        have first := Char.utf8Size_pos c
        rw [text, byteLength_cons]
        omega
      have start := placed.index
      refine ⟨?_, List.pairwise_cons.mpr ⟨?_, ordered⟩⟩
      · intro other member
        rcases List.mem_cons.mp member with rfl | later
        · omega
        · have bound := behind other later
          omega
      · intro later member
        have bound := behind later member
        omega

/-- The tokens of a source and the tree that they spell. -/
structure Reading (source : String) (tokens : List Token) (tree : Tree) :
    Prop where
  layout : Layout none 0 source.toList tokens
  spells : Spells 0 tokens tree

/-- What an expression owes to the tokens of its source and to their tree. -/
structure Expression.Means {type : ValueType} (expression : Expression type)
    (tokens : List Token) (tree : Tree) : Prop where
  names : expression.names = (namesIn tokens).eraseDups
  program : expression.program = tree.program type
  value : ∀ {Table : Type} [ValueTable Table] (table : Table),
    expression.evaluate table =
      (tree.denote (ValueTable.value? table)).coerced type

theorem Reading.exists_ofSource {source : String} {tokens : List Token}
    {tree : Tree} (reading : Reading source tokens tree) (type : ValueType) :
    ∃ expression, Expression.ofSource type source = .ok expression ∧
      expression.Means tokens tree := by
  have tokenized : tokenize source = .ok tokens := reading.layout.tokens
  obtain ⟨sentence, valid⟩ :=
    Sentence.exists_ofSource tokenized reading.spells.grammatical
  obtain ⟨otherTokenized, -⟩ := Sentence.spells_of_ofSource valid
  obtain rfl := Except.ok.inj (tokenized.symm.trans otherTokenized)
  obtain ⟨expression, compiles, names, program, value⟩ :=
    Expression.ofSource_of_spells type valid reading.spells
  refine ⟨expression, compiles, ?_, program, fun table => value _⟩
  rw [names, Sentence.names_of_ofSource valid]

theorem Reading.atom {source : String} {token : Token} {atom : Atom}
    {later : Lexer}
    (found : (Lexer.ofSource source).next = (.ok (some token), later))
    (atEnd : later.rest = []) (spelled : token.atom? = some atom) :
    Reading source [token] (.leaf token atom spelled) := by
  have none : later.tokens = .ok [] :=
    Lexer.tokens_none (Lexer.next_none (by simp [atEnd]))
  have tokenized : (Lexer.ofSource source).tokens = .ok [token] := by
    rw [Lexer.tokens_some found, none]
    rfl
  exact ⟨Lexer.layout_of_tokens tokenized,
    (Spells.atom spelled).loosen (Nat.zero_le 7)⟩

namespace Expression

variable {type : ValueType} {source : String} {expression : Expression type}

theorem exists_reading (compiles : ofSource type source = .ok expression) :
    ∃ tokens tree, Reading source tokens tree ∧
      expression.Means tokens tree := by
  cases valid : Sentence.ofSource source with
  | error error =>
      cases (ofSource_of_sentence_error type valid).symm.trans compiles
  | ok sentence =>
      obtain ⟨tokenized, tree, spells⟩ := Sentence.spells_of_ofSource valid
      have reading : Reading source sentence.tokens tree :=
        ⟨Lexer.layout_of_tokens tokenized, spells⟩
      obtain ⟨same, compilesToo, means⟩ := reading.exists_ofSource type
      obtain rfl := Except.ok.inj (compilesToo.symm.trans compiles)
      exact ⟨sentence.tokens, tree, reading, means⟩

/-- The names of an expression are those of its source, and they are those that
its program looks up; each is listed once, in the order in which they occur
first.  Tables that agree on them, of whatever kind they are, give the same
value. -/
theorem names_decide_value (compiles : ofSource type source = .ok expression) :
    (∃ tokens, tokenize source = .ok tokens ∧
      (tokens.Pairwise fun token later => token.index < later.index) ∧
      ListsOnce expression.names (namesIn tokens)) ∧
    ListsOnce expression.names (loadedBy expression.program.instructions) ∧
    ∀ {Table Other : Type} [ValueTable Table] [ValueTable Other]
      (table : Table) (other : Other),
      (∀ name ∈ expression.names, valuation table name = valuation other name) →
      expression.evaluate table = expression.evaluate other := by
  obtain ⟨tokens, tree, ⟨layout, spells⟩, names, program, value⟩ :=
    exists_reading compiles
  have loaded : loadedBy expression.program.instructions = namesIn tokens := by
    rw [program, tree.loadedBy_program, spells.namesIn_eq]
  have listed := listsOnce_eraseDups (namesIn tokens)
  rw [← names] at listed
  refine ⟨⟨tokens, layout.tokens, layout.increasing.2, listed⟩, ?_, ?_⟩
  · rw [loaded]
    exact listed
  · intro Table Other _ _ table other agree
    have same : tree.denote (ValueTable.value? table) =
        tree.denote (ValueTable.value? other) := by
      apply tree.denote_congr
      intro name occurs
      rw [← spells.namesIn_eq] at occurs
      exact agree name ((listed.mem_iff name).mpr occurs)
    rw [value, value, same]

/-- `y - x` lists `y` before `x`, and a table that holds only another name is
as good as one that holds nothing. -/
theorem names_of_difference :
    ∃ expression, ofSource .integer "y - x" = .ok expression ∧
      expression.names = ["y", "x"] ∧
      expression.evaluate (Std.HashMap.ofList [("z", (7 : Int32))]) =
        expression.evaluate NoValues.mk := by
  have first :
      (Lexer.ofSource "y - x").next =
        (.ok (some ⟨.name, 0, "y", none⟩),
          ⟨[' ', '-', ' ', 'x'], 1, some .name⟩) :=
    rfl
  have second :
      Lexer.next ⟨[' ', '-', ' ', 'x'], 1, some .name⟩ =
        (.ok (some ⟨.binary .subtract, 2, "-", none⟩),
          ⟨[' ', 'x'], 3, some (.binary .subtract)⟩) :=
    rfl
  have third :
      Lexer.next ⟨[' ', 'x'], 3, some (.binary .subtract)⟩ =
        (.ok (some ⟨.name, 4, "x", none⟩), ⟨[], 5, some .name⟩) :=
    rfl
  have atEnd :
      Lexer.next ⟨[], 5, some .name⟩ = (.ok none, ⟨[], 5, some .name⟩) :=
    rfl
  have tokenized :
      (Lexer.ofSource "y - x").tokens =
        .ok [⟨.name, 0, "y", none⟩, ⟨.binary .subtract, 2, "-", none⟩,
          ⟨.name, 4, "x", none⟩] := by
    rw [Lexer.tokens_some first, Lexer.tokens_some second,
      Lexer.tokens_some third, Lexer.tokens_none atEnd]
    rfl
  have minus :
      (⟨.binary .subtract, 2, "-", none⟩ : Token).kind = .binary .subtract :=
    rfl
  have left : Spells 7 [⟨.name, 0, "y", none⟩] (.leaf _ (.name "y") rfl) :=
    .atom rfl
  have right : Spells 7 [⟨.name, 4, "x", none⟩] (.leaf _ (.name "x") rfl) :=
    .atom rfl
  have whole :=
    Spells.binary minus (left.loosen (by decide)) (right.loosen (by decide))
  have reading :=
    Reading.mk (Lexer.layout_of_tokens tokenized) (whole.loosen (Nat.zero_le _))
  obtain ⟨expression, compiles, means⟩ := reading.exists_ofSource .integer
  have names : expression.names = ["y", "x"] := means.names.trans rfl
  obtain ⟨-, -, same⟩ := names_decide_value compiles
  refine ⟨expression, compiles, names, same _ _ ?_⟩
  intro name member
  have other : "z" ≠ name := by
    rintro rfl
    rw [names] at member
    exact absurd member (by decide)
  simp [valuation, ValueTable.value?, other]

end Expression

end Formula
