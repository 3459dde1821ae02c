import Formula.Proofs.CheckRun
import Formula.Proofs.MinusSigns

/-!
# Where carets stand

Below an expression that does not compile stands a line with a caret.  Its
column counts the characters in front of the fault, from the beginning of the
expression on.  The line right above it is the last line of the expression, so
that the caret stands under the fault exactly if the expression has no other
line.
-/

namespace Formula

theorem charactersBefore?_cons (c : Char) (rest : List Char) {offset : Nat}
    (inside : 0 < offset) :
    charactersBefore? (c :: rest) offset =
      if c.utf8Size ≤ offset then
        (charactersBefore? rest (offset - c.utf8Size)).map (c :: ·)
      else none := by
  cases offset with
  | zero => cases inside
  | succ offset => rfl

theorem charactersBefore?_byteLength (front back : List Char) :
    charactersBefore? (front ++ back) (byteLength front) = some front := by
  induction front with
  | nil => cases back <;> rfl
  | cons c front induction =>
      have inside : 0 < byteLength (c :: front) :=
        Nat.add_pos_left (Char.utf8Size_pos c) _
      rw [List.cons_append, charactersBefore?_cons c _ inside, byteLength_cons,
        if_pos (Nat.le_add_right _ _), Nat.add_sub_cancel_left, induction]
      rfl

/-- The caret stands behind one blank for each character in front of the
offset. -/
theorem toList_caretLine {source : String} {before text after : List Char}
    {index : Nat} (stands : Stands source.toList before text after index) :
    (caretLine source index).toList =
      List.replicate before.length ' ' ++ ['^'] := by
  have front : charactersBefore? source.toList index = some before := by
    rw [stands.split, stands.offset, List.append_assoc]
    exact charactersBefore?_byteLength before (text ++ after)
  simp [caretLine, front]

/-! ## Lines of a text -/

/-- The text is empty or ends with a line break. -/
def EndsLine (text : List Char) : Prop := ∀ c ∈ text.getLast?, c = '\n'

theorem EndsLine.nil : EndsLine [] := fun _ absent => nomatch absent

theorem EndsLine.break (text : List Char) : EndsLine (text ++ ['\n']) := by
  intro c last
  simpa [eq_comm] using last

theorem EndsLine.append {front back : List Char} (ends : EndsLine front)
    (backEnds : EndsLine back) : EndsLine (front ++ back) := by
  intro c last
  rw [List.getLast?_append] at last
  cases ended : back.getLast? with
  | none =>
      rw [ended] at last
      exact ends c last
  | some d =>
      rw [ended] at last
      exact backEnds c (ended.trans last)

theorem EndsLine.eq_nil {text : List Char} (ends : EndsLine text)
    (noBreak : '\n' ∉ text) : text = [] := by
  rcases List.eq_nil_or_concat text with empty | ⟨front, c, rfl⟩
  · exact empty
  · obtain rfl := ends c (by simp)
    simp at noBreak

theorem exists_last_line (text : List Char) :
    ∃ earlier last,
      text = earlier ++ last ∧ EndsLine earlier ∧ '\n' ∉ last := by
  by_cases broken : '\n' ∈ text
  · obtain ⟨last, earlier, split, noBreak⟩ :=
      List.eq_append_cons_of_mem (List.mem_reverse.mpr broken)
    refine ⟨earlier.reverse ++ ['\n'], last.reverse, ?_, .break _, ?_⟩
    · rw [List.reverse_eq_iff] at split
      simp [split]
    · simpa using noBreak
  · exact ⟨[], text, rfl, .nil, broken⟩

/-- What stands in front of an expression where it is shown. -/
def indentation : List Char := [' ', ' ', ' ', ' ']

/-- The text shows an expression below a headline, and a caret in the line
behind it; `above` is the line right above that of the caret. -/
structure ShowsCaret (text headline expression above caret : List Char) :
    Prop where
  lines : ∃ front earlier back,
    text = front ++ headline ++ '\n' :: (earlier ++ above ++ '\n' ::
      (caret ++ '\n' :: back)) ∧
    EndsLine front ∧ EndsLine earlier ∧
    earlier ++ above = indentation ++ expression
  aboveLine : '\n' ∉ above
  caretLine : '\n' ∉ caret

/-- The line above shows the character of the expression at the offset, and the
caret stands in the same column. -/
def PointsAt (expression : List Char) (index : Nat) (above caret : List Char) :
    Prop :=
  ∃ before c after earlier shown, Stands expression before [c] after index ∧
    earlier ++ shown = indentation ++ before ∧ above = shown ++ c :: after ∧
    caret = List.replicate shown.length ' ' ++ ['^']

/-- The column counts from the beginning of the expression, and so is that of
the line above only if the expression is one line. -/
theorem pointsAt_iff {expression before after earlier above caret : List Char}
    {c : Char} {index : Nat} (stands : Stands expression before [c] after index)
    (caret_eq : caret =
      List.replicate (indentation ++ before).length ' ' ++ ['^'])
    (split : earlier ++ above = indentation ++ expression)
    (ends : EndsLine earlier) (aboveLine : '\n' ∉ above) :
    PointsAt expression index above caret ↔ '\n' ∉ expression := by
  have indented : '\n' ∉ indentation := by decide
  constructor
  · rintro ⟨front, d, back, hidden, shown, faultStands, front_eq, rfl, same⟩
    have whole := stands.split.symm.trans faultStands.split
    rw [List.append_assoc, List.append_assoc] at whole
    obtain rfl := eq_of_byteLength_eq whole
      (stands.offset.symm.trans faultStands.offset)
    -- the caret has as many blanks in front of it as there are characters in
    -- `indentation ++ before`
    have columns : shown.length = (indentation ++ before).length := by
      have lengths := congrArg List.length (caret_eq.symm.trans same)
      simpa using lengths.symm
    rw [← front_eq, List.length_append, Nat.right_eq_add,
      List.length_eq_zero_iff] at columns
    rw [columns, List.nil_append] at front_eq
    have above_eq : shown ++ d :: back = indentation ++ expression := by
      rw [front_eq, faultStands.split]
      simp
    rw [above_eq] at aboveLine
    exact fun broken => aboveLine (List.mem_append_right _ broken)
  · intro oneLine
    have noBreak : '\n' ∉ earlier := by
      intro member
      have inside : '\n' ∈ indentation ++ expression := by
        rw [← split]
        exact List.mem_append_left _ member
      rcases List.mem_append.mp inside with blank | broken
      · exact indented blank
      · exact oneLine broken
    rw [ends.eq_nil noBreak, List.nil_append] at split
    refine ⟨before, c, after, [], indentation ++ before, stands, rfl, ?_,
      caret_eq⟩
    rw [split, stands.split]
    simp

/-! ## The standard error -/

/-- The text that lines give on the standard error. -/
def stderrOf (output : List Output) : String :=
  String.join <| output.map fun
    | .err line => line ++ "\n"
    | .out _ | .log .. => ""

theorem exists_ending (run : Run) :
    ∃ ending, run.stderr = stderrOf run.output ++ ending :=
  ⟨_, rfl⟩

theorem stderrOf_append (front back : List Output) :
    stderrOf (front ++ back) = stderrOf front ++ stderrOf back := by
  unfold stderrOf
  rw [List.map_append, String.join_append]

theorem stderrOf_cons (line : Output) (output : List Output) :
    stderrOf (line :: output) = stderrOf [line] ++ stderrOf output :=
  stderrOf_append [line] output

theorem stderrOf_err (line : String) : stderrOf [.err line] = line ++ "\n" :=
  String.empty_append

theorem stderrOf_visible (output : List Output) :
    stderrOf (visible output) = stderrOf output :=
  join_map_visible (fun _ _ => rfl) output

theorem endsLine_stderrOf (output : List Output) :
    EndsLine (stderrOf output).toList := by
  induction output with
  | nil => exact .nil
  | cons line output induction =>
      rw [stderrOf_cons, String.toList_append]
      refine EndsLine.append ?_ induction
      cases line with
      | err text =>
          rw [stderrOf_err, String.toList_append]
          exact .break _
      | out | log => exact .nil

/-! ## Runs that get to a rule -/

namespace RuleFiles

variable {system : FileSystem} {arguments : Arguments} {place : RuleAt}

/-- A run gets as far as a rule: the files in front of its document load, and so
does the document. -/
inductive GetsTo (system : FileSystem) (arguments : Arguments) : RuleAt → Prop
  | rule {front back : List String} {file : String}
    {documents : List RuleDocument} {document : RuleDocument}
    {replacements : VariableTable} {place : RuleAt}
    (collected : collect system arguments.paths = .ok (front ++ file :: back))
    (replaces : Replaces system arguments.vars replacements)
    (loaded : List.Forall₂ (Holds system) front documents)
    (holds : Holds system file document)
    (inside : place ∈ document.placesAt replacements file) :
    GetsTo system arguments place

theorem mem_placesIn_concat {replacements : VariableTable}
    {front : List String} {documents : List RuleDocument} {file : String}
    {document : RuleDocument} (same : front.length = documents.length)
    (inside : place ∈ document.placesAt replacements file) :
    place ∈ placesIn replacements
      ((front ++ [file]).zip (documents ++ [document])) := by
  rw [List.zip_append same]
  exact List.mem_flatMap.mpr ⟨(file, document), by simp, inside⟩

theorem exists_written_eq {places : List RuleAt} (member : place ∈ places)
    (options : CheckOptions) :
    ∃ front back, written options places =
      front ++ reportLines place.file (place.report options) ++ back := by
  obtain ⟨earlier, later, rfl⟩ := List.append_of_mem member
  refine ⟨written options earlier, written options later, ?_⟩
  simp only [written, List.flatMap_append, List.flatMap_cons, List.append_assoc]

/-- The lines on the rule stand together in what the run writes. -/
theorem GetsTo.exists_visible (gets : GetsTo system arguments place) :
    ∃ front back, visible (run system arguments).output =
      front ++ reportLines place.file (place.report arguments.options) ++
        back := by
  obtain @⟨front, back, file, documents, document, replacements, _, collected,
    replaces, loaded, holds, inside⟩ := gets
  have allLoaded :
      List.Forall₂ (Holds system) (front ++ [file]) (documents ++ [document]) :=
    List.rel_append loaded (.cons holds .nil)
  obtain ⟨shown, -⟩ := checkFiles_append arguments replacements allLoaded back
  obtain ⟨earlier, later, lines⟩ := exists_written_eq
    (mem_placesIn_concat loaded.length_eq inside) arguments.options
  rw [List.append_assoc, List.singleton_append, lines] at shown
  have ⟨rest, run_output⟩ : ∃ rest, (run system arguments).output =
      opening (front ++ file :: back).length ::
        (checkFiles system arguments replacements (front ++ file :: back)).1 ++
        rest := by
    rw [run_eq collected (by simp) replaces]
    cases (checkFiles system arguments replacements
      (front ++ file :: back)).2 with
    | error failure => exact ⟨[], (List.append_nil _).symm⟩
    | ok reports => exact ⟨_, rfl⟩
  generalize visible (checkFiles system arguments replacements back).1 = others
    at shown
  rw [run_output, visible_append, visible_opening, shown]
  refine ⟨opening (front ++ file :: back).length :: earlier,
    later ++ (others ++ visible rest), ?_⟩
  simp only [List.cons_append, List.append_assoc]

/-- The line that names a rule which does not compile, and the error. -/
def headline (place : RuleAt) (error : ParseError) : String :=
  s!"[ERROR] {place.file}: {place.rule.name}: {error.message}"

theorem reportLines_refused {error : ParseError} {index : Nat}
    (refused : place.rule.compiled = .error error)
    (located : error.index? = some index) (options : CheckOptions) :
    reportLines place.file (place.report options) =
      [.err (headline place error), .err s!"    {place.rule.expression}",
        .err s!"    {caretLine place.rule.expression index}"] := by
  simp only [RuleAt.report, refused, Rule.report, reportLines, located,
    headline]
  rfl

theorem GetsTo.exists_stderr_eq (gets : GetsTo system arguments place)
    {error : ParseError} {index : Nat}
    (refused : place.rule.compiled = .error error)
    (located : error.index? = some index) :
    ∃ front back, EndsLine front.toList ∧
      (run system arguments).stderr =
        front ++ headline place error ++ "\n" ++
          ("    " ++ place.rule.expression ++ "\n") ++
          ("    " ++ caretLine place.rule.expression index ++ "\n") ++
            back := by
  obtain ⟨front, back, shown⟩ := gets.exists_visible
  obtain ⟨ending, written⟩ := exists_ending (run system arguments)
  refine ⟨stderrOf front, stderrOf back ++ ending, endsLine_stderrOf front, ?_⟩
  rw [written, ← stderrOf_visible, shown, stderrOf_append, stderrOf_append,
    reportLines_refused refused located, stderrOf_cons,
    stderrOf_cons (.err s!"    {place.rule.expression}"), stderrOf_err,
    stderrOf_err, stderrOf_err]
  simp only [String.append_assoc]
  rfl

theorem visibleAt_of_refused {rule : Rule} {error : ParseError} {index : Nat}
    (refused : rule.compiled = .error error)
    (located : error.index? = some index) :
    VisibleAt rule.expression.toList index := by
  have accurate := Sentence.Progress.accurate_of_read
    (Sentence.Progress.reached_start rule.expression)
    (Expression.sentence_error_of_ofSource rule.kind refused)
  rcases accurate.visibleAt with rfl | ⟨other, same, visible⟩
  · cases located
  · cases same.symm.trans located
    exact visible

theorem toList_indented_caretLine {source : String}
    {before text after : List Char} {index : Nat}
    (stands : Stands source.toList before text after index) :
    ("    " ++ caretLine source index).toList =
      List.replicate (indentation ++ before).length ' ' ++ ['^'] := by
  rw [String.toList_append, toList_caretLine stands, List.length_append,
    List.replicate_add, List.append_assoc]
  rfl

/-- The text that a run writes on the standard error shows the expression,
whatever its lines are, and the caret. -/
theorem GetsTo.showsCaret (gets : GetsTo system arguments place)
    {error : ParseError} {index : Nat}
    (refused : place.rule.compiled = .error error)
    (located : error.index? = some index) {earlier above : List Char}
    (split : earlier ++ above = indentation ++ place.rule.expression.toList)
    (ends : EndsLine earlier) (aboveLine : '\n' ∉ above) :
    ShowsCaret (run system arguments).stderr.toList
      (headline place error).toList place.rule.expression.toList above
      ("    " ++ caretLine place.rule.expression index).toList where
  lines := by
    obtain ⟨front, back, frontEnds, text⟩ :=
      gets.exists_stderr_eq refused located
    refine ⟨front.toList, earlier, back.toList, ?_, frontEnds, ends, split⟩
    rw [text, split]
    simp [indentation]
  aboveLine := aboveLine
  caretLine := by
    obtain ⟨before, c, after, stands, -⟩ := visibleAt_of_refused refused located
    rw [toList_indented_caretLine stands]
    simp

/-- Where a rule does not compile because of something in its expression, the
run shows the expression, and in the next line a caret.  In front of it stand as
many blanks as there are characters in front of the fault, and those of the
indentation.  The line right above the caret shows the fault in that column
exactly if no line break stands in the expression. -/
theorem caret_under_fault_iff (gets : GetsTo system arguments place)
    {error : ParseError} {index : Nat}
    (refused : place.rule.compiled = .error error)
    (located : error.index? = some index) :
    ∃ above caret,
      ShowsCaret (run system arguments).stderr.toList
        (headline place error).toList place.rule.expression.toList above caret ∧
      (∃ before c after,
        Stands place.rule.expression.toList before [c] after index ∧
        CharClass.of c ≠ .whitespace ∧
        caret = List.replicate (indentation ++ before).length ' ' ++ ['^']) ∧
      (PointsAt place.rule.expression.toList index above caret ↔
        '\n' ∉ place.rule.expression.toList) := by
  obtain ⟨before, c, after, stands, visible⟩ :=
    visibleAt_of_refused refused located
  have caret_eq := toList_indented_caretLine stands
  obtain ⟨earlier, above, split, ends, aboveLine⟩ :=
    exists_last_line (indentation ++ place.rule.expression.toList)
  refine ⟨above, _, gets.showsCaret refused located split.symm ends aboveLine,
    ⟨before, c, after, stands, visible, caret_eq⟩, ?_⟩
  exact pointsAt_iff stands caret_eq split.symm ends aboveLine

theorem exists_getsTo {file : String} {rule : Rule}
    (collected : collect system arguments.paths = .ok [file])
    (noValues : arguments.vars = none)
    (loads : (loadDocument system file).map RuleDocument.rules = .ok [rule]) :
    ∃ values, GetsTo system arguments ⟨file, values, rule⟩ := by
  obtain ⟨document, loaded, rules⟩ := map_eq_ok_iff.mp loads
  have replaces : Replaces system arguments.vars ∅ := noValues ▸ .none
  refine ⟨document.valuesWith ∅, @GetsTo.rule _ _ [] [] file [] document ∅ _
    collected replaces .nil (loadDocument_eq_ok_iff.mp loaded) ?_⟩
  simp [RuleDocument.placesAt, rules]

/-- A directory with one document, in which there is one rule. -/
def singleRule (expression : String) : FileTree :=
  .directory
    [("d.json", .file (
      "\x7b\"rules\": [\x7b\"name\": \"r\", \"kind\": \"integer\", " ++
      "\"expression\": \"" ++ expression ++ "\"\x7d]\x7d").toUTF8)]

def singleArguments : Arguments where
  paths := ["d.json"]

/-- In front of the lone `&` stand seven bytes in three characters. -/
theorem caret_under_fault_not_ascii :
    ∃ (place : RuleAt) (above caret : List Char),
      place.rule.expression = "名字 & 2" ∧
      GetsTo ((singleRule "名字 & 2").system []) singleArguments place ∧
      place.rule.compiled = .error (.ambiguousOperator 7 '&' "&&") ∧
      PointsAt "名字 & 2".toList 7 above caret := by
  have collected : collect ((singleRule "名字 & 2").system [])
      singleArguments.paths = .ok ["d.json"] := by decide +kernel
  have loads : (loadDocument ((singleRule "名字 & 2").system []) "d.json").map
      RuleDocument.rules =
        .ok [{ name := "r", kind := .integer, expression := "名字 & 2" }] := by
    decide +kernel
  obtain ⟨values, gets⟩ := exists_getsTo collected rfl loads
  have refused : Sentence.ofSource "名字 & 2" =
      .error (.ambiguousOperator 7 '&' "&&") := by decide +kernel
  have notCompiled := Expression.ofSource_of_sentence_error .integer refused
  have oneLine : '\n' ∉ "名字 & 2".toList := by decide
  obtain ⟨above, caret, -, -, pointed⟩ :=
    caret_under_fault_iff gets notCompiled rfl
  exact ⟨_, above, caret, rfl, gets, notCompiled, pointed.mpr oneLine⟩

/-- The fault in `1 +` and `2 3` on two lines is the `3`, which stands in the
third column of the second line; the caret stands in the eleventh. -/
theorem caret_astray_behind_line_break :
    ∃ place : RuleAt,
      GetsTo ((singleRule "1 +\\n2 3").system []) singleArguments place ∧
      place.rule.expression = "1 +\n2 3" ∧
      place.rule.compiled = .error (.missingBinaryOperator 6 "3") ∧
      ShowsCaret
        (run ((singleRule "1 +\\n2 3").system []) singleArguments).stderr.toList
        "[ERROR] d.json: r: 索引 6 处的 `3` 之前缺少二元运算符".toList
        "1 +\n2 3".toList "2 3".toList "          ^".toList ∧
      PointsAt "1 +\n2 3".toList 6 "2 3".toList "  ^".toList ∧
      ¬PointsAt "1 +\n2 3".toList 6 "2 3".toList "          ^".toList := by
  have collected : collect ((singleRule "1 +\\n2 3").system [])
      singleArguments.paths = .ok ["d.json"] := by decide +kernel
  have loads : (loadDocument ((singleRule "1 +\\n2 3").system []) "d.json").map
      RuleDocument.rules =
        .ok [{ name := "r", kind := .integer, expression := "1 +\n2 3" }] := by
    decide +kernel
  obtain ⟨values, gets⟩ := exists_getsTo collected rfl loads
  have refused : Sentence.ofSource "1 +\n2 3" =
      .error (.missingBinaryOperator 6 "3") := by decide +kernel
  have notCompiled := Expression.ofSource_of_sentence_error .integer refused
  have split : "    1 +\n".toList ++ "2 3".toList =
      indentation ++ "1 +\n2 3".toList := by decide
  have ends : EndsLine "    1 +\n".toList := .break "    1 +".toList
  have shows := gets.showsCaret notCompiled rfl split ends (by decide)
  have caret : "    " ++ caretLine "1 +\n2 3" 6 = "          ^" := by
    decide +kernel
  rw [caret] at shows
  refine ⟨_, gets, rfl, notCompiled, shows, ?_, ?_⟩
  · exact ⟨"1 +\n2 ".toList, '3', [], "    1 +\n".toList, "2 ".toList,
      ⟨rfl, rfl⟩, rfl, rfl, rfl⟩
  · rintro ⟨-, c, after, -, shown, -, -, line, caret⟩
    have columns := congrArg List.length caret
    have short := congrArg List.length line
    simp at columns short
    omega

end RuleFiles

end Formula
