import Formula.Command.Run
import Formula.Proofs.RuleReports
import Mathlib.Data.List.Forall2

/-!
# What is written about rules

A rule of a document is reported by a headline, on the standard output if it
passes and on the standard error if it fails, and by indented lines below.  The
first character of a line tells which of the lines of a run it is.
-/

namespace Formula

namespace Output

def isLog : Output → Bool
  | .log .. => true
  | .out _ | .err _ => false

/-- The first character of a line that is not one of the log. -/
def mark? : Output → Option Char
  | .out line | .err line => line.toList.head?
  | .log .. => none

/-- The line reports on a rule, the verdict first. -/
def IsHeadline (file name expression : String) (failed : Bool)
    (line : Output) : Prop :=
  if failed then ∃ text, line = .err (s!"[ERROR] {file}: {name}: " ++ text)
  else ∃ text, line = .out (s!"[OK] {file}: {name} = `{expression}`" ++ text)

theorem isLog_eq_false {line : Output} {mark : Char}
    (marked : line.mark? = some mark) : line.isLog = false := by
  cases line with
  | log => cases marked
  | _ => rfl

theorem IsHeadline.mark? {file name expression : String} {failed : Bool}
    {line : Output} (headline : line.IsHeadline file name expression failed) :
    line.mark? = some '[' := by
  cases failed with
  | true =>
      obtain ⟨text, rfl⟩ := headline
      simp only [Output.mark?, String.toList_append, List.head?_append]
      rfl
  | false =>
      obtain ⟨text, rfl⟩ := headline
      simp only [Output.mark?, String.toList_append, List.head?_append]
      rfl

theorem mark?_indented (text : String) :
    (out s!"    {text}").mark? = some ' ' ∧
      (err s!"    {text}").mark? = some ' ' := by
  simp only [mark?, String.toList_append, List.head?_append]
  exact ⟨rfl, rfl⟩

end Output

/-- What is written apart from the log. -/
def visible (output : List Output) : List Output :=
  output.filter fun line => !line.isLog

theorem visible_append (front back : List Output) :
    visible (front ++ back) = visible front ++ visible back :=
  List.filter_append _ _

/-- The log says nothing where the texts of its lines are empty. -/
theorem join_map_visible {text : Output → String}
    (silent : ∀ message fields, text (.log message fields) = "")
    (output : List Output) :
    String.join ((visible output).map text) =
      String.join (output.map text) := by
  induction output with
  | nil => rfl
  | cons line output induction =>
      rw [List.map_cons, String.join_cons, ← induction]
      cases line with
      | log message fields =>
          rw [silent, String.empty_append]
          rfl
      | out | err => exact String.join_cons

theorem visible_eq_self {output : List Output}
    (marked : ∀ line ∈ output, line.mark?.isSome = true) :
    visible output = output := by
  apply List.filter_eq_self.mpr
  intro line member
  obtain ⟨mark, found⟩ := Option.isSome_iff_exists.mp (marked line member)
  rw [Output.isLog_eq_false found]
  rfl

namespace RuleDocument

/-- The value of every name of a document: a replacement if there is one, or
else the value that the document has for it. -/
def valuesWith (document : RuleDocument) (replacements : VariableTable) :
    Valuation := fun name =>
  (replacements[name]?.or document.values[name]?).getD 0

theorem valuation_union (document : RuleDocument)
    (replacements : VariableTable) :
    valuation (document.values ∪ replacements) =
      document.valuesWith replacements := by
  funext name
  simp only [valuation, ValueTable.value?, valuesWith,
    Std.TreeMap.getElem?_union]

end RuleDocument

/-- A rule of a document at a path, and the values of its names there. -/
structure RuleAt where
  file : String
  values : Valuation
  rule : Rule

namespace RuleAt

def fails (place : RuleAt) : Bool := place.rule.fails place.values

def report (place : RuleAt) (options : CheckOptions) : RuleReport :=
  place.rule.report options place.values place.rule.compiled

end RuleAt

/-- The rules of a document at a path, in order. -/
def RuleDocument.placesAt (document : RuleDocument)
    (replacements : VariableTable) (file : String) : List RuleAt :=
  document.rules.map fun rule =>
    { file, values := document.valuesWith replacements, rule }

def Arguments.options (arguments : Arguments) : CheckOptions where
  evaluate := arguments.evaluate
  dump := arguments.dump

namespace RuleFiles

/-- The lines that show a program. -/
def listing : Option String → List Output
  | some program => (lines program).map fun line => .out s!"    {line}"
  | none => []

theorem mark?_listing (program : Option String) :
    ∀ line ∈ listing program, line.mark? = some ' ' := by
  intro line member
  cases program with
  | none => cases member
  | some program =>
      obtain ⟨text, -, rfl⟩ := List.mem_map.mp member
      exact (Output.mark?_indented text).1

/-- A report is a headline and indented lines. -/
theorem reportLines_eq (file : String) (report : RuleReport) :
    ∃ headline details, reportLines file report = headline :: details ∧
      headline.IsHeadline file report.name report.expression report.isFailure ∧
      ∀ line ∈ details, line.mark? = some ' ' := by
  obtain ⟨name, expression, verdict, program⟩ := report
  have listed := mark?_listing program
  cases verdict with
  | passed names value =>
      refine ⟨_, listing program, rfl, ?_, listed⟩
      exact ⟨_, congrArg Output.out (String.append_assoc ..)⟩
  | invalid error =>
      cases place : error.index? with
      | none =>
          refine ⟨_, listing program, ?_, ⟨error.message, rfl⟩, listed⟩
          simp only [reportLines, place]
          rfl
      | some index =>
          refine ⟨_, .err s!"    {expression}" ::
            .err s!"    {caretLine expression index}" :: listing program, ?_,
            ⟨error.message, rfl⟩, ?_⟩
          · simp only [reportLines, place]
            rfl
          · rw [List.forall_mem_cons, List.forall_mem_cons]
            exact ⟨(Output.mark?_indented _).2, (Output.mark?_indented _).2,
              listed⟩
  | mismatch expected actual =>
      refine ⟨_, listing program, rfl,
        ⟨s!"期望 {expected.text}，实际 {actual.text}", ?_⟩, listed⟩
      simp only [toString, String.append_assoc]

theorem mark?_reportLines (file : String) (report : RuleReport) :
    ∀ line ∈ reportLines file report,
      line.mark? = some '[' ∨ line.mark? = some ' ' := by
  obtain ⟨headline, details, same, begins, indented⟩ :=
    reportLines_eq file report
  rw [same, List.forall_mem_cons]
  refine ⟨.inl begins.mark?, ?_⟩
  intro line member
  exact .inr (indented line member)

theorem visible_reportLines (file : String) (report : RuleReport) :
    visible (reportLines file report) = reportLines file report := by
  apply visible_eq_self
  intro line member
  rcases mark?_reportLines file report line member with marked | marked <;>
    rw [marked] <;> rfl

/-- What is written about rules. -/
def written (options : CheckOptions) (places : List RuleAt) : List Output :=
  places.flatMap fun place => reportLines place.file (place.report options)

theorem visible_logged (verbose : Bool) (events : List Event) :
    visible (if verbose then logLines events else []) = [] := by
  apply List.filter_eq_nil_iff.mpr
  intro line member
  cases verbose with
  | false => cases member
  | true =>
      obtain ⟨event, -, rfl⟩ := List.mem_map.mp member
      exact Bool.false_ne_true

variable (arguments : Arguments) (replacements : VariableTable) (file : String)
  (document : RuleDocument)

/-- A document leads to a report on each of its rules, and apart from the log
these are what is written about it. -/
theorem checkDocument_eq :
    (checkDocument arguments replacements file document).1 =
      (document.placesAt replacements file).map
        (RuleAt.report · arguments.options) ∧
    visible (checkDocument arguments replacements file document).2 =
      written arguments.options (document.placesAt replacements file) := by
  have ⟨reported, summary, checked, reports⟩ :
      ∃ (reported : List (RuleReport × List Event))
        (summary : List (String × String)),
        checkDocument arguments replacements file document =
          (reported.map Prod.fst,
            reported.flatMap (fun item =>
              (if arguments.verbose then logLines item.2 else []) ++
                reportLines file item.1) ++
              if arguments.verbose then [.log "文档检查完成" summary] else []) ∧
        reported.map Prod.fst =
          (document.placesAt replacements file).map
            (RuleAt.report · arguments.options) := by
    refine ⟨_, _, rfl, ?_⟩
    rw [RuleDocument.valuation_union, RuleDocument.placesAt, List.map_map]
    exact document.reports_eq_map arguments.options _
  rw [checked]
  refine ⟨reports, ?_⟩
  have noSummary :
      visible (if arguments.verbose then [.log "文档检查完成" summary] else []) =
        [] := by
    split <;> rfl
  have shown : ∀ item : RuleReport × List Event,
      visible ((if arguments.verbose then logLines item.2 else []) ++
        reportLines file item.1) = reportLines file item.1 := by
    intro item
    rw [visible_append, visible_logged, visible_reportLines, List.nil_append]
  calc
    _ = (reported.map Prod.fst).flatMap (reportLines file) := by
      rw [visible_append, noSummary, List.append_nil, visible,
        List.filter_flatMap, List.flatMap_map]
      exact congrArg (List.flatMap · reported) (funext shown)
    _ = written arguments.options (document.placesAt replacements file) := by
      rw [reports]
      simp only [written, RuleDocument.placesAt, List.flatMap_map]

end RuleFiles

end Formula
