import Formula.Proofs.FileLoading
import Formula.Proofs.ReportLines

/-!
# Runs of the checker

`Course` says once what a run can do: it stops at a path that leads nowhere, has
nothing to check, stops at values or at a document that do not load, or checks
all documents and ends with a summary.  The exit code, and what is reported, are
read off from it.
-/

namespace Formula

/-- The rules of documents at their paths, in order. -/
def placesIn (replacements : VariableTable)
    (documents : List (String × RuleDocument)) : List RuleAt :=
  documents.flatMap fun (file, document) => document.placesAt replacements file

theorem placesIn_cons (replacements : VariableTable) (file : String)
    (document : RuleDocument) (documents : List (String × RuleDocument)) :
    placesIn replacements ((file, document) :: documents) =
      document.placesAt replacements file ++ placesIn replacements documents :=
  List.flatMap_cons

namespace RuleFiles

variable {system : FileSystem} {arguments : Arguments}
  {replacements : VariableTable} {front files : List String}
  {documents : List RuleDocument}

theorem checkFiles_append (arguments : Arguments)
    (replacements : VariableTable)
    (loaded : List.Forall₂ (Holds system) front documents)
    (back : List String) :
    visible (checkFiles system arguments replacements (front ++ back)).1 =
      written arguments.options (placesIn replacements (front.zip documents)) ++
        visible (checkFiles system arguments replacements back).1 ∧
    (checkFiles system arguments replacements (front ++ back)).2 =
      (checkFiles system arguments replacements back).2.map
        ((placesIn replacements (front.zip documents)).map
          (RuleAt.report · arguments.options) ++ ·) := by
  induction loaded with
  | nil =>
      refine ⟨rfl, ?_⟩
      rw [List.nil_append]
      cases (checkFiles system arguments replacements back).2 <;> rfl
  | @cons file document front documents holds loaded induction =>
      obtain ⟨shown, reported⟩ := induction
      obtain ⟨reports, lines⟩ :=
        checkDocument_eq arguments replacements file document
      rw [List.cons_append, List.zip_cons_cons, placesIn_cons, checkFiles,
        loadDocument_eq_ok_iff.mpr holds]
      simp only [visible_append, lines, shown, reported, reports]
      constructor
      · rw [written, written, written, List.flatMap_append, List.append_assoc]
      · cases (checkFiles system arguments replacements back).2 with
        | error failure => rfl
        | ok reports =>
          simp only [Except.map, List.map_append, List.append_assoc]

/-- The line that says how many documents are going to be checked. -/
def opening (documents : Nat) : Output :=
  .err s!"==> 检查 {documents} 个规则文档...\n"

/-- Once values are loaded for paths that have been collected, the documents
decide how a run ends. -/
theorem run_eq (collected : collect system arguments.paths = .ok files)
    (found : files ≠ [])
    (replaces : Replaces system arguments.vars replacements) :
    run system arguments =
      match (checkFiles system arguments replacements files).2 with
      | .error failure =>
        { output := opening files.length ::
            (checkFiles system arguments replacements files).1
          failure := some failure }
      | .ok reports =>
        { output := opening files.length ::
            (checkFiles system arguments replacements files).1 ++
            summaryLines files.length reports.length
              (reports.countP RuleReport.isFailure)
          failure :=
            if 0 < reports.countP RuleReport.isFailure then some .rulesFailed
            else none } := by
  cases files with
  | nil => exact absurd rfl found
  | cons file rest =>
      unfold run
      rw [collected]
      simp only [loadVariables_eq_ok_iff.mpr replaces]
      rfl

theorem visible_opening (documents : Nat) (output : List Output) :
    visible (opening documents :: output) =
      opening documents :: visible output :=
  rfl

end RuleFiles

end Formula
