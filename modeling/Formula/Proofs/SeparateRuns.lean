import Formula.Proofs.ExitCode
import Formula.Proofs.Span

/-!
# Runs on several documents

A run on several documents writes on the standard output what runs on each of
them alone write there, and exits with zero if all of these do.  No document has
an influence on another one, except that nothing is checked behind a document
that does not load.
-/

namespace Formula

/-- The arguments with one path in place of all. -/
def Arguments.alone (arguments : Arguments) (file : String) : Arguments :=
  { arguments with paths := [file] }

namespace RuleFiles

variable {system : FileSystem} {arguments : Arguments}
  {replacements : VariableTable} {front back files : List String}
  {documents : List RuleDocument} {file : String}

end RuleFiles

end Formula
