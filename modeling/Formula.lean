import Formula.Main
import Formula.Proofs.Arithmetic
import Formula.Proofs.StackMachine
import Formula.Proofs.Tree
import Formula.Proofs.Grammar
import Formula.Proofs.Ordering
import Formula.Proofs.Compilation
import Formula.Proofs.Spelling
import Formula.Proofs.Cutting
import Formula.Proofs.Layout
import Formula.Proofs.Building
import Formula.Proofs.Continuation
import Formula.Proofs.Parentheses
import Formula.Proofs.Diagnosis
import Formula.Proofs.Names
import Formula.Proofs.Composition
import Formula.Proofs.Nesting
import Formula.Proofs.ResultTypes
import Formula.Proofs.NegativeLiterals
import Formula.Proofs.FirstFault
import Formula.Proofs.RepeatedScanning
import Formula.Proofs.CacheRun
import Formula.Proofs.HeldValues
import Formula.Proofs.CacheAccounts
import Formula.Proofs.EventLog
import Formula.Proofs.SharedCaches
import Formula.Proofs.WrittenExpressions
import Formula.Proofs.WrittenPrograms
import Formula.Proofs.Listings
import Formula.Proofs.RuleReports
import Formula.Proofs.RuleCounts
import Formula.Proofs.FileLoading
import Formula.Proofs.CheckRun
import Formula.Proofs.ExitCode
import Formula.Proofs.SeparateRuns
import Formula.Proofs.Reordering
import Formula.Proofs.CollectedFiles
import Formula.Proofs.CaretLines
