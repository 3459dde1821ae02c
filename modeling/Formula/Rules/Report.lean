import Formula.Cache.Expressions
import Formula.Rules.Document

/-!
# Checking rules

Every rule of a document is compiled, evaluated if that is asked for or if a
value is expected, and reported.  The rules of one document share a cache for
each type.
-/

namespace Formula

/-- How a rule fares. -/
inductive Verdict where
  | passed (names : List String) (value : Option Value)
  | invalid (error : ParseError)
  | mismatch (expected actual : Value)
  deriving DecidableEq

structure RuleReport where
  name : String
  expression : String
  verdict : Verdict
  /-- The listing of the program, if it is asked for. -/
  program : Option String := none
  deriving DecidableEq

def RuleReport.isFailure (report : RuleReport) : Bool :=
  match report.verdict with
  | .passed .. => false
  | .invalid _ | .mismatch .. => true

/-- What a check shows of rules that compile. -/
structure CheckOptions where
  evaluate : Bool := false
  dump : Bool := false
  deriving DecidableEq

/-- The verdict on a rule whose formula has been compiled. -/
def Expression.verdict {type : ValueType} (expression : Expression type)
    (options : CheckOptions)
    (expect : Option Value) (values : Valuation) : Verdict :=
  let value := Value.of type (expression.evaluator values)
  match expect with
  | some expected =>
    if expected = value then .passed expression.names (some value)
    else .mismatch expected value
  | none =>
    .passed expression.names (if options.evaluate then some value else none)

/-- The report on a rule, given what compiling its formula has led to. -/
def Rule.report (rule : Rule) (options : CheckOptions) (values : Valuation) :
    Except ParseError (Expression rule.kind) → RuleReport
  | .error error =>
    { name := rule.name, expression := rule.expression,
      verdict := .invalid error }
  | .ok expression =>
    { name := rule.name
      expression := rule.expression
      verdict := expression.verdict options rule.expect values
      program := if options.dump then some expression.program.text else none }

/-- The caches that the rules of one document share. -/
abbrev RuleCaches := PerType ExpressionCache

namespace RuleCaches

def empty (config : CacheConfig) : RuleCaches :=
  ⟨Cache.empty config, Cache.empty config⟩

/-- The report on a rule, the caches after it, and what was logged. -/
def check (caches : RuleCaches) (options : CheckOptions) (values : Valuation)
    (rule : Rule) : RuleReport × RuleCaches × List Event :=
  let outcome :=
    ExpressionCache.getOrCompile (caches.get rule.kind) rule.expression
  (rule.report options values outcome.answer,
    caches.set rule.kind outcome.cache, outcome.events)

/-- The reports on rules, in order, each with what was logged before it. -/
def checkAll (caches : RuleCaches) (options : CheckOptions)
    (values : Valuation) :
    List Rule → List (RuleReport × List Event) × RuleCaches
  | [] => ([], caches)
  | rule :: rest =>
    let (report, after, events) := check caches options values rule
    let (reports, last) := checkAll after options values rest
    ((report, events) :: reports, last)

def summary (caches : RuleCaches) : String :=
  s!"integer {caches.integer.stats.summary}; " ++
    s!"boolean {caches.boolean.stats.summary}"

end RuleCaches

/-- A caret under the character at an offset; under the first one if no
character is there. -/
def caretLine (source : String) (index : Nat) : String :=
  let column := ((charactersBefore? source.toList index).getD []).length
  String.ofList (List.replicate column ' ' ++ ['^'])

end Formula
