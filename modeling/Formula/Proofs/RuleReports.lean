import Formula.Proofs.Arithmetic
import Formula.Proofs.CachedExpressions
import Formula.Rules.Report

/-!
# Reports on rules

The rules of a document are checked one after another with two caches that they
share.  Since the caches are not seen, the report on a rule is a function of the
rule, the values and the options alone, and whether a rule fails does not depend
on the options either.
-/

namespace Formula

namespace Rule

/-- The expression of a rule, compiled for this rule alone. -/
def compiled (rule : Rule) : Except ParseError (Expression rule.kind) :=
  Expression.ofSource rule.kind rule.expression

/-- A rule fails if its formula does not compile, or if a value is expected that
the formula does not have. -/
def fails (rule : Rule) (values : Valuation) : Bool :=
  match rule.compiled with
  | .error _ => true
  | .ok expression =>
    rule.expect.any fun expected =>
      decide (expected ≠ Value.of rule.kind (expression.evaluator values))

/-- A report says of its rule what is true of it, and shows what the options ask
for. -/
structure Accounts (rule : Rule) (options : CheckOptions) (values : Valuation)
    (report : RuleReport) : Prop where
  name : report.name = rule.name
  expression : report.expression = rule.expression
  failure : report.isFailure = true ↔
    (∃ error, rule.compiled = .error error) ∨
    ∃ expression expected, rule.compiled = .ok expression ∧
      rule.expect = some expected ∧
      expected ≠ Value.of rule.kind (expression.evaluator values)
  /-- A value of the other type is never the right one. -/
  otherType : ∀ expected ∈ rule.expect, expected.type ≠ rule.kind →
    report.isFailure = true
  invalid : ∀ error, rule.compiled = .error error →
    report.verdict = .invalid error
  passed : ∀ names shown, report.verdict = .passed names shown →
    ∃ expression, rule.compiled = .ok expression ∧ names = expression.names ∧
      (shown.isSome = true ↔
        options.evaluate = true ∨ rule.expect.isSome = true) ∧
      ∀ value ∈ shown,
        value = Value.of rule.kind (expression.evaluator values)
  mismatch : ∀ expected actual, report.verdict = .mismatch expected actual →
    ∃ expression, rule.compiled = .ok expression ∧
      rule.expect = some expected ∧
      actual = Value.of rule.kind (expression.evaluator values)
  program : ∀ text, report.program = some text ↔
    options.dump = true ∧
      ∃ expression, rule.compiled = .ok expression ∧
        text = expression.program.text

variable {rule : Rule} {options : CheckOptions} {values : Valuation}

theorem isFailure_report (rule : Rule) (options : CheckOptions)
    (values : Valuation) :
    (rule.report options values rule.compiled).isFailure =
      rule.fails values := by
  unfold fails
  cases rule.compiled with
  | error error => rfl
  | ok expression =>
      unfold report Expression.verdict RuleReport.isFailure
      cases rule.expect with
      | none => rfl
      | some expected =>
          by_cases same :
              expected = Value.of rule.kind (expression.evaluator values) <;>
            simp [same]

theorem fails_iff :
    rule.fails values = true ↔
      (∃ error, rule.compiled = .error error) ∨
      ∃ expression expected, rule.compiled = .ok expression ∧
        rule.expect = some expected ∧
        expected ≠ Value.of rule.kind (expression.evaluator values) := by
  unfold fails
  cases rule.compiled with
  | error error => simp
  | ok expression => simp [Option.any_eq_true]

/-- What a report can say about a rule. -/
inductive Judges (rule : Rule) (options : CheckOptions) (values : Valuation) :
    Verdict → Prop
  | refused {error : ParseError} (refuses : rule.compiled = .error error) :
    Judges rule options values (.invalid error)
  | unasked {expression : Expression rule.kind}
    (compiles : rule.compiled = .ok expression) (free : rule.expect = none) :
    Judges rule options values
      (.passed expression.names
        (if options.evaluate then
          some (Value.of rule.kind (expression.evaluator values))
        else none))
  | met {expression : Expression rule.kind} {value : Value}
    (compiles : rule.compiled = .ok expression)
    (expects : rule.expect = some value)
    (same : value = Value.of rule.kind (expression.evaluator values)) :
    Judges rule options values (.passed expression.names (some value))
  | missed {expression : Expression rule.kind} {expected : Value}
    (compiles : rule.compiled = .ok expression)
    (expects : rule.expect = some expected) :
    Judges rule options values
      (.mismatch expected (Value.of rule.kind (expression.evaluator values)))

theorem judges_report (rule : Rule) (options : CheckOptions)
    (values : Valuation) :
    rule.Judges options values
      (rule.report options values rule.compiled).verdict := by
  cases compiles : rule.compiled with
  | error error => exact .refused compiles
  | ok expression =>
      simp only [report, Expression.verdict]
      cases expects : rule.expect with
      | none => exact .unasked compiles expects
      | some expected =>
          by_cases same :
              expected = Value.of rule.kind (expression.evaluator values)
          · simp only [if_pos same]
            rw [← same]
            exact .met compiles expects same
          · simp only [if_neg same]
            exact .missed compiles expects

theorem accounts_report (rule : Rule) (options : CheckOptions)
    (values : Valuation) :
    rule.Accounts options values
      (rule.report options values rule.compiled) where
  name := by
    cases rule.compiled <;> rfl
  expression := by
    cases rule.compiled <;> rfl
  failure := by
    rw [isFailure_report, fails_iff]
  otherType := by
    intro expected expects different
    rw [isFailure_report, fails_iff]
    cases compiles : rule.compiled with
    | error error => exact .inl ⟨error, rfl⟩
    | ok expression =>
        refine .inr ⟨expression, expected, rfl, expects, ?_⟩
        rintro rfl
        exact different (Value.type_of _ _)
  invalid := by
    intro error refused
    rw [refused]
    rfl
  passed := by
    intro names shown passed
    have judged := rule.judges_report options values
    rw [passed] at judged
    cases judged with
    | unasked compiles free =>
        refine ⟨_, compiles, rfl, ?_⟩
        rw [free]
        cases options.evaluate <;> simp
    | met compiles expects same =>
        refine ⟨_, compiles, rfl, ?_⟩
        rw [expects]
        simp [same]
  mismatch := by
    intro expected actual mismatched
    have judged := rule.judges_report options values
    rw [mismatched] at judged
    cases judged with
    | missed compiles expects => exact ⟨_, compiles, expects, rfl⟩
  program := by
    intro text
    cases rule.compiled with
    | error error => simp [report]
    | ok expression =>
        cases dumped : options.dump with
        | false => simp [report, dumped]
        | true =>
            rw [report, dumped, if_pos rfl, Option.some.injEq]
            constructor
            · rintro rfl
              exact ⟨rfl, expression, rfl, rfl⟩
            · rintro ⟨-, other, compiles, rfl⟩
              rw [Except.ok.inj compiles]

end Rule

namespace RuleCaches

variable {config : CacheConfig} {caches : RuleCaches}

/-- Both caches are faithful. -/
def AreFaithful (config : CacheConfig) (caches : RuleCaches) : Prop :=
  ∀ type, ExpressionCache.IsFaithful config (caches.get type)

namespace AreFaithful

theorem empty (config : CacheConfig) : AreFaithful config (.empty config) := by
  intro type
  cases type <;> exact .empty _ config

theorem set (faithful : AreFaithful config caches) {type : ValueType}
    {cache : ExpressionCache type}
    (cacheFaithful : ExpressionCache.IsFaithful config cache) :
    AreFaithful config (caches.set type cache) := by
  intro other
  by_cases same : other = type
  · subst other
    rw [PerType.get_set_self]
    exact cacheFaithful
  · rw [PerType.get_set_of_ne caches cache same]
    exact faithful other

/-- The report on a rule is the one on the rule alone. -/
theorem check (faithful : AreFaithful config caches) (options : CheckOptions)
    (values : Valuation) (rule : Rule) :
    (caches.check options values rule).1 =
        rule.report options values rule.compiled ∧
      AreFaithful config (caches.check options values rule).2.1 := by
  have cacheFaithful := faithful rule.kind
  refine ⟨?_, faithful.set (cacheFaithful.getOrCompile rule.expression)⟩
  exact congrArg (rule.report options values)
    (cacheFaithful.answer rule.expression)

theorem checkAll (faithful : AreFaithful config caches) (options : CheckOptions)
    (values : Valuation) (rules : List Rule) :
    (caches.checkAll options values rules).1.map Prod.fst =
      rules.map fun rule => rule.report options values rule.compiled := by
  induction rules generalizing caches with
  | nil => rfl
  | cons rule rest induction =>
      obtain ⟨same, after⟩ := faithful.check options values rule
      rw [RuleCaches.checkAll, List.map_cons, List.map_cons]
      exact congrArg₂ List.cons same (induction after)

end AreFaithful

end RuleCaches

namespace RuleDocument

/-- The reports on the rules of a document. -/
def reports (document : RuleDocument) (options : CheckOptions)
    (values : Valuation) : List RuleReport :=
  ((RuleCaches.empty document.cacheConfig).checkAll options values
    document.rules).1.map Prod.fst

theorem reports_eq_map (document : RuleDocument) (options : CheckOptions)
    (values : Valuation) :
    document.reports options values =
      document.rules.map fun rule =>
        rule.report options values rule.compiled :=
  (RuleCaches.AreFaithful.empty document.cacheConfig).checkAll options values
    document.rules

/-- There is one report for each rule, in order, which accounts for its rule.
Where any document, with rules of its own and a configuration of its own, has
the same rule, the report is the same, and under other options it is a failure
there exactly if it is one here. -/
theorem reports_independent (document : RuleDocument) (options : CheckOptions)
    (values : Valuation) :
    List.Forall₂ (fun rule report => rule.Accounts options values report)
      document.rules (document.reports options values) ∧
    ∀ (other : RuleDocument) (i j : Nat),
      document.rules[i]? = other.rules[j]? →
      (document.reports options values)[i]? =
        (other.reports options values)[j]? ∧
      ∀ otherOptions : CheckOptions,
        (document.reports options values)[i]?.map RuleReport.isFailure =
          (other.reports otherOptions values)[j]?.map RuleReport.isFailure := by
  simp only [reports_eq_map]
  refine ⟨?_, ?_⟩
  · rw [List.forall₂_map_right_iff]
    apply List.forall₂_same.mpr
    intro rule member
    exact rule.accounts_report options values
  · intro other i j same
    simp only [List.getElem?_map, same, Option.map_map, true_and]
    intro otherOptions
    congr 1
    funext rule
    exact (rule.isFailure_report options values).trans
      (rule.isFailure_report otherOptions values).symm

end RuleDocument

end Formula
