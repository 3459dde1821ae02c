import Formula.Proofs.CacheAccounts
import Formula.Proofs.CachedExpressions
import Formula.Proofs.Compilation

/-!
# Calls for expressions

A call for an expression ends in one of four ways, and each of them says what is
answered, what becomes of the cache, and what is logged.  Whenever a source is
compiled, the result is logged once.
-/

namespace Formula

namespace Expression

variable {type : ValueType} {source : String}

/-- What is logged when a source is compiled: the numbers of names and of
instructions, or the error. -/
def report (type : ValueType) (source : String) : Event :=
  match ofSource type source with
  | .ok expression =>
    .compiled source type expression.names.length
      expression.program.instructions.length
  | .error error => .notCompiled source error

theorem report_ok {expression : Expression type}
    (compiles : ofSource type source = .ok expression) :
    report type source =
      .compiled source type expression.names.length
        expression.program.instructions.length := by
  rw [report, compiles]

theorem report_error {error : ParseError}
    (refused : ofSource type source = .error error) :
    report type source = .notCompiled source error := by
  rw [report, refused]

theorem events_compile_ok {expression : Expression type}
    (compiles : ofSource type source = .ok expression) :
    (compile type source).2 = [report type source] := by
  rw [report_ok compiles]
  -- of the ways through `compile` one alone ends with an expression
  unfold ofSource compile at compiles
  unfold compile
  split at compiles
  · cases compiles
  · split at compiles
    · cases compiles
    · split at compiles
      · cases compiles
      · cases compiles
        rfl

/-- Each compilation is logged once, since what has been built never fails to
compile later. -/
theorem compile_eq (type : ValueType) (source : String) :
    compile type source = (ofSource type source, [report type source]) := by
  apply Prod.ext
  · rfl
  · cases valid : Sentence.ofSource source with
    | ok sentence =>
        obtain ⟨-, tree, spells⟩ := Sentence.spells_of_ofSource valid
        obtain ⟨expression, compiles, -⟩ := ofSource_of_spells type valid spells
        exact events_compile_ok compiles
    | error error =>
        rw [report_error (ofSource_of_sentence_error type valid)]
        simp only [compile, Program.ofSource, valid]

end Expression

namespace ExpressionCache

variable {type : ValueType} {config : CacheConfig}
  {cache : ExpressionCache type}
  {ledger : Ledger (Expression type)} {source : String}
  {expression : Expression type} {error : ParseError}

theorem getOrCompile_disabled (disabled : cache.config.enabled = false) :
    cache.getOrCompile source =
      { answer := Expression.ofSource type source
        cache := Cache.countMiss cache
        events := [Expression.report type source] } := by
  simp [getOrCompile, Cache.getOrCompute, disabled, Expression.compile_eq]

theorem getOrCompile_found (enabled : cache.config.enabled = true)
    (found : cache.get? source = some expression) :
    cache.getOrCompile source =
      { answer := .ok expression
        cache := Cache.countHit cache
        events := [.cacheHit source] } := by
  rw [Cache.get?] at found
  simp [getOrCompile, Cache.getOrCompute, enabled, found]

theorem getOrCompile_failed (enabled : cache.config.enabled = true)
    (absent : cache.get? source = none)
    (refused : Expression.ofSource type source = .error error) :
    cache.getOrCompile source =
      { answer := .error error
        cache := Cache.countMiss cache
        events := [.cacheMiss source, Expression.report type source] } := by
  rw [Cache.get?] at absent
  simp [getOrCompile, Cache.getOrCompute, enabled, absent,
    Expression.compile_eq, refused]

theorem getOrCompile_completed (enabled : cache.config.enabled = true)
    (absent : cache.get? source = none)
    (compiles : Expression.ofSource type source = .ok expression) :
    cache.getOrCompile source =
      { answer := .ok expression
        cache := ((Cache.countMiss cache).add source expression).1
        events :=
          .cacheMiss source :: Expression.report type source ::
            ((Cache.countMiss cache).add source expression).2 } := by
  have still : (Cache.countMiss cache).get? source = none := absent
  rw [Cache.get?] at absent
  simp [getOrCompile, Cache.getOrCompute, enabled, absent,
    Expression.compile_eq, compiles, Cache.keep_absent still]

/-! ## Counters -/

theorem counters_of_found (found : cache.finds source = true) :
    (cache.getOrCompile source).cache.hits = cache.hits + 1 ∧
      (cache.getOrCompile source).cache.misses = cache.misses := by
  obtain ⟨enabled, expression, held⟩ := Cache.finds_eq_true_iff.mp found
  rw [getOrCompile_found enabled held]
  exact ⟨rfl, rfl⟩

theorem counters_of_missing (keeps : Cache.Keeps config cache ledger)
    (missing : cache.finds source = false) :
    (cache.getOrCompile source).cache.hits = cache.hits ∧
      (cache.getOrCompile source).cache.misses = cache.misses + 1 := by
  cases enabled : cache.config.enabled with
  | false =>
      rw [getOrCompile_disabled enabled]
      exact ⟨rfl, rfl⟩
  | true =>
      have absent := Cache.get?_eq_none_of_missing enabled missing
      cases compiled : Expression.ofSource type source with
      | error error =>
          rw [getOrCompile_failed enabled absent compiled]
          exact ⟨rfl, rfl⟩
      | ok expression =>
          have inserts := keeps.countMiss.inserts absent expression
          rw [getOrCompile_completed enabled absent compiled]
          exact ⟨inserts.counters.1, inserts.counters.2.1⟩

end ExpressionCache

end Formula
