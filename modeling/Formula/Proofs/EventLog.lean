import Formula.Proofs.CompilingCalls

/-!
# The log of a cache

The log of a cache that is enabled agrees with the cache.  There are as many
events of each sort as its counter has grown by, and each event is true of the
entries at its moment.  A call for an expression logs one compilation when the
cache misses, and none when it hits.
-/

namespace Formula

namespace Event

@[simp] def isHit : Event → Bool
  | .cacheHit _ => true
  | _ => false

@[simp] def isMiss : Event → Bool
  | .cacheMiss _ => true
  | _ => false

/-- The event is reported by a cache, and not while compiling. -/
def isOfCache (event : Event) : Bool :=
  event.isHit || event.isMiss || event.isEviction

end Event

namespace Moment

variable {V E : Type}

/-- What an event says of the moment at which it is reported: a hit names a key
that is held, a miss one that is not, and an eviction the oldest key, which is
gone afterwards. -/
def Confirms (moment : Moment V E) : Event → Prop
  | .cacheHit key => moment.cache.contains key = true
  | .cacheMiss key => moment.cache.contains key = false
  | .cacheEviction key =>
    moment.cache.keys.head? = some key ∧
      (moment.cache.act moment.action).1.contains key = false
  | .compiled .. | .notCompiled .. => False

/-- At most one event is reported, and what it says is true. -/
structure Truthful (moment : Moment V E) : Prop where
  single : moment.events.length ≤ 1
  confirmed : ∀ event ∈ moment.events, moment.Confirms event

theorem truthful_of_silent {moment : Moment V E} (silent : moment.events = []) :
    moment.Truthful := by
  constructor <;> simp [silent]

theorem truthful_of_single {moment : Moment V E} {event : Event}
    (single : moment.events = [event]) (confirmed : moment.Confirms event) :
    moment.Truthful := by
  constructor
  · rw [single, List.length_singleton]
  · rw [single, List.forall_mem_singleton]
    exact confirmed

theorem total_eq_countP {count : Moment V E → Nat} {sort : Event → Bool}
    {moments : List (Moment V E)}
    (each : ∀ moment ∈ moments, count moment = moment.events.countP sort) :
    total count moments = (moments.flatMap Moment.events).countP sort := by
  induction moments with
  | nil => rfl
  | cons moment moments induction =>
      obtain ⟨first, others⟩ := List.forall_mem_cons.mp each
      rw [total_cons, List.flatMap_cons, List.countP_append, first,
        induction others]

end Moment

namespace Cache

variable {V E : Type} {config : CacheConfig} {cache before after : Cache V}
  {ledger : Ledger V} {key : String} {value : V} {events : List Event}

/-! ## Single moments -/

theorem Inserts.events_cases (inserts : Inserts cache key value after events) :
    events = [] ∨ ∃ oldest, events = [.cacheEviction oldest] ∧
      cache.keys.head? = some oldest ∧ after.contains oldest = false := by
  cases inserts with
  | added => exact .inl rfl
  | @displaced oldest order _ _ waiting _ =>
      refine .inr ⟨oldest, rfl, ?_, ?_⟩
      · rw [keys, waiting]
        rfl
      · simp [contains]

/-- Only the end of a computation can evict an entry. -/
theorem Keeps.events_finish_cases (keeps : Keeps config cache ledger)
    (key : String) (ending : Except E V) :
    (cache.act (.finish key ending)).2 = [] ∨
      ∃ oldest, (cache.act (.finish key ending)).2 = [.cacheEviction oldest] ∧
        cache.keys.head? = some oldest ∧
        (cache.act (.finish key ending)).1.contains oldest = false := by
  cases ending with
  | error error => exact .inl rfl
  | ok value =>
      rw [Cache.act]
      split
      · cases found : cache.get? key with
        | some held =>
            rw [keep_present found]
            exact .inl rfl
        | none =>
            rw [keep_absent found]
            exact (keeps.inserts found value).events_cases
      · exact .inl rfl

theorem events_seek (cache : Cache V) (key : String) :
    (cache.act (.seek key : CacheAction V E)).2 =
      if cache.finds key then [.cacheHit key]
      else if cache.config.enabled then [.cacheMiss key] else [] := by
  rw [act]
  split <;> rfl

namespace Keeps

theorem truthful (keeps : Keeps config cache ledger)
    (action : CacheAction V E) :
    Moment.Truthful ⟨cache, action⟩ := by
  cases action with
  | seek key =>
      have reported : Moment.events (⟨cache, .seek key⟩ : Moment V E) = _ :=
        events_seek cache key
      cases found : cache.finds key with
      | true =>
          rw [found, if_pos rfl] at reported
          apply Moment.truthful_of_single reported
          exact (Bool.and_eq_true_iff.mp found).2
      | false =>
          rw [found, if_neg Bool.false_ne_true] at reported
          cases enabled : cache.config.enabled with
          | true =>
              rw [enabled, if_pos rfl] at reported
              apply Moment.truthful_of_single reported
              rw [finds, enabled, Bool.true_and] at found
              exact found
          | false =>
              rw [enabled, if_neg Bool.false_ne_true] at reported
              exact Moment.truthful_of_silent reported
  | finish key ending =>
      rcases keeps.events_finish_cases key ending with
        silent | ⟨oldest, reported, first, gone⟩
      · exact Moment.truthful_of_silent silent
      · exact Moment.truthful_of_single reported ⟨first, gone⟩
  | remove key => exact Moment.truthful_of_silent rfl
  | clear => exact Moment.truthful_of_silent rfl
  | resetStats => exact Moment.truthful_of_silent rfl

theorem counted_events (keeps : Keeps config cache ledger)
    (enabled : config.enabled = true) (action : CacheAction V E) :
    Moment.found ⟨cache, action⟩ = (cache.act action).2.countP Event.isHit ∧
      Moment.missed ⟨cache, action⟩ =
        (cache.act action).2.countP Event.isMiss := by
  cases action with
  | seek key =>
      rw [events_seek, keeps.configured, enabled]
      cases found : cache.finds key <;> simp [found]
  | finish key ending =>
      rcases keeps.events_finish_cases key ending with
        silent | ⟨oldest, reported, -⟩
      · rw [silent]
        exact ⟨rfl, rfl⟩
      · rw [reported]
        exact ⟨rfl, rfl⟩
  | remove key => exact ⟨rfl, rfl⟩
  | clear => exact ⟨rfl, rfl⟩
  | resetStats => exact ⟨rfl, rfl⟩

theorem silent (keeps : Keeps config cache ledger)
    (disabled : config.enabled = false) (action : CacheAction V E) :
    (cache.act action).2 = [] := by
  have isDisabled : cache.config.enabled = false := keeps.configured ▸ disabled
  cases action with
  | seek key =>
      rw [events_seek, finds_eq_false_of_disabled isDisabled, isDisabled]
      rfl
  | finish key ending => cases ending <;> simp [Cache.act, isDisabled]
  | remove key => rfl
  | clear => rfl
  | resetStats => rfl

theorem of_mem_moments (keeps : Keeps config cache ledger)
    (actions : List (CacheAction V E)) :
    ∀ moment ∈ cache.moments actions, ∃ later,
      Keeps config moment.cache later := by
  induction actions generalizing cache ledger with
  | nil => simp [moments]
  | cons action actions induction =>
      obtain ⟨middle, acted⟩ := keeps.act action
      rw [moments, List.forall_mem_cons]
      exact ⟨⟨ledger, keeps⟩, induction acted⟩

end Keeps

/-! ## Runs -/

/-- From one cache to another, each counter has grown by the number of events of
its sort. -/
structure Agrees (before after : Cache V) (events : List Event) : Prop where
  hits : after.hits = before.hits + .ofNat (events.countP Event.isHit)
  misses : after.misses = before.misses + .ofNat (events.countP Event.isMiss)
  evictions :
    after.evictions = before.evictions + .ofNat (events.countP Event.isEviction)

namespace Keeps

variable {steps : List (CacheStep V E)}

theorem truthful_history (keeps : Keeps config cache ledger) :
    ∀ moment ∈ cache.history steps, moment.Truthful := by
  intro moment member
  obtain ⟨later, kept⟩ := keeps.of_mem_moments _ moment member
  exact kept.truthful moment.action

theorem agrees (keeps : Keeps config cache ledger)
    (enabled : config.enabled = true)
    (counts : .resetStats ∉ cache.actionsAll steps) :
    Agrees cache (cache.runAll steps).cache (cache.runAll steps).events := by
  have accounted := keeps.accounted_perform _ counts
  have counted : ∀ moment ∈ cache.moments (cache.actionsAll steps),
      Moment.found moment = moment.events.countP Event.isHit ∧
        Moment.missed moment = moment.events.countP Event.isMiss := by
    intro moment member
    obtain ⟨later, kept⟩ := keeps.of_mem_moments _ moment member
    exact kept.counted_events enabled moment.action
  rw [← (Performs.runAll cache steps).leads] at accounted
  rw [(Performs.runAll cache steps).reports]
  constructor
  · rw [accounted.hits,
      Moment.total_eq_countP fun moment member => (counted moment member).1]
  · rw [accounted.misses,
      Moment.total_eq_countP fun moment member => (counted moment member).2]
  · have evicted : ∀ moment ∈ cache.moments (cache.actionsAll steps),
        Moment.evicted moment = moment.events.countP Event.isEviction :=
      fun _ _ => rfl
    rw [accounted.evictions, Moment.total_eq_countP evicted]

theorem events_of_disabled (keeps : Keeps config cache ledger)
    (disabled : config.enabled = false) : (cache.runAll steps).events = [] := by
  rw [(Performs.runAll cache steps).reports, List.flatMap_eq_nil_iff]
  intro moment member
  obtain ⟨later, kept⟩ := keeps.of_mem_moments _ moment member
  exact kept.silent disabled moment.action

end Keeps

end Cache

/-! ## Calls for expressions -/

namespace ExpressionCache

variable {type : ValueType} {config : CacheConfig}
  {cache : ExpressionCache type}
  {ledger : Ledger (Expression type)} {source : String}

/-- A call for an expression as a step of a run: the computation takes no steps
on the cache, and ends as the compilation does. -/
def step (type : ValueType) (source : String) :
    CacheStep (Expression type) ParseError :=
  .compute source [] (Expression.ofSource type source)

/-- What a call for an expression logs.  To the cache it is a step of a run, and
its log is that of the step but for the compilation. -/
structure Logs (cache : ExpressionCache type) (source : String) : Prop where
  hit : cache.finds source = true →
    (cache.getOrCompile source).cache.hits = cache.hits + 1 ∧
      (cache.getOrCompile source).cache.misses = cache.misses ∧
      (cache.getOrCompile source).events = [.cacheHit source]
  miss : cache.finds source = false →
    (cache.getOrCompile source).cache.hits = cache.hits ∧
      (cache.getOrCompile source).cache.misses = cache.misses + 1 ∧
      ∃ evictions, (∀ event ∈ evictions, event.isEviction = true) ∧
        (cache.getOrCompile source).events =
          (if cache.config.enabled then [.cacheMiss source] else []) ++
            Expression.report type source :: evictions
  disabled : cache.config.enabled = false →
    (cache.getOrCompile source).events = [Expression.report type source]
  step :
    (cache.getOrCompile source).cache = (cache.run (step type source)).cache ∧
      (cache.getOrCompile source).events.filter Event.isOfCache =
        (cache.run (step type source)).events

theorem isOfCache_report (type : ValueType) (source : String) :
    (Expression.report type source).isOfCache = false := by
  unfold Expression.report
  split <;> rfl

theorem filter_report {evictions : List Event}
    (evicts : ∀ event ∈ evictions, event.isEviction = true) (type : ValueType)
    (source : String) :
    (Expression.report type source :: evictions).filter Event.isOfCache =
      evictions := by
  rw [List.filter_cons_of_neg (by simp [isOfCache_report]), List.filter_eq_self]
  intro event member
  rw [Event.isOfCache, evicts event member, Bool.or_true]

theorem isEviction_of_mem_add (keeps : Cache.Keeps config cache ledger)
    (absent : cache.get? source = none) (expression : Expression type) :
    ∀ event ∈ (Cache.add cache source expression).2,
      event.isEviction = true := by
  rcases (keeps.inserts absent expression).events_cases with
    silent | ⟨oldest, reported, -⟩
  · simp [silent]
  · simp [reported]

theorem events_of_missing (keeps : Cache.Keeps config cache ledger)
    (missing : cache.finds source = false) :
    ∃ evictions, (∀ event ∈ evictions, event.isEviction = true) ∧
      (cache.getOrCompile source).events =
        (if cache.config.enabled then [.cacheMiss source] else []) ++
          Expression.report type source :: evictions := by
  cases enabled : cache.config.enabled with
  | false =>
      rw [getOrCompile_disabled enabled]
      exact ⟨[], List.forall_mem_nil _, rfl⟩
  | true =>
      have absent := Cache.get?_eq_none_of_missing enabled missing
      cases compiled : Expression.ofSource type source with
      | error error =>
          rw [getOrCompile_failed enabled absent compiled]
          exact ⟨[], List.forall_mem_nil _, rfl⟩
      | ok expression =>
          rw [getOrCompile_completed enabled absent compiled]
          exact ⟨_, isEviction_of_mem_add keeps.countMiss absent expression,
            rfl⟩

/-- To the cache, compiling is a computation that takes no steps. -/
theorem run_step (keeps : Cache.Keeps config cache ledger) (source : String) :
    (cache.getOrCompile source).cache = (cache.run (step type source)).cache ∧
      (cache.getOrCompile source).events.filter Event.isOfCache =
        (cache.run (step type source)).events := by
  -- a call that adds nothing has evicted nothing
  have nothing : ∀ event ∈ ([] : List Event), event.isEviction = true :=
    List.forall_mem_nil _
  cases enabled : cache.config.enabled with
  | false =>
      rw [getOrCompile_disabled enabled, step,
        Cache.run_compute_disabled enabled]
      exact ⟨rfl, filter_report nothing type source⟩
  | true =>
      cases found : cache.get? source with
      | some expression =>
          rw [getOrCompile_found enabled found, step,
            Cache.run_compute_found enabled found]
          exact ⟨rfl, rfl⟩
      | none =>
          cases compiled : Expression.ofSource type source with
          | error error =>
              rw [getOrCompile_failed enabled found compiled, step, compiled,
                Cache.run_compute_failed enabled found]
              exact ⟨rfl, congrArg (_ :: ·) (filter_report nothing type source)⟩
          | ok expression =>
              have still : (Cache.countMiss cache).get? source = none := found
              have evicts :=
                isEviction_of_mem_add keeps.countMiss still expression
              rw [getOrCompile_completed enabled found compiled, step, compiled,
                Cache.run_compute_completed enabled found, Cache.runAll,
                Cache.keep_absent still]
              exact ⟨rfl, congrArg (_ :: ·) (filter_report evicts type source)⟩

theorem logs (keeps : Cache.Keeps config cache ledger) (source : String) :
    Logs cache source where
  hit := by
    intro found
    obtain ⟨hits, misses⟩ := counters_of_found found
    obtain ⟨enabled, expression, held⟩ := Cache.finds_eq_true_iff.mp found
    refine ⟨hits, misses, ?_⟩
    rw [getOrCompile_found enabled held]
  miss := by
    intro missing
    obtain ⟨hits, misses⟩ := counters_of_missing keeps missing
    exact ⟨hits, misses, events_of_missing keeps missing⟩
  disabled := by
    intro disabled
    rw [getOrCompile_disabled disabled]
  step := run_step keeps source

end ExpressionCache

/-- The log of a run agrees with the cache, from wherever in an earlier run it
starts, and a cache that is not enabled reports nothing.  A call for an
expression logs one compilation, with its outcome, if the cache misses, and none
if it hits. -/
theorem log_agrees (config : CacheConfig) :
    (∀ {V E : Type} (earlier steps : List (CacheStep V E)) (start : Cache V),
      (Cache.empty config).Reaches earlier start →
      (start.runAll steps).events =
          (start.history steps).flatMap Moment.events ∧
        (∀ moment ∈ start.history steps, moment.Truthful) ∧
        (config.enabled = true → .resetStats ∉ start.actionsAll steps →
          start.Agrees (start.runAll steps).cache (start.runAll steps).events) ∧
        (config.enabled = false → (start.runAll steps).events = [])) ∧
    ∀ (type : ValueType) (earlier : List ExpressionCache.Call)
      (source : String),
      ExpressionCache.Logs
        (ExpressionCache.calls (Cache.empty config : ExpressionCache type)
          earlier).2
        source := by
  constructor
  · intro V E earlier steps start reached
    obtain ⟨ledger, keeps⟩ := (Cache.Keeps.empty config).reaches reached
    exact ⟨(Cache.Performs.runAll start steps).reports, keeps.truthful_history,
      keeps.agrees, keeps.events_of_disabled⟩
  · intro type earlier source
    obtain ⟨-, ledger, keeps, -⟩ :=
      (ExpressionCache.IsFaithful.empty type config).calls earlier
    exact ExpressionCache.logs keeps source

/-- While `a` is computed `b` comes in, and goes out when `a` does come in. -/
theorem log_agrees_nested :
    let start : Cache Nat := Cache.empty { maxEntries := 1 }
    let steps : List (CacheStep Nat String) :=
      [.compute "a" [.compute "b" [] (.ok 1)] (.ok 2), .compute "a" [] (.ok 3)]
    (start.runAll steps).events =
        [.cacheMiss "a", .cacheMiss "b", .cacheEviction "b", .cacheHit "a"] ∧
      start.Agrees (start.runAll steps).cache (start.runAll steps).events := by
  intro start steps
  have new : (Cache.empty { maxEntries := 1 }).Reaches
      ([] : List (CacheStep Nat String))
      start :=
    ⟨[], List.nil_prefix, rfl⟩
  obtain ⟨-, -, agrees, -⟩ :=
    (log_agrees { maxEntries := 1 }).1 [] steps start new
  exact ⟨by decide +kernel, agrees rfl (by decide +kernel)⟩

end Formula
