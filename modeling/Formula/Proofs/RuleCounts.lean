import Formula.Proofs.CompilingCalls
import Formula.Proofs.RuleReports
import Mathlib.Data.Finset.Card
import Mathlib.Data.List.Induction

/-!
# What the caches of a document count

Each rule is one call on the cache of its type.  As long as nothing has to be
evicted, an expression is missed when it comes first and found whenever it comes
again, and an expression that does not compile is missed every time.  What the
counters show then depends on how often each expression occurs, but not on the
order of the rules.
-/

namespace Formula

def Expression.compiles (type : ValueType) (source : String) : Bool :=
  (ofSource type source).isOk

/-! ## Counting sources -/

section Counts

variable {type : ValueType} {front sources others : List String}
  {source : String}

/-- The sources that compile, each time that they occur. -/
def compiling (type : ValueType) (sources : List String) : List String :=
  sources.filter (Expression.compiles type)

/-- How many different sources compile. -/
def distinct (type : ValueType) (sources : List String) : Nat :=
  (compiling type sources).toFinset.card

/-- How often a source occurs that does not compile. -/
def refusals (type : ValueType) (sources : List String) : Nat :=
  sources.countP fun source => !Expression.compiles type source

theorem compiling_concat (type : ValueType) (front : List String)
    (source : String) :
    compiling type (front ++ [source]) =
      compiling type front ++
        if Expression.compiles type source then [source] else [] := by
  rw [compiling, List.filter_append, List.filter_singleton]
  cases Expression.compiles type source <;> rfl

theorem toFinset_compiling_concat
    (compiles : Expression.compiles type source = true) :
    (compiling type (front ++ [source])).toFinset =
      insert source (compiling type front).toFinset := by
  rw [compiling_concat, if_pos compiles, List.toFinset_append,
    Finset.union_comm]
  rfl

theorem distinct_concat_of_mem (present : source ∈ compiling type front) :
    distinct type (front ++ [source]) = distinct type front := by
  rw [distinct, toFinset_compiling_concat (List.mem_filter.mp present).2]
  exact Finset.card_insert_of_mem (List.mem_toFinset.mpr present)

theorem distinct_concat_of_notMem
    (compiles : Expression.compiles type source = true)
    (absent : source ∉ compiling type front) :
    distinct type (front ++ [source]) = distinct type front + 1 := by
  rw [distinct, toFinset_compiling_concat compiles]
  exact Finset.card_insert_of_notMem fun member =>
    absent (List.mem_toFinset.mp member)

theorem distinct_concat_of_refused
    (refused : Expression.compiles type source = false) :
    distinct type (front ++ [source]) = distinct type front := by
  rw [distinct, compiling_concat, refused, if_neg Bool.false_ne_true,
    List.append_nil]
  rfl

theorem mem_compiling_concat {key : String}
    (compiles : Expression.compiles type source = true) :
    key ∈ compiling type (front ++ [source]) ↔
      key ∈ compiling type front ∨ key = source := by
  rw [compiling_concat, if_pos compiles, List.mem_append, List.mem_singleton]

theorem distinct_le_concat (type : ValueType) (front : List String)
    (source : String) :
    distinct type front ≤ distinct type (front ++ [source]) := by
  apply Finset.card_le_card
  intro key member
  rw [compiling_concat, List.toFinset_append]
  exact Finset.mem_union_left _ member

theorem refusals_concat (type : ValueType) (front : List String)
    (source : String) :
    refusals type (front ++ [source]) =
      refusals type front +
        if Expression.compiles type source then 0 else 1 := by
  rw [refusals, List.countP_append, List.countP_singleton]
  cases Expression.compiles type source <;> rfl

theorem distinct_add_refusals_le (type : ValueType) (sources : List String) :
    distinct type sources + refusals type sources ≤ sources.length := by
  have few :
      distinct type sources ≤ sources.countP (Expression.compiles type) := by
    rw [List.countP_eq_length_filter]
    exact List.toFinset_card_le _
  have all :=
    List.length_eq_countP_add_countP (Expression.compiles type) (l := sources)
  simp only [Bool.not_eq_true, Bool.decide_eq_false] at all
  rw [refusals]
  omega

theorem distinct_perm (permuted : sources.Perm others) :
    distinct type sources = distinct type others := by
  rw [distinct, compiling, List.toFinset_eq_of_perm _ _ (permuted.filter _)]
  rfl

theorem refusals_perm (permuted : sources.Perm others) :
    refusals type sources = refusals type others :=
  permuted.countP_eq _

end Counts

theorem Expression.compiles_iff {type : ValueType} {source : String} :
    compiles type source = true ↔
      ∃ expression, ofSource type source = .ok expression := by
  unfold compiles
  cases ofSource type source <;> simp [Except.isOk, Except.toBool]

namespace ExpressionCache

variable {type : ValueType} {config : CacheConfig}
  {cache : ExpressionCache type}
  {ledger : Ledger (Expression type)} {front sources : List String}
  {source : String}

/-- The cache after calls for sources, one after another. -/
def compileAll (cache : ExpressionCache type) (sources : List String) :
    ExpressionCache type :=
  sources.foldl (fun cache source => (cache.getOrCompile source).cache) cache

theorem compileAll_concat (cache : ExpressionCache type) (front : List String)
    (source : String) :
    cache.compileAll (front ++ [source]) =
      ((cache.compileAll front).getOrCompile source).cache := by
  rw [compileAll, List.foldl_append]
  rfl

/-! ## Each call is counted -/

/-- Each of some calls has been counted, as a hit or as a miss. -/
def Counts (cache : ExpressionCache type) (calls : Nat) : Prop :=
  ∃ found missed, found + missed = calls ∧ cache.hits = .ofNat found ∧
    cache.misses = .ofNat missed

theorem Counts.getOrCompile {calls : Nat} (counts : Counts cache calls)
    (keeps : Cache.Keeps config cache ledger) (source : String) :
    Counts (cache.getOrCompile source).cache (calls + 1) := by
  obtain ⟨found, missed, all, hits, misses⟩ := counts
  cases finds : cache.finds source with
  | true =>
      obtain ⟨newHits, newMisses⟩ := counters_of_found finds
      refine ⟨found + 1, missed, by omega, ?_, newMisses.trans misses⟩
      rw [newHits, hits, UInt64.ofNat_add]
      rfl
  | false =>
      obtain ⟨newHits, newMisses⟩ := counters_of_missing keeps finds
      refine ⟨found, missed + 1, by omega, newHits.trans hits, ?_⟩
      rw [newMisses, misses, UInt64.ofNat_add]
      rfl

theorem Counts.compileAll {calls : Nat} (counts : Counts cache calls)
    (keeps : Cache.Keeps config cache ledger) (sources : List String) :
    Counts (cache.compileAll sources) (calls + sources.length) := by
  induction sources generalizing cache ledger calls with
  | nil => exact counts
  | cons source sources induction =>
      have later := induction (counts.getOrCompile keeps source)
        (keeps_getOrCompile keeps source)
      rw [List.length_cons, Nat.add_comm sources.length, ← Nat.add_assoc]
      exact later

/-! ## Caches that are not enabled -/

theorem compileAll_disabled (disabled : cache.config.enabled = false)
    (sources : List String) :
    (cache.compileAll sources).hits = cache.hits ∧
      (cache.compileAll sources).size = cache.size ∧
      (cache.compileAll sources).evictions = cache.evictions := by
  induction sources generalizing cache with
  | nil => exact ⟨rfl, rfl, rfl⟩
  | cons source sources induction =>
      have still : (Cache.countMiss cache).config.enabled = false := disabled
      rw [compileAll, List.foldl_cons, getOrCompile_disabled disabled]
      exact induction still

/-! ## Caches that are large enough -/

/-- Nothing has been evicted: the cache holds exactly the sources that have
compiled, and has missed each of them once.  A source that does not compile has
been missed whenever it came, and all other calls have been hits. -/
structure Settled (config : CacheConfig) (sources : List String)
    (cache : ExpressionCache type) : Prop where
  holds : ∃ ledger : Ledger (Expression type), Cache.Keeps config cache ledger ∧
    ∀ key, key ∈ ledger.keys ↔ key ∈ compiling type sources
  evictions : cache.evictions = 0
  misses : cache.misses = .ofNat (distinct type sources + refusals type sources)
  hits : cache.hits =
    .ofNat (sources.length - (distinct type sources + refusals type sources))

namespace Settled

theorem empty (type : ValueType) (config : CacheConfig) :
    Settled config [] (Cache.empty config : ExpressionCache type) where
  holds := ⟨[], .empty config, fun _ => Iff.rfl⟩
  evictions := rfl
  misses := rfl
  hits := rfl

theorem size (settled : Settled config sources cache) :
    cache.size = distinct type sources := by
  obtain ⟨ledger, keeps, same⟩ := settled.holds
  have length : cache.size = ledger.keys.length := by
    rw [Ledger.keys, List.length_map]
    exact keeps.lists.size
  rw [length, ← List.toFinset_card_of_nodup keeps.lists.distinct, distinct]
  congr 1
  ext key
  rw [List.mem_toFinset, List.mem_toFinset]
  exact same key

/-- A source that has compiled before is found. -/
theorem found (settled : Settled config front cache)
    (present : source ∈ compiling type front) :
    Settled config (front ++ [source]) (Cache.countHit cache) := by
  have few := distinct_add_refusals_le type front
  have compiles : Expression.compiles type source = true :=
    (List.mem_filter.mp present).2
  obtain ⟨⟨ledger, keeps, same⟩, evictions, misses, hits⟩ := settled
  have missed :
      distinct type (front ++ [source]) + refusals type (front ++ [source]) =
      distinct type front + refusals type front := by
    rw [distinct_concat_of_mem present, refusals_concat, if_pos compiles]
    rfl
  refine ⟨⟨ledger, keeps.countHit, ?_⟩, evictions, ?_, ?_⟩
  · intro key
    rw [same, mem_compiling_concat compiles]
    constructor
    · exact .inl
    · rintro (old | rfl)
      · exact old
      · exact present
  · rw [missed]
    exact misses
  · rw [missed, List.length_append, List.length_singleton, Nat.sub_add_comm few,
      UInt64.ofNat_add, ← hits]
    rfl

/-- A miss takes part in the misses, and in nothing else. -/
theorem counters_missed {after : ExpressionCache type}
    (settled : Settled config front cache)
    (missed : distinct type (front ++ [source]) +
      refusals type (front ++ [source]) =
      distinct type front + refusals type front + 1)
    (hits : after.hits = cache.hits)
    (misses : after.misses = cache.misses + 1) :
    after.misses =
        .ofNat (distinct type (front ++ [source]) +
          refusals type (front ++ [source])) ∧
      after.hits =
        .ofNat ((front ++ [source]).length -
          (distinct type (front ++ [source]) +
            refusals type (front ++ [source]))) := by
  rw [missed]
  constructor
  · rw [misses, UInt64.ofNat_add, ← settled.misses]
    rfl
  · rw [List.length_append, List.length_singleton, Nat.add_sub_add_right]
    exact hits.trans settled.hits

/-- A source that does not compile is missed. -/
theorem refused (settled : Settled config front cache)
    (refused : Expression.compiles type source = false) :
    Settled config (front ++ [source]) (Cache.countMiss cache) := by
  have missed :
      distinct type (front ++ [source]) + refusals type (front ++ [source]) =
      distinct type front + refusals type front + 1 := by
    rw [distinct_concat_of_refused refused, refusals_concat, refused]
    rfl
  have counters :
      (Cache.countMiss cache).misses = _ ∧ (Cache.countMiss cache).hits = _ :=
    settled.counters_missed missed rfl rfl
  obtain ⟨ledger, keeps, same⟩ := settled.holds
  refine ⟨⟨ledger, keeps.countMiss, ?_⟩, settled.evictions,
    counters.1, counters.2⟩
  intro key
  rw [same, compiling_concat, refused, if_neg Bool.false_ne_true,
    List.append_nil]

/-- A source that compiles for the first time is missed and comes in. -/
theorem added {expression : Expression type}
    (settled : Settled config front cache)
    (enabled : config.enabled = true)
    (compiles : Expression.compiles type source = true)
    (absent : source ∉ compiling type front)
    (room : config.maxEntries = 0 ∨ distinct type front < config.maxEntries) :
    Settled config (front ++ [source])
      ((Cache.countMiss cache).add source expression).1 := by
  have missed :
      distinct type (front ++ [source]) + refusals type (front ++ [source]) =
      distinct type front + refusals type front + 1 := by
    rw [distinct_concat_of_notMem compiles absent, refusals_concat,
      if_pos compiles]
    omega
  obtain ⟨ledger, keeps, same⟩ := settled.holds
  have notListed : source ∉ ledger.keys := mt (same source).mp absent
  have notHeld : cache.get? source = none :=
    (keeps.lists.entry source).trans (Ledger.lookup_eq_none_iff.mpr notListed)
  have inserts := keeps.countMiss.inserts notHeld expression
  obtain ⟨newHits, newMisses, -⟩ := inserts.counters
  obtain ⟨misses, hits⟩ := settled.counters_missed missed newHits newMisses
  have size := settled.size
  have length : cache.size = ledger.length := keeps.lists.size
  have kept := keeps.countMiss.add enabled notListed expression
  rw [Ledger.insert_of_room (by omega)] at kept
  refine ⟨⟨_, kept, ?_⟩, ?_, misses, hits⟩
  · intro key
    rw [mem_compiling_concat compiles, ← same, Ledger.keys, List.map_append,
      List.mem_append, List.map_singleton, List.mem_singleton]
    rfl
  · have roomy :
        cache.config.maxEntries = 0 ∨ cache.size < cache.config.maxEntries := by
      rw [keeps.configured, size]
      exact room
    exact (inserts.evictions_of_room keeps.countMiss.lists roomy).trans
      settled.evictions

theorem getOrCompile (settled : Settled config front cache)
    (enabled : config.enabled = true)
    (room : config.maxEntries = 0 ∨
      distinct type (front ++ [source]) ≤ config.maxEntries) :
    Settled config (front ++ [source]) (cache.getOrCompile source).cache := by
  have ⟨ledger, keeps, same⟩ := settled.holds
  have isEnabled : cache.config.enabled = true := keeps.configured ▸ enabled
  have entry : cache.get? source = ledger.lookup source :=
    keeps.lists.entry source
  cases found : cache.get? source with
  | some expression =>
      have listed : source ∈ ledger.keys :=
        Ledger.mem_keys_of_lookup (entry.symm.trans found)
      rw [getOrCompile_found isEnabled found]
      exact settled.found ((same source).mp listed)
  | none =>
      have notListed : source ∉ ledger.keys :=
        Ledger.lookup_eq_none_iff.mp (entry.symm.trans found)
      cases compiled : Expression.ofSource type source with
      | error error =>
          rw [getOrCompile_failed isEnabled found compiled]
          apply settled.refused
          rw [Expression.compiles, compiled]
          rfl
      | ok expression =>
          have absent := mt (same source).mpr notListed
          have compiles := Expression.compiles_iff.mpr ⟨expression, compiled⟩
          rw [distinct_concat_of_notMem compiles absent] at room
          rw [getOrCompile_completed isEnabled found compiled]
          exact settled.added enabled compiles absent room

/-- The induction is on the last call: what a call does depends on the sources
before it. -/
theorem compileAll (enabled : config.enabled = true)
    (room : config.maxEntries = 0 ∨ distinct type sources ≤ config.maxEntries) :
    Settled config sources
      (ExpressionCache.compileAll (Cache.empty config : ExpressionCache type)
        sources) := by
  induction sources using List.reverseRecOn with
  | nil => exact .empty type config
  | append_singleton front source induction =>
      have earlier := induction
        (room.imp_right (Nat.le_trans (distinct_le_concat type front source)))
      rw [compileAll_concat]
      exact earlier.getOrCompile enabled room

end Settled

end ExpressionCache

/-! ## Documents -/

/-- The sources of the rules of a type, in order. -/
def sourcesOf (type : ValueType) (rules : List Rule) : List String :=
  (rules.filter fun rule => rule.kind = type).map Rule.expression

theorem sourcesOf_perm (type : ValueType) {rules others : List Rule}
    (permuted : rules.Perm others) :
    (sourcesOf type rules).Perm (sourcesOf type others) :=
  (permuted.filter _).map _

/-- Each of the two caches sees the rules of its type only. -/
theorem RuleCaches.get_checkAll (caches : RuleCaches) (options : CheckOptions)
    (values : Valuation) (rules : List Rule) (type : ValueType) :
    (caches.checkAll options values rules).2.get type =
      ExpressionCache.compileAll (caches.get type) (sourcesOf type rules) := by
  induction rules generalizing caches with
  | nil => rfl
  | cons rule rules induction =>
      have after := induction (caches.check options values rule).2.1
      by_cases same : rule.kind = type
      · subst same
        have sought : sourcesOf rule.kind (rule :: rules) =
            rule.expression :: sourcesOf rule.kind rules := by
          simp [sourcesOf]
        rw [RuleCaches.checkAll, sought]
        refine after.trans ?_
        rw [RuleCaches.check, PerType.get_set_self]
        rfl
      · have passed :
            sourcesOf type (rule :: rules) = sourcesOf type rules := by
          simp [sourcesOf, same]
        rw [RuleCaches.checkAll, passed]
        refine after.trans ?_
        rw [RuleCaches.check, PerType.get_set_of_ne _ _ (Ne.symm same)]

namespace RuleDocument

/-- The number of rules of a type. -/
def count (document : RuleDocument) (type : ValueType) : Nat :=
  document.rules.countP fun rule => rule.kind = type

def sources (document : RuleDocument) (type : ValueType) : List String :=
  sourcesOf type document.rules

/-- What the cache of a type shows when the rules have been checked. -/
def stats (document : RuleDocument) (options : CheckOptions)
    (values : Valuation) (type : ValueType) : CacheStats :=
  let checked :=
    (RuleCaches.empty document.cacheConfig).checkAll options values
      document.rules
  (checked.2.get type).stats

theorem length_sources (document : RuleDocument) (type : ValueType) :
    (document.sources type).length = document.count type := by
  rw [sources, sourcesOf, List.length_map, count, List.countP_eq_length_filter]

theorem stats_eq (document : RuleDocument) (options : CheckOptions)
    (values : Valuation) (type : ValueType) :
    document.stats options values type =
      (ExpressionCache.compileAll
        (Cache.empty document.cacheConfig : ExpressionCache type)
        (document.sources type)).stats := by
  rw [stats, RuleCaches.get_checkAll]
  cases type <;> rfl

theorem counts_stats (document : RuleDocument) (options : CheckOptions)
    (values : Valuation) (type : ValueType) :
    ∃ found missed, found + missed = document.count type ∧
      (document.stats options values type).hits = .ofNat found ∧
      (document.stats options values type).misses = .ofNat missed := by
  have new : ExpressionCache.Counts
      (Cache.empty document.cacheConfig : ExpressionCache type) 0 :=
    ⟨0, 0, rfl, rfl, rfl⟩
  have counts :=
    new.compileAll (.empty document.cacheConfig) (document.sources type)
  rw [Nat.zero_add, length_sources] at counts
  rw [stats_eq]
  exact counts

theorem stats_of_room (document : RuleDocument) (options : CheckOptions)
    (values : Valuation) (type : ValueType)
    (enabled : document.cacheConfig.enabled = true)
    (room : document.cacheConfig.maxEntries = 0 ∨
      distinct type (document.sources type) ≤ document.cacheConfig.maxEntries) :
    document.stats options values type =
      { entries := distinct type (document.sources type)
        maxEntries := document.cacheConfig.maxEntries
        hits := .ofNat (document.count type -
          (distinct type (document.sources type) +
            refusals type (document.sources type)))
        misses := .ofNat (distinct type (document.sources type) +
          refusals type (document.sources type))
        evictions := 0 } := by
  have settled : ExpressionCache.Settled _ (document.sources type)
      (_ : ExpressionCache type) :=
    .compileAll enabled room
  obtain ⟨ledger, keeps, -⟩ := settled.holds
  rw [stats_eq, Cache.stats, settled.size, settled.evictions, settled.misses,
    settled.hits, keeps.configured, length_sources]

/-- As long as nothing has to be evicted, the order of the rules makes no
difference, and neither do the values. -/
theorem stats_perm {document other : RuleDocument} {type : ValueType}
    (sameConfig : other.cacheConfig = document.cacheConfig)
    (permuted : other.rules.Perm document.rules)
    (enabled : document.cacheConfig.enabled = true)
    (room : document.cacheConfig.maxEntries = 0 ∨
      distinct type (document.sources type) ≤ document.cacheConfig.maxEntries)
    (options otherOptions : CheckOptions) (values otherValues : Valuation) :
    other.stats otherOptions otherValues type =
      document.stats options values type := by
  have sources := sourcesOf_perm type permuted
  have sameDistinct : distinct type (other.sources type) =
      distinct type (document.sources type) := distinct_perm sources
  have sameRefusals : refusals type (other.sources type) =
      refusals type (document.sources type) := refusals_perm sources
  have sameCount : other.count type = document.count type :=
    permuted.countP_eq _
  have shown := other.stats_of_room otherOptions otherValues type
    (sameConfig ▸ enabled) (by rw [sameConfig, sameDistinct]; exact room)
  rw [sameConfig, sameDistinct, sameRefusals, sameCount] at shown
  exact shown.trans
    (document.stats_of_room options values type enabled room).symm

theorem stats_of_disabled (document : RuleDocument) (options : CheckOptions)
    (values : Valuation) (type : ValueType)
    (disabled : document.cacheConfig.enabled = false) :
    (document.stats options values type).hits = 0 ∧
      (document.stats options values type).entries = 0 ∧
      (document.stats options values type).evictions = 0 := by
  have new : (Cache.empty document.cacheConfig :
      ExpressionCache type).config.enabled = false := disabled
  rw [stats_eq]
  exact ExpressionCache.compileAll_disabled new (document.sources type)

/-- The calls that a cache counts are the rules of its type.  While it is
enabled and large enough, it holds each expression that compiles once and has
missed it once, has missed an expression that does not compile each time, and
has found all others, in whatever order the rules stand.  If it is not enabled,
it finds, holds and evicts nothing. -/
theorem cache_counts (document : RuleDocument) (options : CheckOptions)
    (values : Valuation) (type : ValueType) :
    let stats := document.stats options values type
    let compiled := distinct type (document.sources type)
    let refused := refusals type (document.sources type)
    (∃ found missed, found + missed = document.count type ∧
      stats.hits = .ofNat found ∧ stats.misses = .ofNat missed) ∧
    (document.count type < UInt64.size →
      stats.hits.toNat + stats.misses.toNat = document.count type) ∧
    (document.cacheConfig.enabled = true →
      document.cacheConfig.maxEntries = 0 ∨
        compiled ≤ document.cacheConfig.maxEntries →
      compiled + refused ≤ document.count type ∧
        stats =
          { entries := compiled
            maxEntries := document.cacheConfig.maxEntries
            hits := .ofNat (document.count type - (compiled + refused))
            misses := .ofNat (compiled + refused)
            evictions := 0 } ∧
        ∀ (other : RuleDocument) (otherOptions : CheckOptions)
          (otherValues : Valuation),
          other.cacheConfig = document.cacheConfig →
          other.rules.Perm document.rules →
          other.stats otherOptions otherValues type = stats) ∧
    (document.cacheConfig.enabled = false →
      stats.hits = 0 ∧ stats.entries = 0 ∧ stats.evictions = 0) := by
  intro stats compiled refused
  have counts := document.counts_stats options values type
  refine ⟨counts, ?_, ?_, ?_⟩
  · intro fits
    obtain ⟨found, missed, all, hits, misses⟩ := counts
    rw [hits, misses, UInt64.toNat_ofNat_of_lt' (by omega),
      UInt64.toNat_ofNat_of_lt' (by omega), all]
  · intro enabled room
    have few := distinct_add_refusals_le type (document.sources type)
    rw [length_sources] at few
    refine ⟨few, document.stats_of_room options values type enabled room, ?_⟩
    intro other otherOptions otherValues sameConfig permuted
    exact stats_perm sameConfig permuted enabled room _ _ _ _
  · intro disabled
    exact document.stats_of_disabled options values type disabled

/-- Of six rules, two do not compile, and of the two expressions of the others
one comes three times. -/
theorem cache_counts_repeated :
    let document : RuleDocument :=
      { cache := some { maxEntries := 2 }
        rules := ["x", "y +", "x", "y", "y +", "x"].map fun source =>
          { name := source, kind := .integer, expression := source } }
    distinct .integer (document.sources .integer) ≤ 2 ∧
      document.stats {} (valuation NoValues.mk) .integer =
        { entries := 2, maxEntries := 2, hits := 2, misses := 4,
          evictions := 0 } := by
  intro document
  have sources :
      document.sources .integer = ["x", "y +", "x", "y", "y +", "x"] := rfl
  have compiled : distinct .integer (document.sources .integer) = 2 := by
    rw [sources]
    decide +kernel
  have refused : refusals .integer (document.sources .integer) = 2 := by
    rw [sources]
    decide +kernel
  have room : document.cacheConfig.maxEntries = 0 ∨
      distinct .integer (document.sources .integer) ≤
        document.cacheConfig.maxEntries := by
    rw [compiled]
    exact .inr (by decide)
  obtain ⟨-, -, counted, -⟩ :=
    document.cache_counts {} (valuation NoValues.mk) .integer
  obtain ⟨-, shown, -⟩ := counted rfl room
  rw [compiled, refused] at shown
  exact ⟨Nat.le_of_eq compiled, shown⟩

end RuleDocument

end Formula
