import Formula.Cache.Expressions
import Formula.Proofs.Ledger
import Mathlib.Data.List.Forall2

/-!
# Caches of expressions are not seen

Whoever asks a cache for the expression of a source gets what compiling the
source gives, whether the cache is enabled or not, holds the source or not, and
whatever has been dropped from it before.  What carries this through a run is
that the list which the cache keeps is faithful: each of its pairs is a source
with the expression that it compiles to.
-/

namespace Formula

theorem PerType.get_set_self {Item : ValueType → Type} (items : PerType Item)
    (type : ValueType) (item : Item type) :
    (items.set type item).get type = item := by
  cases type <;> rfl

theorem PerType.get_set_of_ne {Item : ValueType → Type} (items : PerType Item)
    {type other : ValueType} (item : Item type) (different : other ≠ type) :
    (items.set type item).get other = items.get other := by
  cases type with
  | integer =>
      cases other with
      | integer => exact absurd rfl different
      | boolean => rfl
  | boolean =>
      cases other with
      | integer => rfl
      | boolean => exact absurd rfl different

/-- Every pair is a source with the expression that the source compiles to. -/
def Ledger.Faithful {type : ValueType} (ledger : Ledger (Expression type)) :
    Prop :=
  ∀ pair ∈ ledger, Expression.ofSource type pair.1 = .ok pair.2

namespace Ledger.Faithful

variable {type : ValueType} {ledger : Ledger (Expression type)} {key : String}
  {expression : Expression type}

theorem nil : Faithful ([] : Ledger (Expression type)) := by
  intro pair member
  cases member

theorem lookup (faithful : ledger.Faithful)
    (found : ledger.lookup key = some expression) :
    Expression.ofSource type key = .ok expression := by
  induction ledger with
  | nil => cases found
  | cons pair ledger induction =>
      obtain ⟨first, others⟩ := List.forall_mem_cons.mp faithful
      rw [lookup_cons] at found
      split_ifs at found with same
      · obtain rfl := Option.some.inj found
        rw [← same]
        exact first
      · exact induction others found

theorem remove (faithful : ledger.Faithful) (key : String) :
    (ledger.remove key).Faithful := by
  intro pair member
  exact faithful pair (List.mem_of_mem_filter member)

theorem insert (faithful : ledger.Faithful) (config : CacheConfig)
    (compiles : Expression.ofSource type key = .ok expression) :
    (ledger.insert config key expression).Faithful := by
  have longer : Faithful (ledger ++ [(key, expression)]) := by
    intro pair member
    rcases List.mem_append.mp member with old | new
    · exact faithful pair old
    · obtain rfl := List.mem_singleton.mp new
      exact compiles
  simp only [Ledger.insert]
  split_ifs
  · intro pair member
    exact longer pair (List.mem_of_mem_tail member)
  · exact longer

/-- A compilation that has ended leaves a faithful list, since nothing is added
when it fails. -/
theorem completed (faithful : ledger.Faithful) (config : CacheConfig)
    (key : String) :
    (ledger.completed config key (Expression.ofSource type key)).Faithful := by
  cases compiles : Expression.ofSource type key with
  | error error => exact faithful
  | ok expression =>
      unfold Ledger.completed
      split_ifs
      · exact faithful.insert config compiles
      · exact faithful

end Ledger.Faithful

/-- What is taken out is what was held. -/
theorem Cache.fst_remove {V : Type} (cache : Cache V) (key : String) :
    (cache.remove key).1 = cache.get? key := by
  unfold remove get?
  cases cache.entries[key]? <;> rfl

namespace ExpressionCache

variable {type : ValueType} {config : CacheConfig}
  {cache : ExpressionCache type} {ledger : Ledger (Expression type)}

/-- The answer comes from the cache or from the compiler. -/
theorem answer_getOrCompile_cases (cache : ExpressionCache type)
    (source : String) :
    (∃ expression, cache.get? source = some expression ∧
      (cache.getOrCompile source).answer = .ok expression) ∨
    (cache.getOrCompile source).answer = Expression.ofSource type source := by
  unfold getOrCompile Cache.getOrCompute Expression.ofSource
  cases enabled : cache.config.enabled with
  | false => exact .inr rfl
  | true =>
      cases found : cache.entries[source]? with
      | some expression => exact .inl ⟨expression, found, rfl⟩
      | none =>
          right
          obtain ⟨result, events⟩ := Expression.compile type source
          cases result with
          | error error => rfl
          | ok expression =>
              -- the compiler has left the cache alone, so that its key is
              -- absent
              have absent : cache.countMiss.entries[source]? = none := found
              simp [Cache.keep, absent]

theorem keeps_getOrCompile (keeps : Cache.Keeps config cache ledger)
    (source : String) :
    Cache.Keeps config (cache.getOrCompile source).cache
      (if ledger.finds config source then ledger
        else ledger.completed config source
          (Expression.ofSource type source)) :=
  keeps.getOrCompute (R := Unit) source keeps.countMiss

/-- The cache has a configuration and holds a faithful list. -/
def IsFaithful (config : CacheConfig) (cache : ExpressionCache type) : Prop :=
  ∃ ledger : Ledger (Expression type),
    Cache.Keeps config cache ledger ∧ ledger.Faithful

/-- A call on a cache of expressions. -/
inductive Call where
  | compile (source : String)
  | get (key : String)
  | contains (key : String)
  | remove (key : String)
  | clear
  | resetStats

inductive Reply (type : ValueType) where
  | compiled (result : Except ParseError (Expression type))
  | entry (found : Option (Expression type))
  | flag (value : Bool)
  | done

def call (cache : ExpressionCache type) :
    Call → Reply type × ExpressionCache type
  | .compile source =>
    let outcome := cache.getOrCompile source
    (.compiled outcome.answer, outcome.cache)
  | .get key => (.entry (cache.get? key), cache)
  | .contains key => (.flag (cache.contains key), cache)
  | .remove key =>
    let (found, after) := Cache.remove cache key
    (.entry found, after)
  | .clear => (.done, Cache.clear cache)
  | .resetStats => (.done, Cache.resetStats cache)

/-- Replies to calls that are made one after another, and the cache after the
last one. -/
def calls (cache : ExpressionCache type) :
    List Call → List (Reply type) × ExpressionCache type
  | [] => ([], cache)
  | first :: rest =>
    let (reply, after) := call cache first
    let (replies, last) := calls after rest
    (reply :: replies, last)

/-- The reply to a call is one that compiling without a cache would give: all
expressions in it are those of their sources. -/
inductive Genuine (type : ValueType) : Call → Reply type → Prop
  | compile (source : String) :
    Genuine type (.compile source)
      (.compiled (Expression.ofSource type source))
  | get {key : String} {found : Option (Expression type)}
    (compiles : ∀ expression ∈ found,
      Expression.ofSource type key = .ok expression) :
    Genuine type (.get key) (.entry found)
  | contains {key : String} {value : Bool}
    (compiles : value = true →
      ∃ expression, Expression.ofSource type key = .ok expression) :
    Genuine type (.contains key) (.flag value)
  | remove {key : String} {found : Option (Expression type)}
    (compiles : ∀ expression ∈ found,
      Expression.ofSource type key = .ok expression) :
    Genuine type (.remove key) (.entry found)
  | clear : Genuine type .clear .done
  | resetStats : Genuine type .resetStats .done

namespace IsFaithful

theorem empty (type : ValueType) (config : CacheConfig) :
    IsFaithful config (Cache.empty config : ExpressionCache type) :=
  ⟨[], .empty config, .nil⟩

theorem get? (faithful : IsFaithful config cache) (key : String) :
    ∀ expression ∈ cache.get? key,
      Expression.ofSource type key = .ok expression := by
  obtain ⟨ledger, keeps, genuine⟩ := faithful
  intro expression found
  apply genuine.lookup
  rw [← keeps.lists.entry]
  exact found

theorem contains (faithful : IsFaithful config cache) {key : String}
    (present : cache.contains key = true) :
    ∃ expression, cache.get? key = some expression ∧
      Expression.ofSource type key = .ok expression := by
  rw [Cache.contains, Std.TreeMap.contains_eq_isSome_getElem?] at present
  obtain ⟨expression, found⟩ := Option.isSome_iff_exists.mp present
  exact ⟨expression, found, faithful.get? key expression found⟩

theorem answer (faithful : IsFaithful config cache) (source : String) :
    (cache.getOrCompile source).answer = Expression.ofSource type source := by
  rcases answer_getOrCompile_cases cache source with
    ⟨expression, found, answered⟩ | compiled
  · rw [answered, faithful.get? source expression found]
  · exact compiled

theorem getOrCompile (faithful : IsFaithful config cache) (source : String) :
    IsFaithful config (cache.getOrCompile source).cache := by
  obtain ⟨ledger, keeps, genuine⟩ := faithful
  refine ⟨_, keeps_getOrCompile keeps source, ?_⟩
  split_ifs
  · exact genuine
  · exact genuine.completed config source

theorem call (faithful : IsFaithful config cache) (call : Call) :
    Genuine type call (cache.call call).1 ∧
      IsFaithful config (cache.call call).2 := by
  have ⟨ledger, keeps, genuine⟩ := faithful
  cases call with
  | compile source =>
      refine ⟨?_, faithful.getOrCompile source⟩
      rw [ExpressionCache.call, faithful.answer source]
      exact .compile source
  | get key => exact ⟨.get (faithful.get? key), faithful⟩
  | contains key =>
      refine ⟨.contains ?_, faithful⟩
      intro present
      obtain ⟨expression, -, compiles⟩ := faithful.contains present
      exact ⟨expression, compiles⟩
  | remove key =>
      refine ⟨.remove ?_, ledger.remove key, keeps.remove key,
        genuine.remove key⟩
      have held := faithful.get? key
      rw [← Cache.fst_remove] at held
      exact held
  | clear => exact ⟨.clear, [], keeps.clear, .nil⟩
  | resetStats =>
    exact ⟨.resetStats, ledger, keeps.of_same rfl rfl rfl, genuine⟩

theorem calls (faithful : IsFaithful config cache) (run : List Call) :
    List.Forall₂ (Genuine type) run (cache.calls run).1 ∧
      IsFaithful config (cache.calls run).2 := by
  induction run generalizing cache with
  | nil => exact ⟨.nil, faithful⟩
  | cons first rest induction =>
      obtain ⟨genuine, after⟩ := faithful.call first
      obtain ⟨others, last⟩ := induction after
      exact ⟨.cons genuine others, last⟩

end IsFaithful

/-- In every run from a new cache, all replies are those of compiling without a
cache, error or expression alike, and at its end only sources that compile are
present.  Expressions that are equal have the same source, names, program and
evaluator. -/
theorem calls_genuine (type : ValueType) (config : CacheConfig)
    (run : List Call) :
    let ran := calls (Cache.empty config : ExpressionCache type) run
    List.Forall₂ (Genuine type) run ran.1 ∧
    ∀ key, ran.2.contains key = true →
      ∃ expression, ran.2.get? key = some expression ∧
        Expression.ofSource type key = .ok expression := by
  obtain ⟨genuine, faithful⟩ := (IsFaithful.empty type config).calls run
  exact ⟨genuine, fun key present => faithful.contains present⟩

end ExpressionCache

end Formula
