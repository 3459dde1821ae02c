import Formula.Cache.Run
import Formula.Proofs.Ledger
import Mathlib.Data.List.Forall2

/-!
# Runs of a cache and of a list of pairs

The same steps are run on a cache and on the list of pairs that it holds.
Computations take steps of their own, so that the points of a run lie inside of
steps, too.  At all of them the cache shows what the list says.
-/

namespace Formula

/-- Something on which the steps of a cache can be taken. -/
structure CacheMachine (V E S : Type) where
  /-- The state in which the computation of a call begins, if there is one. -/
  begins : S → String → Option S
  after : S → CacheStep V E → S

namespace CacheMachine

variable {V E S T : Type}

mutual

/-- The states at the points inside of a step, which are those of a computation
if one begins. -/
def inside (machine : CacheMachine V E S) (state : S) : CacheStep V E → List S
  | .compute key nested _ =>
    (machine.begins state key).elim [] fun during => trail machine during nested
  | _ => []

/-- The states at all points of a run in the order of time, from the start of
its first step to the end of its last one. -/
def trail (machine : CacheMachine V E S) (state : S) :
    List (CacheStep V E) → List S
  | [] => [state]
  | step :: rest =>
    state :: (inside machine state step ++
      trail machine (machine.after state step) rest)

end

/-- Related states stay related when a computation begins and when a step has
been taken. -/
structure Simulates (machine : CacheMachine V E S) (other : CacheMachine V E T)
    (Related : S → T → Prop) : Prop where
  begins : ∀ {state image}, Related state image → ∀ key,
    Option.Rel Related (machine.begins state key) (other.begins image key)
  after : ∀ {state image}, Related state image → ∀ step,
    Related (machine.after state step) (other.after image step)

namespace Simulates

variable {machine : CacheMachine V E S} {other : CacheMachine V E T}
  {Related : S → T → Prop}

mutual

theorem inside (simulates : Simulates machine other Related) {state : S}
    {image : T} (related : Related state image) (step : CacheStep V E) :
    List.Forall₂ Related (machine.inside state step)
      (other.inside image step) := by
  cases step with
  | compute key nested ending =>
      have during := simulates.begins related key
      rw [CacheMachine.inside, CacheMachine.inside]
      generalize machine.begins state key = first at during ⊢
      generalize other.begins image key = second at during ⊢
      cases during with
      | none => exact .nil
      | some nestedRelated => exact simulates.trail nestedRelated nested
  | _ => exact .nil

/-- Runs that begin in related states are related at all points. -/
theorem trail (simulates : Simulates machine other Related) {state : S}
    {image : T} (related : Related state image) (steps : List (CacheStep V E)) :
    List.Forall₂ Related (machine.trail state steps)
      (other.trail image steps) := by
  cases steps with
  | nil => exact .cons related .nil
  | cons step rest =>
      rw [CacheMachine.trail, CacheMachine.trail]
      apply List.Forall₂.cons related
      apply List.rel_append
      · exact simulates.inside related step
      · exact simulates.trail (simulates.after related step) rest

end

end Simulates

end CacheMachine

namespace Ledger

variable {V E : Type} (config : CacheConfig)

mutual

/-- The list after a step.  Only completed computations, removals and clearing
change it. -/
def after (ledger : Ledger V) : CacheStep V E → Ledger V
  | .remove key => ledger.remove key
  | .clear => []
  | .compute key nested ending =>
    if ledger.finds config key then ledger
    else (afterAll ledger nested).completed config key ending
  | _ => ledger

def afterAll (ledger : Ledger V) : List (CacheStep V E) → Ledger V
  | [] => ledger
  | step :: rest => afterAll (after ledger step) rest

end

def machine : CacheMachine V E (Ledger V) where
  begins := fun ledger key =>
    if ledger.finds config key then none else some ledger
  after := after config

end Ledger

namespace Cache

variable {V E : Type} {config : CacheConfig} {cache : Cache V}
  {ledger : Ledger V}

/-- A cache that is enabled finds its entries; any other call is counted as a
miss before it computes. -/
def machine : CacheMachine V E (Cache V) where
  begins := fun cache key =>
    if cache.finds key then none else some cache.countMiss
  after := fun cache step => (cache.run step).cache

theorem getLast?_trail (cache : Cache V) (steps : List (CacheStep V E)) :
    (machine.trail cache steps).getLast? = some (cache.runAll steps).cache := by
  induction steps generalizing cache with
  | nil => rfl
  | cons step rest induction =>
      have later := induction (cache.run step).cache
      rw [CacheMachine.trail, ← List.cons_append, List.getLast?_append]
      rw [machine] at later ⊢
      rw [later]
      rfl

namespace Keeps

mutual

theorem run {cache : Cache V} {ledger : Ledger V}
    (keeps : Keeps config cache ledger) (step : CacheStep V E) :
    Keeps config (cache.run step).cache (ledger.after config step) := by
  cases step with
  | remove key => exact keeps.remove key
  | clear => exact keeps.clear
  | resetStats => exact keeps.of_same rfl rfl rfl
  | compute key nested ending =>
      -- the nested steps run on the cache once the miss is counted
      exact keeps.getOrCompute key (keeps.countMiss.runAll nested)
  | _ => exact keeps

theorem runAll {cache : Cache V} {ledger : Ledger V}
    (keeps : Keeps config cache ledger) (steps : List (CacheStep V E)) :
    Keeps config (cache.runAll steps).cache (ledger.afterAll config steps) := by
  cases steps with
  | nil => exact keeps
  | cons step rest => exact (keeps.run step).runAll rest

end

end Keeps

theorem simulates_ledger (config : CacheConfig) :
    CacheMachine.Simulates (machine (V := V) (E := E)) (Ledger.machine config)
      (Keeps config) where
  begins := by
    intro cache ledger keeps key
    simp only [machine, Ledger.machine, keeps.finds_eq]
    split
    · exact .none
    · exact .some keeps.countMiss
  after := Keeps.run

/-- What a cache shows is what the list says.  In particular no key comes twice,
the order has the keys of the map, and the configuration is respected. -/
structure Shows (config : CacheConfig) (cache : Cache V) (ledger : Ledger V) :
    Prop where
  keys : cache.keys = ledger.keys
  size : cache.size = ledger.length
  isEmpty : cache.isEmpty = ledger.isEmpty
  contains : ∀ key, cache.contains key = decide (key ∈ ledger.keys)
  get? : ∀ key, cache.get? key = ledger.lookup key
  distinct : cache.keys.Nodup
  mem_keys : ∀ key, key ∈ cache.keys ↔ key ∈ cache.entries
  bounded : 0 < config.maxEntries → cache.keys.length ≤ config.maxEntries
  disabled : config.enabled = false → cache.keys = []

theorem Keeps.shows (keeps : Keeps config cache ledger) :
    cache.Shows config ledger where
  keys := keeps.lists.order
  size := keeps.lists.size
  isEmpty := by
    rw [Cache.isEmpty, Std.TreeMap.isEmpty_eq_size_eq_zero, keeps.lists.size]
    cases ledger <;> rfl
  contains := keeps.lists.contains_eq
  get? := keeps.lists.entry
  distinct := by
    rw [keys, keeps.lists.order]
    exact keeps.lists.distinct
  mem_keys := by
    intro key
    rw [Std.TreeMap.mem_iff_contains, keeps.lists.contains_eq,
      decide_eq_true_eq, keys, keeps.lists.order]
  bounded := by
    intro limited
    rw [keys, keeps.lists.order, Ledger.keys, List.length_map]
    exact keeps.bounded limited
  disabled := by
    intro disabled
    rw [keys, keeps.lists.order, keeps.disabled disabled]
    rfl

/-- At all points of a run from a new cache, those inside of computations
included, the cache shows what the list says that the same steps lead to. -/
theorem shows_ledger (config : CacheConfig) (steps : List (CacheStep V E)) :
    List.Forall₂ (Shows config)
      (machine.trail (Cache.empty config : Cache V) steps)
      ((Ledger.machine config).trail [] steps) ∧
    (machine.trail (Cache.empty config : Cache V) steps).getLast? =
      some ((Cache.empty config : Cache V).runAll steps).cache := by
  refine ⟨?_, getLast?_trail _ steps⟩
  have kept := (simulates_ledger config).trail (Keeps.empty config) steps
  exact kept.imp fun _ _ keeps => keeps.shows

/-- The computation for `b` removes `a` and adds `c`, which is the oldest key
when `a` comes back. -/
example :
    Ledger.afterAll (E := Empty) { maxEntries := 2 } []
      [.compute "a" [] (.ok 1),
        .compute "b" [.remove "a", .compute "c" [] (.ok 3)] (.ok 2),
        .compute "a" [] (.ok 4)] =
      [("b", 2), ("a", 4)] := by
  decide

end Cache

end Formula
