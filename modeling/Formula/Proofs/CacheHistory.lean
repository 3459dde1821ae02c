import Formula.Proofs.CacheRun

/-!
# What happens to a cache in the course of time

Between the start of a call and the end of its computation anything may happen
to a cache.  A run is therefore taken apart into actions that take no time: a
call looks for its key, its computation ends, an entry is removed, and so on.
Carried out one after another they lead to the cache and to the events of the
run, so that facts about runs need an induction over a list only.
-/

namespace Formula

/-- What happens to a cache at one moment. -/
inductive CacheAction (V E : Type) where
  /-- A call looks for its key. -/
  | seek (key : String)
  /-- The computation of a call for a key ends. -/
  | finish (key : String) (ending : Except E V)
  | remove (key : String)
  | clear
  | resetStats
  deriving DecidableEq

/-- An action and the cache that it happens to. -/
structure Moment (V E : Type) where
  cache : Cache V
  action : CacheAction V E

namespace Cache

variable {V E : Type}

/-- The cache after an action, and what it reports. -/
def act (cache : Cache V) : CacheAction V E → Cache V × List Event
  | .seek key =>
    if cache.finds key then (cache.countHit, [.cacheHit key])
    else (cache.countMiss,
      if cache.config.enabled then [.cacheMiss key] else [])
  | .finish _ (.error _) => (cache, [])
  | .finish key (.ok value) =>
    if cache.config.enabled then
      ((cache.keep key value).cache, (cache.keep key value).events)
    else (cache, [])
  | .remove key => ((cache.remove key).2, [])
  | .clear => (cache.clear, [])
  | .resetStats => (cache.resetStats, [])

/-- The cache after some actions. -/
def perform (cache : Cache V) (actions : List (CacheAction V E)) : Cache V :=
  actions.foldl (fun cache action => (cache.act action).1) cache

/-- The moments at which actions happen that begin with a cache. -/
def moments (cache : Cache V) : List (CacheAction V E) → List (Moment V E)
  | [] => []
  | action :: rest => ⟨cache, action⟩ :: moments (cache.act action).1 rest

mutual

/-- The actions that a step consists of.  Whether a computation takes its steps
depends on the cache. -/
def actions (cache : Cache V) : CacheStep V E → List (CacheAction V E)
  | .compute key nested ending =>
    .seek key ::
      if cache.finds key then []
      else actionsAll cache.countMiss nested ++ [.finish key ending]
  | .remove key => [.remove key]
  | .clear => [.clear]
  | .resetStats => [.resetStats]
  | _ => []

def actionsAll (cache : Cache V) : List (CacheStep V E) → List (CacheAction V E)
  | [] => []
  | step :: rest =>
    actions cache step ++ actionsAll (cache.run step).cache rest

end

/-- The moments of a run. -/
def history (cache : Cache V) (steps : List (CacheStep V E)) :
    List (Moment V E) :=
  cache.moments (cache.actionsAll steps)

/-- A run comes to a cache after some of its actions, perhaps in the middle of a
step. -/
def Reaches (start : Cache V) (steps : List (CacheStep V E)) (cache : Cache V) :
    Prop :=
  ∃ front, front <+: start.actionsAll steps ∧ start.perform front = cache

end Cache

/-- What is reported at a moment. -/
def Moment.events {V E : Type} (moment : Moment V E) : List Event :=
  (moment.cache.act moment.action).2

namespace Cache

variable {V E : Type} {config : CacheConfig} {cache after : Cache V}
  {ledger : Ledger V} {key : String} {value : V} {events : List Event}

@[simp] theorem perform_nil (cache : Cache V) :
    cache.perform ([] : List (CacheAction V E)) = cache :=
  rfl

@[simp] theorem perform_cons (cache : Cache V) (action : CacheAction V E)
    (rest : List (CacheAction V E)) :
    cache.perform (action :: rest) = (cache.act action).1.perform rest :=
  rfl

@[simp] theorem perform_append (cache : Cache V)
    (front back : List (CacheAction V E)) :
    cache.perform (front ++ back) = (cache.perform front).perform back :=
  List.foldl_append

@[simp] theorem moments_append (cache : Cache V)
    (front back : List (CacheAction V E)) :
    cache.moments (front ++ back) =
      cache.moments front ++ (cache.perform front).moments back := by
  induction front generalizing cache with
  | nil => rfl
  | cons action front induction =>
      exact congrArg (_ :: ·) (induction (cache.act action).1)

theorem map_action_moments (cache : Cache V)
    (actions : List (CacheAction V E)) :
    (cache.moments actions).map Moment.action = actions := by
  induction actions generalizing cache with
  | nil => rfl
  | cons action rest induction =>
      rw [moments, List.map_cons, induction]

/-! ### Single actions -/

theorem keep_present {held : V} (found : cache.get? key = some held)
    (value : V) :
    cache.keep key value = { answer := held, cache } := by
  rw [get?] at found
  simp only [keep, found]

theorem keep_absent (absent : cache.get? key = none) (value : V) :
    cache.keep key value =
      { answer := value
        cache := (cache.add key value).1
        events := (cache.add key value).2 } := by
  rw [get?] at absent
  simp only [keep, absent]

@[simp] theorem config_keep (cache : Cache V) (key : String) (value : V) :
    (cache.keep key value).cache.config = cache.config := by
  cases found : cache.get? key with
  | some held => rw [keep_present found]
  | none => rw [keep_absent found, config_add]

@[simp] theorem config_remove (cache : Cache V) (key : String) :
    (cache.remove key).2.config = cache.config := by
  unfold remove
  split <;> rfl

@[simp] theorem config_act (cache : Cache V) (action : CacheAction V E) :
    (cache.act action).1.config = cache.config := by
  cases action with
  | seek key =>
      rw [act]
      split <;> rfl
  | finish key ending =>
      cases ending with
      | error error => rfl
      | ok value =>
          rw [act]
          split
          · exact config_keep cache key value
          · rfl
  | remove key => exact config_remove cache key
  | clear => rfl
  | resetStats => rfl

@[simp] theorem config_perform (cache : Cache V)
    (actions : List (CacheAction V E)) :
    (cache.perform actions).config = cache.config := by
  induction actions generalizing cache with
  | nil => rfl
  | cons action actions induction =>
      rw [perform_cons, induction, config_act]

theorem Keeps.act (keeps : Keeps config cache ledger)
    (action : CacheAction V E) :
    ∃ later, Keeps config (cache.act action).1 later := by
  cases action with
  | seek key =>
      rw [Cache.act]
      split
      · exact ⟨ledger, keeps.countHit⟩
      · exact ⟨ledger, keeps.countMiss⟩
  | finish key ending =>
      cases ending with
      | error error => exact ⟨ledger, keeps⟩
      | ok value =>
          rw [Cache.act, keeps.configured]
          split
          · rename_i enabled
            exact ⟨_, keeps.keep (E := E) enabled key value⟩
          · exact ⟨ledger, keeps⟩
  | remove key => exact ⟨_, keeps.remove key⟩
  | clear => exact ⟨_, keeps.clear⟩
  | resetStats => exact ⟨ledger, keeps.of_same rfl rfl rfl⟩

theorem Keeps.perform (keeps : Keeps config cache ledger)
    (actions : List (CacheAction V E)) :
    ∃ later, Keeps config (cache.perform actions) later := by
  induction actions generalizing cache ledger with
  | nil => exact ⟨ledger, keeps⟩
  | cons action actions induction =>
      obtain ⟨middle, acted⟩ := keeps.act action
      exact induction acted

theorem Keeps.reaches {start : Cache V} {steps : List (CacheStep V E)}
    (keeps : Keeps config start ledger) (reached : Reaches start steps cache) :
    ∃ later, Keeps config cache later := by
  obtain ⟨front, -, rfl⟩ := reached
  exact keeps.perform front

/-! ### Calls -/

section Calls

variable {nested : List (CacheStep V E)} {ending : Except E V} {error : E}

theorem finds_eq_false_of_disabled (disabled : cache.config.enabled = false)
    (key : String) : cache.finds key = false := by
  rw [finds, disabled, Bool.false_and]

theorem contains_eq_isSome (cache : Cache V) (key : String) :
    cache.contains key = (cache.get? key).isSome :=
  Std.TreeMap.contains_eq_isSome_getElem?

theorem finds_eq_isSome (enabled : cache.config.enabled = true) (key : String) :
    cache.finds key = (cache.get? key).isSome := by
  rw [finds, enabled, Bool.true_and, contains_eq_isSome]

theorem get?_eq_none_of_missing (enabled : cache.config.enabled = true)
    {key : String} (missing : cache.finds key = false) :
    cache.get? key = none := by
  rw [finds_eq_isSome enabled, Option.isSome_eq_false_iff] at missing
  exact Option.isNone_iff_eq_none.mp missing

theorem finds_eq_true_iff : cache.finds key = true ↔
    cache.config.enabled = true ∧ ∃ value, cache.get? key = some value := by
  cases enabled : cache.config.enabled with
  | false => simp [finds_eq_false_of_disabled enabled]
  | true => simp [finds_eq_isSome enabled, Option.isSome_iff_exists]

theorem run_compute_disabled (disabled : cache.config.enabled = false) :
    cache.run (.compute key nested ending) =
      { answer := .computed ending (some (cache.countMiss.runAll nested).answer)
        cache := (cache.countMiss.runAll nested).cache
        events := (cache.countMiss.runAll nested).events } := by
  simp [run, getOrCompute, disabled]

theorem run_compute_found (enabled : cache.config.enabled = true)
    (found : cache.get? key = some value) :
    cache.run (.compute key nested ending) =
      { answer := .computed (.ok value) none
        cache := cache.countHit
        events := [.cacheHit key] } := by
  rw [get?] at found
  simp [run, getOrCompute, enabled, found]

theorem run_compute_failed (enabled : cache.config.enabled = true)
    (absent : cache.get? key = none) :
    cache.run (.compute key nested (.error error)) =
      { answer :=
          .computed (.error error) (some (cache.countMiss.runAll nested).answer)
        cache := (cache.countMiss.runAll nested).cache
        events :=
          .cacheMiss key :: (cache.countMiss.runAll nested).events } := by
  rw [get?] at absent
  simp [run, getOrCompute, enabled, absent]

theorem run_compute_completed (enabled : cache.config.enabled = true)
    (absent : cache.get? key = none) :
    cache.run (.compute key nested (.ok value)) =
      { answer :=
          .computed
            (.ok ((cache.countMiss.runAll nested).cache.keep key value).answer)
            (some (cache.countMiss.runAll nested).answer)
        cache := ((cache.countMiss.runAll nested).cache.keep key value).cache
        events :=
          .cacheMiss key :: (cache.countMiss.runAll nested).events ++
          ((cache.countMiss.runAll nested).cache.keep key value).events } := by
  rw [get?] at absent
  simp [run, getOrCompute, enabled, absent]

end Calls

/-! ### Runs -/

/-- An outcome is what some actions come to. -/
structure Performs {α : Type} (cache : Cache V)
    (actions : List (CacheAction V E)) (outcome : Outcome V α) : Prop where
  leads : outcome.cache = cache.perform actions
  reports : outcome.events = (cache.moments actions).flatMap Moment.events

namespace Performs

/-- Looking for a key, a computation and its end make up a call that does not
find its key. -/
theorem compute {nested : List (CacheStep V E)}
    {actions : List (CacheAction V E)} {ending : Except E V}
    (missing : cache.finds key = false)
    (performs : Performs cache.countMiss actions
      (cache.countMiss.runAll nested)) :
    Performs cache (.seek key :: (actions ++ [.finish key ending]))
      (cache.run (.compute key nested ending)) := by
  obtain ⟨during, reported⟩ := performs
  have configured :
      (cache.countMiss.runAll nested).cache.config = cache.config := by
    rw [during, config_perform]
    rfl
  have sought : cache.act (.seek key : CacheAction V E) =
      (cache.countMiss,
        if cache.config.enabled then [.cacheMiss key] else []) := by
    rw [act, missing]
    rfl
  have whole : cache.perform (.seek key :: (actions ++ [.finish key ending])) =
      ((cache.countMiss.runAll nested).cache.act (.finish key ending)).1 := by
    rw [perform_cons, sought, perform_append, ← during]
    rfl
  have log :
      (cache.moments (.seek key :: (actions ++ [.finish key ending]))).flatMap
          Moment.events =
        (if cache.config.enabled then [.cacheMiss key] else []) ++
          ((cache.countMiss.runAll nested).events ++
            ((cache.countMiss.runAll nested).cache.act
              (.finish key ending)).2) := by
    rw [moments, sought, List.flatMap_cons, moments_append, List.flatMap_append,
      ← reported, ← during, Moment.events, sought]
    simp [moments, Moment.events]
  cases enabled : cache.config.enabled with
  | false =>
      rw [enabled] at log
      rw [run_compute_disabled enabled]
      constructor
      · rw [whole]
        cases ending <;> simp [act, configured, enabled]
      · rw [log]
        cases ending <;> simp [act, configured, enabled]
  | true =>
      rw [enabled] at log
      have absent := get?_eq_none_of_missing enabled missing
      cases ending with
      | error error =>
          rw [run_compute_failed enabled absent]
          exact ⟨whole.symm, by simp [log, act]⟩
      | ok value =>
          rw [run_compute_completed enabled absent]
          constructor
          · rw [whole]
            simp [act, configured, enabled]
          · rw [log]
            simp [act, configured, enabled]

mutual

theorem run (cache : Cache V) (step : CacheStep V E) :
    Performs cache (cache.actions step) (cache.run step) := by
  cases step with
  | compute key nested ending =>
      rw [actions]
      cases found : cache.finds key with
      | false =>
          have performs := runAll cache.countMiss nested
          simpa using Performs.compute found performs
      | true =>
          obtain ⟨enabled, value, held⟩ := finds_eq_true_iff.mp found
          rw [run_compute_found enabled held]
          constructor <;> simp [act, moments, Moment.events, found]
  | remove key => exact ⟨rfl, rfl⟩
  | clear => exact ⟨rfl, rfl⟩
  | resetStats => exact ⟨rfl, rfl⟩
  | _ => exact ⟨rfl, rfl⟩

/-- A run is what its actions come to. -/
theorem runAll (cache : Cache V) (steps : List (CacheStep V E)) :
    Performs cache (cache.actionsAll steps) (cache.runAll steps) := by
  cases steps with
  | nil => exact ⟨rfl, rfl⟩
  | cons step rest =>
      have first := run cache step
      have others := runAll (cache.run step).cache rest
      rw [actionsAll]
      constructor
      · rw [perform_append, ← first.leads]
        exact others.leads
      · rw [moments_append, List.flatMap_append, ← first.reports, ← first.leads,
          ← others.reports]
        rfl

end

end Performs

/-! ### Calls that do not find their key -/

theorem actions_compute {nested : List (CacheStep V E)} {ending : Except E V}
    (missing : cache.finds key = false) :
    cache.actions (.compute key nested ending) =
      .seek key :: (cache.countMiss.actionsAll nested ++
        [.finish key ending]) := by
  rw [actions, missing]
  rfl

theorem act_seek_missing (missing : cache.finds key = false) :
    (cache.act (.seek key : CacheAction V E)).1 = cache.countMiss := by
  rw [act, missing]
  rfl

end Cache

end Formula
