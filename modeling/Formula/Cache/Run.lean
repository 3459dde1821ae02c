import Formula.Cache.Stats

/-!
# Runs of cache steps

A step is one call on a cache.  A step that computes a value carries the steps
which the computation takes on the same cache, to any depth, and how it ends.
-/

namespace Formula

inductive CacheStep (V E : Type) where
  | get (key : String)
  | contains (key : String)
  | isEmpty
  | remove (key : String)
  | clear
  | resetStats
  | config
  | describe
  /-- Get the value for a key, or compute it: first take the nested steps, then
  end as given. -/
  | compute (key : String) (nested : List (CacheStep V E)) (ending : Except E V)

inductive CacheAnswer (V E : Type) where
  | done
  | flag (value : Bool)
  | entry (value : Option V)
  | config (config : CacheConfig)
  | text (value : String)
  /-- The result, and the answers of the nested steps if the computation ran. -/
  | computed (result : Except E V) (nested : Option (List (CacheAnswer V E)))

namespace Cache

variable {V E : Type}

mutual

def run (cache : Cache V) : CacheStep V E → Outcome V (CacheAnswer V E)
  | .get key => { answer := .entry (cache.get? key), cache }
  | .contains key => { answer := .flag (cache.contains key), cache }
  | .isEmpty => { answer := .flag cache.isEmpty, cache }
  | .remove key =>
    let (value, after) := cache.remove key
    { answer := .entry value, cache := after }
  | .clear => { answer := .done, cache := cache.clear }
  | .resetStats => { answer := .done, cache := cache.resetStats }
  | .config => { answer := .config cache.config, cache }
  | .describe => { answer := .text cache.description, cache }
  | .compute key nested ending =>
    let outcome := cache.getOrCompute key fun during =>
      let ran := runAll during nested
      { ran with answer := (ending, ran.answer) }
    { outcome with answer := .computed outcome.answer.1 outcome.answer.2 }

def runAll (cache : Cache V) :
    List (CacheStep V E) → Outcome V (List (CacheAnswer V E))
  | [] => { answer := [], cache }
  | step :: rest =>
    let first := run cache step
    let others := runAll first.cache rest
    { answer := first.answer :: others.answer
      cache := others.cache
      events := first.events ++ others.events }

end

end Cache

end Formula
