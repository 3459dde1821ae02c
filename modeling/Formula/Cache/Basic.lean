import Std.Data.TreeMap
import Formula.Cache.Config
import Formula.Event

/-!
# Caches

A cache holds computed values under their keys and drops the oldest ones when
there are too many.  Its counters are words of sixty-four bits.  While a value
is computed the computation may use the same cache, so that its key can be there
when it is done; the value that came first is then kept.
-/

namespace Formula

structure Cache (V : Type) where
  config : CacheConfig := {}
  entries : Std.TreeMap String V := {}
  /-- The keys of the entries, the oldest first. -/
  order : List String := []
  hits : UInt64 := 0
  misses : UInt64 := 0
  evictions : UInt64 := 0

/-- What an action on a cache gives: an answer, the cache afterwards, and what
it reported. -/
structure Outcome (V α : Type) where
  answer : α
  cache : Cache V
  events : List Event := []

namespace Cache

variable {V : Type}

def empty (config : CacheConfig) : Cache V := { config }

def get? (cache : Cache V) (key : String) : Option V := cache.entries[key]?

def contains (cache : Cache V) (key : String) : Bool :=
  cache.entries.contains key

def keys (cache : Cache V) : List String := cache.order

def size (cache : Cache V) : Nat := cache.entries.size

def isEmpty (cache : Cache V) : Bool := cache.entries.isEmpty

/-- Takes an entry out, wherever it stands in the order. -/
def remove (cache : Cache V) (key : String) : Option V × Cache V :=
  match cache.entries[key]? with
  | none => (none, cache)
  | some value =>
    (some value,
      { cache with
        entries := cache.entries.erase key
        order := cache.order.filter (· != key) })

def clear (cache : Cache V) : Cache V :=
  { cache with entries := {}, order := [] }

def resetStats (cache : Cache V) : Cache V :=
  { cache with hits := 0, misses := 0, evictions := 0 }

def countHit (cache : Cache V) : Cache V :=
  { cache with hits := cache.hits + 1 }

def countMiss (cache : Cache V) : Cache V :=
  { cache with misses := cache.misses + 1 }

/-- Drops the oldest entries until no more than the limit are left. -/
def trim (limit : Nat) (cache : Cache V) : Cache V × List Event :=
  if cache.entries.size ≤ limit then (cache, [])
  else
    match _waiting : cache.order with
    | [] => (cache, [])
    | oldest :: order =>
      let (after, events) := trim limit { cache with
        entries := cache.entries.erase oldest
        order
        evictions := cache.evictions + 1 }
      (after, .cacheEviction oldest :: events)
termination_by cache.order.length
decreasing_by simp [_waiting]

/-- Adds an entry for a key that has none. -/
def add (cache : Cache V) (key : String) (value : V) : Cache V × List Event :=
  let added := { cache with
    entries := cache.entries.insert key value
    order := cache.order ++ [key] }
  if cache.config.isBounded then added.trim cache.config.maxEntries
  else (added, [])

/-- Adds a computed value, unless its key has got an entry in the meantime; the
value that the cache holds is the answer. -/
def keep (cache : Cache V) (key : String) (value : V) : Outcome V V :=
  match cache.entries[key]? with
  | some present => { answer := present, cache }
  | none =>
    let (after, events) := cache.add key value
    { answer := value, cache := after, events }

/-- The value for a key, computed and added if there is none.  The computation
runs on the cache; besides a value or an error it gives a record of type `R` of
what it did, which comes back if it ran.  After an error nothing is added, and a
cache that is not enabled adds nothing ever. -/
def getOrCompute {E R : Type} (cache : Cache V) (key : String)
    (compute : Cache V → Outcome V (Except E V × R)) :
    Outcome V (Except E V × Option R) :=
  if !cache.config.enabled then
    let computed := compute cache.countMiss
    { computed with answer := (computed.answer.1, some computed.answer.2) }
  else
    match cache.entries[key]? with
    | some value =>
      { answer := (.ok value, none)
        cache := cache.countHit
        events := [.cacheHit key] }
    | none =>
      let computed := compute cache.countMiss
      match computed.answer with
      | (.error error, record) =>
        { answer := (.error error, some record)
          cache := computed.cache
          events := .cacheMiss key :: computed.events }
      | (.ok value, record) =>
        let kept := computed.cache.keep key value
        { answer := (.ok kept.answer, some record)
          cache := kept.cache
          events := .cacheMiss key :: computed.events ++ kept.events }

end Cache

end Formula
