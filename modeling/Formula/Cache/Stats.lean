import Formula.Cache.Basic
import Formula.Number.Shortest

/-!
# Cache statistics

How full a cache is and how often it could answer at once.
-/

namespace Formula

structure CacheStats where
  entries : Nat
  /-- Zero stands for no limit. -/
  maxEntries : Nat
  hits : UInt64
  misses : UInt64
  evictions : UInt64

namespace CacheStats

/-- The share of the requests that were answered at once; zero if there were
none. -/
def hitRate (stats : CacheStats) : Float :=
  if 0 < stats.hits + stats.misses then
    stats.hits.toFloat / (stats.hits + stats.misses).toFloat
  else 0

def summary (stats : CacheStats) : String :=
  let capacity :=
    if 0 < stats.maxEntries then toString stats.maxEntries else "∞"
  s!"Cache: {stats.entries} / {capacity} entries, " ++
    s!"hit rate: {tenthsText (stats.hitRate * 100)}% " ++
    s!"({stats.hits.toNat} hits, {stats.misses.toNat} misses), " ++
    s!"evictions: {stats.evictions.toNat}"

def description (stats : CacheStats) : String :=
  "CacheStats \x7b " ++
    s!"entries: {stats.entries}, max_entries: {stats.maxEntries}, " ++
    s!"hits: {stats.hits.toNat}, " ++
    s!"misses: {stats.misses.toNat}, evictions: {stats.evictions.toNat}, " ++
    s!"hit_rate: {shortestText stats.hitRate}" ++ " \x7d"

end CacheStats

namespace Cache

variable {V : Type}

def stats (cache : Cache V) : CacheStats where
  entries := cache.size
  maxEntries := cache.config.maxEntries
  hits := cache.hits
  misses := cache.misses
  evictions := cache.evictions

def description (cache : Cache V) : String :=
  "ComputeCache \x7b config: " ++ cache.config.description ++ ", stats: " ++
    cache.stats.description ++ " \x7d"

end Cache

end Formula
