import Formula.Json.Decode
import Formula.Program.Basic

/-!
# Cache configurations

Whether a cache keeps anything, and how much.  A written configuration names
only what differs from the default.
-/

namespace Formula

structure CacheConfig where
  /-- A cache that is not enabled computes every value anew. -/
  enabled : Bool := true
  /-- The greatest number of entries; zero stands for no limit. -/
  maxEntries : Nat := 1024
  deriving DecidableEq

namespace CacheConfig

def unbounded : CacheConfig := { maxEntries := 0 }

def isBounded (config : CacheConfig) : Bool := decide (0 < config.maxEntries)

def ofJson (value : Json) : Except Json.Mismatch CacheConfig := do
  let members ← Json.asRecord ["enabled", "max_entries"] false value
  let enabled? ← Json.field? members "enabled" Json.asBool
  let maxEntries? ← Json.field? members "max_entries" Json.asCount
  let default : CacheConfig := {}
  return {
    enabled := enabled?.getD default.enabled
    maxEntries := maxEntries?.getD default.maxEntries }

/-- The configuration that a text spells. -/
def ofText (text : String) : Except Json.Mismatch CacheConfig :=
  Json.parse text >>= ofJson

/-- The message for a text that spells none. -/
def mismatchMessage (mismatch : Json.Mismatch) : String :=
  s!"缓存配置解析失败: {mismatch.message}"

def description (config : CacheConfig) : String :=
  "CacheConfig \x7b enabled: " ++ booleanText config.enabled ++
    ", max_entries: " ++ toString config.maxEntries ++ " \x7d"

end CacheConfig

end Formula
