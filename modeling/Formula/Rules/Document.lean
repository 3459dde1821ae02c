import Formula.Cache.Config
import Formula.Program.Codec
import Formula.Value
import Formula.ValueTable

/-!
# Rule documents

A rule names a formula of one of the two types and may say which value it is
expected to have.  A document lists rules, the values of the names in them, and
how to cache its formulas.
-/

namespace Formula

def Value.ofJson : Json → Except Json.Mismatch Value
  | .bool value => .ok (.boolean value)
  | value => (Json.asInt32 value).map .integer

structure Rule where
  name : String
  kind : ValueType
  expression : String
  /-- The value that the formula has to have, if the rule is an assertion. -/
  expect : Option Value := none
  deriving DecidableEq

def Rule.ofJson (value : Json) : Except Json.Mismatch Rule := do
  let members ←
    Json.asRecord ["name", "kind", "expression", "expect"] true value
  let expect? ← Json.field? members "expect" (Json.asNullable Value.ofJson)
  return {
    name := ← Json.field members "name" Json.asString
    kind := ← Json.field members "kind" ValueType.ofJson
    expression := ← Json.field members "expression" Json.asString
    expect := expect?.join }

structure RuleDocument where
  cache : Option CacheConfig := none
  values : VariableTable := {}
  rules : List Rule

namespace RuleDocument

def cacheConfig (document : RuleDocument) : CacheConfig :=
  document.cache.getD {}

end RuleDocument

/-- A variable table is an object of integers; of a repeated name the last value
counts. -/
def VariableTable.ofJson (value : Json) : Except Json.Mismatch VariableTable :=
  (Json.asEntries Json.asInt32 value).map fun entries =>
    entries.foldl (fun table entry => table.insert entry.1 entry.2) ∅

namespace RuleDocument

def ofJson (value : Json) : Except Json.Mismatch RuleDocument := do
  let members ← Json.asRecord ["cache", "variables", "rules"] true value
  let cache? ← Json.field? members "cache" (Json.asNullable CacheConfig.ofJson)
  let values? ← Json.field? members "variables" VariableTable.ofJson
  return {
    cache := cache?.join
    values := values?.getD ∅
    rules := ← Json.field members "rules" (Json.asList Rule.ofJson) }

/-- The document that a text spells. -/
def ofText (text : String) : Except Json.Mismatch RuleDocument :=
  Json.parse text >>= ofJson

/-- The message for a text that spells none. -/
def mismatchMessage (mismatch : Json.Mismatch) : String :=
  s!"规则文档格式错误: {mismatch.message}"

end RuleDocument

end Formula
