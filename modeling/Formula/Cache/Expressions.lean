import Formula.Cache.Run
import Formula.Expression
import Formula.Json.Reader

/-!
# Caches of expressions

An expression cache keeps compiled expressions under their sources.  There is
one for each type; the two shared ones of a process are created on first use,
with the default configuration unless they have been initialised before.
-/

namespace Formula

abbrev ExpressionCache (type : ValueType) := Cache (Expression type)

namespace ExpressionCache

variable {type : ValueType}

/-- The expression for a source, which is compiled if the cache does not hold
it. -/
def getOrCompile (cache : ExpressionCache type) (source : String) :
    Outcome (Expression type) (Except ParseError (Expression type)) :=
  let outcome := cache.getOrCompute source fun during =>
    let (result, events) := Expression.compile type source
    { answer := (result, ()), cache := during, events }
  { outcome with answer := outcome.answer.1 }

end ExpressionCache

/-- One thing for each of the two types. -/
structure PerType (Item : ValueType → Type) where
  integer : Item .integer
  boolean : Item .boolean

namespace PerType

variable {Item : ValueType → Type}

def get (items : PerType Item) : (type : ValueType) → Item type
  | .integer => items.integer
  | .boolean => items.boolean

def set (items : PerType Item) : (type : ValueType) → Item type → PerType Item
  | .integer, item => { items with integer := item }
  | .boolean, item => { items with boolean := item }

end PerType

/-- The two shared caches, as far as they have been created. -/
abbrev SharedCaches := PerType fun type => Option (ExpressionCache type)

namespace SharedCaches

/-- No shared cache has been used or initialised. -/
def fresh : SharedCaches := ⟨none, none⟩

/-- The shared cache of a type, created with the default configuration if need
be. -/
def cache (caches : SharedCaches) (type : ValueType) : ExpressionCache type :=
  (caches.get type).getD (Cache.empty {})

/-- Creates those shared caches that do not exist yet with the given
configuration, and says whether neither existed. -/
def initialise (caches : SharedCaches) (config : CacheConfig) :
    Bool × SharedCaches :=
  (caches.integer.isNone && caches.boolean.isNone,
    { integer := caches.integer.or (some (Cache.empty config))
      boolean := caches.boolean.or (some (Cache.empty config)) })

/-- The expression for a source, by way of the shared cache of its type. -/
def getOrCompile (caches : SharedCaches) (type : ValueType) (source : String) :
    Except ParseError (Expression type) × SharedCaches × List Event :=
  let outcome := (caches.cache type).getOrCompile source
  (outcome.answer, caches.set type (some outcome.cache), outcome.events)

end SharedCaches

namespace Expression

variable {type : ValueType}

/-- An expression is written as its source. -/
def toJson (expression : Expression type) : Json := .text expression.source

/-- Why a JSON text is no expression. -/
inductive ReadError where
  /-- The text does not begin with a string. -/
  | notAString
  | notCompiled (error : ParseError)
  /-- Something follows the string. -/
  | notAtEnd

/-- The expression that a JSON text stands for, compiled by way of the shared
caches.  The string is compiled before the text behind it is looked at, so that
an error in the formula comes first. -/
def ofText (caches : SharedCaches) (type : ValueType) (text : String) :
    Except ReadError (Expression type) × SharedCaches :=
  match Json.leadingString? text with
  | none => (.error .notAString, caches)
  | some (source, rest) =>
    let (result, after, _) := caches.getOrCompile type source
    match result with
    | .error error => (.error (.notCompiled error), after)
    | .ok expression =>
      (if rest.all Json.isBlank then .ok expression else .error .notAtEnd,
        after)

end Expression

end Formula
