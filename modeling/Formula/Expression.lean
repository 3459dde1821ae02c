import Formula.Event
import Formula.Program.Build
import Formula.Program.Compile

/-!
# Expressions

An expression is a source together with everything that compiling it gives, for
one of the two result types.  After that it can only be evaluated, which never
fails.
-/

namespace Formula

structure Expression (type : ValueType) where
  source : String
  /-- The names in the source, each once, in the order of their first
  occurrence. -/
  names : List String
  program : Program
  evaluator : Valuation → type.Carrier

namespace Expression

variable {type : ValueType}

/-- The expression that a source spells, and what is reported while it is
compiled. -/
def compile (type : ValueType) (source : String) :
    Except ParseError (Expression type) × List Event :=
  match Program.ofSource source type with
  | .error error => (.error error, [.notCompiled source error])
  | .ok (program, names) =>
    match program.compile with
    | .error error => (.error error, [])
    | .ok compiled =>
      match compiled.as? type with
      | none => (.error (.internal (.notOfType type)), [])
      | some evaluator =>
        (.ok { source, names, program, evaluator },
          [.compiled source type names.length program.instructions.length])

def ofSource (type : ValueType) (source : String) :
    Except ParseError (Expression type) :=
  (compile type source).1

def evaluate {Table : Type} [ValueTable Table] (expression : Expression type)
    (table : Table) : type.Carrier :=
  expression.evaluator (valuation table)

/-- Expressions of one type with the same source have the same meaning. -/
instance : BEq (Expression type) where
  beq left right := left.source == right.source

def description (expression : Expression type) : String :=
  "Expression \x7b type: " ++ type.title ++
    ", source: " ++ quoted expression.source ++
    ", variables: [" ++ ", ".intercalate (expression.names.map quoted) ++
    "] \x7d"

end Expression

end Formula
