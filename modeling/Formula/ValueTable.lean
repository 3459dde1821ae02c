import Std.Data.HashMap
import Std.Data.TreeMap

/-!
# Tables of values

A formula takes the values of its names from a table that its caller brings.
Any kind of table will do in which a name can be looked up; a name that the
table does not hold counts as zero.
-/

namespace Formula

/-- The value of every name. -/
abbrev Valuation := String → Int32

class ValueTable (Table : Type) where
  value? : Table → String → Option Int32

def valuation {Table : Type} [ValueTable Table] (table : Table) : Valuation :=
  fun name =>
  (ValueTable.value? table name).getD 0

/-- The table that holds nothing. -/
structure NoValues where
  deriving DecidableEq

instance : ValueTable NoValues where
  value? _ _ := none

instance : ValueTable (Std.HashMap String Int32) where
  value? table name := table[name]?

instance : ValueTable (Std.TreeMap String Int32) where
  value? table name := table[name]?

/-- The table that rule documents bring along. -/
abbrev VariableTable := Std.TreeMap String Int32

end Formula
