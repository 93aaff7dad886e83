import VectorIndexing.Proofs.WellFormed.Vectors

/-!
# Reading well-formed vectors

What is read from a well-formed vector is well formed: selected names go with selected elements, and
the extents that part of an array keeps have the product of all, since the dimensions that are
dropped have one element each.

* `arraySize_keptDimensions`: the size of part of an array.
* `TypedVector.WellFormedBy.part`: reading by a plan under `[`.
-/

namespace VectorIndexing

/-! ## Parts of arrays -/

theorem arraySize_filter_length_ne_one (dimensions : List (Selection × Nat)) :
    arraySize ((dimensions.filter fun d => d.1.length != 1).map fun d => d.1.length)
      = arraySize (dimensions.map fun d => d.1.length) := by
  induction dimensions with
  | nil => rfl
  | cons d rest ih =>
    have hSize : arraySize ((d :: rest).map fun d => d.1.length)
        = d.1.length * arraySize (rest.map fun d => d.1.length) := rfl
    by_cases hd : d.1.length = 1
    · have hDropped : (d :: rest).filter (fun d => d.1.length != 1)
          = rest.filter fun d => d.1.length != 1 := by simp [hd]
      rw [hDropped, ih, hSize, hd, Nat.one_mul]
    · have hKept : (d :: rest).filter (fun d => d.1.length != 1)
          = d :: rest.filter fun d => d.1.length != 1 := by simp [hd]
      rw [hKept, hSize, ← ih]
      rfl

/-- Dropping dimensions of extent one does not change the size of an array. -/
theorem arraySize_keptDimensions (dims : List Selection) :
    arraySize ((keptDimensions dims).map fun d => d.1.length)
      = arraySize (dims.map Selection.length) := by
  have hAll : (dims.zipIdx.map fun d => d.1.length) = dims.map Selection.length := by
    apply List.ext_getElem?
    intro i
    simp [List.getElem?_zipIdx, Function.comp_def]
  rw [keptDimensions, arraySize_filter_length_ne_one, hAll]

/-- Nor does it change the number that the size counts as. -/
theorem count_keptDimensions (dims : List Selection) :
    Word.count ((keptDimensions dims).map fun d => d.1.length)
      = Word.count (dims.map Selection.length) := by
  have hWords : ((keptDimensions dims).map fun d => d.1.length).all (· < Word.size)
      = (dims.map Selection.length).all (· < Word.size) := by
    have hAll : (dims.zipIdx.map fun d => d.1.length) = dims.map Selection.length := by
      apply List.ext_getElem?
      intro i
      simp [List.getElem?_zipIdx, Function.comp_def]
    rw [← hAll, List.all_map, List.all_map, keptDimensions, List.all_filter]
    congr 1
    funext d
    by_cases hd : d.1.length = 1
    · simp [hd, Word.size]
    · simp [hd]
  have hSize := arraySize_keptDimensions dims
  unfold arraySize at hSize
  rw [Word.count_eq, Word.count_eq, hWords, hSize]

theorem isArrayLength_keptDimensions (dims : List Selection) (n : Nat) :
    IsArrayLength ((keptDimensions dims).map fun d => d.1.length) n
      ↔ IsArrayLength (dims.map Selection.length) n := by
  rw [IsArrayLength, IsArrayLength, arraySize_keptDimensions, count_keptDimensions]

/-- The extent of a single dimension is the size. -/
theorem isArrayLength_singleton {extent n : Nat} : IsArrayLength [extent] n ↔ extent = n := by
  have hSize : arraySize [extent] = extent := Nat.mul_one extent
  have hCount : Word.count [extent] = extent := by
    rw [Word.count_eq]
    split
    · next hWord => exact (Word.wrap_of_lt (by simpa using hWord)).trans hSize
    · exact hSize
  rw [IsArrayLength, hSize, hCount, or_self]

namespace Attributes

theorem length_of_selectedDimnames {source : Attributes Value} {dimension : Selection × Nat}
    {names : Names} (h : source.selectedDimnames dimension = some names) :
    names.length = dimension.1.length := by
  obtain ⟨axis, -, rfl⟩ := Option.map_eq_some_iff.mp h
  exact Slots.length_gather ..

/-- The attributes of part of an array fit the number of elements selected. -/
theorem FitBy.ofPart (source : Attributes Value) {dims : List Selection} {n : Nat}
    (hSize : IsArrayLength (dims.map Selection.length) n) :
    (source.ofPart dims).FitBy IsArrayLength n := by
  rw [← isArrayLength_keptDimensions] at hSize
  unfold Attributes.ofPart
  split
  · exact FitBy.empty n
  · next dimension hKept =>
    rw [hKept] at hSize
    apply FitBy.ofNames
    intro names hNames
    rw [length_of_selectedDimnames hNames]
    exact isArrayLength_singleton.mp hSize
  · next hNone _ =>
    refine FitBy.ofDim (by simpa using hNone) hSize fun axes hAxes => ?_
    obtain ⟨axisNames, -, rfl⟩ := Option.map_eq_some_iff.mp hAxes
    rw [List.forall₂_map_left_iff, List.forall₂_map_right_iff, List.forall₂_same]
    exact fun dimension _ names hNames => length_of_selectedDimnames hNames

end Attributes

namespace TypedVector

variable {kind : VectorKind} {x : TypedVector kind}

theorem WellFormedBy.part (hx : x.WellFormedBy IsArrayLength) {plan : Plan}
    (hPlan : plan.DimsSized) : (x.part plan).WellFormedBy IsArrayLength := by
  have hGathered := hx.gather plan.offsets
  unfold TypedVector.part
  split
  · exact hGathered
  · next dims hDims =>
    refine ⟨hGathered.elements, ?_, ?_⟩
    · have hSized : IsArrayLength (dims.map Selection.length) (x.gather plan.offsets).length := by
        rw [length_gather]
        exact hPlan dims hDims
      exact Attributes.FitBy.ofPart _ hSized
    · unfold Attributes.ofPart
      split <;> exact nofun

end TypedVector

end VectorIndexing
