import VectorIndexing.Proofs.Arrays.Coordinates
import VectorIndexing.Proofs.Names.Lookup
import VectorIndexing.Proofs.Plans
import VectorIndexing.Proofs.WellFormed.Attributes

/-!
# Array positions stay inside the array

With one position per dimension, what is selected along a dimension lies below its extent, and so
the offsets into the storage lie below the product of the extents.

* `Position.lt_of_selectOne_read`: an element that is selected for reading exists.
* `Layout.Axis.below_of_choose`: what is selected along a dimension.
* `Layout.lt_arraySize_of_mem_columnMajor`: the bound on the offsets of a part of an array.
* `Layout.partOffsets_eq_columnMajor`: all of them are listed, if they can be counted.
* `Layout.below_of_planArray`: the plan of one position per dimension.
-/

namespace VectorIndexing

/-! ## One element -/

namespace Pick

theorem lt_of_ofOffset_read {offset length o : Nat}
    (h : ofOffset offset length .read = .ok (.slot o)) : o < length := by
  unfold ofOffset at h
  split at h
  · next hIn =>
    cases h
    exact hIn
  · cases h

theorem lt_of_ofIndex_read {entry : Option Int} {length o : Nat}
    (h : ofIndex entry length .read = .ok (.slot o)) : o < length := by
  cases entry with
  | none => cases h
  | some i =>
    simp only [ofIndex] at h
    split at h
    · cases h
    · split at h
      · exact lt_of_filter_eq_singleton (sole_eq_ok.mp h)
      · exact lt_of_ofOffset_read h

theorem lt_of_ofQuery_read {query : Option String} {length o : Nat} {names : Option Names}
    (hNames : ∀ given, names = some given → given.length = length)
    (h : ofQuery query length names .read = .ok (.slot o)) : o < length := by
  unfold ofQuery at h
  split at h
  · next o' hFound =>
    cases h
    exact NameTable.lt_of_find?_ofNames hNames hFound
  · cases h

theorem lt_of_ofMask_read {flags : List (Option Bool)} {length o : Nat}
    (h : ofMask flags length .read = .ok (.slot o)) : o < length := by
  unfold ofMask at h
  split at h
  · exact lt_of_ofOffset_read h
  · cases h
  · cases h
  · cases h

end Pick

/-- An element that is selected for reading exists. -/
theorem Position.lt_of_selectOne_read {p : Position} {length o : Nat} {names : Option Names}
    (hNames : ∀ given, names = some given → given.length = length)
    (h : p.selectOne length names .read = .ok (.slot o)) : o < length := by
  unfold selectOne at h
  split at h
  · cases h
  · cases h
  · cases h
  · cases h
  · exact Pick.lt_of_ofIndex_read h
  · exact Pick.lt_of_ofQuery_read hNames h
  · exact Pick.lt_of_ofMask_read h
  · cases h

/-! ## One dimension -/

namespace Layout.Axis

/-- The names along a dimension, if there are any, are as many as its extent. -/
def Named (axis : Axis) : Prop := ∀ given, axis.names = some given → given.length = axis.extent

variable {axis : Axis} {p : Position} {s : Selection} {session final : Session}

theorem below_of_mapM_lookup (hNamed : axis.Named) {queries : Names} {offsets : List Offset}
    (h : queries.mapM (lookup (NameTable.ofNames axis.names queries.length)) = .ok offsets) :
    Slots.Below axis.extent offsets := by
  intro o ho
  obtain ⟨i, hi⟩ := List.mem_iff_getElem?.mp ho
  obtain ⟨query, -, hLookup⟩ := (getElem?_of_mapM_eq_ok h).2 i _ hi
  unfold lookup at hLookup
  split at hLookup
  · next o' hFound =>
    cases hLookup
    exact NameTable.lt_of_find?_ofNames hNamed hFound
  · cases hLookup

theorem below_of_select (hNamed : axis.Named)
    (h : (axis.select p).run session = (.ok s, final)) : Slots.Below axis.extent s.offsets := by
  unfold select at h
  split at h
  · next queries =>
    obtain ⟨offsets, middle, hOffsets, h⟩ := Checked.run_bind_eq_ok.mp h
    obtain ⟨rfl, -⟩ := Checked.run_pure_eq_ok.mp h
    exact below_of_mapM_lookup hNamed (Checked.run_ofExcept_eq_ok.mp hOffsets).1
  · obtain ⟨selected, middle, -, h⟩ := Checked.run_bind_eq_ok.mp h
    split at h
    · cases h
    · next hReach =>
      obtain ⟨rfl, -⟩ := Checked.run_pure_eq_ok.mp h
      exact Slots.below_iff_reach_le.mpr (Nat.le_of_not_lt hReach)

/-- Under `[[` one element is selected. -/
theorem exists_of_selectOne (h : axis.selectOne p = .ok s) :
    ∃ o, p.selectOne axis.extent axis.names .read = .ok (.slot o)
      ∧ s = { offsets := [some o] } := by
  obtain ⟨pick, hPick, h⟩ := bind_eq_ok.mp h
  cases pick with
  | missing => cases h
  | slot o =>
    cases h
    exact ⟨o, hPick, rfl⟩

/-- What is selected along a dimension lies below its extent. -/
theorem below_of_choose (hNamed : axis.Named) {mode : Mode}
    (h : (axis.choose p mode).run session = (.ok s, final)) :
    Slots.Below axis.extent s.offsets := by
  cases mode with
  | subset => exact below_of_select hNamed h
  | element =>
    obtain ⟨o, hPick, rfl⟩ := exists_of_selectOne (Checked.run_ofExcept_eq_ok.mp h).1
    intro o' ho'
    cases List.mem_singleton.mp ho'
    exact Position.lt_of_selectOne_read hNamed hPick

end Layout.Axis

/-! ## All dimensions -/

/-- A traversal that succeeds has items and results in pairs. -/
theorem Checked.forall₂_of_run_mapM {α β : Type} {f : α → Checked β} {P : α → β → Prop}
    {xs : List α} {ys : List β} {session final : Session}
    (hf : ∀ x ∈ xs, ∀ y before after, (f x).run before = (.ok y, after) → P x y)
    (h : (xs.mapM f).run session = (.ok ys, final)) : List.Forall₂ P xs ys := by
  induction xs generalizing ys session with
  | nil =>
    rw [List.mapM_nil, run_pure_eq_ok] at h
    rw [h.1]
    exact .nil
  | cons x xs ih =>
    rw [List.mapM_cons] at h
    obtain ⟨y, middle, hHead, h⟩ := run_bind_eq_ok.mp h
    obtain ⟨tail, later, hTail, h⟩ := run_bind_eq_ok.mp h
    obtain ⟨rfl, rfl⟩ := run_pure_eq_ok.mp h
    exact .cons (hf x List.mem_cons_self y _ _ hHead)
      (ih (fun x hx => hf x (List.mem_cons_of_mem _ hx)) hTail)

namespace Layout

/-- An offset is put together from one offset below each extent, as in a numeral with the extents
as bases. -/
theorem lt_arraySize_of_mem_columnMajor {extents : List Nat} {selected : List (List Offset)}
    (h : List.Forall₂ Slots.Below extents selected) {o : Nat}
    (ho : some o ∈ columnMajor selected extents) : o < arraySize extents := by
  induction h generalizing o with
  | nil =>
    cases List.mem_singleton.mp ho
    exact Nat.one_pos
  | @cons extent offsets extents rest hFirst _ ih =>
    rw [columnMajor, List.mem_flatMap] at ho
    obtain ⟨outer, hOuter, ho⟩ := ho
    obtain ⟨inner, hInner, hSum⟩ := List.mem_map.mp ho
    obtain ⟨i, rfl, hOuterSum⟩ := Option.bind_eq_some_iff.mp hSum
    obtain ⟨j, rfl, hOffset⟩ := Option.bind_eq_some_iff.mp hOuterSum
    cases hOffset
    exact add_mul_lt_arraySize_cons (hFirst i hInner) (ih hOuter)

/-- One offset along each dimension is one offset into the storage. -/
theorem columnMajor_singletons {extents : List Nat} {selected : List (List Offset)}
    (h : List.Forall₂ (fun _ offsets => ∃ o, offsets = [some o]) extents selected) :
    ∃ o, columnMajor selected extents = [some o] := by
  induction h with
  | nil => exact ⟨0, rfl⟩
  | @cons extent offsets extents rest hFirst _ ih =>
    obtain ⟨inner, rfl⟩ := hFirst
    obtain ⟨outer, hOuter⟩ := ih
    refine ⟨inner + extent * outer, ?_⟩
    rw [columnMajor, hOuter]
    rfl

/-- As a word, an offset can only get smaller, so what is listed lies inside the array. -/
theorem lt_arraySize_of_mem_partOffsets {extents : List Nat} {selected : List (List Offset)}
    (h : List.Forall₂ Slots.Below extents selected) {o : Nat}
    (ho : some o ∈ partOffsets selected extents) : o < arraySize extents := by
  unfold partOffsets at ho
  split at ho
  · cases ho
  · obtain ⟨offset, hMem, hOffset⟩ := List.mem_map.mp ho
    obtain ⟨o', rfl, rfl⟩ := Option.map_eq_some_iff.mp hOffset
    exact Nat.lt_of_le_of_lt (Word.wrap_le o') (lt_arraySize_of_mem_columnMajor h hMem)

theorem partOffsets_singletons {extents : List Nat} {selected : List (List Offset)}
    (h : List.Forall₂ (fun _ offsets => ∃ o, offsets = [some o]) extents selected) :
    ∃ o, partOffsets selected extents = [some o] := by
  obtain ⟨o, hOffset⟩ := columnMajor_singletons h
  have hLength := length_columnMajor selected extents h.length_eq.symm
  rw [hOffset, List.length_singleton] at hLength
  have hCount : Word.count (selected.map List.length) = 1 := by
    have hFits : arraySize (selected.map List.length) < Word.size := by
      rw [← hLength]
      decide
    exact (Word.count_of_lt hFits).trans hLength.symm
  refine ⟨Word.wrap o, ?_⟩
  rw [partOffsets, hCount, if_neg Nat.one_ne_zero, hOffset]
  rfl

variable {layout : Layout} {positions : List Position} {extents : List Nat} {mode : Mode}

theorem map_extent_axes (layout : Layout) (extents : List Nat) :
    (layout.axes extents).map Axis.extent = extents := by
  apply List.ext_getElem?
  intro i
  simp [axes, Function.comp_def]

/-- What holds along each dimension holds along all of them. -/
theorem forall₂_of_mapM_choose (hArity : extents.length = positions.length)
    {P : Nat → List Offset → Prop} {selections : List Selection} {session final : Session}
    (hChoose : ∀ axis ∈ layout.axes extents, ∀ p s before after,
      (axis.choose p mode).run before = (.ok s, after) → P axis.extent s.offsets)
    (h : Checked.run ((positions.zip (layout.axes extents)).mapM
      fun (e : Position × Axis) => e.2.choose e.1 mode) session = (.ok selections, final)) :
    List.Forall₂ P extents (selections.map Selection.offsets) := by
  have hChosen : List.Forall₂ (fun (e : Position × Axis) (s : Selection) =>
      P e.2.extent s.offsets) (positions.zip (layout.axes extents)) selections := by
    refine Checked.forall₂_of_run_mapM ?_ h
    intro e he s before after hRun
    exact hChoose e.2 (List.of_mem_zip he).2 e.1 s before after hRun
  have hExtents : (positions.zip (layout.axes extents)).map (fun e => e.2.extent) = extents := by
    calc
      (positions.zip (layout.axes extents)).map (fun e => e.2.extent)
        = ((positions.zip (layout.axes extents)).map Prod.snd).map Axis.extent := by
          rw [List.map_map]
          rfl
      _ = (layout.axes extents).map Axis.extent := by
          rw [List.map_snd_zip (Nat.le_of_eq ((length_axes layout extents).trans hArity))]
      _ = extents := map_extent_axes layout extents
  rw [← hExtents, List.forall₂_map_left_iff, List.forall₂_map_right_iff]
  exact hChosen

/-- The plan of one position per dimension has no offset outside the array. -/
theorem below_of_planArray (hArity : extents.length = positions.length)
    (hNamed : ∀ axis ∈ layout.axes extents, axis.Named) {plan : Plan} {session final : Session}
    (h : (layout.planArray positions extents mode).run session = (.ok plan, final)) :
    Slots.Below (arraySize extents) plan.offsets := by
  obtain ⟨selections, hSelections, rfl⟩ := run_planArray_eq_ok.mp h
  have hBelow : List.Forall₂ Slots.Below extents (selections.map Selection.offsets) :=
    forall₂_of_mapM_choose hArity
      (fun axis hAxis _ _ _ _ hRun => Axis.below_of_choose (hNamed axis hAxis) hRun) hSelections
  intro o ho
  exact lt_arraySize_of_mem_partOffsets hBelow ho

/-- Under `[[` the plan of one position per dimension is one offset. -/
theorem exists_of_planArray_element (hArity : extents.length = positions.length) {plan : Plan}
    {session final : Session}
    (h : (layout.planArray positions extents .element).run session = (.ok plan, final)) :
    ∃ o, plan.offsets = [some o] := by
  obtain ⟨selections, hSelections, rfl⟩ := run_planArray_eq_ok.mp h
  have hSingle : List.Forall₂ (fun _ offsets => ∃ o, offsets = [some o]) extents
      (selections.map Selection.offsets) := by
    refine forall₂_of_mapM_choose hArity ?_ hSelections
    intro axis _ p s before after hRun
    obtain ⟨o, -, rfl⟩ := Axis.exists_of_selectOne (Checked.run_ofExcept_eq_ok.mp hRun).1
    exact ⟨o, rfl⟩
  exact partOffsets_singletons hSingle

end Layout

end VectorIndexing
