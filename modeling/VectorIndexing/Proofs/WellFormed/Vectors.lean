import VectorIndexing.Proofs.Invariants.Basic
import VectorIndexing.Proofs.WellFormed.Basic

/-!
# Operations on vectors keep them well formed

Operations bring no elements with them except the fill value and what is written, and they change
elements and names alike. So every operation on a well-formed vector has a well-formed result, and
so have conversions.

* `TypedVector.WellFormedBy.extend`, `scatter`, `dropMarked`, …: one lemma for each operation.
* `Value.WellFormedBy.coerce`: conversion.
-/

namespace VectorIndexing

/-- How many elements are left depends on the flags and on their number only. -/
theorem Slots.length_dropMarked {α β : Type} (flags : List Bool) {xs : List α} {ys : List β}
    (h : xs.length = ys.length) :
    (dropMarked flags xs).length = (dropMarked flags ys).length := by
  induction flags generalizing xs ys with
  | nil => cases xs <;> cases ys <;> simp_all [dropMarked]
  | cons flag flags ih =>
    cases xs with
    | nil =>
      cases ys with
      | nil => rfl
      | cons y ys => cases h
    | cons x xs =>
      cases ys with
      | nil => cases h
      | cons y ys =>
        have hRest : (dropMarked flags xs).length = (dropMarked flags ys).length :=
          ih (Nat.succ.inj h)
        cases flag with
        | true => exact hRest
        | false => exact congrArg (· + 1) hRest

/-! ## Operations on vectors -/

namespace TypedVector

variable {sized : List Nat → Nat → Prop} {kind : VectorKind} {x : TypedVector kind}

namespace WellFormedBy

theorem gather (hx : x.WellFormedBy sized) (offsets : List Offset) :
    (x.gather offsets).WellFormedBy sized where
  elements := by
    intro e he
    rcases Slots.mem_gather he with rfl | hOld
    · exact kind.elemWellFormed_fill
    · exact hx.elements e hOld
  fit := by
    apply Attributes.FitBy.ofNames
    intro given hGiven
    obtain ⟨names, -, rfl⟩ := Option.map_eq_some_iff.mp hGiven
    rw [Slots.length_gather, length_gather]
  values := Attributes.valuesWellFormed_empty

theorem extend (hx : x.WellFormedBy sized) (n : Nat) : (x.extend n).WellFormedBy sized := by
  unfold TypedVector.extend
  split
  · exact hx
  · refine ⟨?_, hx.fit.withoutShape ?_, hx.values⟩
    · intro e he
      rcases Slots.mem_extend he with rfl | hOld
      · exact kind.elemWellFormed_fill
      · exact hx.elements e hOld
    · intro given hGiven
      obtain ⟨names, hNames, rfl⟩ := Option.map_eq_some_iff.mp hGiven
      rw [Slots.length_extend, hx.fit.names names hNames]
      exact (Slots.length_extend ..).symm

theorem scatter (hx : x.WellFormedBy sized) {values : List kind.Elem}
    (hValues : ∀ e ∈ values, kind.ElemWellFormedBy sized e) (offsets : List Offset) :
    (x.scatter offsets values).WellFormedBy sized where
  elements := by
    intro e he
    rcases Slots.mem_scatter he with hOld | hNew
    · exact hx.elements e hOld
    · exact hValues e hNew
  fit := by
    rw [length_scatter]
    exact hx.fit
  values := hx.values

theorem scatterNames (hx : x.WellFormedBy sized) (offsets : List Offset) (names : Names) :
    (x.scatterNames offsets names).WellFormedBy sized where
  elements := hx.elements
  fit := by
    apply hx.fit.rename
    rw [Slots.length_putAll, length_namesOrEmpty hx.fit.names]
  values := hx.values

theorem dropMarked (hx : x.WellFormedBy sized) (remove : List Bool) :
    (x.dropMarked remove).WellFormedBy sized where
  elements := fun e he => hx.elements e ((Slots.dropMarked_sublist remove _).subset he)
  fit := by
    apply hx.fit.withoutShape
    intro given hGiven
    obtain ⟨names, hNames, rfl⟩ := Option.map_eq_some_iff.mp hGiven
    exact Slots.length_dropMarked remove (hx.fit.names names hNames)
  values := hx.values

theorem withoutShape (hx : x.WellFormedBy sized) : x.withoutShape.WellFormedBy sized where
  elements := hx.elements
  fit := hx.fit.withoutShape hx.fit.names
  values := hx.values

theorem empty (kind : VectorKind) : (TypedVector.empty kind).WellFormedBy sized :=
  wellFormed_bare (by simp)

/-- The names of a list made from pairs are as many as the pairs. -/
theorem ofPairs {pairs : List (Option String × Value)}
    (h : ∀ p ∈ pairs, p.2.WellFormedBy sized) : (TypedVector.ofPairs pairs).WellFormedBy sized where
  elements := by
    intro e he
    obtain ⟨p, hp, rfl⟩ := List.mem_map.mp he
    exact h p hp
  fit := by
    apply Attributes.FitBy.ofNames
    intro given hGiven
    split at hGiven
    · cases hGiven
      simp [TypedVector.ofPairs, length]
    · cases hGiven
  values := Attributes.valuesWellFormed_empty

end WellFormedBy

end TypedVector

/-! ## Conversion -/

namespace Value

/-- Conversion changes elements and keeps their number, so the attributes still fit. -/
theorem WellFormedBy.coerce {sized : List Nat → Nat → Prop} {x : Value}
    (hx : x.WellFormedBy sized) {kind : VectorKind} {v : TypedVector kind}
    (h : x.coerce kind = .ok v) : v.WellFormedBy sized := by
  cases hx with
  | null =>
    cases h
    exact .empty kind
  | atomic k elements a hFit hOthers =>
    cases kind with
    | atomic target =>
      simp only [Value.coerce] at h
      split at h
      · cases h
        refine ⟨fun _ _ => trivial, ?_, hOthers⟩
        rw [TypedVector.length, List.length_map]
        exact hFit
      · cases h
    | list =>
      cases h
      refine ⟨?_, ?_, hOthers⟩
      · intro e he
        obtain ⟨y, -, rfl⟩ := List.mem_map.mp he
        exact wellFormed_bareAtomic k [y]
      · rw [TypedVector.length, List.length_map]
        exact hFit
  | list elements a hElements hFit hOthers =>
    cases kind with
    | atomic target => cases h
    | list =>
      cases h
      exact ⟨hElements, hFit, hOthers⟩
  | closure | environment | s4 => cases kind <;> cases h

end Value

end VectorIndexing
