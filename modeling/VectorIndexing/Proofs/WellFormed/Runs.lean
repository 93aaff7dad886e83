import VectorIndexing.Proofs.Invariants.Runs
import VectorIndexing.Proofs.WellFormed.Attributes
import VectorIndexing.Proofs.WellFormed.Reading

/-!
# Runs keep everything well formed

Whatever is done with values without attributes, all values that are made on the way and all
values that are bound in environments are well formed. Only an array of more elements than a word
can count escapes: a part of that size is read without any elements.

* `Value.invariant_wellFormed`: the primitive operations.
* `Workspace.wellFormed_run`: any number of operations on values without attributes.
-/

namespace VectorIndexing

theorem VectorKind.elemHas_wellFormed {kind : VectorKind} {e : kind.Elem} :
    kind.ElemHas (Value.WellFormedBy IsArrayLength) e
      ↔ kind.ElemWellFormedBy IsArrayLength e := by
  cases kind <;> exact Iff.rfl

/-- The primitive operations keep values well formed. -/
theorem Value.invariant_wellFormed : Invariant (WellFormedBy IsArrayLength) where
  null := .null
  environment := .environment
  elements := fun hv e he =>
    VectorKind.elemHas_wellFormed.mpr ((TypedVector.wellFormed_toValue_iff.mp hv).elements e he)
  scalar := fun k e => wellFormed_bareAtomic k [e]
  coerce := fun hx h => TypedVector.wellFormed_toValue_iff.mpr (hx.coerce h)
  part := fun hv hPlan =>
    TypedVector.wellFormed_toValue_iff.mpr ((TypedVector.wellFormed_toValue_iff.mp hv).part hPlan)
  extend := fun length hv =>
    TypedVector.wellFormed_toValue_iff.mpr
      ((TypedVector.wellFormed_toValue_iff.mp hv).extend length)
  scatter := fun offsets _ hv hValues =>
    TypedVector.wellFormed_toValue_iff.mpr ((TypedVector.wellFormed_toValue_iff.mp hv).scatter
      (fun e he => VectorKind.elemHas_wellFormed.mp (hValues e he)) offsets)
  scatterNames := fun offsets names hv =>
    TypedVector.wellFormed_toValue_iff.mpr
      ((TypedVector.wellFormed_toValue_iff.mp hv).scatterNames offsets names)
  dropMarked := fun remove hv =>
    TypedVector.wellFormed_toValue_iff.mpr
      ((TypedVector.wellFormed_toValue_iff.mp hv).dropMarked remove)
  withoutShape := fun hv =>
    TypedVector.wellFormed_toValue_iff.mpr (TypedVector.wellFormed_toValue_iff.mp hv).withoutShape
  ofPairs := fun hPairs => TypedVector.wellFormed_toValue_iff.mpr (.ofPairs hPairs)
  setAttribute := fun hx hValue h => hx.setAttribute hValue h
  getAttribute := fun hx h => hx.getAttribute h

namespace Workspace

/-- Every value made so far and every binding is well formed: extents multiply to the length
wherever their product fits a word (`isArrayLength_iff`), and all else fits the length as it is. -/
structure WellFormed (w : Workspace) : Prop where
  store : ∀ e name x, w.world.store.binding? e name = some x → x.WellFormedBy IsArrayLength
  values : ∀ x ∈ w.values, x.WellFormedBy IsArrayLength

/-- Nothing in the workspace has attributes. -/
structure Plain (w : Workspace) : Prop where
  store : ∀ e name x, w.world.store.binding? e name = some x → x.Plain
  values : ∀ x ∈ w.values, x.Plain

theorem Plain.wellFormed {w : Workspace} (h : w.Plain) : w.WellFormed where
  store := fun e name x hx => (h.store e name x hx).wellFormed
  values := fun x hx => (h.values x hx).wellFormed

theorem WellFormed.run {w : Workspace} (h : w.WellFormed) (operations : List Operation) :
    (w.run operations).WellFormed := by
  have hRun := Value.invariant_wellFormed.run ⟨h.store, h.values⟩ operations
  exact ⟨hRun.store, hRun.values⟩

/-- Starting from values without attributes, every value that any operations make or bind is
well formed. -/
theorem wellFormed_run {w : Workspace} (h : w.Plain) (operations : List Operation) :
    (w.run operations).WellFormed :=
  h.wellFormed.run operations

/-- Six numbers, the extents of an array of them, and names for its rows. -/
def rowsStart : Workspace where
  values :=
    [.atomic .integer [some 1, some 2, some 3, some 4, some 5, some 6] {},
      .atomic .integer [some 2, some 3] {},
      .list [.atomic .character [some "r", some "s"] {}, .null] {}]

/-- Make the array, read two of its columns, attach the whole to the part, extend the part and
bind it. -/
def rowsOperations : List Operation :=
  [.setAttribute 0 "dim" 1, .setAttribute 3 "dimnames" 2,
    .get 4 [.missing, .indices [some 1, some 3] none] .subset, .setAttribute 5 "whole" 4,
    .assign 6 [.indices [some 5, some 6] none] 1 .subset, .bind ⟨0⟩ "part" 7]

theorem wellFormed_run_rows :
    rowsStart.Plain ∧ (rowsStart.run rowsOperations).WellFormed
      ∧ ((rowsStart.run rowsOperations).values.map Value.dim?)
          = [none, none, none, some [2, 3], some [2, 3], some [2, 2], some [2, 2], none, none] := by
  have hPlain : rowsStart.Plain := by
    refine ⟨nofun, ?_⟩
    intro x hx
    simp only [rowsStart, List.mem_cons, List.not_mem_nil, or_false] at hx
    rcases hx with rfl | rfl | rfl
    · exact .atomic .integer _
    · exact .atomic .integer _
    · refine .list _ ?_
      intro y hy
      rcases List.mem_cons.mp hy with rfl | hy
      · exact .atomic .character _
      · rw [List.mem_singleton.mp hy]
        exact .null
  exact ⟨hPlain, wellFormed_run hPlain rowsOperations, rfl⟩

end Workspace

end VectorIndexing
