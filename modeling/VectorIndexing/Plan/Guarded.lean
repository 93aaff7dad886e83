import VectorIndexing.Plan.Odometer
import VectorIndexing.Position.Guarded

/-!
# Guarded plans

The plan of an indexing call from guarded positions. The part of an array that is selected is listed
by counting, where every place that is taken is a step that may break.

* `Guarded.plan`: the plan of an indexing call.
-/

namespace VectorIndexing

namespace Guarded

/-- The plan of a single position, which indexes the storage directly. -/
def planStorage (layout : Layout) (p : Position) (mode : Mode) (purpose : Purpose) :
    Guarded Session Plan :=
  match mode with
  | .subset => do
    let s ← select p layout.length layout.names purpose
    return { offsets := s.offsets, names := s.names }
  | .element => do
    let s ← ofOutcome (selectOne p layout.length layout.names purpose)
    return layout.planOfPick p s

/-- What a position selects along a dimension under `[`. -/
def selectAlong (axis : Layout.Axis) (p : Position) : Guarded Session Selection :=
  match p with
  | .names queries => ofSound (axis.select (.names queries))
  | p => do
    let s ← select p axis.extent none .read
    if axis.extent < Slots.reach s.offsets then refuse .subscriptOutOfBounds
    return { offsets := s.offsets }

/-- What a position selects along a dimension under `[[`. -/
def selectOneAlong (axis : Layout.Axis) (p : Position) : Except Failure Selection := do
  match ← selectOne p axis.extent axis.names .read with
  | .slot o => pure { offsets := [some o] }
  | .missing => throw (.refused .naSubscripted)

/-- What a position selects along a dimension. -/
def choose (axis : Layout.Axis) (p : Position) : Mode → Guarded Session Selection
  | .subset => selectAlong axis p
  | .element => ofOutcome (selectOneAlong axis p)

/-- The plan of one position per dimension. -/
def planArray (layout : Layout) (positions : List Position) (extents : List Nat) (mode : Mode) :
    Guarded Session Plan := do
  let selections ← (positions.zip (layout.axes extents)).mapM fun (p, axis) =>
    choose axis p mode
  let offsets ← ofStep (Odometer.offsets (selections.map Selection.offsets) extents)
  return { offsets, dims := some selections }

/-- The plan of an indexing call. -/
def plan (layout : Layout) (positions : List Position) (mode : Mode) (purpose : Purpose) :
    Guarded Session Plan :=
  match positions with
  | [] => planStorage layout .missing mode purpose
  | [p] => planStorage layout p mode purpose
  | positions =>
    let extents := layout.dim.getD []
    if extents.length = positions.length then planArray layout positions extents mode
    else refuse (Layout.arityError mode positions.length extents.length)

end Guarded

end VectorIndexing
