import VectorIndexing.Position.Pick
import VectorIndexing.Store

/-!
# Plans

A plan lists the storage offsets that the positions of an indexing call refer to. One position
indexes the storage of a container directly; several positions index an array, one for each
dimension, and the offsets are then listed with the first dimension varying fastest.

* `Layout`: all that positions need to know of a container.
* `Layout.columnMajor`, `Layout.partOffsets`: the offsets of the chosen part of an array.
* `Layout.plan`: the plan of an indexing call.
-/

namespace VectorIndexing

/-- What a container shows to the positions applied to it. -/
structure Layout where
  length : Nat
  names : Option Names := none
  dim : Option (List Nat) := none
  dimnames : Option (List (Option Names)) := none
  deriving DecidableEq, Repr

def Value.layout (store : Store) (x : Value) : Layout where
  length := x.length store
  names := x.names?
  dim := x.dim?
  dimnames := x.dimnames?

/-- Storage offsets, with what is to be done about names and shape. -/
structure Plan where
  offsets : List Offset
  /-- Names to be stored at the offsets. -/
  names : Option Names := none
  /-- For an array, what is selected along each dimension. -/
  dims : Option (List Selection) := none
  deriving DecidableEq, Repr

namespace Plan

def length (plan : Plan) : Nat := plan.offsets.length

def isEmpty (plan : Plan) : Bool := plan.offsets.isEmpty

def hasMissing (plan : Plan) : Bool := Slots.hasMissing plan.offsets

/-- Length that a container needs in order to have all the slots. -/
def reach (plan : Plan) : Nat := Slots.reach plan.offsets

end Plan

namespace Layout

/-! ## One position -/

/-- The plan of a single position under `[[`. A name that is not found is kept, for the
element that it will create. -/
def planOfPick (layout : Layout) (p : Position) : Pick → Plan
  | .missing => { offsets := [none] }
  | .slot o =>
    { offsets := [some o]
      names :=
        match p with
        | .names _ => if layout.length ≤ o then p.nameForNew?.map fun name => [name] else none
        | _ => none }

/-- The plan of a single position, which indexes the storage directly. -/
def planStorage (layout : Layout) (p : Position) (mode : Mode) (purpose : Purpose) :
    Checked Plan :=
  match mode with
  | .subset => do
    let s ← p.select layout.length layout.names purpose
    return { offsets := s.offsets, names := s.names }
  | .element => do
    let s ← Checked.ofExcept (p.selectOne layout.length layout.names purpose)
    return layout.planOfPick p s

/-! ## One position per dimension -/

/-- A dimension of an array. -/
structure Axis where
  extent : Nat
  names : Option Names
  deriving DecidableEq, Repr

/-- The dimensions of an array with the given extents. -/
def axes (layout : Layout) (extents : List Nat) : List Axis :=
  extents.zipIdx.map fun (extent, i) =>
    { extent, names := layout.dimnames.bind fun axisNames => (axisNames[i]?).join }

namespace Axis

/-- Offset of a name along a dimension; every name must be there. -/
def lookup (table : NameTable) (query : Option String) : Except Error Offset :=
  match table.find? query with
  | some o => .ok (some o)
  | none => .error .subscriptOutOfBounds

/-- What a position selects along a dimension under `[`, never reaching past its extent. -/
def select (axis : Axis) (p : Position) : Checked Selection :=
  match p with
  | .names queries => do
    let offsets ← Checked.ofExcept
      (queries.mapM (lookup (NameTable.ofNames axis.names queries.length)))
    return { offsets }
  | p => do
    let s ← p.select axis.extent none .read
    if axis.extent < Slots.reach s.offsets then throw .subscriptOutOfBounds
    return { offsets := s.offsets }

/-- What a position selects along a dimension under `[[`. -/
def selectOne (axis : Axis) (p : Position) : Except Error Selection := do
  match ← p.selectOne axis.extent axis.names .read with
  | .slot o => pure { offsets := [some o] }
  | .missing => throw .naSubscripted

/-- What a position selects along a dimension. -/
def choose (axis : Axis) (p : Position) : Mode → Checked Selection
  | .subset => axis.select p
  | .element => Checked.ofExcept (axis.selectOne p)

end Axis

/-- The storage offsets of all combinations of one selected offset per dimension, the first
dimension fastest. A combination with a missing offset is missing. -/
def columnMajor : List (List Offset) → List Nat → List Offset
  | offsets :: rest, extent :: extents =>
    (columnMajor rest extents).flatMap fun outer =>
      offsets.map fun inner => do return (← inner) + extent * (← outer)
  | _, _ => [some 0]

/-- As many offsets as there are combinations. -/
theorem length_columnMajor (selected : List (List Offset)) (extents : List Nat)
    (h : selected.length = extents.length) :
    (columnMajor selected extents).length = arraySize (selected.map List.length) := by
  induction selected generalizing extents with
  | nil => cases extents <;> rfl
  | cons offsets rest ih =>
    cases extents with
    | nil => simp at h
    | cons extent extents =>
      have rest_length := ih extents (by simpa using h)
      rw [columnMajor, List.length_flatMap]
      simp only [List.length_map, List.map_const', List.sum_replicate_nat, rest_length]
      exact Nat.mul_comm ..

/-- The storage offsets of the part of an array that is selected. They are words, and so is the
number of combinations: if it comes to zero as a word, none is listed. -/
def partOffsets (selected : List (List Offset)) (extents : List Nat) : List Offset :=
  if Word.count (selected.map List.length) = 0 then []
  else (columnMajor selected extents).map (Option.map Word.wrap)

/-- A part that can be counted has as many offsets as there are combinations. -/
theorem length_partOffsets (selected : List (List Offset)) (extents : List Nat)
    (h : selected.length = extents.length) :
    (partOffsets selected extents).length
      = if Word.count (selected.map List.length) = 0 then 0
        else arraySize (selected.map List.length) := by
  unfold partOffsets
  split
  · rfl
  · rw [List.length_map, length_columnMajor selected extents h]

/-- The plan of one position per dimension. Elements outside the array cannot be meant, so the
purpose makes no difference. -/
def planArray (layout : Layout) (positions : List Position) (extents : List Nat)
    (mode : Mode) : Checked Plan := do
  let selections ← (positions.zip (layout.axes extents)).mapM fun (p, axis) =>
    axis.choose p mode
  return {
    offsets := partOffsets (selections.map Selection.offsets) extents
    dims := some selections }

/-! ## All calls -/

/-- Why this number of positions does not fit this number of dimensions. -/
def arityError (mode : Mode) (positions rank : Nat) : Error :=
  match mode with
  | .element => .improperSubscript
  | .subset =>
    if positions = 2 ∧ rank = 0 then .incorrectSubscriptsMatrix else .incorrectSubscripts

/-- The plan of an indexing call. Without any position, everything is meant. -/
def plan (layout : Layout) (positions : List Position) (mode : Mode) (purpose : Purpose) :
    Checked Plan :=
  match positions with
  | [] => layout.planStorage .missing mode purpose
  | [p] => layout.planStorage p mode purpose
  | positions =>
    let extents := layout.dim.getD []
    if extents.length = positions.length then layout.planArray positions extents mode
    else throw (arityError mode positions.length extents.length)

end Layout

end VectorIndexing
