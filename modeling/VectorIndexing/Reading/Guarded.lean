import VectorIndexing.Plan.Guarded
import VectorIndexing.Reading.Get

/-!
# Guarded reading

Reading by position, where taking what is selected along a dimension is a step that may break.

* `Guarded.get`, `Guarded.getPath`: the reads of indexing calls.
-/

namespace VectorIndexing

namespace Guarded

/-! ## Parts of arrays -/

section

variable (source : Attributes Value) (dims : List Selection)

/-- The names along a dimension that were selected, if the dimension has names. -/
def selectedDimnames (k : Nat) : Except Fault (Option Names) :=
  match source.dimnames.bind fun axisNames => axisNames[k]?.join with
  | some names => do
    let selection ← Slots.takeAt dims k
    return some (Slots.gather none names selection.offsets)
  | none => return none

/-- The numbers of the dimensions along which other than one element was selected. -/
def keptDimensions : Except Fault (List Nat) := do
  let counted ← (List.range dims.length).mapM fun k => do
    return (k, (← Slots.takeAt dims k).length)
  return (counted.filter fun dimension => dimension.2 != 1).map Prod.fst

/-- Attributes of a part of an array with these dimensions. -/
def ofDimensions (kept : List Nat) : Except Fault (Attributes Value) := do
  let extents ← kept.mapM fun k => do return (← Slots.takeAt dims k).length
  match source.dimnames with
  | none => return { dim := some extents }
  | some _ =>
    let dimnames ← kept.mapM (selectedDimnames source dims)
    return { dim := some extents, dimnames := some dimnames }

/-- Attributes of a part of an array. -/
def ofPart : Except Fault (Attributes Value) := do
  match ← keptDimensions dims with
  | [] => return {}
  | [k] => return { names := ← selectedDimnames source dims k }
  | kept => ofDimensions source dims kept

end

/-! ## Reading -/

/-- The elements of a value that a plan selects. -/
def extract (x : Value) (plan : Plan) (mode : Mode) : Except Failure Value :=
  match x.vector?, mode, plan.dims with
  | some ⟨_, v⟩, .subset, some dims => do
    let attributes ← (ofPart v.attributes dims).mapError .broken
    return ({ v.gather plan.offsets with attributes } : TypedVector _).toValue
  | _, _, _ => (x.extract plan mode).mapError .refused

/-- A read that does not descend. -/
def getDirect (store : Store) (x : Value) (positions : List Position) (mode : Mode) :
    Guarded Session Value :=
  match x with
  | .null | .atomic _ _ _ | .list _ _ => do
    let plan ← plan (x.layout store) positions mode .read
    ofOutcome (extract x plan mode)
  | x => ofSound (x.getDirect store positions mode)

/-! ## Paths -/

/-- The element that a step of a path descends into. -/
def stepOffset (step : Position) (length : Nat) (names : Option Names) (level : Nat) :
    Except Failure Nat :=
  match selectOne step length names .read with
  | .ok (.slot o) => .ok o
  | .ok .missing | .error (.refused .subscriptOutOfBounds)
  | .error (.refused .selectLessThanOne) => .error (.refused (.noSuchIndexAtLevel (level + 1)))
  | .error failure => .error failure

/-- Read at the end of a path. -/
def getAlong (store : Store) (x : Value) (steps : List Position) (level : Nat) :
    Guarded Session Value :=
  match steps with
  | [] => refuse .selectLessThanOne
  | [last] => getDirect store x [last] .element
  | step :: next :: rest =>
    match x with
    | .list elements attributes => do
      let o ← ofOutcome (stepOffset step elements.length attributes.names level)
      match elements[o]? with
      | some child => getAlong store child (next :: rest) (level + 1)
      | none => refuse (.noSuchIndexAtLevel (level + 1))
    | _ => refuse (.recursiveIndexingFailed (level + 1))

/-- Read along the path whose steps are the entries of a position. -/
def getPath (store : Store) (x : Value) (p : Position) : Guarded Session Value :=
  getAlong store x p.steps 0

/-- Read the elements at the given positions. -/
def get (store : Store) (x : Value) (positions : List Position) (mode : Mode) :
    Guarded Session Value :=
  match x.pathSteps? positions mode with
  | some steps => getAlong store x steps 0
  | none => getDirect store x positions mode

end Guarded

end VectorIndexing
