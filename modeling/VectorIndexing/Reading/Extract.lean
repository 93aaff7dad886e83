import VectorIndexing.Conversion
import VectorIndexing.Plan

/-!
# Reading by plan

Under `[` a plan gathers the elements at its offsets, and missing or absent slots read as the
fill value. Part of an array keeps the dimensions along which other than one element was
selected. Under `[[` a plan names one element, which must exist.
-/

namespace VectorIndexing

/-! ## Parts of arrays -/

/-- The names along a dimension that were selected, if the dimension has names. -/
def Attributes.selectedDimnames (source : Attributes Value) (dimension : Selection × Nat) :
    Option Names :=
  (source.dimnames.bind fun axisNames => (axisNames[dimension.2]?).join).map fun names =>
    Slots.gather none names dimension.1.offsets

/-- The dimensions, with their numbers, along which other than one element was selected. -/
def keptDimensions (dims : List Selection) : List (Selection × Nat) :=
  dims.zipIdx.filter fun dimension => dimension.1.length != 1

/-- Attributes of a part of an array. A single dimension that is kept turns into a plain
vector, named by the names along it. -/
def Attributes.ofPart (source : Attributes Value) (dims : List Selection) :
    Attributes Value :=
  match keptDimensions dims with
  | [] => {}
  | [dimension] => { names := source.selectedDimnames dimension }
  | kept =>
    { dim := some (kept.map fun dimension => dimension.1.length)
      dimnames := source.dimnames.map fun _ => kept.map source.selectedDimnames }

/-! ## Reading -/

namespace TypedVector

variable {kind : VectorKind}

/-- The part of a vector that a plan selects. -/
def part (x : TypedVector kind) (plan : Plan) : TypedVector kind :=
  match plan.dims with
  | none => x.gather plan.offsets
  | some dims =>
    { x.gather plan.offsets with attributes := x.attributes.ofPart dims }

/-- One element as a value: an element of a list itself, or a vector of length one. -/
def element : {kind : VectorKind} → TypedVector kind → Nat → Value
  | .atomic k, x, o => .scalar k (Slots.fetch k.fill x.elements (some o))
  | .list, x, o => Slots.fetch Value.null x.elements (some o)

end TypedVector

/-- The one offset of a plan, which must lie below `length`. -/
def Plan.soleOffset (plan : Plan) (length : Nat) : Except Error Nat :=
  match plan.offsets with
  | [some o] => if o < length then .ok o else .error .subscriptOutOfBounds
  | [none] => .error .naSubscripted
  | [] => .error .selectLessThanOne
  | _ => .error .selectMoreThanOne

/-- The elements of a value that a plan selects. `NULL` has only `NULL` to offer. -/
def Value.extract (x : Value) (plan : Plan) (mode : Mode) : Except Error Value :=
  match x.vector? with
  | some ⟨_, v⟩ =>
    match mode with
    | .subset => .ok (v.part plan).toValue
    | .element => (plan.soleOffset v.length).map v.element
  | none => if x.isNull then .ok .null else .error (.objectNotSubsettable x.kind)

end VectorIndexing
