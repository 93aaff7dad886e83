import VectorIndexing.Conversion

/-!
# Reading and setting attributes

Attributes are read and set by key as values. The keys `names`, `dim` and `dimnames` have
rules of their own, which keep them in agreement with the vector; any other key holds an
arbitrary value. Setting an attribute to `NULL` removes it.
-/

namespace VectorIndexing

/-- An attribute key. -/
inductive AttributeKey where
  | names
  | dim
  | dimnames
  | other (key : String)
  deriving DecidableEq, Repr

def AttributeKey.ofString : String → AttributeKey
  | "names" => names
  | "dim" => dim
  | "dimnames" => dimnames
  | key => other key

namespace Value

/-! ## Reading -/

/-- Names along one dimension as a value; `NULL` where there are none. -/
def ofNames? : Option Names → Value
  | some names => ofNames names
  | none => null

/-- An attribute as a value. Extents are read as 32-bit integers. -/
def getAttribute (x : Value) (key : String) : Option Value :=
  x.attributes?.bind fun attributes =>
    match AttributeKey.ofString key with
    | .names => attributes.names.map ofNames
    | .dim => attributes.dim.map fun extents =>
        atomic .integer (extents.map fun extent => some (Int32.ofNat extent)) {}
    | .dimnames => attributes.dimnames.map fun axes => list (axes.map ofNames?) {}
    | .other key => attributes.other.find? key

/-! ## What a value means as names or extents -/

/-- The elements of a vector as names. -/
def toNames (x : Value) : Except Error Names :=
  match x with
  | atomic k elements _ =>
    match k.convert? .character with
    | some f => .ok (elements.map f)
    | none => .error (.namesFromVector (.atomic k))
  | x => .error (.namesFromObject x.kind)

/-- One extent. -/
def toExtent : Option Int → Except Error Nat
  | some n => if 0 ≤ n then .ok n.toNat else .error .dimsNegative
  | none => .error .dimsMissing

/-- The elements of a numeric vector as extents; a fractional part is cut off. -/
def toExtents (x : Value) : Except Error (List Nat) := do
  let extents ← match x with
    | atomic .integer elements _ => pure (elements.map (Option.map Int32.toInt))
    | atomic .double elements _ => pure (elements.map (Option.map Double.toInt64Range))
    | _ => throw Error.dimsNotNumeric
  if extents.isEmpty then throw Error.dimsEmpty
  extents.mapM toExtent

/-- Names for each dimension; the first disagreement with an extent is reported. -/
def toDimnames (extents : List Nat) (entries : List Value) :
    Except Error (List (Option Names)) :=
  (entries.zip extents).zipIdx.mapM fun ((entry, extent), i) =>
    if entry.isNull then pure none
    else do
      let names ← entry.toNames
      if names.length = extent then pure (some names)
      else throw (.dimnamesExtentMismatch (i + 1))

end Value

/-! ## Setting -/

namespace Attributes

/-- Set the names of `length` elements; a list of names that is too short is filled up with
missing names. -/
def setNames (a : Attributes Value) (length : Nat) (value : Value) :
    Except Error (Attributes Value) :=
  if value.isNull then .ok { a with names := none }
  else do
    let names ← value.toNames
    if length < names.length then throw (Error.namesLengthMismatch names.length length)
    pure { a with names := some (Slots.extend none length names) }

/-- Arrange `length` elements as an array, which drops their names and the names along the
old dimensions. -/
def setDim (a : Attributes Value) (length : Nat) (value : Value) :
    Except Error (Attributes Value) :=
  if value.isNull then .ok a.withoutShape
  else do
    let extents ← value.toExtents
    if ¬ IsArrayLength extents length then
      throw (Error.dimsDoNotMatchLength (Word.count extents) length)
    pure { a with names := none, dim := some extents, dimnames := none }

/-- Set the names along the dimensions of an array. -/
def setDimnames (a : Attributes Value) (value : Value) : Except Error (Attributes Value) :=
  match value with
  | .null => .ok { a with dimnames := none }
  | .list entries _ =>
    match a.dim with
    | none => .error .dimnamesOnNonArray
    | some extents => do
      if entries.length ≠ extents.length then
        throw (Error.dimnamesRankMismatch entries.length extents.length)
      let dimnames ← Value.toDimnames extents entries
      pure { a with dimnames := some dimnames }
  | _ => .error .dimnamesNotList

/-- Set an attribute that has no rules of its own. Once the last one is removed there is no map
of such attributes left. -/
def setOther (a : Attributes Value) (key : String) (value : Value) : Attributes Value :=
  if value.isNull then
    { a with others := (a.others.map (·.erase key)).filter fun m => !m.isEmpty }
  else { a with others := some (a.other.insert key value) }

end Attributes

/-- Set or remove an attribute of a vector or list. -/
def Value.setAttribute (x : Value) (key : String) (value : Value) : Except Error Value :=
  match x.vector? with
  | none => .error .attributeOnNonVector
  | some ⟨_, v⟩ => do
    let attributes ← match AttributeKey.ofString key with
      | .names => v.attributes.setNames v.length value
      | .dim => v.attributes.setDim v.length value
      | .dimnames => v.attributes.setDimnames value
      | .other key => pure (v.attributes.setOther key value)
    pure (x.withAttributes attributes)

end VectorIndexing
