import VectorIndexing.Value

/-!
# Operations on vectors

Reading, extending, writing and thinning out a vector of any kind. Elements and names always
change together, and a vector that changes its length loses its array shape.
-/

namespace VectorIndexing

namespace TypedVector

variable {kind : VectorKind}

def length (x : TypedVector kind) : Nat := x.elements.length

def names? (x : TypedVector kind) : Option Names := x.attributes.names

/-- A vector of fill values. -/
def ofFill (kind : VectorKind) (length : Nat) : TypedVector kind :=
  { elements := List.replicate length kind.fill }

def empty (kind : VectorKind) : TypedVector kind := { elements := [] }

/-- The elements at the given offsets, with their names. Slots that do not exist hold the fill
value and, in a named vector, a missing name. No other attribute is kept. -/
def gather (x : TypedVector kind) (offsets : List Offset) : TypedVector kind where
  elements := Slots.gather kind.fill x.elements offsets
  attributes := { names := x.attributes.names.map fun names => Slots.gather none names offsets }

/-- The vector grown to `length`; new slots hold the fill value and the empty name. A vector
that is long enough already is left as it is. Names are taken to be no more than the elements: spare
ones beyond the new length would not be cut off. -/
def extend (x : TypedVector kind) (length : Nat) : TypedVector kind :=
  if length ≤ x.length then x
  else
    { elements := Slots.extend kind.fill length x.elements
      attributes :=
        { x.attributes.withoutShape with
          names := x.attributes.names.map (Slots.extend (some "") length) } }

/-- Write values at offsets, recycling the values; slots that do not exist are passed over. -/
def scatter (x : TypedVector kind) (offsets : List Offset) (values : List kind.Elem) :
    TypedVector kind :=
  { x with elements := Slots.scatter x.elements offsets values }

/-- The names, or an empty name for each element of an unnamed vector. -/
def namesOrEmpty (x : TypedVector kind) : Names :=
  x.attributes.names.getD (List.replicate x.length (some ""))

/-- Store names at offsets. An unnamed vector gets empty names first. -/
def scatterNames (x : TypedVector kind) (offsets : List Offset) (names : Names) :
    TypedVector kind :=
  { x with attributes :=
    { x.attributes with names := some (Slots.putAll x.namesOrEmpty (offsets.zip names)) } }

/-- Remove the elements whose flag is set, and their names. The array shape is lost. -/
def dropMarked (x : TypedVector kind) (remove : List Bool) : TypedVector kind where
  elements := Slots.dropMarked remove x.elements
  attributes :=
    { x.attributes.withoutShape with names := x.attributes.names.map (Slots.dropMarked remove) }

/-- The vector without its array shape. -/
def withoutShape (x : TypedVector kind) : TypedVector kind :=
  { x with attributes := x.attributes.withoutShape }

/-- A list of optionally named elements. It has names when some element has one; the others
then have the empty name. -/
def ofPairs (pairs : List (Option String × Value)) : TypedVector .list where
  elements := pairs.map Prod.snd
  attributes :=
    { names :=
        if pairs.any (·.1.isSome) then some (pairs.map fun p => some (p.1.getD "")) else none }

/-! ## Small laws -/

@[simp] theorem length_gather (x : TypedVector kind) (offsets : List Offset) :
    (x.gather offsets).length = offsets.length := by
  simp [gather, length]

@[simp] theorem length_extend (x : TypedVector kind) (n : Nat) :
    (x.extend n).length = max x.length n := by
  unfold extend
  split
  · next h => exact (Nat.max_eq_left h).symm
  · exact Slots.length_extend ..

@[simp] theorem length_scatter (x : TypedVector kind) (offsets : List Offset)
    (values : List kind.Elem) :
    (x.scatter offsets values).length = x.length := by
  simp [scatter, length]

theorem length_namesOrEmpty {x : TypedVector kind}
    (h : ∀ names, x.attributes.names = some names → names.length = x.length) :
    x.namesOrEmpty.length = x.length := by
  unfold namesOrEmpty
  cases hx : x.attributes.names with
  | none => simp
  | some names => exact h names hx

@[simp] theorem length_ofFill (n : Nat) : (ofFill kind n).length = n := by
  simp [ofFill, length]

end TypedVector

end VectorIndexing
