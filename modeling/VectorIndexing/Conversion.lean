import VectorIndexing.TypedVector

/-!
# Conversion of values

`NULL` becomes an empty vector of any kind, elements convert up the order of kinds, and every
vector can become a list of vectors of length one. Attributes are kept.

* `Value.coerce_self`: a vector of the kind asked for is returned as it is.
-/

namespace VectorIndexing

/-- The kind that a container takes on to receive a value. -/
def Kind.targetFor (container value : Kind) : Except Error Kind :=
  match container.join value with
  | some kind => .ok kind
  | none => .error (.subassignTypeFix value container)

namespace Value

/-- One element of an atomic vector as a value of its own. -/
def scalar (k : AtomicKind) (x : k.Elem) : Value := atomic k [x] {}

/-- The value as a vector of the given kind. -/
def coerce (x : Value) (target : VectorKind) : Except Error (TypedVector target) :=
  match x, target with
  | null, target => .ok (TypedVector.empty target)
  | atomic k elements attributes, .atomic target =>
    match k.convert? target with
    | some f => .ok ⟨elements.map f, attributes⟩
    | none => .error (.subassignTypeFix (.atomic k) (.atomic target))
  | atomic k elements attributes, .list => .ok ⟨elements.map (scalar k), attributes⟩
  | list elements attributes, .list => .ok ⟨elements, attributes⟩
  | x, target => .error (.subassignTypeFix x.kind (.vector target))

/-- Coercion to a kind of any sort: a value that is no vector keeps its own kind only. -/
def coerceToKind (x : Value) (target : Kind) : Except Error Value :=
  if x.kind = target then .ok x
  else
    match target with
    | .vector kind => (x.coerce kind).map TypedVector.toValue
    | target => .error (.subassignTypeFix x.kind target)

/-- Conversion of an atomic vector to an atomic kind; nothing becomes a list here. -/
def convertTo (x : Value) (target : Kind) : Except Error Value :=
  if target.isAtomic then x.coerceToKind target else .error (.subassignTypeFix x.kind target)

end Value

/-! ## Small laws -/

@[simp] theorem Value.coerce_self {kind : VectorKind} (x : TypedVector kind) :
    x.toValue.coerce kind = .ok x := by
  rcases kind with k | _
  · simp [TypedVector.toValue, coerce, AtomicKind.convert?_self]
  · rfl

end VectorIndexing
