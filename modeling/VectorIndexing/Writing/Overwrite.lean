import VectorIndexing.Reading.Extract

/-!
# Replacing elements

`x[...] <- value` and `x[[...]] <- value` for a value other than `NULL` and an `x` that is
`NULL` or a vector. All checks come before the first change: the kinds must join, the positions
must resolve and the lengths must fit.
-/

namespace VectorIndexing

/-- What is to be written: elements of the kind that the container will have. -/
structure Replacement where
  kind : VectorKind
  elements : List kind.Elem

/-- Whether `[[` stores the value as one element of a list. It does so when either side is a
list, and for `NULL` unless the value is an atomic vector of length one. -/
def Value.boxes (container value : Value) (mode : Mode) : Bool :=
  match mode, container, value with
  | .subset, _, _ => false
  | .element, .list _ _, _ | .element, _, .list _ _ => true
  | .element, .null, .atomic _ elements _ => elements.length != 1
  | .element, .null, _ => true
  | .element, _, _ => false

/-- The kind of vector that a container becomes to receive a value. -/
def Kind.vectorFor (container value : Kind) : Except Error VectorKind := do
  match ← container.targetFor value with
  | .vector kind => pure kind
  | _ => throw (.subassignTypeFix value container)

/-- `[[` replaces one element by one. -/
def Replacement.checkSingle (length : Nat) : Except Error Unit :=
  if length = 0 then .error .replacementZero
  else if length = 1 then .ok ()
  else .error .moreElementsSupplied

/-- The elements to be written, once kinds and the demands of `[[` are checked. -/
def Replacement.ofValue (container value : Value) (mode : Mode) : Except Error Replacement :=
  if container.boxes value mode then .ok ⟨.list, [value]⟩
  else do
    let kind ← container.kind.vectorFor value.kind
    let v ← value.coerce kind
    if mode = .element then checkSingle v.length
    pure ⟨kind, v.elements⟩

/-- Check the number of elements against the plan. A missing position can be written to only
as long as it does not matter which of the elements it gets. -/
def Plan.checkFit (plan : Plan) (length : Nat) (mode : Mode) : Checked Unit :=
  match mode with
  | .element =>
    match plan.offsets with
    | [some _] => pure ()
    | _ => throw .naSubscripted
  | .subset => do
    if plan.isEmpty then return
    if length = 0 then throw .replacementZero
    if 1 < length ∧ plan.hasMissing then throw .naSubscripted
    if plan.length % length ≠ 0 then warn .notMultipleReplacement

/-- Write elements and names as planned, extending the vector where needed. If there is nothing
to write, or nowhere to write it, the vector stays as it is. -/
def TypedVector.assign {kind : VectorKind} (x : TypedVector kind) (plan : Plan)
    (values : List kind.Elem) : TypedVector kind :=
  if plan.isEmpty || values.isEmpty then x
  else
    let written := (x.extend plan.reach).scatter plan.offsets values
    match plan.names with
    | some names => written.scatterNames plan.offsets names
    | none => written

/-- Replace the elements at the given positions. -/
def Value.overwrite (store : Store) (container : Value) (positions : List Position)
    (value : Value) (mode : Mode) : Checked Value := do
  let replacement ← Checked.ofExcept (Replacement.ofValue container value mode)
  let plan ← (container.layout store).plan positions mode .write
  plan.checkFit replacement.elements.length mode
  let target ← Checked.ofExcept (container.coerce replacement.kind)
  return (target.assign plan replacement.elements).toValue

end VectorIndexing
