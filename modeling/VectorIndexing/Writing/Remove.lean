import VectorIndexing.Reading.Extract

/-!
# Deleting elements

`x[...] <- NULL` and `x[[...]] <- NULL` for an `x` that is `NULL` or a vector. Only lists lose
elements; an atomic vector accepts the call when no element is selected.
-/

namespace VectorIndexing

/-- Remove the elements at these offsets. The list first grows to contain all of them; without
any offset it is left as it is. -/
def TypedVector.removeOffsets (x : TypedVector .list) (offsets : List Nat) : TypedVector .list :=
  if offsets.isEmpty then x
  else
    let length := max (Slots.reach (offsets.map some)) x.length
    (x.extend length).dropMarked ((List.range length).map offsets.contains)

/-- The offsets that one position deletes. Under `[[` only an existing element is deleted. -/
def Layout.removedOffsets (layout : Layout) (p : Position) (mode : Mode) :
    Checked (List Nat) :=
  match mode with
  | .element => do
    match ← Checked.ofExcept (p.selectOne layout.length layout.names .write) with
    | .slot o => return if o < layout.length then [o] else []
    | .missing => return []
  | .subset => do
    let s ← p.select layout.length layout.names .write
    return s.offsets.filterMap id

/-- Why nothing can be deleted from an array by its dimensions. -/
def arrayRemovalError : Mode → Error
  | .subset => .notMultipleReplacement
  | .element => .subscriptTypes .null .list

/-- Delete elements of a list. -/
def TypedVector.remove (layout : Layout) (x : TypedVector .list) (positions : List Position)
    (mode : Mode) : Checked (TypedVector .list) :=
  match positions with
  | [] => x.removeOffsets <$> layout.removedOffsets .missing mode
  | [p] => x.removeOffsets <$> layout.removedOffsets p mode
  | positions => do
    let _ ← layout.plan positions mode .write
    throw (arrayRemovalError mode)

/-- Whether the positions are the single index zero. -/
def isZeroIndex : List Position → Bool
  | [.indices [some i] _] => i == 0
  | _ => false

/-- Delete the elements at the given positions. -/
def Value.remove (store : Store) (container : Value) (positions : List Position) (mode : Mode) :
    Checked Value :=
  match container, mode with
  | .null, _ => pure .null
  | .list elements attributes, mode => do
    let x : TypedVector .list := ⟨elements, attributes⟩
    return (← x.remove (container.layout store) positions mode).toValue
  | _, .element =>
    throw (if isZeroIndex positions then .replacementZero else .moreElementsSupplied)
  | container, .subset => do
    let plan ← (container.layout store).plan positions .subset .write
    if plan.isEmpty then return container
    throw .replacementZero

end VectorIndexing
