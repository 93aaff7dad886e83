import VectorIndexing.Reading.Guarded
import VectorIndexing.Writing.Assign

/-!
# Guarded writing

Replacing elements in the order of the checks: first the kind and, under `[[`, the number of the
values, then the positions, then whether the values fit. What comes after that are steps which may
break: the container grows, its elements and names are written one by one, and nobody looks whether
a slot is there or whether the values have the kind of the container. On the way along a path each
list gives up its child for the time of the assignment, and takes it back changed, at a place that
is not looked at again.

* `Value.targetKind`, `Value.valuesFor`: what the container becomes and what is written.
* `Guarded.overwrite`, `Guarded.remove`: replacing and deleting elements.
* `Guarded.assign`, `Guarded.assignPath`: the assignments of indexing calls.
-/

namespace VectorIndexing

/-! ## What is written -/

namespace Value

/-- The kind that a container takes on to receive a value. -/
def targetKind (container value : Value) (mode : Mode) : Except Error Kind :=
  if container.boxes value mode then .ok .list else container.kind.targetFor value.kind

/-- What is written, as a value of the kind that the container takes on. -/
def valuesFor (container value : Value) (mode : Mode) (target : Kind) : Except Error Value :=
  if container.boxes value mode then .ok (.list [value] {}) else value.coerceToKind target

/-- Under `[[` a value that does not become an element as it is must have one element. -/
def checkCount (container value : Value) (mode : Mode) (store : Store) : Except Error Unit :=
  if mode = .element ∧ container.boxes value mode = false then
    Replacement.checkSingle (value.length store)
  else .ok ()

end Value

namespace Guarded

/-! ## Fitting -/

/-- Check the number of elements against the plan. -/
def checkFit (plan : Plan) (length : Nat) (mode : Mode) : Guarded Session Unit :=
  match mode with
  | .element => ofSound (plan.checkFit length .element)
  | .subset =>
    if plan.isEmpty then return ()
    else if length = 0 then refuse .replacementZero
    else if 1 < length ∧ plan.hasMissing then refuse .naSubscripted
    else do
      if (← ofStep (remainder plan.length length)) ≠ 0 then
        ofSound (warn .notMultipleReplacement)

/-! ## Writing -/

/-- Write elements one after another, starting again with the first value when they run out. -/
def writeElements {α : Type} (xs : List α) (offsets : List Offset) (values : List α) :
    Except Fault (List α) :=
  offsets.zipIdx.foldlM (fun acc (offset, i) => do
    Slots.writeAt acc offset (← Slots.takeRecycled values i)) xs

/-- Write names one after another. -/
def writeNames (slots : Names) (offsets : List Offset) (names : Names) : Except Fault Names :=
  (offsets.zip names).foldlM (fun acc write => Slots.writeAt acc write.1 write.2) slots

/-- The container with room for all slots. If it has to grow, it must be a vector. -/
def grow (store : Store) (x : Value) (length : Nat) : Except Fault Value :=
  if length ≤ x.length store then .ok x
  else
    match x.vector? with
    | some ⟨_, v⟩ => .ok (v.extend length).toValue
    | none => .error .internal

/-- The container with values written to it, which must be of the same kind. -/
def writeValues (x : Value) (plan : Plan) (values : Value) : Except Fault Value :=
  match x.vector?, values.vector? with
  | some ⟨kind, v⟩, some ⟨kind', w⟩ =>
    if h : kind' = kind then do
      let elements ← writeElements v.elements plan.offsets (h ▸ w.elements)
      return ({ v with elements } : TypedVector kind).toValue
    else .error .internal
  | _, _ => .error .internal

/-- The container with the names that the positions carry. -/
def storeNames (x : Value) (plan : Plan) : Except Fault Value :=
  match plan.names with
  | none => .ok x
  | some names =>
    match x.vector? with
    | none => .error .lostWrite
    | some ⟨kind, v⟩ => do
      let names ← writeNames v.namesOrEmpty plan.offsets names
      return { v with attributes := { v.attributes with names := some names } : TypedVector kind
        }.toValue

/-- Write values and names as planned. -/
def write (store : Store) (x : Value) (plan : Plan) (values : Value) : Except Fault Value := do
  let grown ← grow store x plan.reach
  let written ← writeValues grown plan values
  storeNames written plan

/-! ## Overwriting -/

/-- Replace the elements at the given positions. -/
def overwrite (store : Store) (container : Value) (positions : List Position) (value : Value)
    (mode : Mode) : Guarded Session Value := do
  let target ← ofExcept (container.targetKind value mode)
  ofExcept (container.checkCount value mode store)
  let plan ← plan (container.layout store) positions mode .write
  let values ← ofExcept (container.valuesFor value mode target)
  checkFit plan (values.length store) mode
  -- all checks are behind us: nothing that follows is ever refused
  let x ← ofExcept (container.coerceToKind target)
  if plan.isEmpty || values.length store == 0 then return x
  ofStep (write store x plan values)

/-! ## Deleting -/

/-- Set the flags of the elements at these offsets. -/
def mark (length : Nat) (offsets : List Nat) : Except Fault (List Bool) :=
  offsets.foldlM (fun marks o => Slots.replaceAt marks o true) (List.replicate length false)

/-- Remove the elements at these offsets. -/
def removeOffsets (x : TypedVector .list) (offsets : List Nat) :
    Except Fault (TypedVector .list) :=
  if offsets.isEmpty then .ok x
  else do
    let length := max (Slots.reach (offsets.map some)) x.length
    return (x.extend length).dropMarked (← mark length offsets)

/-- The offsets that one position deletes. -/
def removedOffsets (layout : Layout) (p : Position) (mode : Mode) :
    Guarded Session (List Nat) :=
  match mode with
  | .element => do
    match ← ofOutcome (selectOne p layout.length layout.names .write) with
    | .slot o => return if o < layout.length then [o] else []
    | .missing => return []
  | .subset => do
    let s ← select p layout.length layout.names .write
    return s.offsets.filterMap id

/-- Delete elements of a list. -/
def removeFrom (layout : Layout) (x : TypedVector .list) (positions : List Position)
    (mode : Mode) : Guarded Session (TypedVector .list) :=
  match positions with
  | [] => do ofStep (removeOffsets x (← removedOffsets layout .missing mode))
  | [p] => do ofStep (removeOffsets x (← removedOffsets layout p mode))
  | positions => do
    let _ ← plan layout positions mode .write
    refuse (arrayRemovalError mode)

/-- Delete the elements at the given positions. -/
def remove (store : Store) (container : Value) (positions : List Position) (mode : Mode) :
    Guarded Session Value :=
  match container, mode with
  | .null, _ => return .null
  | .list elements attributes, mode => do
    let x ← removeFrom ((Value.list elements attributes).layout store) ⟨elements, attributes⟩
      positions mode
    return x.toValue
  | container, .element => ofSound (container.remove store positions .element)
  | container, .subset => do
    let plan ← plan (container.layout store) positions .subset .write
    if plan.isEmpty then return container
    refuse .replacementZero

/-! ## Assigning -/

/-- An assignment that does not descend. -/
def assignDirect (x : Value) (positions : List Position) (value : Value) (mode : Mode) :
    Guarded World Value :=
  match x with
  | .null | .atomic _ _ _ | .list _ _ => do
    let store := (← getThe World).store
    ofSession
      (if value.isNull then remove store x positions mode
      else overwrite store x positions value mode)
  | x => ofSound (x.assignDirect positions value mode)

/-- Change what is at the end of a path. -/
def assignAlong (change : Value → Position → Guarded World Value) (x : Value)
    (steps : List Position) (level : Nat) : Guarded World Value :=
  match steps with
  | [] => refuse .selectLessThanOne
  | [last] => change x last
  | step :: next :: rest =>
    match x with
    | .list elements attributes => do
      let o ← ofOutcome (stepOffset step elements.length attributes.names level)
      let child ← ofStep (Slots.takeAt elements o)
      let others ← ofStep (Slots.replaceAt elements o .null)
      let changed ← assignAlong change child (next :: rest) (level + 1)
      return .list (← ofStep (Slots.replaceAt others o changed)) attributes
    | _ => refuse (.recursiveIndexingFailed (level + 1))

/-- Assign to the elements at the given positions. -/
def assign (x : Value) (positions : List Position) (value : Value) (mode : Mode) :
    Guarded World Value :=
  match x.pathSteps? positions mode with
  | some _ => do
    let p ← ofStep (Slots.takeAt positions 0)
    assignAlong (fun y p => assignDirect y [p] value .element) x p.steps 0
  | none => assignDirect x positions value mode

/-- Assign at the end of a path given step by step. -/
def assignPath (x : Value) (steps : List Position) (value : Value) (level : Nat) :
    Guarded World Value :=
  assignAlong (fun y p => assign y [p] value .element) x steps level

end Guarded

end VectorIndexing
