import VectorIndexing.Reading.Get
import VectorIndexing.World
import VectorIndexing.Writing.Overwrite
import VectorIndexing.Writing.Remove

/-!
# Assigning by position

`x[...] <- value` and `x[[...]] <- value` for any value. Vectors and lists are values: the
result is a new one. Environments are changed in the store and returned as they are, and an S4
object passes the assignment on to the environment in its data slot.

* `Value.assign`: the assignment of an indexing call.
* `Value.assignAlong`: the assignment at the end of a path, which rebuilds the lists above it.
-/

namespace VectorIndexing

/-- Bind the name that the positions give. -/
def Action.bindName (e : EnvRef) (positions : List Position) (value : Value) (mode : Mode) :
    Action Unit := do
  let name ← ofExcept (boundName positions mode)
  modify fun world => { world with store := world.store.bind e name value }

/-- An assignment that does not descend. -/
def Value.assignDirect (x : Value) (positions : List Position) (value : Value) (mode : Mode) :
    Action Value :=
  match x with
  | .closure _ => throw (.objectNotSubsettable .closure)
  | .environment e => do
    Action.bindName e positions value mode
    return x
  | .s4 object =>
    match object.data with
    | none => throw .noApplicableMethod
    | some e => do
      Action.bindName e positions value mode
      return x
  | x => do
    let store := (← getThe World).store
    Action.ofChecked
      (if value.isNull then x.remove store positions mode
      else x.overwrite store positions value mode)

/-- Change what is at the end of a path. The last step is left to `change`, and every list on
the way gets the changed child in place of the old one. -/
def Value.assignAlong (change : Value → Position → Action Value) (x : Value)
    (steps : List Position) (level : Nat) : Action Value :=
  match steps with
  | [] => throw .selectLessThanOne
  | [last] => change x last
  | step :: next :: rest => do
    let (o, child) ← Action.ofExcept (x.stepInto step level)
    let changed ← child.assignAlong change (next :: rest) (level + 1)
    return x.withElement o changed

/-- Assign to the elements at the given positions. -/
def Value.assign (x : Value) (positions : List Position) (value : Value) (mode : Mode) :
    Action Value :=
  match x.pathSteps? positions mode with
  | some steps => x.assignAlong (fun y p => y.assignDirect [p] value .element) steps 0
  | none => x.assignDirect positions value mode

/-- Assign at the end of a path given step by step, where the last step may be a path in its
own right. Steps are counted from `level`. -/
def Value.assignPath (x : Value) (steps : List Position) (value : Value) (level : Nat) :
    Action Value :=
  x.assignAlong (fun y p => y.assign [p] value .element) steps level

end VectorIndexing
