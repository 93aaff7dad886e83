import VectorIndexing.Attribute
import VectorIndexing.Writing.Assign

/-!
# Workspaces

A workspace is a world together with the values made so far. An operation takes its operands
from these values by number and puts what it returns behind them. When it fails the values stay
as they are, while the world stays as the failure left it.

* `Operation`: what can be done with values.
* `Workspace.step`, `Workspace.run`: one operation, and several in a row.
-/

namespace VectorIndexing

/-- An operation on values. `target`, `value` and `values` are the numbers of its operands. -/
inductive Operation where
  | setAttribute (target : Nat) (key : String) (value : Nat)
  | getAttribute (target : Nat) (key : String)
  | coerceToKind (target : Nat) (kind : Kind)
  | convertTo (target : Nat) (kind : Kind)
  | toList (target : Nat)
  | gather (target : Nat) (offsets : List Offset)
  | extend (target : Nat) (length : Nat)
  | dropMarked (target : Nat) (remove : List Bool)
  | scatter (target : Nat) (offsets : List Offset) (values : Nat)
  | scatterNames (target : Nat) (offsets : List Offset) (names : Names)
  | withoutShape (target : Nat)
  | ofPairs (pairs : List (Option String × Nat))
  /-- Read by a plan, which may have been made for other brackets and for writing. -/
  | extract (target : Nat) (positions : List Position) (planned : Mode) (purpose : Purpose)
      (mode : Mode)
  | get (target : Nat) (positions : List Position) (mode : Mode)
  | getPath (target : Nat) (p : Position)
  | assign (target : Nat) (positions : List Position) (value : Nat) (mode : Mode)
  | assignPath (target : Nat) (steps : List Position) (value : Nat) (level : Nat)
  | bind (e : EnvRef) (name : String) (value : Nat)

/-- Change a vector of whatever kind; a value that is no vector stays as it is. -/
def Value.mapVector (x : Value)
    (change : (kind : VectorKind) → TypedVector kind → TypedVector kind) : Value :=
  match x.vector? with
  | some ⟨kind, v⟩ => (change kind v).toValue
  | none => x

/-- Write the elements of `values` to a vector, once they have its kind. -/
def Value.scatter (x : Value) (offsets : List Offset) (values : Value) : Except Error Value :=
  match x.vector? with
  | some ⟨kind, v⟩ => do
    let w ← values.coerce kind
    pure (v.scatter offsets w.elements).toValue
  | none => .ok x

/-- The value with this number; a number without a value stands for `NULL`. -/
def operand (values : List Value) (number : Nat) : Value := values[number]?.getD .null

/-- What an operation does with the values made so far. -/
def Operation.perform (made : List Value) : Operation → Action Value
  | setAttribute target key value =>
    .ofExcept ((operand made target).setAttribute key (operand made value))
  | getAttribute target key => pure (((operand made target).getAttribute key).getD .null)
  | coerceToKind target kind => .ofExcept ((operand made target).coerceToKind kind)
  | convertTo target kind => .ofExcept ((operand made target).convertTo kind)
  | toList target => .ofExcept (((operand made target).coerce .list).map TypedVector.toValue)
  | gather target offsets => pure ((operand made target).mapVector fun _ v => v.gather offsets)
  | extend target length => pure ((operand made target).mapVector fun _ v => v.extend length)
  | dropMarked target remove =>
    pure ((operand made target).mapVector fun _ v => v.dropMarked remove)
  | scatter target offsets values =>
    .ofExcept ((operand made target).scatter offsets (operand made values))
  | scatterNames target offsets names =>
    pure ((operand made target).mapVector fun _ v => v.scatterNames offsets names)
  | withoutShape target => pure ((operand made target).mapVector fun _ v => v.withoutShape)
  | ofPairs pairs =>
    pure (TypedVector.ofPairs (pairs.map fun p => (p.1, operand made p.2))).toValue
  | extract target positions planned purpose mode => do
    let store := (← getThe World).store
    let x := operand made target
    Action.ofChecked do
      let plan ← (x.layout store).plan positions planned purpose
      Checked.ofExcept (x.extract plan mode)
  | get target positions mode => do
    let store := (← getThe World).store
    Action.ofChecked ((operand made target).get store positions mode)
  | getPath target p => do
    let store := (← getThe World).store
    Action.ofChecked ((operand made target).getPath store p)
  | assign target positions value mode =>
    (operand made target).assign positions (operand made value) mode
  | assignPath target steps value level =>
    (operand made target).assignPath steps (operand made value) level
  | bind e name value => do
    modify fun world => { world with store := world.store.bind e name (operand made value) }
    return .environment e

/-- A world and the values made so far. -/
structure Workspace where
  world : World := {}
  values : List Value := []

namespace Workspace

def step (w : Workspace) (operation : Operation) : Workspace :=
  match (operation.perform w.values).run w.world with
  | (.ok x, world) => { world, values := w.values ++ [x] }
  | (.error _, world) => { w with world }

def run (w : Workspace) (operations : List Operation) : Workspace := operations.foldl step w

end Workspace

end VectorIndexing
