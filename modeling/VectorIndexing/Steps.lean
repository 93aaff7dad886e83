import VectorIndexing.Slots

/-!
# Steps that could break

Taking the element at a place, replacing it, and taking a remainder are steps that need something
of their operands. Here they say so when they do not get it, where the operations on slots pass
over it in silence.

* `Fault`: how a step breaks.
* `Slots.takeAt`, `Slots.replaceAt`, `Slots.writeAt`, `remainder`: the steps.
-/

namespace VectorIndexing

/-- How a step breaks. -/
inductive Fault where
  /-- An element outside a sequence was taken or replaced. -/
  | outOfRange
  /-- A remainder by zero was taken. -/
  | zeroDivisor
  /-- A value was written to a slot that does not exist, and got lost. -/
  | lostWrite
  /-- Operands did not have the kinds that were checked before. -/
  | internal
  deriving DecidableEq, Repr

/-- The remainder, which takes a divisor other than zero. -/
def remainder (n divisor : Nat) : Except Fault Nat :=
  if divisor = 0 then .error .zeroDivisor else .ok (n % divisor)

namespace Slots

variable {α : Type}

/-- The element at a place that exists. -/
def takeAt (xs : List α) (o : Nat) : Except Fault α :=
  match xs[o]? with
  | some x => .ok x
  | none => .error .outOfRange

/-- The element at a place of the sequence repeated without end. -/
def takeRecycled (xs : List α) (i : Nat) : Except Fault α := do
  takeAt xs (← remainder i xs.length)

/-- The sequence with the element at a place that exists replaced. -/
def replaceAt (xs : List α) (o : Nat) (x : α) : Except Fault (List α) :=
  if o < xs.length then .ok (xs.set o x) else .error .outOfRange

/-- The sequence with a value written to a slot that exists; a missing offset is skipped. -/
def writeAt (xs : List α) (offset : Offset) (x : α) : Except Fault (List α) :=
  match offset with
  | none => .ok xs
  | some o => if o < xs.length then .ok (xs.set o x) else .error .lostWrite

/-! ## Small laws -/

end Slots

end VectorIndexing
