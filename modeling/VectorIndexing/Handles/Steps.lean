import VectorIndexing.Handles

/-!
# Programs on handles

A program makes, clones, changes and drops handles, one step after another. On a heap, clones
share storage until one of them is written to. On plain copies every handle has a sequence of its
own, cloning copies it, and a write changes the sequence of one handle.

* `HandleStep.onHeap`: what a step does to a heap.
* `HandleStep.onCopies`: what it does to plain copies.
-/

namespace VectorIndexing

/-- A step of a program. The handle that is given first may be live or not. -/
inductive HandleStep (α : Type) where
  | create (handle : String) (items : List α)
  | createEmpty (handle : String)
  | clone (handle source : String)
  | drop (handle : String)
  | push (handle : String) (item : α)
  | clear (handle : String)
  /-- Take the sequence out of the handle, which is gone afterwards. -/
  | take (handle : String)
  deriving Repr

/-- The sequences of the live handles. -/
abbrev Copies (α : Type) := OrderedMap String (List α)

namespace Copies

variable {α : Type}

def clone (copies : Copies α) (handle source : String) : Copies α :=
  match copies.find? source with
  | some items => copies.insert handle items
  | none => copies

def write (copies : Copies α) (handle : String) (change : List α → List α) : Copies α :=
  match copies.find? handle with
  | some items => copies.insert handle (change items)
  | none => copies

end Copies

namespace HandleStep

variable {α : Type}

/-- A step on a heap. Only taking a sequence has one to answer with. -/
def onHeap (step : HandleStep α) : StateM (Heap α) (Option (List α)) := fun heap =>
  match step with
  | create handle items => (none, heap.create handle items)
  | createEmpty handle => (none, heap.create handle [])
  | clone handle source => (none, heap.clone handle source)
  | drop handle => (none, heap.drop handle)
  | push handle item => (none, heap.push handle item)
  | clear handle => (none, heap.clear handle)
  | take handle => heap.take handle

/-- A step on plain copies. -/
def onCopies (step : HandleStep α) : StateM (Copies α) (Option (List α)) := fun copies =>
  match step with
  | create handle items => (none, copies.insert handle items)
  | createEmpty handle => (none, copies.insert handle [])
  | clone handle source => (none, copies.clone handle source)
  | drop handle => (none, copies.erase handle)
  | push handle item => (none, copies.write handle fun items => items ++ [item])
  | clear handle => (none, copies.write handle fun _ => [])
  | take handle => (copies.find? handle, copies.erase handle)

end HandleStep

end VectorIndexing
