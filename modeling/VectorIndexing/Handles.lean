import VectorIndexing.OrderedMap

/-!
# Shared storage

Sequences behind named handles. Cloning a handle shares the storage cell and raises its count;
writing through a handle whose cell is shared copies the sequence into a cell of its own first,
so that handles behave as if each held a sequence of its own.

* `Heap.create`, `Heap.clone`, `Heap.drop`: the life of a handle.
* `Heap.write`: the change of a sequence, in place or in a copy.
-/

namespace VectorIndexing

/-- A storage cell with the number of handles that point to it. -/
structure Cell (α : Type) where
  items : List α
  count : Nat
  deriving DecidableEq, Repr

/-- Storage cells by address, and the handles with the addresses they point to. Addresses from
`next` on have never been used. -/
structure Heap (α : Type) where
  cells : OrderedMap Nat (Cell α) := ∅
  handles : OrderedMap String Nat := ∅
  next : Nat := 0
  deriving DecidableEq, Repr

namespace Heap

variable {α : Type}

/-! ## Looking -/

def cellOf? (heap : Heap α) (handle : String) : Option (Cell α) :=
  (heap.handles.find? handle).bind heap.cells.find?

/-- The sequence seen through a handle. -/
def read? (heap : Heap α) (handle : String) : Option (List α) :=
  (heap.cellOf? handle).map Cell.items

/-- Whether another handle points to the same cell. -/
def isShared (heap : Heap α) (handle : String) : Bool :=
  ((heap.cellOf? handle).map fun cell => decide (1 < cell.count)).getD false

/-- Whether two handles point to the same cell. -/
def sameCell (heap : Heap α) (h g : String) : Bool :=
  match heap.handles.find? h, heap.handles.find? g with
  | some a, some b => a == b
  | _, _ => false

/-- Whether two handles show equal sequences. Elements are compared one by one, even where the two
handles point to the same cell. -/
def sameItems [BEq α] (heap : Heap α) (h g : String) : Bool :=
  match heap.read? h, heap.read? g with
  | some xs, some ys => xs == ys
  | _, _ => false

/-! ## Changing -/

/-- Count one handle more at an address. -/
def retain (heap : Heap α) (address : Nat) : Heap α :=
  match heap.cells.find? address with
  | some cell =>
    { heap with cells := heap.cells.insert address { cell with count := cell.count + 1 } }
  | none => heap

/-- Count one handle less at an address; a cell without handles is freed. -/
def release (heap : Heap α) (address : Nat) : Heap α :=
  match heap.cells.find? address with
  | some cell =>
    { heap with
      cells :=
        if cell.count ≤ 1 then heap.cells.erase address
        else heap.cells.insert address { cell with count := cell.count - 1 } }
  | none => heap

/-- Remove a handle. -/
def drop (heap : Heap α) (handle : String) : Heap α :=
  match heap.handles.find? handle with
  | some address =>
    { heap.release address with handles := heap.handles.erase handle }
  | none => heap

/-- Point a handle that is not live at a fresh cell. -/
def allocate (heap : Heap α) (handle : String) (items : List α) : Heap α where
  cells := heap.cells.insert heap.next { items, count := 1 }
  handles := heap.handles.insert handle heap.next
  next := heap.next + 1

/-- Let a handle, whatever it was before, hold a sequence of its own. -/
def create (heap : Heap α) (handle : String) (items : List α) : Heap α :=
  (heap.drop handle).allocate handle items

/-- Let `handle` share the cell of `source`. The cell is retained before the earlier cell of
`handle` is released. -/
def clone (heap : Heap α) (handle source : String) : Heap α :=
  match heap.handles.find? source with
  | some address =>
    let kept := (heap.retain address).drop handle
    { kept with handles := kept.handles.insert handle address }
  | none => heap

/-- Change the sequence behind a handle: in place if no other handle shares the cell, and in a
fresh cell otherwise. -/
def write (heap : Heap α) (handle : String) (change : List α → List α) : Heap α :=
  match heap.handles.find? handle, heap.cellOf? handle with
  | some address, some cell =>
    if cell.count ≤ 1 then
      { heap with
        cells := heap.cells.insert address { cell with items := change cell.items } }
    else (heap.release address).allocate handle (change cell.items)
  | _, _ => heap

def push (heap : Heap α) (handle : String) (item : α) : Heap α :=
  heap.write handle fun items => items ++ [item]

def clear (heap : Heap α) (handle : String) : Heap α := heap.write handle fun _ => []

/-- Take the sequence out of a handle, which is gone afterwards. -/
def take (heap : Heap α) (handle : String) : Option (List α) × Heap α :=
  (heap.read? handle, heap.drop handle)

end Heap

end VectorIndexing
