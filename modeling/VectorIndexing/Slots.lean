/-!
# Slots of a sequence

The elements of a vector and its names are sequences that are read, written, extended and
thinned out at the same offsets. Offsets count from zero; the offset `none` stands for a
missing position. The operations are stated once, for elements of any type.

* `getElem?_gather`, `getElem?_extend`, `getElem?_recycle`, `getElem?_putAll`: what each
  operation leaves in a slot.
-/

namespace VectorIndexing

/-- An offset into a sequence, or none for a missing position. -/
abbrev Offset := Option Nat

namespace Slots

variable {α : Type}

/-- The element at an offset; slots that do not exist hold the fill value. -/
def fetch (fill : α) (xs : List α) (offset : Offset) : α :=
  (offset.bind (xs[·]?)).getD fill

/-- The elements at the given offsets. -/
def gather (fill : α) (xs : List α) (offsets : List Offset) : List α :=
  let slots := xs.toArray
  offsets.map fun offset => (offset.bind (slots[·]?)).getD fill

/-- The sequence with fill values behind it, at least `length` slots long. -/
def extend (fill : α) (length : Nat) (xs : List α) : List α :=
  xs ++ List.replicate (length - xs.length) fill

/-- The first `n` elements of `xs ++ xs ++ …`. -/
def recycle (xs : List α) (n : Nat) : List α :=
  let slots := xs.toArray
  (List.range n).filterMap fun i => slots[i % slots.size]?

/-- Write one element. A missing offset, or one past the end, writes nothing. -/
def put (xs : List α) (offset : Offset) (value : α) : List α :=
  match offset with
  | some o => xs.set o value
  | none => xs

/-- Write elements one after another, so that the last one written to a slot stays. -/
def putAll (xs : List α) (writes : List (Offset × α)) : List α :=
  writes.foldl (fun acc w => put acc w.1 w.2) xs

/-- Write `values` at `offsets`, starting again with the first value when they run out. -/
def scatter (xs : List α) (offsets : List Offset) (values : List α) : List α :=
  putAll xs (offsets.zip (recycle values offsets.length))

/-- The elements whose flag is not set; elements without a flag stay. -/
def dropMarked : List Bool → List α → List α
  | _, [] => []
  | [], xs => xs
  | flag :: flags, x :: xs => if flag then dropMarked flags xs else x :: dropMarked flags xs

/-- One past the greatest offset, or zero. -/
def reach (offsets : List Offset) : Nat :=
  offsets.foldr (fun offset n => max ((offset.map (· + 1)).getD 0) n) 0

/-- Whether some position is missing. -/
def hasMissing (offsets : List Offset) : Bool := offsets.any Option.isNone

/-! ## Small laws -/

theorem gather_eq_map (fill : α) (xs : List α) (offsets : List Offset) :
    gather fill xs offsets = offsets.map (fetch fill xs) := by
  simp [gather, fetch]

@[simp] theorem length_gather (fill : α) (xs : List α) (offsets : List Offset) :
    (gather fill xs offsets).length = offsets.length := by
  simp [gather]

theorem getElem?_gather (fill : α) (xs : List α) (offsets : List Offset) (i : Nat) :
    (gather fill xs offsets)[i]? = (offsets[i]?).map (fetch fill xs) := by
  simp [gather_eq_map]

@[simp] theorem length_extend (fill : α) (length : Nat) (xs : List α) :
    (extend fill length xs).length = max xs.length length := by
  simp [extend]; omega

theorem getElem?_extend (fill : α) (length : Nat) (xs : List α) (i : Nat) :
    (extend fill length xs)[i]?
      = if i < xs.length then xs[i]? else if i < length then some fill else none := by
  rw [extend, List.getElem?_append, List.getElem?_replicate]
  grind

theorem recycle_eq_map (xs : List α) (n : Nat) (h : 0 < xs.length) :
    recycle xs n = (List.range n).map fun i => xs.get ⟨i % xs.length, Nat.mod_lt i h⟩ := by
  unfold recycle
  induction n with
  | zero => rfl
  | succ n ih => simp_all [List.range_succ, Nat.mod_lt]

@[simp] theorem length_recycle (xs : List α) (n : Nat) (h : xs ≠ []) :
    (recycle xs n).length = n := by
  simp [recycle_eq_map xs n (List.length_pos_iff.2 h)]

/-- Recycling repeats a sequence with its own length as period. -/
theorem getElem?_recycle (xs : List α) (n i : Nat) (h : xs ≠ []) :
    (recycle xs n)[i]? = if i < n then xs[i % xs.length]? else none := by
  have hpos := List.length_pos_iff.2 h
  rw [recycle_eq_map xs n hpos]
  by_cases hi : i < n <;> simp [hi, Nat.mod_lt, hpos]

/-- The slots of a recycled sequence with their offsets. -/
theorem zipIdx_recycle (xs : List α) (n : Nat) (h : 0 < xs.length) :
    (recycle xs n).zipIdx
      = (List.range n).map fun i => (xs.get ⟨i % xs.length, Nat.mod_lt i h⟩, i) := by
  rw [recycle_eq_map xs n h]
  refine List.ext_getElem (by simp) fun i _ _ => ?_
  simp

@[simp] theorem length_put (xs : List α) (offset : Offset) (value : α) :
    (put xs offset value).length = xs.length := by
  cases offset <;> simp [put]

@[simp] theorem length_putAll (xs : List α) (writes : List (Offset × α)) :
    (putAll xs writes).length = xs.length := by
  unfold putAll
  induction writes generalizing xs with
  | nil => rfl
  | cons w rest ih => simp [ih]

/-- After all writes, a slot holds what was written to it last, if anything was. -/
theorem getElem?_putAll (xs : List α) (writes : List (Offset × α)) (i : Nat) :
    (putAll xs writes)[i]?
      = if i < xs.length then
          ((writes.reverse.find? fun w => w.1 = some i).map Prod.snd).or xs[i]?
        else none := by
  unfold putAll
  induction writes generalizing xs with
  | nil => grind
  | cons w rest ih =>
    rw [List.foldl_cons, ih, length_put, List.reverse_cons, List.find?_append]
    generalize rest.reverse.find? _ = later
    rcases w with ⟨_ | o, x⟩
    · cases later <;> simp [put]
    · by_cases h : o = i <;> cases later <;> simp +contextual [put, h]

@[simp] theorem length_scatter (xs : List α) (offsets : List Offset) (values : List α) :
    (scatter xs offsets values).length = xs.length := by
  simp [scatter]

end Slots

end VectorIndexing
