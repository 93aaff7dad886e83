import Mathlib.Data.Finset.Card
import VectorIndexing.Handles

/-!
# Counting references

The count of a storage cell is the number of references to it. Between two steps of a program the
references are those of the live handles. Within a step there are others for a moment: a clone has
a reference before the handle gets it, and a handle that goes away leaves one behind until it is
released.

* `Heap.Balanced`: every cell counts its references.
* `Heap.Balanced.create`, `Balanced.clone`, `Balanced.drop`, `Balanced.write`: the steps keep the
  balance.
* `Heap.read?_create`, `read?_clone`, `read?_drop`, `read?_write`: what is seen through each handle
  afterwards.
-/

namespace VectorIndexing

theorem OrderedMap.mem_keys_of_findIn {κ α : Type} [DecidableEq κ] {key : κ} {x : α}
    {entries : List (κ × α)} (h : findIn key entries = some x) :
    key ∈ entries.map Prod.fst := by
  induction entries with
  | nil => cases h
  | cons e rest ih =>
    obtain ⟨k, v⟩ := e
    by_cases hKey : k = key
    · simp [hKey]
    · rw [findIn, if_neg hKey] at h
      exact List.mem_cons_of_mem _ (ih h)

namespace Heap

variable {α : Type}

/-- The live handles that point to an address. -/
def holders (heap : Heap α) (address : Nat) : Finset String :=
  heap.handles.keys.toFinset.filter fun h => heap.handles.find? h = some address

/-- The sequence stored at an address. -/
def itemsAt? (heap : Heap α) (address : Nat) : Option (List α) :=
  (heap.cells.find? address).map Cell.items

/-- Forget a handle, but not the reference that it had. -/
def unbind (heap : Heap α) (handle : String) : Heap α :=
  { heap with handles := heap.handles.erase handle }

/-- Every cell counts the handles that point to it, and the loose references besides. There is a
cell behind each of them. -/
structure Balanced (heap : Heap α) (loose : List Nat) : Prop where
  held : ∀ h a, heap.handles.find? h = some a → ∃ cell, heap.cells.find? a = some cell
  looseHeld : ∀ a ∈ loose, ∃ cell, heap.cells.find? a = some cell
  counted : ∀ a cell, heap.cells.find? a = some cell →
    cell.count = (heap.holders a).card + loose.count a
  below : ∀ a cell, heap.cells.find? a = some cell → a < heap.next

variable {heap : Heap α} {h g source : String} {a b : Nat} {loose : List Nat} {cell : Cell α}

@[simp] theorem mem_holders : h ∈ heap.holders a ↔ heap.handles.find? h = some a := by
  simp only [holders, Finset.mem_filter, List.mem_toFinset, and_iff_right_iff_imp]
  exact OrderedMap.mem_keys_of_findIn

theorem read?_eq (heap : Heap α) (h : String) :
    heap.read? h = (heap.handles.find? h).bind heap.itemsAt? := by
  unfold read? cellOf?
  cases heap.handles.find? h <;> rfl

/-! ## References come and go -/

theorem holders_unbind (heap : Heap α) (h : String) (a : Nat) :
    (heap.unbind h).holders a = (heap.holders a).erase h := by
  ext g
  simp only [mem_holders, unbind, OrderedMap.find?_erase, Finset.mem_erase]
  by_cases hg : h = g <;> simp [hg, eq_comm]

theorem holders_insert (heap : Heap α) (h : String) (a b : Nat) :
    ({ heap with handles := heap.handles.insert h b } : Heap α).holders a
      = if b = a then insert h ((heap.holders a).erase h) else (heap.holders a).erase h := by
  ext g
  rw [mem_holders, OrderedMap.find?_insert]
  by_cases hg : h = g
  · subst hg
    by_cases hb : b = a <;> simp [hb]
  · by_cases hb : b = a <;> simp [hb, hg, Ne.symm hg]

theorem find?_cells_retain (hCell : heap.cells.find? a = some cell) (b : Nat) :
    (heap.retain a).cells.find? b
      = if a = b then some { cell with count := cell.count + 1 } else heap.cells.find? b := by
  unfold retain
  rw [hCell]
  exact OrderedMap.find?_insert ..

theorem find?_cells_release (hCell : heap.cells.find? a = some cell) (b : Nat) :
    (heap.release a).cells.find? b
      = if a = b then
          if cell.count ≤ 1 then none else some { cell with count := cell.count - 1 }
        else heap.cells.find? b := by
  unfold release
  rw [hCell]
  dsimp only
  split
  · exact OrderedMap.find?_erase ..
  · exact OrderedMap.find?_insert ..

@[simp] theorem handles_retain (heap : Heap α) (a : Nat) :
    (heap.retain a).handles = heap.handles := by
  unfold retain
  split <;> rfl

@[simp] theorem next_retain (heap : Heap α) (a : Nat) : (heap.retain a).next = heap.next := by
  unfold retain
  split <;> rfl

@[simp] theorem handles_release (heap : Heap α) (a : Nat) :
    (heap.release a).handles = heap.handles := by
  unfold release
  split <;> rfl

@[simp] theorem next_release (heap : Heap α) (a : Nat) : (heap.release a).next = heap.next := by
  unfold release
  split <;> rfl

@[simp] theorem holders_retain (heap : Heap α) (a b : Nat) :
    (heap.retain a).holders b = heap.holders b := by
  unfold holders
  rw [handles_retain]

@[simp] theorem holders_release (heap : Heap α) (a b : Nat) :
    (heap.release a).holders b = heap.holders b := by
  unfold holders
  rw [handles_release]

theorem unbind_release (heap : Heap α) (h : String) (a : Nat) :
    (heap.release a).unbind h = (heap.unbind h).release a := by
  unfold release unbind
  dsimp only
  split <;> rfl

namespace Balanced

theorem unbind (hHeap : heap.Balanced loose) (hLive : heap.handles.find? h = some a) :
    (heap.unbind h).Balanced (a :: loose) where
  held := by
    intro g b hg
    rw [Heap.unbind, OrderedMap.find?_erase] at hg
    split at hg
    · cases hg
    · exact hHeap.held g b hg
  looseHeld := by
    intro b hb
    rcases List.mem_cons.mp hb with rfl | hb
    · exact hHeap.held h b hLive
    · exact hHeap.looseHeld b hb
  counted := by
    intro b cell hCell
    have hCount : cell.count = (heap.holders b).card + loose.count b := hHeap.counted b cell hCell
    rw [holders_unbind, hCount, List.count_cons]
    by_cases hb : a = b
    · have hMem : h ∈ heap.holders b := mem_holders.mpr (hb ▸ hLive)
      have := Finset.card_erase_add_one hMem
      simp only [hb, beq_self_eq_true, if_true]
      omega
    · have hNotMem : h ∉ heap.holders b := by
        rw [mem_holders, hLive, Option.some.injEq]
        exact hb
      rw [Finset.erase_eq_of_notMem hNotMem, if_neg (by simpa using hb)]
      rfl
  below := hHeap.below

theorem unbind_of_dead (hHeap : heap.Balanced loose) (hDead : heap.handles.find? h = none) :
    (heap.unbind h).Balanced loose where
  held := by
    intro g b hg
    rw [Heap.unbind, OrderedMap.find?_erase] at hg
    split at hg
    · cases hg
    · exact hHeap.held g b hg
  looseHeld := hHeap.looseHeld
  counted := by
    intro b cell hCell
    have hNotMem : h ∉ heap.holders b := by
      rw [mem_holders, hDead]
      simp
    rw [holders_unbind, Finset.erase_eq_of_notMem hNotMem]
    exact hHeap.counted b cell hCell
  below := hHeap.below

theorem retain (hHeap : heap.Balanced loose) (hCell : heap.cells.find? a = some cell) :
    (heap.retain a).Balanced (a :: loose) := by
  have hFound : ∀ b cell', heap.cells.find? b = some cell' →
      ∃ cell', (heap.retain a).cells.find? b = some cell' := by
    intro b cell' hb
    rw [find?_cells_retain hCell]
    split
    · exact ⟨_, rfl⟩
    · exact ⟨cell', hb⟩
  constructor
  case held =>
    intro h b hb
    rw [handles_retain] at hb
    obtain ⟨cell', hCell'⟩ := hHeap.held h b hb
    exact hFound b cell' hCell'
  case looseHeld =>
    intro b hb
    rcases List.mem_cons.mp hb with rfl | hb
    · exact hFound b cell hCell
    · obtain ⟨cell', hCell'⟩ := hHeap.looseHeld b hb
      exact hFound b cell' hCell'
  case counted =>
    intro b cell' hCell'
    rw [find?_cells_retain hCell] at hCell'
    rw [holders_retain, List.count_cons]
    split at hCell'
    · next hb =>
      cases hCell'
      have := hHeap.counted a cell hCell
      subst hb
      simp only [beq_self_eq_true, if_true]
      omega
    · next hb =>
      rw [if_neg (by simpa using hb)]
      exact hHeap.counted b cell' hCell'
  case below =>
    intro b cell' hCell'
    rw [find?_cells_retain hCell] at hCell'
    rw [next_retain]
    split at hCell'
    · next hb =>
      subst hb
      exact hHeap.below a cell hCell
    · exact hHeap.below b cell' hCell'

/-- A cell to which some other reference remains is not freed. -/
theorem find?_cells_release_of_held (hHeap : heap.Balanced (a :: loose))
    (hb : b ∈ loose ∨ ∃ h, heap.handles.find? h = some b) :
    ∃ cell cell', heap.cells.find? b = some cell ∧ (heap.release a).cells.find? b = some cell'
      ∧ cell'.items = cell.items := by
  obtain ⟨cell, hCell⟩ := hHeap.looseHeld a List.mem_cons_self
  obtain ⟨other, hOther⟩ : ∃ cell, heap.cells.find? b = some cell := by
    rcases hb with hb | ⟨h, hb⟩
    · exact hHeap.looseHeld b (List.mem_cons_of_mem _ hb)
    · exact hHeap.held h b hb
  refine ⟨other, ?_⟩
  rw [find?_cells_release hCell, hOther]
  by_cases hab : a = b
  · subst hab
    cases hCell.symm.trans hOther
    have hCount := hHeap.counted a cell hCell
    rw [List.count_cons_self] at hCount
    -- the released reference and the other one are both counted
    have hMany : ¬ cell.count ≤ 1 := by
      rcases hb with hb | ⟨h, hb⟩
      · have := List.count_pos_iff.mpr hb
        omega
      · have := Finset.card_pos.mpr ⟨h, mem_holders.mpr hb⟩
        omega
    rw [if_pos rfl, if_neg hMany]
    exact ⟨_, rfl, rfl, rfl⟩
  · rw [if_neg hab]
    exact ⟨other, rfl, rfl, rfl⟩

theorem release (hHeap : heap.Balanced (a :: loose)) : (heap.release a).Balanced loose := by
  obtain ⟨cell, hCell⟩ := hHeap.looseHeld a List.mem_cons_self
  constructor
  case held =>
    intro h b hb
    rw [handles_release] at hb
    obtain ⟨-, cell', -, hCell', -⟩ := hHeap.find?_cells_release_of_held (Or.inr ⟨h, hb⟩)
    exact ⟨cell', hCell'⟩
  case looseHeld =>
    intro b hb
    obtain ⟨-, cell', -, hCell', -⟩ := hHeap.find?_cells_release_of_held (Or.inl hb)
    exact ⟨cell', hCell'⟩
  case counted =>
    intro b cell' hCell'
    rw [find?_cells_release hCell] at hCell'
    rw [holders_release]
    split at hCell'
    · next hb =>
      subst hb
      have hCount := hHeap.counted a cell hCell
      rw [List.count_cons_self] at hCount
      split at hCell'
      · cases hCell'
      · cases hCell'
        dsimp only
        omega
    · next hb =>
      have hCount := hHeap.counted b cell' hCell'
      rw [List.count_cons_of_ne hb] at hCount
      exact hCount
  case below =>
    intro b cell' hCell'
    rw [find?_cells_release hCell] at hCell'
    rw [next_release]
    split at hCell'
    · next hb =>
      subst hb
      exact hHeap.below a cell hCell
    · exact hHeap.below b cell' hCell'

/-- A handle takes over a loose reference. -/
theorem bind (hHeap : (heap.unbind h).Balanced (a :: loose)) :
    ({ heap with handles := heap.handles.insert h a } : Heap α).Balanced loose where
  held := by
    intro g b hg
    rw [OrderedMap.find?_insert] at hg
    split at hg
    · cases hg
      exact hHeap.looseHeld a List.mem_cons_self
    · next hNe => exact hHeap.held g b (by simp [Heap.unbind, hNe, hg])
  looseHeld := fun b hb => hHeap.looseHeld b (List.mem_cons_of_mem _ hb)
  counted := by
    intro b cell hCell
    have hCount := hHeap.counted b cell hCell
    rw [holders_unbind] at hCount
    rw [holders_insert]
    by_cases hb : a = b
    · subst hb
      rw [List.count_cons_self] at hCount
      rw [if_pos rfl, Finset.card_insert_of_notMem (by simp)]
      omega
    · rw [List.count_cons_of_ne hb] at hCount
      rw [if_neg hb]
      exact hCount
  below := hHeap.below

/-- No reference is to an address that was never used. -/
theorem ne_next (hHeap : heap.Balanced loose)
    (hb : b ∈ loose ∨ ∃ h, heap.handles.find? h = some b) : heap.next ≠ b := by
  obtain ⟨cell, hCell⟩ : ∃ cell, heap.cells.find? b = some cell := by
    rcases hb with hb | ⟨h, hb⟩
    · exact hHeap.looseHeld b hb
    · exact hHeap.held h b hb
  have := hHeap.below b cell hCell
  omega

/-- A handle whose reference is gone gets a fresh cell. -/
theorem allocate (hHeap : (heap.unbind h).Balanced loose) (items : List α) :
    (heap.allocate h items).Balanced loose where
  held := by
    intro g b hg
    rw [Heap.allocate, OrderedMap.find?_insert] at hg
    rw [Heap.allocate, OrderedMap.find?_insert]
    split at hg
    · cases hg
      exact ⟨_, if_pos rfl⟩
    · next hNe =>
      have hOld : (heap.unbind h).handles.find? g = some b := by simp [Heap.unbind, hNe, hg]
      have hUsed : heap.next ≠ b := hHeap.ne_next (Or.inr ⟨g, hOld⟩)
      rw [if_neg hUsed]
      exact hHeap.held g b hOld
  looseHeld := by
    intro b hb
    have hUsed : heap.next ≠ b := hHeap.ne_next (Or.inl hb)
    rw [Heap.allocate, OrderedMap.find?_insert, if_neg hUsed]
    exact hHeap.looseHeld b hb
  counted := by
    intro b cell hCell
    have hHolders : (heap.allocate h items).holders b
        = if heap.next = b then insert h ((heap.holders b).erase h)
          else (heap.holders b).erase h := holders_insert heap h b heap.next
    rw [Heap.allocate, OrderedMap.find?_insert] at hCell
    rw [hHolders, ← holders_unbind]
    split at hCell
    · next hb =>
      cases hCell
      -- no reference was to the fresh address before, and so `h` alone is counted
      have hNone : (heap.unbind h).holders b = ∅ := by
        ext g
        simp only [mem_holders, Finset.notMem_empty, iff_false]
        exact fun hg => hHeap.ne_next (Or.inr ⟨g, hg⟩) hb
      have hLoose : loose.count b = 0 :=
        List.count_eq_zero.mpr fun hMem => hHeap.ne_next (Or.inl hMem) hb
      rw [if_pos hb, hNone, hLoose]
      rfl
    · next hb =>
      rw [if_neg hb]
      exact hHeap.counted b cell hCell
  below := by
    intro b cell hCell
    rw [Heap.allocate, OrderedMap.find?_insert] at hCell
    have hNext : (heap.allocate h items).next = heap.next + 1 := rfl
    rw [hNext]
    split at hCell
    · omega
    · have : b < heap.next := hHeap.below b cell hCell
      omega

end Balanced

/-! ## What is seen -/

theorem read?_unbind (heap : Heap α) (h g : String) :
    (heap.unbind h).read? g = if h = g then none else heap.read? g := by
  rw [read?_eq, read?_eq, unbind, OrderedMap.find?_erase]
  split <;> rfl

theorem itemsAt?_retain (hCell : heap.cells.find? a = some cell) (b : Nat) :
    (heap.retain a).itemsAt? b = heap.itemsAt? b := by
  unfold itemsAt?
  rw [find?_cells_retain hCell]
  split
  · next hb =>
    rw [← hb, hCell]
    rfl
  · rfl

theorem read?_retain (hCell : heap.cells.find? a = some cell) (g : String) :
    (heap.retain a).read? g = heap.read? g := by
  rw [read?_eq, read?_eq, handles_retain]
  exact Option.bind_congr fun b _ => itemsAt?_retain hCell b

theorem Balanced.itemsAt?_release (hHeap : heap.Balanced (a :: loose))
    (hb : b ∈ loose ∨ ∃ h, heap.handles.find? h = some b) :
    (heap.release a).itemsAt? b = heap.itemsAt? b := by
  obtain ⟨cell, cell', hCell, hCell', hItems⟩ := hHeap.find?_cells_release_of_held hb
  simp [itemsAt?, hCell, hCell', hItems]

theorem Balanced.read?_release (hHeap : heap.Balanced (a :: loose)) (g : String) :
    (heap.release a).read? g = heap.read? g := by
  rw [read?_eq, read?_eq, handles_release]
  cases hg : heap.handles.find? g with
  | none => rfl
  | some b => exact hHeap.itemsAt?_release (Or.inr ⟨g, hg⟩)

theorem Balanced.read?_allocate (hHeap : (heap.unbind h).Balanced loose) (items : List α)
    (g : String) :
    (heap.allocate h items).read? g
      = if h = g then some items else (heap.unbind h).read? g := by
  rw [read?_eq, read?_unbind, read?_eq, Heap.allocate, OrderedMap.find?_insert]
  split
  · simp [itemsAt?]
  · next hNe =>
    cases hg : heap.handles.find? g with
    | none => rfl
    | some b =>
      have hOld : (heap.unbind h).handles.find? g = some b := by simp [Heap.unbind, hNe, hg]
      have hUsed : heap.next ≠ b := hHeap.ne_next (Or.inr ⟨g, hOld⟩)
      simp only [Option.bind_some, itemsAt?, OrderedMap.find?_insert]
      rw [if_neg hUsed]

/-! ## Dropping -/

theorem drop_of_live (hLive : heap.handles.find? h = some a) :
    heap.drop h = (heap.unbind h).release a := by
  rw [← unbind_release]
  unfold drop
  rw [hLive]
  dsimp only [unbind]
  rw [handles_release]

theorem drop_of_dead (hDead : heap.handles.find? h = none) : heap.drop h = heap := by
  unfold drop
  rw [hDead]

theorem find?_handles_drop (heap : Heap α) (h g : String) :
    (heap.drop h).handles.find? g = if h = g then none else heap.handles.find? g := by
  cases hLive : heap.handles.find? h with
  | some a =>
    rw [drop_of_live hLive, handles_release]
    exact OrderedMap.find?_erase ..
  | none =>
    rw [drop_of_dead hLive]
    split
    · next hg => rw [← hg, hLive]
    · rfl

namespace Balanced

theorem drop (hHeap : heap.Balanced loose) (h : String) : (heap.drop h).Balanced loose := by
  cases hLive : heap.handles.find? h with
  | some a =>
    rw [drop_of_live hLive]
    exact (hHeap.unbind hLive).release
  | none =>
    rw [drop_of_dead hLive]
    exact hHeap

/-- A handle that was dropped has no reference left. -/
theorem unbind_drop (hHeap : heap.Balanced loose) (h : String) :
    ((heap.drop h).unbind h).Balanced loose :=
  (hHeap.drop h).unbind_of_dead (by rw [find?_handles_drop, if_pos rfl])

theorem itemsAt?_drop (hHeap : heap.Balanced loose) (h : String) (hb : b ∈ loose) :
    (heap.drop h).itemsAt? b = heap.itemsAt? b := by
  cases hLive : heap.handles.find? h with
  | some a =>
    rw [drop_of_live hLive, (hHeap.unbind hLive).itemsAt?_release (Or.inl hb)]
    rfl
  | none => rw [drop_of_dead hLive]

theorem read?_drop (hHeap : heap.Balanced loose) (h g : String) :
    (heap.drop h).read? g = if h = g then none else heap.read? g := by
  cases hLive : heap.handles.find? h with
  | some a => rw [drop_of_live hLive, (hHeap.unbind hLive).read?_release, read?_unbind]
  | none =>
    rw [drop_of_dead hLive]
    split
    · next hg => rw [read?_eq, ← hg, hLive, Option.bind_none]
    · rfl

end Balanced

/-! ## Creating -/

namespace Balanced

theorem create (hHeap : heap.Balanced loose) (h : String) (items : List α) :
    (heap.create h items).Balanced loose :=
  (hHeap.unbind_drop h).allocate items

theorem read?_create (hHeap : heap.Balanced loose) (h : String) (items : List α) (g : String) :
    (heap.create h items).read? g = if h = g then some items else heap.read? g := by
  rw [Heap.create, (hHeap.unbind_drop h).read?_allocate, read?_unbind, hHeap.read?_drop]
  split <;> rfl

end Balanced

/-! ## Cloning -/

/-- The clone has its reference before the handle gives up the one that it had, so that a handle
can even be cloned onto itself. -/
theorem clone_of_live (hLive : heap.handles.find? source = some a) (h : String) :
    heap.clone h source
      = { (heap.retain a).drop h with handles := ((heap.retain a).drop h).handles.insert h a } := by
  unfold clone
  rw [hLive]

theorem clone_of_dead (hDead : heap.handles.find? source = none) (h : String) :
    heap.clone h source = heap := by
  unfold clone
  rw [hDead]

namespace Balanced

theorem clone (hHeap : heap.Balanced loose) (h source : String) :
    (heap.clone h source).Balanced loose := by
  cases hLive : heap.handles.find? source with
  | none =>
    rw [clone_of_dead hLive]
    exact hHeap
  | some a =>
    obtain ⟨cell, hCell⟩ := hHeap.held source a hLive
    rw [clone_of_live hLive]
    exact ((hHeap.retain hCell).unbind_drop h).bind

theorem read?_clone (hHeap : heap.Balanced loose) (hLive : heap.handles.find? source = some a)
    (h g : String) :
    (heap.clone h source).read? g = if h = g then heap.read? source else heap.read? g := by
  obtain ⟨cell, hCell⟩ := hHeap.held source a hLive
  have hKept := hHeap.retain hCell
  rw [clone_of_live hLive, read?_eq]
  dsimp only
  rw [OrderedMap.find?_insert]
  split
  · calc ((heap.retain a).drop h).itemsAt? a
      _ = (heap.retain a).itemsAt? a := hKept.itemsAt?_drop h List.mem_cons_self
      _ = heap.itemsAt? a := itemsAt?_retain hCell a
      _ = heap.read? source := by rw [read?_eq, hLive, Option.bind_some]
  · next hNe =>
    have hKeptRead : ((heap.retain a).drop h).read? g = heap.read? g := by
      rw [hKept.read?_drop, if_neg hNe, read?_retain hCell]
    rw [← hKeptRead, read?_eq]
    rfl

end Balanced

/-! ## Writing -/

theorem write_of_dead (hDead : heap.handles.find? h = none) (change : List α → List α) :
    heap.write h change = heap := by
  unfold write
  rw [hDead]

theorem write_of_sole (hLive : heap.handles.find? h = some a)
    (hCell : heap.cells.find? a = some cell) (hSole : cell.count ≤ 1)
    (change : List α → List α) :
    heap.write h change
      = { heap with cells := heap.cells.insert a { cell with items := change cell.items } } := by
  unfold write cellOf?
  simp only [hLive, Option.bind_some, hCell, hSole, if_true]

theorem write_of_shared (hLive : heap.handles.find? h = some a)
    (hCell : heap.cells.find? a = some cell) (hShared : ¬ cell.count ≤ 1)
    (change : List α → List α) :
    heap.write h change = (heap.release a).allocate h (change cell.items) := by
  unfold write cellOf?
  simp only [hLive, Option.bind_some, hCell, hShared, if_false]

namespace Balanced

/-- Writing to a cell changes no reference. -/
theorem writeCell (hHeap : heap.Balanced loose) (hCell : heap.cells.find? a = some cell)
    (items : List α) :
    ({ heap with cells := heap.cells.insert a { cell with items } } : Heap α).Balanced loose := by
  have hFound : ∀ b, (∃ cell, heap.cells.find? b = some cell) →
      ∃ cell', (heap.cells.insert a { cell with items }).find? b = some cell' := by
    intro b hb
    rw [OrderedMap.find?_insert]
    split
    · exact ⟨_, rfl⟩
    · exact hb
  constructor
  case held => exact fun h b hb => hFound b (hHeap.held h b hb)
  case looseHeld => exact fun b hb => hFound b (hHeap.looseHeld b hb)
  case counted =>
    intro b cell' hCell'
    rw [OrderedMap.find?_insert] at hCell'
    split at hCell'
    · next hb =>
      cases hCell'
      subst hb
      exact hHeap.counted a cell hCell
    · exact hHeap.counted b cell' hCell'
  case below =>
    intro b cell' hCell'
    rw [OrderedMap.find?_insert] at hCell'
    split at hCell'
    · next hb =>
      subst hb
      exact hHeap.below a cell hCell
    · exact hHeap.below b cell' hCell'

/-- A handle that shares its cell leaves it to the others. -/
theorem unbind_release (hHeap : heap.Balanced loose) (hLive : heap.handles.find? h = some a) :
    ((heap.release a).unbind h).Balanced loose := by
  rw [Heap.unbind_release]
  exact (hHeap.unbind hLive).release

theorem write (hHeap : heap.Balanced loose) (h : String) (change : List α → List α) :
    (heap.write h change).Balanced loose := by
  cases hLive : heap.handles.find? h with
  | none =>
    rw [write_of_dead hLive]
    exact hHeap
  | some a =>
    obtain ⟨cell, hCell⟩ := hHeap.held h a hLive
    by_cases hSole : cell.count ≤ 1
    · rw [write_of_sole hLive hCell hSole]
      exact hHeap.writeCell hCell _
    · rw [write_of_shared hLive hCell hSole]
      exact (hHeap.unbind_release hLive).allocate _

/-- Nothing else points to a cell of count one. -/
theorem ne_of_sole (hHeap : heap.Balanced loose) (hLive : heap.handles.find? h = some a)
    (hCell : heap.cells.find? a = some cell) (hSole : cell.count ≤ 1) (hNe : h ≠ g) :
    heap.handles.find? g ≠ some a := by
  intro hg
  have hTwo : 1 < (heap.holders a).card :=
    Finset.one_lt_card.mpr ⟨h, mem_holders.mpr hLive, g, mem_holders.mpr hg, hNe⟩
  have := hHeap.counted a cell hCell
  omega

theorem read?_write (hHeap : heap.Balanced loose) (h : String) (change : List α → List α)
    (g : String) :
    (heap.write h change).read? g
      = if h = g then (heap.read? h).map change else heap.read? g := by
  cases hLive : heap.handles.find? h with
  | none =>
    rw [write_of_dead hLive]
    split
    · next hg => rw [← hg, read?_eq, hLive, Option.bind_none, Option.map_none]
    · rfl
  | some a =>
    obtain ⟨cell, hCell⟩ := hHeap.held h a hLive
    have hRead : heap.read? h = some cell.items := by
      rw [read?_eq, hLive, Option.bind_some, itemsAt?, hCell, Option.map_some]
    by_cases hSole : cell.count ≤ 1
    · -- the cell is written to in place, where no other handle can see it
      rw [write_of_sole hLive hCell hSole, hRead, read?_eq]
      dsimp only
      split
      · next hg => simp [← hg, hLive, itemsAt?]
      · next hNe =>
        rw [read?_eq]
        refine Option.bind_congr fun b hb => ?_
        have hOther : a ≠ b := by
          rintro rfl
          exact hHeap.ne_of_sole hLive hCell hSole hNe hb
        simp only [itemsAt?, OrderedMap.find?_insert]
        rw [if_neg hOther]
    · rw [write_of_shared hLive hCell hSole, (hHeap.unbind_release hLive).read?_allocate, hRead,
        Heap.unbind_release, (hHeap.unbind hLive).read?_release, read?_unbind]
      split <;> rfl

end Balanced

end Heap

end VectorIndexing
