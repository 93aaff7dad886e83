import VectorIndexing.Element
import VectorIndexing.Handles.Steps
import VectorIndexing.Proofs.Handles.References

/-!
# Handles as independent values

Whatever a program does, nobody can tell from the sequences behind its handles that clones share
storage: they are the sequences that plain copies would have. What sharing there is, the counts of
the cells tell exactly, and only a write through a shared handle moves a handle to other storage.

* `Heap.Shows`: a heap on which every handle shows the sequence of its plain copy.
* `HandleStep.shows_onHeap`: one step keeps this, and answers alike.
* `Heap.TracksSharing`: what the counts have to do with the handles.
* `Heap.independent_run`: both, after every program.
-/

namespace VectorIndexing

variable {α : Type}

/-! ## One step -/

/-- The counts are in balance, and every handle shows the sequence that it has as a plain copy. -/
structure Heap.Shows (heap : Heap α) (copies : Copies α) : Prop where
  balanced : heap.Balanced []
  read : ∀ h, heap.read? h = copies.find? h

namespace Heap

variable {heap : Heap α} {copies : Copies α}

theorem shows_empty : ({} : Heap α).Shows ∅ where
  balanced :=
    { held := by
        intro h a hh
        cases hh
      looseHeld := by
        intro a ha
        cases ha
      counted := by
        intro a cell hCell
        cases hCell
      below := by
        intro a cell hCell
        cases hCell }
  read := fun _ => rfl

namespace Shows

theorem create (hHeap : heap.Shows copies) (h : String) (items : List α) :
    (heap.create h items).Shows (copies.insert h items) where
  balanced := hHeap.balanced.create h items
  read := by
    intro g
    rw [hHeap.balanced.read?_create, OrderedMap.find?_insert, hHeap.read]

theorem drop (hHeap : heap.Shows copies) (h : String) :
    (heap.drop h).Shows (copies.erase h) where
  balanced := hHeap.balanced.drop h
  read := by
    intro g
    rw [hHeap.balanced.read?_drop, OrderedMap.find?_erase, hHeap.read]

theorem clone (hHeap : heap.Shows copies) (h source : String) :
    (heap.clone h source).Shows (copies.clone h source) where
  balanced := hHeap.balanced.clone h source
  read := by
    intro g
    have hSource := hHeap.read source
    cases hLive : heap.handles.find? source with
    | none =>
      rw [read?_eq, hLive, Option.bind_none] at hSource
      rw [clone_of_dead hLive, Copies.clone, ← hSource]
      exact hHeap.read g
    | some a =>
      rw [hHeap.balanced.read?_clone hLive, hSource, hHeap.read]
      obtain ⟨cell, hCell⟩ := hHeap.balanced.held source a hLive
      rw [read?_eq, hLive, Option.bind_some, itemsAt?, hCell, Option.map_some] at hSource
      rw [Copies.clone, ← hSource]
      exact (OrderedMap.find?_insert ..).symm

theorem write (hHeap : heap.Shows copies) (h : String) (change : List α → List α) :
    (heap.write h change).Shows (copies.write h change) where
  balanced := hHeap.balanced.write h change
  read := by
    intro g
    rw [hHeap.balanced.read?_write, hHeap.read, hHeap.read, Copies.write]
    cases hCopy : copies.find? h with
    | none =>
      dsimp only
      split
      · next hg => rw [← hg, hCopy, Option.map_none]
      · rfl
    | some items =>
      dsimp only
      rw [OrderedMap.find?_insert, Option.map_some]

end Shows

end Heap

/-- A step answers alike on a heap and on plain copies, and the handles show the copies again. -/
theorem HandleStep.shows_onHeap (step : HandleStep α) {heap : Heap α} {copies : Copies α}
    (hHeap : heap.Shows copies) :
    (step.onHeap.run heap).1 = (step.onCopies.run copies).1
      ∧ (step.onHeap.run heap).2.Shows (step.onCopies.run copies).2 := by
  cases step with
  | create h items => exact ⟨rfl, hHeap.create h items⟩
  | createEmpty h => exact ⟨rfl, hHeap.create h []⟩
  | clone h source => exact ⟨rfl, hHeap.clone h source⟩
  | drop h => exact ⟨rfl, hHeap.drop h⟩
  | push h item => exact ⟨rfl, hHeap.write h fun items => items ++ [item]⟩
  | clear h => exact ⟨rfl, hHeap.write h fun _ => []⟩
  | take h => exact ⟨hHeap.read h, hHeap.drop h⟩

/-! ## Programs -/

theorem Heap.shows_run (steps : List (HandleStep α)) {heap : Heap α} {copies : Copies α}
    (hHeap : heap.Shows copies) :
    ((steps.mapM HandleStep.onHeap).run heap).1 = ((steps.mapM HandleStep.onCopies).run copies).1
      ∧ ((steps.mapM HandleStep.onHeap).run heap).2.Shows
          ((steps.mapM HandleStep.onCopies).run copies).2 := by
  induction steps generalizing heap copies with
  | nil => exact ⟨rfl, hHeap⟩
  | cons step rest ih =>
    obtain ⟨hAnswer, hNext⟩ := step.shows_onHeap hHeap
    obtain ⟨hAnswers, hFinal⟩ := ih hNext
    rw [List.mapM_cons, List.mapM_cons]
    exact ⟨congrArg₂ List.cons hAnswer hAnswers, hFinal⟩

/-! ## Sharing -/

namespace Heap

/-- What the counts and the addresses of storage say about handles. -/
structure TracksSharing [BEq α] (heap : Heap α) : Prop where
  /-- There is a sequence behind every live handle. -/
  seen : ∀ h, heap.handles.find? h ≠ none → heap.read? h ≠ none
  /-- A cell counts the live handles that point to it. -/
  counted : ∀ a cell, heap.cells.find? a = some cell → cell.count = (heap.holders a).card
  /-- A clone has the storage of its source. -/
  clones : ∀ h source, heap.handles.find? source ≠ none →
    (heap.clone h source).sameCell h source = true
  /-- A handle is shared if another one has the same storage. -/
  shared : ∀ h, heap.isShared h = true ↔ ∃ g, g ≠ h ∧ heap.sameCell h g = true
  /-- A write through a shared handle takes it away from the others, which share as before. -/
  separates : ∀ h change, heap.isShared h = true →
    (∀ g, g ≠ h → (heap.write h change).sameCell h g = false)
      ∧ ∀ g g', g ≠ h → g' ≠ h → (heap.write h change).sameCell g g' = heap.sameCell g g'
  /-- A write through a handle that is not shared moves no handle. -/
  keeps : ∀ h change, heap.isShared h = false → (heap.write h change).handles = heap.handles
  /-- The same storage holds the same sequence. -/
  same : ∀ h g, heap.sameCell h g = true → heap.read? h = heap.read? g
  /-- With the same storage two handles show equal sequences, unless an element in it differs from
  itself. -/
  equal : ∀ h g items, heap.sameCell h g = true → heap.read? h = some items →
    (heap.sameItems h g = true ↔ ∀ item ∈ items, (item == item) = true)

variable {heap : Heap α} {h g source : String} {a : Nat} {cell : Cell α}

theorem sameCell_eq_true_iff :
    heap.sameCell h g = true
      ↔ ∃ a, heap.handles.find? h = some a ∧ heap.handles.find? g = some a := by
  unfold sameCell
  cases heap.handles.find? h with
  | none => simp
  | some a =>
    cases heap.handles.find? g with
    | none => simp
    | some b => simp [eq_comm (a := a)]

theorem isShared_of_cell (hLive : heap.handles.find? h = some a)
    (hCell : heap.cells.find? a = some cell) : heap.isShared h = decide (1 < cell.count) := by
  simp [isShared, cellOf?, hLive, hCell]

theorem isShared_of_dead (hDead : heap.handles.find? h = none) : heap.isShared h = false := by
  simp [isShared, cellOf?, hDead]

theorem sameCell_clone (hLive : heap.handles.find? source = some a)
    (h : String) : (heap.clone h source).sameCell h source = true := by
  rw [sameCell_eq_true_iff, clone_of_live hLive]
  refine ⟨a, by simp, ?_⟩
  dsimp only
  rw [OrderedMap.find?_insert, find?_handles_drop, handles_retain, hLive]
  split <;> rfl

theorem read?_of_sameCell (hSame : heap.sameCell h g = true) : heap.read? h = heap.read? g := by
  obtain ⟨a, hh, hg⟩ := sameCell_eq_true_iff.mp hSame
  rw [read?_eq, read?_eq, hh, hg]

/-- A sequence equals itself if each of its elements does. -/
theorem beq_self_iff [BEq α] {items : List α} :
    (items == items) = true ↔ ∀ item ∈ items, (item == item) = true := by
  induction items with
  | nil => simp
  | cons item items ih => rw [List.cons_beq_cons, Bool.and_eq_true, ih, List.forall_mem_cons]

theorem sameItems_of_sameCell [BEq α] {items : List α} (hSame : heap.sameCell h g = true)
    (hItems : heap.read? h = some items) :
    heap.sameItems h g = true ↔ ∀ item ∈ items, (item == item) = true := by
  rw [sameItems, ← read?_of_sameCell hSame, hItems]
  exact beq_self_iff

namespace Balanced

theorem isShared_iff (hHeap : heap.Balanced []) (h : String) :
    heap.isShared h = true ↔ ∃ g, g ≠ h ∧ heap.sameCell h g = true := by
  simp only [sameCell_eq_true_iff]
  cases hLive : heap.handles.find? h with
  | none => simp [isShared_of_dead hLive]
  | some a =>
    obtain ⟨cell, hCell⟩ := hHeap.held h a hLive
    have hCount : cell.count = (heap.holders a).card := hHeap.counted a cell hCell
    rw [isShared_of_cell hLive hCell, decide_eq_true_eq, hCount]
    constructor
    · intro hTwo
      obtain ⟨g, hg, hNe⟩ := Finset.exists_mem_ne hTwo h
      exact ⟨g, hNe, a, rfl, mem_holders.mp hg⟩
    · rintro ⟨g, hNe, b, hb, hg⟩
      cases hb
      exact Finset.one_lt_card.mpr ⟨g, mem_holders.mpr hg, h, mem_holders.mpr hLive, hNe⟩

/-- A handle that is shared gets a fresh cell when it is written to. -/
theorem find?_handles_write (hHeap : heap.Balanced []) (hShared : heap.isShared h = true)
    (change : List α → List α) (g : String) :
    (heap.write h change).handles.find? g
      = if h = g then some heap.next else heap.handles.find? g := by
  cases hLive : heap.handles.find? h with
  | none => simp [isShared_of_dead hLive] at hShared
  | some a =>
    obtain ⟨cell, hCell⟩ := hHeap.held h a hLive
    rw [isShared_of_cell hLive hCell, decide_eq_true_eq] at hShared
    rw [write_of_shared hLive hCell (by omega), Heap.allocate, OrderedMap.find?_insert,
      handles_release, next_release]

theorem sameCell_write (hHeap : heap.Balanced []) (hShared : heap.isShared h = true)
    (change : List α → List α) (hg : g ≠ h) : (heap.write h change).sameCell h g = false := by
  rw [Bool.eq_false_iff, Ne, sameCell_eq_true_iff]
  rintro ⟨a, hh, hga⟩
  rw [hHeap.find?_handles_write hShared, if_pos rfl] at hh
  rw [hHeap.find?_handles_write hShared, if_neg hg.symm] at hga
  exact hHeap.ne_next (Or.inr ⟨g, hga⟩) (Option.some.inj hh)

theorem handles_write (hHeap : heap.Balanced []) (hSole : heap.isShared h = false)
    (change : List α → List α) : (heap.write h change).handles = heap.handles := by
  cases hLive : heap.handles.find? h with
  | none => rw [write_of_dead hLive]
  | some a =>
    obtain ⟨cell, hCell⟩ := hHeap.held h a hLive
    rw [isShared_of_cell hLive hCell, decide_eq_false_iff_not] at hSole
    rw [write_of_sole hLive hCell (by omega)]

theorem tracksSharing [BEq α] (hHeap : heap.Balanced []) : heap.TracksSharing where
  seen := by
    intro h hLive
    obtain ⟨a, ha⟩ := Option.ne_none_iff_exists'.mp hLive
    obtain ⟨cell, hCell⟩ := hHeap.held h a ha
    simp [read?_eq, ha, itemsAt?, hCell]
  counted := hHeap.counted
  clones := by
    intro h source hLive
    obtain ⟨a, ha⟩ := Option.ne_none_iff_exists'.mp hLive
    exact sameCell_clone ha h
  shared := hHeap.isShared_iff
  separates := by
    intro h change hShared
    refine ⟨fun g hg => hHeap.sameCell_write hShared change hg, ?_⟩
    intro g g' hg hg'
    unfold sameCell
    rw [hHeap.find?_handles_write hShared, if_neg hg.symm,
      hHeap.find?_handles_write hShared, if_neg hg'.symm]
  keeps := fun h change hSole => hHeap.handles_write hSole change
  same := fun _ _ hSame => read?_of_sameCell hSame
  equal := fun _ _ _ hSame hItems => sameItems_of_sameCell hSame hItems

end Balanced

/-- After every program, handles show what plain copies would, sequences that were taken out are
theirs, and the counts tell which handles share storage. -/
theorem independent_run [BEq α] (steps : List (HandleStep α)) :
    let (answers, heap) := (steps.mapM HandleStep.onHeap).run ({} : Heap α)
    let (copied, copies) := (steps.mapM HandleStep.onCopies).run (∅ : Copies α)
    answers = copied ∧ (∀ h, heap.read? h = copies.find? h) ∧ heap.TracksSharing := by
  obtain ⟨hAnswers, hHeap⟩ := shows_run steps (shows_empty (α := α))
  exact ⟨hAnswers, hHeap.read, hHeap.balanced.tracksSharing⟩

/-- NaN differs from itself, and so a clone that shares its storage is not equal to its source. -/
theorem sameItems_clone_of_nan :
    let program : List (HandleStep AtomicKind.double.Elem) :=
      [.create "x" [some .canonicalNaN], .clone "y" "x"]
    let heap := ((program.mapM HandleStep.onHeap).run {}).2
    letI : BEq AtomicKind.double.Elem := ⟨AtomicKind.double.sameElem⟩
    heap.sameCell "y" "x" = true ∧ heap.sameItems "y" "x" = false := by
  decide

/-- A handle that is cloned onto itself is as alone as before. -/
example :
    ((({} : Heap Nat).create "x" [1, 2]).clone "x" "x").isShared "x" = false := by
  decide

end Heap

end VectorIndexing
