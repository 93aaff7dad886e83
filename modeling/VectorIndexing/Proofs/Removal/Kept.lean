import Mathlib.Data.Finset.Card
import Mathlib.Data.Finset.Range
import VectorIndexing.Proofs.Written
import VectorIndexing.Writing.Remove

/-!
# The slots that a removal keeps

A removal first extends a sequence with fill values as far as the offsets reach, and then takes the
slots out that the offsets mean. What is left can be told from the sequence as it was: the slots
that no offset means, in order.

* `Slots.kept`: these slots.
* `Slots.dropMarked_extend`: what is left of a sequence.
* `Slots.length_kept_add_card`: how many slots there are.
-/

namespace VectorIndexing.Slots

variable {α : Type}

/-- The slots below a length that no offset means, in order. -/
def kept (length : Nat) (offsets : List Offset) : List Nat :=
  (List.range length).filter fun o => !offsets.contains (some o)

theorem mem_kept {length o : Nat} {offsets : List Offset} :
    o ∈ kept length offsets ↔ o < length ∧ some o ∉ offsets := by
  simp [kept]

/-! ## What is left -/

theorem dropMarked_map_range (fill : α) (p : Nat → Bool) (xs : List α) :
    dropMarked ((List.range xs.length).map p) xs
      = ((List.range xs.length).filter fun o => !p o).map fun o => fetch fill xs (some o) := by
  induction xs generalizing p with
  | nil => rfl
  | cons x xs ih =>
    have hTail := ih fun o => p (o + 1)
    have hShift : ∀ os : List Nat, (os.map Nat.succ).map (fun o => fetch fill (x :: xs) (some o))
        = os.map fun o => fetch fill xs (some o) := by
      intro os
      rw [List.map_map]
      rfl
    rw [List.length_cons, List.range_succ_eq_map, List.map_cons, List.map_map, dropMarked,
      List.filter_cons, List.filter_map]
    cases p 0 <;> simp_all [Function.comp_def, fetch]

/-- New slots hold what slots that do not exist read as. -/
theorem fetch_extend (fill : α) (length : Nat) (xs : List α) (o : Nat) :
    fetch fill (extend fill length xs) (some o) = fetch fill xs (some o) := by
  simp only [fetch, Option.bind_some, getElem?_extend]
  split
  · rfl
  · next hNew =>
    rw [List.getElem?_eq_none (Nat.le_of_not_lt hNew)]
    split <;> rfl

theorem contains_filterMap_id (offsets : List Offset) (o : Nat) :
    (offsets.filterMap id).contains o = offsets.contains (some o) := by
  rw [Bool.eq_iff_iff]
  simp

/-- The slots that are left of an extended sequence. -/
theorem dropMarked_extend (fill : α) {length : Nat} {xs : List α} (offsets : List Offset)
    (hLength : xs.length ≤ length) :
    dropMarked ((List.range length).map (offsets.filterMap id).contains) (extend fill length xs)
      = (kept length offsets).map fun o => fetch fill xs (some o) := by
  have hExtended : (extend fill length xs).length = length := by
    rw [length_extend]
    omega
  have hDrop := dropMarked_map_range fill (offsets.filterMap id).contains (extend fill length xs)
  rw [hExtended] at hDrop
  simp only [hDrop, kept, fetch_extend, contains_filterMap_id]

/-- Where there is no offset, all slots are kept. -/
theorem kept_of_forall_notMem {length : Nat} {offsets : List Offset}
    (h : ∀ o, some o ∉ offsets) : kept length offsets = List.range length := by
  rw [kept, List.filter_eq_self]
  intro o _
  simpa using h o

theorem map_fetch_range (fill : α) (xs : List α) :
    ((List.range xs.length).map fun o => fetch fill xs (some o)) = xs := by
  apply List.ext_getElem?
  intro i
  by_cases hi : i < xs.length
  · simp [hi, fetch]
  · simp [hi]

/-! ## Slots beyond the end -/

/-- Slots beyond the end that are all meant by offsets make no difference. -/
theorem kept_of_forall_mem {length extended : Nat} {offsets : List Offset}
    (hLength : length ≤ extended)
    (hNew : ∀ o, length ≤ o → o < extended → some o ∈ offsets) :
    kept extended offsets = kept length offsets := by
  obtain ⟨more, rfl⟩ := Nat.exists_eq_add_of_le hLength
  rw [kept, List.range_add, List.filter_append, kept]
  have hNone : ((List.range more).map (length + ·)).filter (fun o => !offsets.contains (some o))
      = [] := by
    rw [List.filter_eq_nil_iff]
    intro o ho
    obtain ⟨i, hi, rfl⟩ := List.mem_map.mp ho
    have hMem := hNew (length + i) (by omega) (by have := List.mem_range.mp hi; omega)
    simpa using hMem
  rw [hNone, List.append_nil]

/-! ## How many -/

theorem reach_map_filterMap_id (offsets : List Offset) :
    reach ((offsets.filterMap id).map some) = reach offsets := by
  induction offsets with
  | nil => rfl
  | cons offset rest ih =>
    cases offset with
    | none =>
      rw [reach_cons]
      simpa using ih
    | some o =>
      have hHead : ((some o :: rest).filterMap id) = o :: rest.filterMap id := rfl
      rw [hHead, List.map_cons, reach_cons, reach_cons, ih]

theorem length_kept_add_card {length : Nat} {offsets : List Offset}
    (hBelow : Below length offsets) :
    (kept length offsets).length + (offsets.filterMap id).toFinset.card = length := by
  have hSubset : (offsets.filterMap id).toFinset ⊆ Finset.range length := by
    intro o ho
    have hMem : some o ∈ offsets := by simpa using ho
    exact Finset.mem_range.mpr (hBelow o hMem)
  have hKept : (kept length offsets).toFinset
      = Finset.range length \ (offsets.filterMap id).toFinset := by
    ext o
    simp [mem_kept]
  have hNodup : (kept length offsets).Nodup := List.nodup_range.filter _
  rw [← List.toFinset_card_of_nodup hNodup, hKept, Finset.card_sdiff_add_card_eq_card hSubset,
    Finset.card_range]

end VectorIndexing.Slots
