import VectorIndexing.Proofs.Arrays.Linear
import VectorIndexing.Proofs.Removal.Kept
import VectorIndexing.Proofs.WriteBack.Element

/-!
# What indices select

Without a negative index, indices list elements in order, and names that are given along stay with
the indices that they were given for. Negative indices exclude elements, and what they leave can as
well be flagged by a mask or be listed. To a call it makes no difference which of these forms a
position has.

* `Selection.Lists`: the elements that indices list.
* `Position.unexcluded`: the elements that negative indices leave; `Position.flagging`: the mask of
  some elements.
* `Position.SelectsLike.get_eq`, `Position.SelectsLike.run_assign_eq`: under `[` a call depends on
  what its position selects alone.
* `Position.select_indices`: when indices are refused and what they select otherwise.
-/

namespace VectorIndexing

namespace Position

/-- The places of the entries that are not zero, in order. -/
def nonzeroPlaces (entries : List (Option Int)) : List Nat :=
  (List.range entries.length).filter fun k => entries[k]? ≠ some (some 0)

/-- The offsets below the length that no index excludes, in order. -/
def unexcluded (entries : List (Option Int)) (length : Nat) : List Nat :=
  (List.range length).filter fun o => !entries.contains (some (-(o + 1 : Int)))

/-- The mask of this length that is true at the given offsets and nowhere else. -/
def flagging (length : Nat) (offsets : List Nat) : Position :=
  .mask ((List.range length).map fun o => some (offsets.contains o))

end Position

/-- The selection consists of the entries other than zero, in order: an index selects the offset
before it and a missing entry a missing offset. The names, if any were given, are those given for
these entries, or missing where too few were given. -/
structure Selection.Lists (s : Selection) (entries : List (Option Int)) (given : Option Names) :
    Prop where
  offsets : s.offsets = (Position.nonzeroPlaces entries).map fun k =>
    (Slots.fetch none entries (some k)).map fun i => (i - 1).toNat
  names : s.names = given.map fun names =>
    (Position.nonzeroPlaces entries).map fun k => Slots.fetch none names (some k)

/-! ## Indices that list -/

/-- What stands beside the entries that pass a test, told by the places of these entries. -/
theorem Slots.map_snd_filter_zip {α β : Type} (p : α → Bool) (fill : β) (xs : List α)
    (ys : List β) (h : xs.length ≤ ys.length) :
    ((xs.zip ys).filter fun e => p e.1).map Prod.snd
      = ((List.range xs.length).filter fun k => (xs[k]?).any p).map
          fun k => fetch fill ys (some k) := by
  induction xs generalizing ys with
  | nil => rfl
  | cons x xs ih =>
    cases ys with
    | nil => cases h
    | cons y ys =>
      have hTail := ih ys (Nat.le_of_succ_le_succ h)
      have hShift : ∀ ks : List Nat,
          (ks.map Nat.succ).map (fun k => fetch fill (y :: ys) (some k))
            = ks.map fun k => fetch fill ys (some k) := by
        intro ks
        rw [List.map_map]
        rfl
      rw [List.zip_cons_cons, List.length_cons, List.range_succ_eq_map, List.filter_cons,
        List.filter_cons, List.filter_map]
      cases hx : p x <;> simp_all [Function.comp_def, fetch]

namespace Selection

variable {entries : List (Option Int)}

theorem nonzeroPlaces_eq (entries : List (Option Int)) :
    Position.nonzeroPlaces entries
      = (List.range entries.length).filter fun k => (entries[k]?).any isKept := by
  refine List.filter_congr ?_
  intro k hk
  obtain ⟨entry, hEntry⟩ : ∃ entry, entries[k]? = some entry :=
    ⟨_, List.getElem?_eq_getElem (List.mem_range.mp hk)⟩
  rw [hEntry, Option.any_some, isKept]
  by_cases hZero : entry = some 0 <;> simp [hZero]

theorem lists_ofEntries (entries : List (Option Int)) (given : Option Names) :
    (ofEntries entries given).Lists entries given := by
  constructor
  · have hKept := Slots.map_snd_filter_zip isKept none entries entries (Nat.le_refl _)
    have hSelf : ((entries.zip entries).filter fun e => isKept e.1).map Prod.snd
        = entries.filter isKept := by
      have hPairs : entries.zip entries = entries.map fun entry => (entry, entry) := by
        simpa using List.zip_map' (f := id) (g := id) (l := entries)
      rw [hPairs, List.filter_map, List.map_map]
      exact List.map_id _
    rw [hSelf, ← nonzeroPlaces_eq] at hKept
    show (entries.filter isKept).map offsetOfEntry = _
    rw [hKept, List.map_map]
    rfl
  · show given.map _ = _
    congr 1
    funext names
    have hLength : entries.length ≤ (Slots.extend none entries.length names).length := by
      rw [Slots.length_extend]
      omega
    rw [Slots.map_snd_filter_zip isKept none entries _ hLength, ← nonzeroPlaces_eq]
    simp only [Slots.fetch_extend]

end Selection

/-! ## Masks of elements -/

namespace Selection

/-- A mask as long as the vector selects where it is true. -/
theorem maskOffsets_of_range (p : Nat → Bool) (length : Nat) :
    maskOffsets ((List.range length).map fun o => some (p o)) length
      = ((List.range length).filter p).map some := by
  have hOnce : Slots.recycle ((List.range length).map fun o => some (p o)) length
      = (List.range length).map fun o => some (p o) := by
    have hSelf := Slots.recycle_self ((List.range length).map fun o => some (p o))
    rwa [List.length_map, List.length_range] at hSelf
  have hPairs : ((List.range length).map fun o => some (p o)).zipIdx
      = (List.range length).map fun o => (some (p o), o) := by
    apply List.ext_getElem?
    intro i
    by_cases hi : i < length <;> simp [hi]
  rw [maskOffsets, List.length_map, List.length_range, Nat.max_self, hOnce, hPairs,
    List.filterMap_map, ← List.filterMap_eq_filter, List.map_filterMap]
  congr 1
  funext o
  cases hp : p o <;> simp [flagOffset, Option.guard, hp]

theorem ofMask_of_range (p : Nat → Bool) (length : Nat) :
    ofMask ((List.range length).map fun o => some (p o)) length
      = pure { offsets := ((List.range length).filter p).map some } := by
  cases length with
  | zero => rfl
  | succ n =>
    have hSome : ((List.range (n + 1)).map fun o => some (p o)).isEmpty = false := by simp
    have hFits : maskMisfits ((List.range (n + 1)).map fun o => some (p o)) (n + 1) = false := by
      simp [maskMisfits]
    rw [ofMask, hSome, hFits, maskOffsets_of_range]
    rfl

end Selection

/-! ## Calls -/

namespace Position

/-- The positions select the same from this many elements, whatever their names and whatever it is
for. -/
def SelectsLike (p q : Position) (length : Nat) : Prop :=
  ∀ names purpose, p.select length names purpose = q.select length names purpose

variable {p q : Position} {length : Nat}

theorem SelectsLike.plan_eq (layout : Layout) (h : p.SelectsLike q layout.length)
    (purpose : Purpose) :
    layout.plan [p] .subset purpose = layout.plan [q] .subset purpose := by
  simp only [Layout.plan, Layout.planStorage, h layout.names purpose]

theorem SelectsLike.overwrite_eq {x : Value} {store : Store}
    (h : p.SelectsLike q (x.length store)) (value : Value) :
    x.overwrite store [p] value .subset = x.overwrite store [q] value .subset := by
  have hPlan := SelectsLike.plan_eq (x.layout store) h .write
  simp only [Value.overwrite, hPlan]

theorem SelectsLike.remove_eq {x : Value} {store : Store}
    (h : p.SelectsLike q (x.length store)) :
    x.remove store [p] .subset = x.remove store [q] .subset := by
  have hPlan := SelectsLike.plan_eq (x.layout store) h .write
  have hOffsets : (x.layout store).removedOffsets p .subset
      = (x.layout store).removedOffsets q .subset := by
    have hSelect : p.select (x.layout store).length (x.layout store).names .write
        = q.select (x.layout store).length (x.layout store).names .write := h _ _
    simp only [Layout.removedOffsets, hSelect]
  cases x with
  | list _ _ => simp only [Value.remove, TypedVector.remove, hOffsets]
  | null => rfl
  | atomic _ _ _ | closure _ | environment _ | s4 _ => simp only [Value.remove, hPlan]

/-- Under `[` a read depends on what its position selects alone. -/
theorem SelectsLike.get_eq {x : Value} {store : Store} (h : p.SelectsLike q (x.length store)) :
    x.get store [p] .subset = x.get store [q] .subset := by
  have hPlan := SelectsLike.plan_eq (x.layout store) h .read
  unfold Value.get
  rw [Value.pathSteps?_subset, Value.pathSteps?_subset]
  cases x with
  | null | atomic _ _ _ | list _ _ => simp only [Value.getDirect, hPlan]
  | closure _ | environment _ => rfl
  | s4 object =>
    unfold Value.getDirect
    cases object.data <;> rfl

/-- Under `[` an assignment depends on what its position selects alone. -/
theorem SelectsLike.run_assign_eq {x : Value} {world : World}
    (h : p.SelectsLike q (x.length world.store)) (value : Value) :
    (x.assign [p] value .subset).run world = (x.assign [q] value .subset).run world := by
  have hOverwrite := SelectsLike.overwrite_eq h value
  have hRemove := SelectsLike.remove_eq h
  unfold Value.assign
  rw [Value.pathSteps?_subset, Value.pathSteps?_subset]
  cases x with
  | null | atomic _ _ _ | list _ _ =>
    simp only [Value.assignDirect, Action.run_bind, Action.run_getThe, hOverwrite, hRemove]
  | closure _ | environment _ => rfl
  | s4 object =>
    unfold Value.assignDirect
    cases object.data <;> rfl

end Position

/-! ## All forms -/

namespace Position

variable {entries : List (Option Int)} {length : Nat}

theorem select_of_excludes (hExcludes : Excludes entries) (hMixes : ¬ Mixes entries)
    (given names : Option Names) (purpose : Purpose) :
    (indices entries given).select length names purpose
      = pure { offsets := (unexcluded entries length).map some } := by
  rw [select, Selection.ofIndices_of_excludes hExcludes hMixes, Selection.complement_eq_filter]
  rfl

theorem select_flagging_unexcluded (entries : List (Option Int)) (length : Nat)
    (names : Option Names) (purpose : Purpose) :
    (flagging length (unexcluded entries length)).select length names purpose
      = pure { offsets := (unexcluded entries length).map some } := by
  have hFlags : ((List.range length).filter fun o => (unexcluded entries length).contains o)
      = unexcluded entries length := by
    refine List.filter_congr ?_
    intro o ho
    rw [Bool.eq_iff_iff, List.contains_iff_mem, unexcluded, List.mem_filter]
    exact and_iff_right ho
  rw [flagging, select, Selection.ofMask_of_range, hFlags]

/-- Indices are refused exactly if a negative one is mixed with a positive or a missing one. If
they exclude elements, those that are left are selected in ascending order, no name is stored, and
the mask that is true at them and the list of their indices are the same to any call. If they do
not, they are listed. -/
theorem select_indices (entries : List (Option Int)) (given : Option Names) (length : Nat) :
    (∀ names purpose session,
      (((indices entries given).select length names purpose).run session).1
          = .error .invalidNegativeIndex
        ↔ Mixes entries)
    ∧ (Excludes entries → ¬ Mixes entries →
        let left := unexcluded entries length
        left.Pairwise (· < ·) ∧ (∀ o, o ∈ left ↔ o < length ∧ some (-(o + 1 : Int)) ∉ entries)
        ∧ ∀ p ∈ [indices entries given, flagging length left, ofOffsets (left.map some)],
            (∀ names purpose, p.select length names purpose = pure { offsets := left.map some })
            ∧ (∀ (x : Value) (store : Store), x.length store = length →
                x.get store [p] .subset = x.get store [indices entries given] .subset)
            ∧ ∀ (x value : Value) (world : World), x.length world.store = length →
                (x.assign [p] value .subset).run world
                  = (x.assign [indices entries given] value .subset).run world)
    ∧ (¬ Excludes entries → ∀ names purpose,
        ∃ s, (indices entries given).select length names purpose = pure s
          ∧ s.Lists entries given) := by
  refine ⟨?_, ?_, ?_⟩
  · intro names purpose session
    constructor
    · intro hRefused
      by_contra hMixes
      by_cases hExcludes : Excludes entries
      · rw [select_of_excludes hExcludes hMixes] at hRefused
        cases hRefused
      · rw [select, Selection.ofIndices_of_not_excludes hExcludes] at hRefused
        cases hRefused
    · intro hMixes
      rw [select, Selection.ofIndices_of_mixes hMixes]
      rfl
  · intro hExcludes hMixes left
    have hSelected : ∀ names purpose, (indices entries given).select length names purpose
        = pure { offsets := left.map some } :=
      fun names purpose => select_of_excludes hExcludes hMixes given names purpose
    refine ⟨List.pairwise_lt_range.filter _, ?_, ?_⟩
    · intro o
      simp [left, unexcluded]
    · intro p hp
      have hAlike : ∀ names purpose, p.select length names purpose
          = pure { offsets := left.map some } := by
        simp only [List.mem_cons, List.not_mem_nil, or_false] at hp
        rcases hp with rfl | rfl | rfl
        · exact hSelected
        · exact select_flagging_unexcluded entries length
        · exact select_ofOffsets (left.map some) length
      have hLike : p.SelectsLike (indices entries given) length := by
        intro names purpose
        rw [hAlike, hSelected]
      refine ⟨hAlike, ?_, ?_⟩
      · rintro x store rfl
        exact hLike.get_eq
      · rintro x value world rfl
        exact hLike.run_assign_eq value
  · intro hExcludes names purpose
    refine ⟨Selection.ofEntries entries given, ?_, Selection.lists_ofEntries entries given⟩
    rw [select, Selection.ofIndices_of_not_excludes hExcludes]
    rfl

/-- The second of three elements is excluded twice, and the smallest integer excludes nothing. -/
theorem select_indices_excluding :
    let entries := [some (-2), some 0, some (-2147483648), some (-2)]
    unexcluded entries 3 = [0, 2]
      ∧ (indices entries (some [some "a"])).select 3 none .write
          = pure { offsets := [some 0, some 2] }
      ∧ ∀ (x : Value) (store : Store), x.length store = 3 →
          x.get store [.mask [some true, some false, some true]] .subset
            = x.get store [indices entries (some [some "a"])] .subset := by
  intro entries
  have hExcludes : Excludes entries := ⟨-2, by decide, by decide⟩
  have hMixes : ¬ Mixes entries := by
    rintro ⟨-, ⟨i, hi, hPositive⟩ | hMissing⟩
    · simp only [entries, List.mem_cons, Option.some.injEq, List.not_mem_nil, or_false] at hi
      omega
    · exact absurd hMissing (by decide)
  obtain ⟨-, hExcluding, -⟩ := select_indices entries (some [some "a"]) 3
  obtain ⟨-, -, hForms⟩ := hExcluding hExcludes hMixes
  have hIndices := hForms (indices entries (some [some "a"])) List.mem_cons_self
  have hMask := hForms (flagging 3 (unexcluded entries 3)) (by simp)
  exact ⟨by decide, hIndices.1 none .write, hMask.2.1⟩

end Position

end VectorIndexing
