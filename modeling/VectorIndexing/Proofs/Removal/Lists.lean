import VectorIndexing.Proofs.Names.Numbering
import VectorIndexing.Proofs.Planned
import VectorIndexing.Proofs.Removal.Kept
import VectorIndexing.Proofs.WellFormed.Basic

/-!
# Removing elements of a list

Assigning `NULL` at a position takes out of a list the elements that the position means, together
with their names. The list first grows to contain all of them.

* `TypedVector.Removed`: the list that is left.
* `TypedVector.run_assign_null_subset`, `TypedVector.run_assign_null_element`: the assignment under
  either bracket.
* `Position.excluding`: the position of the elements that are left.
* `TypedVector.removed_of_assign_null`: removing by a position of any form, and what this means for
  names, for indices and under `[[`.
-/

namespace VectorIndexing

namespace TypedVector

/-- `y` is what is left of the list `x` without the elements that the offsets mean. -/
structure Removed (x : TypedVector .list) (offsets : List Offset) (y : TypedVector .list) :
    Prop where
  /-- Without any offset the list stays as it is. -/
  unchanged : (∀ o, some o ∉ offsets) → y = x
  /-- The list is extended with `NULL` as far as the offsets reach. -/
  elements : y.elements
    = (Slots.kept (max x.length (Slots.reach offsets)) offsets).map
        fun o => Slots.fetch .null x.elements (some o)
  /-- The names are extended with empty names. -/
  names : y.attributes.names = x.attributes.names.map fun names =>
    (Slots.kept (max x.length (Slots.reach offsets)) offsets).map
      fun o => Slots.fetch (some "") names (some o)
  shape : (∃ o, some o ∈ offsets) → y.attributes.dim = none ∧ y.attributes.dimnames = none
  others : y.attributes.others = x.attributes.others
  /-- Offsets that occur several times count once. -/
  length : y.length + (offsets.filterMap id).toFinset.card = max x.length (Slots.reach offsets)

variable {x : TypedVector .list} {p : Position}

theorem removeOffsets_of_forall_notMem {offsets : List Offset} (h : ∀ o, some o ∉ offsets) :
    x.removeOffsets (offsets.filterMap id) = x := by
  have hNone : offsets.filterMap id = [] := by
    rw [List.filterMap_eq_nil_iff]
    rintro (_ | o) ho
    · rfl
    · exact absurd ho (h o)
  rw [hNone]
  rfl

/-- The removal written out, for offsets of which some is not missing. -/
theorem removeOffsets_of_mem {offsets : List Offset} {o : Nat} (h : some o ∈ offsets) :
    x.removeOffsets (offsets.filterMap id)
      = (x.extend (max x.length (Slots.reach offsets))).dropMarked
          ((List.range (max x.length (Slots.reach offsets))).map
            (offsets.filterMap id).contains) := by
  have hSome : (offsets.filterMap id).isEmpty = false := by
    rw [List.isEmpty_eq_false_iff]
    exact List.ne_nil_of_mem (List.mem_filterMap.mpr ⟨some o, h, rfl⟩)
  simp only [removeOffsets, hSome, Slots.reach_map_filterMap_id, Nat.max_comm x.length]
  rfl

/-- Without any offset there is nothing to extend and nothing to count. -/
theorem removed_of_forall_notMem
    (hNames : ∀ names, x.attributes.names = some names → names.length = x.length)
    {offsets : List Offset} (h : ∀ o, some o ∉ offsets) : x.Removed offsets x := by
  have hReach : Slots.reach offsets ≤ x.length :=
    Slots.below_iff_reach_le.mp fun o ho => absurd ho (h o)
  have hCount : (offsets.filterMap id).toFinset = ∅ := by
    rw [Finset.eq_empty_iff_forall_notMem]
    intro o
    simpa using h o
  refine ⟨fun _ => rfl, ?_, ?_, fun ⟨o, ho⟩ => absurd ho (h o), rfl, ?_⟩
  · rw [Nat.max_eq_left hReach, Slots.kept_of_forall_notMem h]
    exact (Slots.map_fetch_range _ _).symm
  · rw [Nat.max_eq_left hReach, Slots.kept_of_forall_notMem h]
    cases hx : x.attributes.names with
    | none => rfl
    | some names => rw [Option.map_some, ← hNames names hx, Slots.map_fetch_range]
  · rw [hCount, Finset.card_empty, Nat.max_eq_left hReach]
    rfl

theorem elements_removeOffsets {offsets : List Offset} {o : Nat} (h : some o ∈ offsets) :
    (x.removeOffsets (offsets.filterMap id)).elements
      = (Slots.kept (max x.length (Slots.reach offsets)) offsets).map
          fun o => Slots.fetch .null x.elements (some o) := by
  rw [removeOffsets_of_mem h]
  simp only [dropMarked, elements_extend]
  exact Slots.dropMarked_extend _ _ (Nat.le_max_left _ _)

theorem names_removeOffsets
    (hNames : ∀ names, x.attributes.names = some names → names.length = x.length)
    {offsets : List Offset} {o : Nat} (h : some o ∈ offsets) :
    (x.removeOffsets (offsets.filterMap id)).attributes.names
      = x.attributes.names.map fun names =>
          (Slots.kept (max x.length (Slots.reach offsets)) offsets).map
            fun o => Slots.fetch (some "") names (some o) := by
  rw [removeOffsets_of_mem h]
  simp only [dropMarked, names_extend _ hNames, Option.map_map]
  cases hx : x.attributes.names with
  | none => rfl
  | some names =>
    have hLength : names.length ≤ max x.length (Slots.reach offsets) := by
      rw [hNames names hx]
      exact Nat.le_max_left _ _
    simp only [Option.map_some, Function.comp_apply, Slots.dropMarked_extend _ _ hLength]

theorem removed_removeOffsets
    (hNames : ∀ names, x.attributes.names = some names → names.length = x.length)
    (offsets : List Offset) : x.Removed offsets (x.removeOffsets (offsets.filterMap id)) := by
  by_cases hNone : ∀ o, some o ∉ offsets
  · rw [removeOffsets_of_forall_notMem hNone]
    exact removed_of_forall_notMem hNames hNone
  · push Not at hNone
    obtain ⟨o, ho⟩ := hNone
    refine ⟨fun hNone => absurd ho (hNone o), elements_removeOffsets ho,
      names_removeOffsets hNames ho, fun _ => ?_, ?_, ?_⟩
    · rw [removeOffsets_of_mem ho]
      exact ⟨rfl, rfl⟩
    · rw [removeOffsets_of_mem ho]
      simp only [dropMarked, attributes_extend]
      split <;> rfl
    · have hBelow : Slots.Below (max x.length (Slots.reach offsets)) offsets :=
        Slots.below_iff_reach_le.mpr (Nat.le_max_right _ _)
      rw [length, elements_removeOffsets ho, List.length_map, Slots.length_kept_add_card hBelow]

/-! ## Assigning nothing -/

variable {positions : List Position}

/-- The removal of an assignment leaves the store alone. -/
theorem run_assign_null (x : TypedVector .list) {mode : Mode}
    (hPath : x.toValue.pathSteps? positions mode = none) (world : World) :
    (x.toValue.assign positions .null mode).run world
      = (((x.toValue.remove world.store positions mode).run world.session).1,
          { world with
            session := ((x.toValue.remove world.store positions mode).run world.session).2 }) := by
  unfold Value.assign
  rw [hPath]
  dsimp only
  unfold toValue Value.assignDirect
  dsimp only
  rw [Action.run_bind, Action.run_getThe]
  rfl

theorem remove_toValue (x : TypedVector .list) (store : Store) (mode : Mode)
    (hPositions : positions = [p] ∨ positions = [] ∧ p = .missing) :
    x.toValue.remove store positions mode = (do
      let offsets ← (x.toValue.layout store).removedOffsets p mode
      return (x.removeOffsets offsets).toValue) := by
  rcases hPositions with rfl | ⟨rfl, rfl⟩ <;>
    simp only [toValue, Value.remove, remove, bind_map_left]

/-- Under `[` the elements that the position selects for writing are removed. -/
theorem run_assign_null_subset (x : TypedVector .list)
    (hPositions : positions = [p] ∨ positions = [] ∧ p = .missing) (world : World) :
    (x.toValue.assign positions .null .subset).run world
      = match (p.select x.length x.attributes.names .write).run world.session with
        | (.ok s, session) =>
          (.ok (x.removeOffsets (s.offsets.filterMap id)).toValue, { world with session })
        | (.error e, session) => (.error e, { world with session }) := by
  rw [run_assign_null x (Value.pathSteps?_subset _ _), remove_toValue x _ _ hPositions,
    layout_toValue]
  simp only [Layout.removedOffsets, Checked.run_bind]
  rcases (p.select x.length x.attributes.names .write).run world.session with ⟨_ | s, session⟩
  · rfl
  · rfl

/-- Under `[[` the element that the position selects is removed if it exists. -/
theorem run_assign_null_element (x : TypedVector .list) (hp : p.length? = some 1)
    (world : World) :
    (x.toValue.assign [p] .null .element).run world
      = match p.selectOne x.length x.attributes.names .write with
        | .error e => (.error e, world)
        | .ok .missing => (.ok x.toValue, world)
        | .ok (.slot o) =>
          (.ok (x.removeOffsets (if o < x.length then [o] else [])).toValue, world) := by
  rw [run_assign_null x (Value.pathSteps?_single _ hp _), remove_toValue x _ _ (Or.inl rfl),
    layout_toValue]
  simp only [Layout.removedOffsets, Checked.run_bind, Checked.run_ofExcept]
  rcases p.selectOne x.length x.attributes.names .write with e | ⟨o⟩ | _
  · rfl
  · rfl
  · rfl

/-- Under `[` a positive index removes the one element before it. -/
theorem run_assign_null_index (x : TypedVector .list) (o : Nat) (world : World) :
    (x.toValue.assign [.indices [some (o + 1 : Int)] none] .null .subset).run world
      = (.ok (x.removeOffsets [o]).toValue, world) := by
  have hPositive : ∀ i, some i ∈ [some (o + 1 : Int)] → 0 < i := by
    intro i hi
    cases List.mem_singleton.mp hi
    omega
  have hSelected : Selection.ofIndices [some (o + 1 : Int)] none x.length
      = .ok { offsets := [some o] } := by
    rw [Selection.ofIndices_positive hPositive]
    simp [Selection.offsetOfEntry, Selection.ofEntries]
  have hSelect : (Position.select (.indices [some (o + 1 : Int)] none) x.length
      x.attributes.names .write).run world.session
        = (.ok { offsets := [some o] }, world.session) :=
    Checked.run_ofExcept_eq_ok.mpr ⟨hSelected, rfl⟩
  rw [run_assign_null_subset x (Or.inl rfl), hSelect]
  rfl

end TypedVector

/-! ## What is removed -/

/-- Of the slots that names select for writing, those of names that are not found are new, and all
of them are removed again. -/
theorem Selection.kept_ofQueries {length : Nat} {names : Option Names}
    (hNames : ∀ given, names = some given → given.length = length) (queries : Names) :
    let offsets := (ofQueries queries length names .write).offsets
    Slots.kept (max length (Slots.reach offsets)) offsets
      = Slots.kept length (firstMatches names queries) := by
  intro offsets
  have hNew : ∀ o, length ≤ o → o < max length (Slots.reach offsets) → some o ∈ offsets := by
    intro o hBeyond hMax
    have hReach : o < Slots.reach offsets := by omega
    exact (slotted_slotOffsets hNames).gapless o hBeyond hReach
  have hOld : ∀ o, o < length → (some o ∈ offsets ↔ some o ∈ firstMatches names queries) := by
    intro o ho
    have hSlots : some o ∈ offsets
        ↔ o ∈ slotOffsets (.ofNames names queries.length) [] length queries := by
      simp [offsets, ofQueries]
    rw [hSlots, mem_slotOffsets_iff ho]
    simp only [firstMatches, List.mem_map, ← NameTable.find?_ofNames_eq_bind names queries.length]
  rw [Slots.kept_of_forall_mem (Nat.le_max_left _ _) hNew]
  refine List.filter_congr ?_
  intro o ho
  have hSame := hOld o (List.mem_range.mp ho)
  simp [hSame]

/-- The position of all elements but those at the given positive indices. -/
def Position.excluding (indices : List Int) : Position :=
  .indices ((indices.map (- ·)).map some) none

theorem Selection.complement_neg {indices : List Int} (hPositive : ∀ i ∈ indices, 0 < i)
    (length : Nat) :
    complement ((indices.map (- ·)).map some) length
      = (Slots.kept length (indices.map fun i => some (i - 1).toNat)).map some := by
  rw [complement_eq_filter, Slots.kept]
  congr 1
  refine List.filter_congr ?_
  intro o _
  have hSame : excluder o ∈ (indices.map (- ·)).map some
      ↔ some o ∈ indices.map fun i => some (i - 1).toNat := by
    simp only [excluder, List.map_map, List.mem_map, Function.comp_apply, Option.some.injEq]
    constructor
    · rintro ⟨i, hi, hio⟩
      exact ⟨i, hi, by omega⟩
    · rintro ⟨i, hi, hio⟩
      have := hPositive i hi
      exact ⟨i, hi, by omega⟩
  refine congrArg not ?_
  rw [Bool.eq_iff_iff, List.contains_iff_mem, List.contains_iff_mem, hSame]

/-- Excluding positive indices leaves the slots that they do not mean. -/
theorem Layout.run_plan_excluding {layout : Layout} {indices : List Int} (hSome : indices ≠ [])
    (hPositive : ∀ i ∈ indices, 0 < i) (purpose : Purpose) (session : Session) :
    (layout.plan [.excluding indices] .subset purpose).run session
      = (.ok
          { offsets :=
              (Slots.kept layout.length (indices.map fun i => some (i - 1).toNat)).map some },
        session) := by
  have hNegative : ∀ j ∈ indices.map (- ·), j < 0 := by
    intro j hj
    obtain ⟨i, hi, rfl⟩ := List.mem_map.mp hj
    have := hPositive i hi
    omega
  have hSelected := Selection.ofIndices_negative (by simpa using hSome) hNegative none layout.length
  rw [Selection.complement_neg hPositive] at hSelected
  exact run_planStorage_subset_eq_ok.mpr ⟨_, Checked.run_ofExcept_eq_ok.mpr ⟨hSelected, rfl⟩, rfl⟩

namespace TypedVector

variable {x : TypedVector .list} {p : Position} {positions : List Position}

/-- What is left without the elements at positive indices is what is read when these are
excluded. -/
theorem get_excluding_of_removed {y : TypedVector .list} {indices : List Int}
    (hNames : ∀ names, x.attributes.names = some names → names.length = x.length)
    (hSome : indices ≠ []) (hRange : ∀ i ∈ indices, 0 < i ∧ i ≤ x.length)
    (hRemoved : x.Removed (indices.map fun i => some (i - 1).toNat) y) (store : Store)
    (session : Session) :
    ∃ r : TypedVector .list,
      (x.toValue.get store [.excluding indices] .subset).run session = (.ok r.toValue, session)
        ∧ y.elements = r.elements ∧ y.attributes.names = r.attributes.names := by
  have hPlan : ((x.toValue.layout store).plan [.excluding indices] .subset .read).run session
      = (.ok
          { offsets :=
              (Slots.kept x.length (indices.map fun i => some (i - 1).toNat)).map some },
        session) := by
    rw [Layout.run_plan_excluding hSome fun i hi => (hRange i hi).1, layout_toValue]
  have hReach : max x.length (Slots.reach (indices.map fun i => some (i - 1).toNat))
      = x.length := by
    refine Nat.max_eq_left (Slots.below_iff_reach_le.mp ?_)
    intro o ho
    obtain ⟨i, hi, hio⟩ := List.mem_map.mp ho
    have := hRange i hi
    cases hio
    omega
  refine ⟨x.gather ((Slots.kept x.length (indices.map fun i => some (i - 1).toNat)).map some),
    ?_, ?_, ?_⟩
  · rw [run_get_of_plan (Value.pathSteps?_subset _ _) hPlan, Value.extract, vector?_toValue]
    rfl
  · rw [hRemoved.elements, hReach]
    simp only [gather, Slots.gather_eq_map, List.map_map]
    rfl
  · rw [hRemoved.names, hReach]
    simp only [gather, Slots.gather_eq_map, List.map_map]
    cases hx : x.attributes.names with
    | none => rfl
    | some names =>
      -- names exist wherever something is kept
      refine congrArg some (List.map_congr_left ?_)
      intro o ho
      have hIn : o < names.length := hNames names hx ▸ (Slots.mem_kept.mp ho).1
      simp [Slots.fetch, hIn]

/-! ## Both brackets -/

/-- Removing by a position. Under `[` the elements go that the position selects for writing, or its
error is returned. In particular, names remove the elements they are first found at, and positive
indices that exist leave what negative ones read. Under `[[` an element that exists is removed like
its index under `[`, and nothing else is. -/
theorem removed_of_assign_null (hFit : x.attributes.Fit x.length)
    (hPositions : positions = [p] ∨ positions = [] ∧ p = .missing) (world : World) :
    (match (p.select x.length x.attributes.names .write).run world.session with
      | (.error e, session) =>
        (x.toValue.assign positions .null .subset).run world = (.error e, { world with session })
      | (.ok s, session) =>
        ∃ y, (x.toValue.assign positions .null .subset).run world
            = (.ok y.toValue, { world with session })
          ∧ x.Removed s.offsets y
          ∧ (∀ queries, p = .names queries →
              y.elements = (Slots.kept x.length (firstMatches x.attributes.names queries)).map
                  (fun o => Slots.fetch .null x.elements (some o))
                ∧ y.attributes.names = x.attributes.names.map fun names =>
                    (Slots.kept x.length (firstMatches x.attributes.names queries)).map
                      fun o => Slots.fetch (some "") names (some o))
          ∧ ∀ (indices : List Int) given, p = .indices (indices.map some) given → indices ≠ [] →
              (∀ i ∈ indices, 0 < i ∧ i ≤ x.length) → ∀ store session,
                ∃ r : TypedVector .list,
                  (x.toValue.get store [.excluding indices] .subset).run session
                      = (.ok r.toValue, session)
                    ∧ y.elements = r.elements ∧ y.attributes.names = r.attributes.names)
    ∧ (p.length? = some 1 →
        (x.toValue.assign [p] .null .element).run world
          = match p.selectOne x.length x.attributes.names .write with
            | .error e => (.error e, world)
            | .ok .missing => (.ok x.toValue, world)
            | .ok (.slot o) =>
              if o < x.length then
                (x.toValue.assign [.indices [some (o + 1 : Int)] none] .null .subset).run world
              else (.ok x.toValue, world)) := by
  refine ⟨?_, ?_⟩
  · have hAssign := run_assign_null_subset x hPositions world
    rcases hSelect : (p.select x.length x.attributes.names .write).run world.session with
      ⟨_ | s, session⟩
    · rw [hSelect] at hAssign
      exact hAssign
    · rw [hSelect] at hAssign
      have hRemoved := removed_removeOffsets hFit.names s.offsets
      refine ⟨_, hAssign, hRemoved, ?_, ?_⟩
      · rintro queries rfl
        obtain ⟨rfl, -⟩ := Checked.run_pure_eq_ok.mp hSelect
        have hKept := Selection.kept_ofQueries hFit.names queries
        exact ⟨hKept ▸ hRemoved.elements, hKept ▸ hRemoved.names⟩
      · rintro indices given rfl hSome hRange store session
        have hPositive : ∀ i, some i ∈ indices.map some → 0 < i := by
          intro i hi
          exact (hRange i (by simpa using hi)).1
        have hOffsets : s.offsets = indices.map fun i => some (i - 1).toNat := by
          have hOk := (Checked.run_ofExcept_eq_ok.mp hSelect).1
          rw [Selection.ofIndices_positive hPositive] at hOk
          cases hOk
          rw [List.map_map]
          rfl
        exact get_excluding_of_removed hFit.names hSome hRange (hOffsets ▸ hRemoved) store session
  · intro hp
    rw [run_assign_null_element x hp]
    rcases p.selectOne x.length x.attributes.names .write with e | ⟨o⟩ | _
    · rfl
    · dsimp only
      rw [run_assign_null_index]
      split <;> rfl
    · rfl

/-- Of two elements with one name the first is removed, and a name that is not there makes no
difference. -/
theorem removed_of_assign_null_names :
    let x : TypedVector .list :=
      { elements := [.ofNames [none], .null, .ofNames []]
        attributes := { names := some [some "a", some "b", some "a"] } }
    ∃ y : TypedVector .list,
      (x.toValue.assign [.names [some "z", some "a"]] .null .subset).run {} = (.ok y.toValue, {})
        ∧ y.elements = [.null, .ofNames []]
        ∧ y.attributes.names = some [some "b", some "a"] := by
  intro x
  have hFit : x.attributes.Fit 3 := .ofNames (by rintro _ ⟨⟩; rfl)
  have hRemoved := (removed_of_assign_null hFit
    (Or.inl (rfl : [Position.names [some "z", some "a"]] = [_])) {}).1
  obtain ⟨y, hAssign, -, hQueries, -⟩ := hRemoved
  obtain ⟨hElements, hNames⟩ := hQueries _ rfl
  exact ⟨y, hAssign, hElements, hNames⟩

end TypedVector

end VectorIndexing
