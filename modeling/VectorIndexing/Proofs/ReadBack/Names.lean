import VectorIndexing.Proofs.Names.NewSlots
import VectorIndexing.Proofs.Overwriting.Pointwise
import VectorIndexing.Proofs.Planned

/-!
# Reading back by name

Elements that were assigned by name under `[` are found again under the same names, those that the
assignment created as well as those that were there before.

* `namedSlots`: the slots of names, for writing and for reading afterwards.
* `Slots.written_namesWith`: the names that an assignment leaves.
* `Value.get_names_of_assign`: reading after an assignment.
-/

namespace VectorIndexing

/-! ## Slots of names -/

/-- The slots of names among the known ones and the absent ones behind them. -/
def namedSlots (known : Names) (queries : List String) : List Offset :=
  queries.map fun name => some ((namesWith known queries).idxOf (some name))

theorem below_namedSlots (known : Names) (queries : List String) :
    Slots.Below (namesWith known queries).length (namedSlots known queries) := by
  intro o ho
  obtain ⟨name, hName, hSlot⟩ := List.mem_map.mp ho
  cases hSlot
  exact List.idxOf_lt_length_of_mem (mem_namesWith hName)

variable {known : Names} {queries : List String}

/-- Every slot behind the known names is that of an absent name. -/
theorem mem_namedSlots_of_le {o : Nat} (hNew : known.length ≤ o)
    (hIn : o < (namesWith known queries).length) : some o ∈ namedSlots known queries := by
  obtain ⟨i, rfl⟩ := Nat.exists_eq_add_of_le hNew
  have hi : i < (absentNames known queries).length := by
    rw [length_namesWith] at hIn
    omega
  have hHere := List.getElem?_eq_getElem hi
  have hQuery := (mem_absentNames.mp (List.mem_of_getElem? hHere)).1
  exact List.mem_map.mpr ⟨_, hQuery, congrArg some (idxOf_namesWith_of_absent hHere)⟩

/-- The slots reach to the last of the names. -/
theorem reach_namedSlots (known : Names) (queries : List String) :
    max known.length (Slots.reach (namedSlots known queries))
      = (namesWith known queries).length := by
  have hBelow := Slots.below_iff_reach_le.mp (below_namedSlots known queries)
  have hLength : known.length ≤ (namesWith known queries).length := by
    rw [length_namesWith]
    omega
  by_cases hNone : (namesWith known queries).length = known.length
  · omega
  · have hLast : some ((namesWith known queries).length - 1) ∈ namedSlots known queries :=
      mem_namedSlots_of_le (by omega) (by omega)
    have := Slots.lt_reach hLast
    omega

/-- The last slot of an offset is that of the last query with the name there. -/
theorem lastAt_namedSlots {name : String} {j : Nat} (hHere : queries[j]? = some name)
    (hLast : ∀ i, j < i → queries[i]? ≠ some name) :
    Slots.LastAt (namedSlots known queries) ((namesWith known queries).idxOf (some name)) j := by
  refine ⟨by simp [namedSlots, hHere], ?_⟩
  intro i hi hSlot
  obtain ⟨other, hOther, hSame⟩ := Option.map_eq_some_iff.mp (List.getElem?_map .. ▸ hSlot)
  have hMem : some other ∈ namesWith known queries := mem_namesWith (List.mem_of_getElem? hOther)
  have hEq : some other = some name := (List.idxOf_inj hMem).mp (Option.some.inj hSame)
  exact hLast i hi (hEq ▸ hOther)

/-- Storing each name at its slot adds the absent names behind the known ones. -/
theorem Slots.written_namesWith (known : Names) (queries : List String) :
    Slots.Written (some "") known (namedSlots known queries) ((queries.map some)[·]?)
      (namesWith known queries) := by
  refine ⟨(reach_namedSlots known queries).symm, ?_, ?_, ?_⟩
  · intro o j hLast
    obtain ⟨name, hName, hSlot⟩ := Option.map_eq_some_iff.mp (List.getElem?_map .. ▸ hLast.1)
    cases hSlot
    have hMem : some name ∈ namesWith known queries := mem_namesWith (List.mem_of_getElem? hName)
    rw [List.getElem?_idxOf hMem, List.getElem?_map, hName]
    rfl
  · intro o hOld _
    rw [namesWith, List.getElem?_append_left hOld]
  · intro o hNew hIn hAbsent
    exact absurd (mem_namedSlots_of_le hNew hIn) hAbsent

/-! ## Plans of names -/

/-- The names, or an empty name for each element of a container without names. -/
def Layout.namesOrEmpty (layout : Layout) : Names :=
  layout.names.getD (List.replicate layout.length (some ""))

namespace Layout

variable {layout : Layout}

theorem idxOf?_namesOrEmpty {name : String} (hName : name ≠ "") :
    layout.namesOrEmpty.idxOf? (some name) = (layout.names.getD []).idxOf? (some name) := by
  unfold namesOrEmpty
  cases layout.names with
  | some names => rfl
  | none =>
    have hAbsent : some name ∉ List.replicate layout.length (some "") := by
      intro hMem
      exact hName (Option.some.inj (List.eq_of_mem_replicate hMem))
    exact List.idxOf?_eq_none_iff.mpr hAbsent

theorem find?_ofNames {name : String} (hName : name ≠ "") (queries : Nat) :
    (NameTable.ofNames layout.names queries).find? (some name)
      = layout.namesOrEmpty.idxOf? (some name) := by
  rw [NameTable.find?_ofNames, idxOf?_namesOrEmpty hName, firstNamed, if_neg (by simpa using hName)]

/-- Writing by name goes to the slots of the names and stores the names there. -/
theorem run_plan_names_write (hNames : layout.namesOrEmpty.length = layout.length)
    (hQueries : "" ∉ queries) (session : Session) :
    (layout.plan [.names (queries.map some)] .subset .write).run session
      = (.ok
          { offsets := namedSlots layout.namesOrEmpty queries
            names := some (queries.map some) },
        session) := by
  have hSlots : Selection.slotOffsets (.ofNames layout.names (queries.map some).length) []
      layout.length (queries.map some)
        = queries.map fun name => (namesWith layout.namesOrEmpty queries).idxOf (some name) := by
    rw [← hNames]
    refine Selection.slotOffsets_eq_map ?_ hQueries
    intro name hName
    rw [Selection.slotOf?_nil, find?_ofNames hName]
  have hSelect : (Position.select (.names (queries.map some)) layout.length layout.names
      .write).run session
        = (.ok
            { offsets := namedSlots layout.namesOrEmpty queries
              names := some (queries.map some) },
          session) := by
    simp only [Position.select, Selection.ofQueries, hSlots, List.map_map]
    rfl
  exact run_planStorage_subset_eq_ok.mpr ⟨_, hSelect, rfl⟩

/-- Reading by name goes to the same slots once the names are there. -/
theorem run_plan_names_read {known : Names}
    (hNames : layout.names = some (namesWith known queries)) (hQueries : "" ∉ queries)
    (session : Session) :
    (layout.plan [.names (queries.map some)] .subset .read).run session
      = (.ok { offsets := namedSlots known queries }, session) := by
  have hFound : (queries.map some).map
      (NameTable.ofNames layout.names (queries.map some).length).find?
        = namedSlots known queries := by
    rw [List.map_map]
    refine List.map_congr_left ?_
    intro name hMem
    have hName : name ≠ "" := fun h => hQueries (h ▸ hMem)
    rw [Function.comp_apply, find?_ofNames hName, idxOf?_namesOrEmpty hName, hNames]
    exact idxOf?_of_mem (mem_namesWith hMem)
  have hSelect : (Position.select (.names (queries.map some)) layout.length layout.names
      .read).run session = (.ok { offsets := namedSlots known queries }, session) := by
    simp only [Position.select, Selection.ofQueries, hFound]
    rfl
  exact run_planStorage_subset_eq_ok.mpr ⟨_, hSelect, rfl⟩

end Layout

/-! ## Reading what was assigned -/

namespace TypedVector

variable {kind : VectorKind} {x : TypedVector kind} {values : List kind.Elem}

/-- The vector after values were stored at the slots of names, together with the names. -/
def assignNamed (x : TypedVector kind) (queries : List String) (values : List kind.Elem) :
    TypedVector kind :=
  x.assign { offsets := namedSlots x.namesOrEmpty queries, names := some (queries.map some) } values

theorem isEmpty_namedPlan (hSome : queries ≠ []) (known : Names) :
    Plan.isEmpty { offsets := namedSlots known queries, names := some (queries.map some) }
      = false := by
  cases queries with
  | nil => exact absurd rfl hSome
  | cons name rest => rfl

theorem names_assignNamed (hSome : queries ≠ []) (hValues : values ≠ [])
    (hNames : ∀ names, x.attributes.names = some names → names.length = x.length) :
    (x.assignNamed queries values).attributes.names
      = some (namesWith x.namesOrEmpty queries) := by
  have hAligned : Plan.NamesAligned
      { offsets := namedSlots x.namesOrEmpty queries, names := some (queries.map some) } := by
    rintro names ⟨⟩
    simp [namedSlots]
  obtain ⟨names, hStored, hWritten⟩ :=
    names_assign_of_named (isEmpty_namedPlan hSome _) hValues hNames hAligned rfl
  rw [assignNamed, hStored, hWritten.unique (Slots.written_namesWith _ _)]

theorem length_assignNamed (hSome : queries ≠ []) (hValues : values ≠ [])
    (hNames : ∀ names, x.attributes.names = some names → names.length = x.length) :
    (x.assignNamed queries values).length
      = x.length + (absentNames x.namesOrEmpty queries).length := by
  have hKnown := length_namesOrEmpty hNames
  have hReach := reach_namedSlots x.namesOrEmpty queries
  rw [assignNamed, length_assign (isEmpty_namedPlan hSome _) hValues, ← hKnown, ← length_namesWith]
  exact hReach

/-- What is read at the slot of a name is the value that was stored last under it. -/
theorem getElem?_gather_assignNamed (hSome : queries ≠ []) (hValues : values ≠ []) {k j : Nat}
    {name : String} (hk : queries[k]? = some name) (hj : queries[j]? = some name)
    (hLast : ∀ i, j < i → queries[i]? ≠ some name) :
    ((x.assignNamed queries values).gather (namedSlots x.namesOrEmpty queries)).elements[k]?
      = values[j % values.length]? := by
  have hWritten := written_assign (x := x) (isEmpty_namedPlan hSome x.namesOrEmpty) hValues
  have hSlot := hWritten.last _ j (lastAt_namedSlots hj hLast)
  have hHere : (namedSlots x.namesOrEmpty queries)[k]?
      = some (some ((namesWith x.namesOrEmpty queries).idxOf (some name))) := by
    simp [namedSlots, hk]
  have hStored : j % values.length < values.length :=
    Nat.mod_lt j (List.length_pos_iff.mpr hValues)
  rw [List.getElem?_eq_getElem hStored] at hSlot ⊢
  rw [gather, Slots.getElem?_gather, hHere, Option.map_some, Slots.fetch, Option.bind_some,
    assignNamed, hSlot, Option.getD_some]

/-- Under the names that were stored, the same names are read. -/
theorem names_gather_assignNamed (hSome : queries ≠ []) (hValues : values ≠ [])
    (hNames : ∀ names, x.attributes.names = some names → names.length = x.length) :
    ((x.assignNamed queries values).gather (namedSlots x.namesOrEmpty queries)).attributes.names
      = some (queries.map some) := by
  unfold gather
  dsimp only
  rw [names_assignNamed hSome hValues hNames, Option.map_some, Slots.gather_eq_map, namedSlots,
    List.map_map]
  refine congrArg some (List.map_congr_left ?_)
  intro name hName
  have hMem : some name ∈ namesWith x.namesOrEmpty queries := mem_namesWith hName
  simp [Slots.fetch, List.getElem?_idxOf hMem]

end TypedVector

namespace Value

variable {container value result : Value} {world final : World}

/-- Assigning by name creates one element for each name that is absent, behind the others, and
reading by the same names gives for each of them the value that was assigned last under it. -/
theorem get_names_of_assign (hContainer : container.isSequence)
    (hNames : ∀ names, container.names? = some names →
      names.length = container.length world.store)
    (hValue : value.isNull = false) (hSome : queries ≠ []) (hQueries : "" ∉ queries)
    (h : (container.assign [.names (queries.map some)] value .subset).run world
      = (.ok result, final)) :
    ∃ kind, ∃ v y r : TypedVector kind, value.coerce kind = .ok v ∧ result = y.toValue
      ∧ y.length = container.length world.store
          + (absentNames (container.layout world.store).namesOrEmpty queries).length
      ∧ y.attributes.names = some (namesWith (container.layout world.store).namesOrEmpty queries)
      ∧ (∀ store session, (y.toValue.get store [.names (queries.map some)] .subset).run session
          = (.ok r.toValue, session))
      ∧ r.attributes.names = some (queries.map some) ∧ r.length = queries.length ∧ 0 < v.length
      ∧ ∀ (k j : Nat) (name : String), queries[k]? = some name → queries[j]? = some name →
          (∀ i, j < i → queries[i]? ≠ some name) →
          r.elements[k]? = v.elements[j % v.length]? := by
  rw [run_assign_eq_ok hContainer hValue (pathSteps?_subset ..), run_overwrite_eq_ok] at h
  obtain ⟨⟨replacement, plan, middle, x, hReplacement, hPlan, hFit, hx, rfl⟩, -⟩ := h
  obtain ⟨kind, v, -, hv, rfl⟩ := Replacement.ofValue_subset_eq_ok.mp hReplacement
  -- the coerced container has the length and the names of the container
  have hLength : x.length = container.length world.store := (layout_of_coerce hx).2 world.store
  have hAligned : ∀ names, x.attributes.names = some names → names.length = x.length := by
    intro names hGiven
    rw [hLength]
    exact hNames names (names_of_coerce hx ▸ hGiven)
  have hKnown : (container.layout world.store).namesOrEmpty = x.namesOrEmpty := by
    rw [TypedVector.namesOrEmpty, names_of_coerce hx, hLength]
    rfl
  have hCount : (container.layout world.store).namesOrEmpty.length
      = (container.layout world.store).length := by
    rw [hKnown, TypedVector.length_namesOrEmpty hAligned]
    exact hLength
  rw [Layout.run_plan_names_write hCount hQueries] at hPlan
  obtain ⟨hOutcome, -⟩ := Prod.mk.inj hPlan
  cases hOutcome
  have hPlanned := TypedVector.isEmpty_namedPlan hSome
    (container.layout world.store).namesOrEmpty
  have hValues : v.elements ≠ [] := by
    intro hNone
    exact Plan.length_ne_zero_of_run_checkFit hFit hPlanned (by rw [hNone]; rfl)
  rw [hKnown]
  refine ⟨kind, v, x.assignNamed queries v.elements,
    (x.assignNamed queries v.elements).gather (namedSlots x.namesOrEmpty queries), hv, rfl, ?_, ?_,
    ?_, ?_, ?_, ?_, ?_⟩
  · rw [← hLength]
    exact TypedVector.length_assignNamed hSome hValues hAligned
  · exact TypedVector.names_assignNamed hSome hValues hAligned
  · intro store session
    have hRead : (((x.assignNamed queries v.elements).toValue.layout store).plan
        [.names (queries.map some)] .subset .read).run session
          = (.ok { offsets := namedSlots x.namesOrEmpty queries }, session) := by
      refine Layout.run_plan_names_read ?_ hQueries session
      rw [TypedVector.layout_toValue]
      exact TypedVector.names_assignNamed hSome hValues hAligned
    rw [TypedVector.run_get_of_plan (pathSteps?_subset _ _) hRead, extract,
      TypedVector.vector?_toValue]
    rfl
  · exact TypedVector.names_gather_assignNamed hSome hValues hAligned
  · rw [TypedVector.length_gather, namedSlots, List.length_map]
  · exact List.length_pos_iff.mpr hValues
  · intro k j name hk hj hLast
    exact TypedVector.getElem?_gather_assignNamed hSome hValues hk hj hLast

/-- A name that is assigned to twice has one element, and both times the second value is read. -/
theorem get_names_of_assign_repeated :
    ∃ kind, ∃ r : TypedVector kind,
      (∀ store session,
        ((atomic .integer [some 1, some 9, some 8]
          { names := some [some "", some "p", some "q"] }).get
            store [.names [some "p", some "q", some "p"]] .subset).run session
          = (.ok r.toValue, session))
        ∧ r.attributes.names = some [some "p", some "q", some "p"]
        ∧ r.elements[0]? = r.elements[2]? := by
  have hRun : ((atomic .integer [some 1] {}).assign
      [.names (["p", "q", "p"].map some)] (atomic .integer [some 7, some 8, some 9] {})
      .subset).run {}
        = (.ok (atomic .integer [some 1, some 9, some 8]
            { names := some [some "", some "p", some "q"] }), {}) := rfl
  obtain ⟨kind, v, y, r, -, hResult, -, -, hRead, hNames, -, -, hElements⟩ :=
    get_names_of_assign rfl (by rintro _ ⟨⟩) rfl (by decide) (by decide) hRun
  have hLast : ∀ i, 2 < i → ["p", "q", "p"][i]? ≠ some "p" := by
    intro i hi
    rw [List.getElem?_eq_none hi]
    exact nofun
  refine ⟨kind, r, ?_, hNames, ?_⟩
  · rw [hResult]
    exact hRead
  · exact (hElements 0 2 "p" rfl rfl hLast).trans (hElements 2 2 "p" rfl rfl hLast).symm

end Value

end VectorIndexing
