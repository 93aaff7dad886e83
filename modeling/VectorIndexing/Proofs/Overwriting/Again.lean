import VectorIndexing.Proofs.Arrays.Linear
import VectorIndexing.Proofs.Overwriting.Refusals
import VectorIndexing.Proofs.ReadBack.Names
import VectorIndexing.Proofs.ReadBack.Slot
import VectorIndexing.Proofs.WellFormed.Vectors

/-!
# Assigning to the same elements again

A second assignment under `[` at the same positions leaves nothing of the first. The first one may
have extended the vector, named elements, taken the shape of an array and changed the kind, but the
positions still have the plan that they had before.

* `TypedVector.assign_assign`: writing as planned, twice.
* `Position.select_max_reach`, `Layout.run_plan_names_again`: the plans of single positions.
* `TypedVector.run_plan_assign`: the plans of all positions.
* `Value.run_assign_again`: the assignments.
-/

namespace VectorIndexing

/-! ## Writing twice -/

/-- Writing the same again changes nothing. -/
theorem Slots.putAll_putAll {α : Type} (xs : List α) (writes : List (Offset × α)) :
    putAll (putAll xs writes) writes = putAll xs writes := by
  apply List.ext_getElem?
  intro o
  simp only [getElem?_putAll, length_putAll]
  split
  · rw [← Option.or_assoc, Option.or_self]
  · rfl

/-- Of two writes by the same plan, only the second can be seen. -/
theorem TypedVector.assign_assign {kind : VectorKind} {x : TypedVector kind} {plan : Plan}
    {values values' : List kind.Elem} (hValues : plan.isEmpty = false → values ≠ [])
    (hValues' : plan.isEmpty = false → values' ≠ []) :
    (x.assign plan values).assign plan values' = x.assign plan values' := by
  cases hPlan : plan.isEmpty with
  | true => rw [assign_of_isEmpty hPlan, assign_of_isEmpty hPlan, assign_of_isEmpty hPlan]
  | false =>
    have hFirst := hValues hPlan
    have hSecond := hValues' hPlan
    have hLong : plan.reach ≤ (x.assign plan values).length := by
      rw [length_assign hPlan hFirst]
      exact Nat.le_max_right ..
    ext1
    · exact ((written_assign hPlan hFirst).again (written_assign hPlan hSecond)).unique
        (written_assign hPlan hSecond)
    · rw [attributes_assign hPlan hSecond, attributes_assign hPlan hSecond, extend_of_le hLong,
        namesOrEmpty, attributes_assign hPlan hFirst]
      cases plan.names with
      | none => rfl
      | some names => simp only [Option.getD_some, Slots.putAll_putAll]

/-! ## Planning again -/

namespace Selection

/-- Every element reaches as far as the last one. -/
theorem reach_all_le (length : Nat) : Slots.reach (all length).offsets ≤ length := by
  refine Slots.below_iff_reach_le.mp ?_
  intro o ho
  simpa [all] using ho

theorem reach_complement_le (entries : List (Option Int)) (length : Nat) :
    Slots.reach (complement entries length) ≤ length := by
  refine Slots.below_iff_reach_le.mp ?_
  intro o ho
  obtain ⟨_, ⟨⟩, hIn, -⟩ := (mem_complement ..).mp ho
  exact hIn

theorem reach_maskOffsets_le (flags : List (Option Bool)) (length : Nat) :
    Slots.reach (maskOffsets flags length) ≤ max length flags.length :=
  Slots.below_iff_reach_le.mp fun _ ho => Pick.lt_of_mem_maskOffsets ho

/-- Up to the length of the mask, the length of the vector makes no difference. -/
theorem ofMask_eq_of_le {flags : List (Option Bool)} {length longer : Nat} (hFrom : length ≤ longer)
    (hTo : longer ≤ max length flags.length) : ofMask flags longer = ofMask flags length := by
  by_cases hSame : longer = length
  · rw [hSame]
  · have hMisfits : maskMisfits flags longer = maskMisfits flags length := by
      have hLonger : ¬ flags.length < longer := by omega
      have hLength : ¬ flags.length < length := by omega
      simp [maskMisfits, hLonger, hLength]
    have hOffsets : maskOffsets flags longer = maskOffsets flags length := by
      have hMax : max longer flags.length = max length flags.length := by omega
      rw [maskOffsets, maskOffsets, hMax]
    rw [ofMask, hMisfits, hOffsets, ofMask]

/-- A selection is a list of all but some elements, or the length makes no difference to it. -/
theorem ofIndices_cases {entries : List (Option Int)} {given : Option Names} {length : Nat}
    {s : Selection} (h : ofIndices entries given length = .ok s) :
    s.offsets = complement entries length
      ∨ ∀ other, ofIndices entries given other = ofIndices entries given length := by
  by_cases hExcludes : Position.Excludes entries
  · by_cases hMixes : Position.Mixes entries
    · rw [ofIndices_of_mixes hMixes] at h
      cases h
    · rw [ofIndices_of_excludes hExcludes hMixes] at h
      cases h
      exact Or.inl rfl
  · refine Or.inr fun other => ?_
    rw [ofIndices_of_not_excludes hExcludes, ofIndices_of_not_excludes hExcludes]

end Selection

/-- A position other than names selects the same again in a vector that was extended as far as the
selection reaches. -/
theorem Position.select_max_reach {p : Position} {length : Nat} {names names' : Option Names}
    {purpose : Purpose} {s : Selection} {session final : Session}
    (hp : ∀ queries, p ≠ .names queries)
    (h : (p.select length names purpose).run session = (.ok s, final)) :
    p.select (max length (Slots.reach s.offsets)) names' purpose
      = p.select length names purpose := by
  cases p with
  | missing =>
    obtain ⟨rfl, -⟩ := Checked.run_pure_eq_ok.mp h
    rw [Nat.max_eq_left (Selection.reach_all_le length)]
    rfl
  | indices entries given =>
    simp only [Position.select] at h ⊢
    rcases Selection.ofIndices_cases (Checked.run_ofExcept_eq_ok.mp h).1 with hOffsets | hSame
    · rw [hOffsets, Nat.max_eq_left (Selection.reach_complement_le entries length)]
    · rw [hSame]
  | mask flags =>
    obtain ⟨rfl⟩ := Except.ok.inj ((Selection.reports_ofMask flags length).eq_ok_of_run h)
    have := Selection.reach_maskOffsets_le flags length
    exact Selection.ofMask_eq_of_le (Nat.le_max_left ..) (by dsimp only; omega)
  | names queries => exact absurd rfl (hp queries)

namespace Layout

variable {layout layout' : Layout} {plan : Plan} {session final : Session}

/-- A single position other than names has the same plan again. -/
theorem planStorage_again {p : Position} (hp : ∀ queries, p ≠ .names queries)
    (h : (layout.planStorage p .subset .write).run session = (.ok plan, final))
    (hLength : layout'.length = max layout.length plan.reach) :
    layout'.planStorage p .subset .write = layout.planStorage p .subset .write := by
  obtain ⟨s, hs, rfl⟩ := run_planStorage_subset_eq_ok.mp h
  have hReach : layout'.length = max layout.length (Slots.reach s.offsets) := hLength
  simp only [planStorage, hReach]
  rw [Position.select_max_reach hp hs]

end Layout

/-- Names that are all known are not added. -/
theorem namesWith_of_known {known : Names} {queries : List String}
    (h : ∀ name ∈ queries, some name ∈ known) : namesWith known queries = known := by
  have hNone : absentNames known queries = [] := by
    rw [List.eq_nil_iff_forall_not_mem]
    intro name hName
    obtain ⟨hQuery, hAbsent⟩ := mem_absentNames.mp hName
    exact hAbsent (h name hQuery)
  rw [namesWith, hNone, List.map_nil, List.append_nil]

/-- Names that were added have the slots where they were added. -/
theorem namedSlots_namesWith (known : Names) (queries : List String) :
    namedSlots (namesWith known queries) queries = namedSlots known queries := by
  unfold namedSlots
  rw [namesWith_of_known fun name hName => mem_namesWith hName]

/-- Names have the same plan again once they are stored. -/
theorem Layout.run_plan_names_again {layout layout' : Layout} {queries : List String}
    (hNames : layout.namesOrEmpty.length = layout.length)
    (hNames' : layout'.namesOrEmpty.length = layout'.length)
    (hStored : layout'.namesOrEmpty = namesWith layout.namesOrEmpty queries)
    (hQueries : "" ∉ queries) (session : Session) :
    (layout'.plan [.names (queries.map some)] .subset .write).run session
      = (layout.plan [.names (queries.map some)] .subset .write).run session := by
  rw [run_plan_names_write hNames' hQueries, run_plan_names_write hNames hQueries, hStored,
    namedSlots_namesWith]

/-- Names of which none is missing. -/
theorem exists_map_some_of_notMem {queries : Names} (h : none ∉ queries) :
    ∃ names : List String, queries = names.map some := by
  induction queries with
  | nil => exact ⟨[], rfl⟩
  | cons query rest ih =>
    obtain ⟨names, rfl⟩ := ih fun hMem => h (List.mem_cons_of_mem _ hMem)
    cases query with
    | none => exact absurd List.mem_cons_self h
    | some name => exact ⟨name :: names, rfl⟩

namespace TypedVector

variable {kind : VectorKind} {x : TypedVector kind} {plan : Plan} {values : List kind.Elem}
  {positions : List Position} {session final : Session}

/-- Unless names are stored or the vector is extended, positions are applied to the same. -/
theorem layout_assign (hPlan : plan.isEmpty = false) (hValues : values ≠ [])
    (hUnnamed : plan.names = none) (hReach : plan.reach ≤ x.length) (store store' : Store) :
    (x.assign plan values).toValue.layout store' = x.toValue.layout store := by
  have hLength : (x.assign plan values).length = x.length := by
    rw [length_assign hPlan hValues, Nat.max_eq_left hReach]
  rw [layout_toValue, layout_toValue, hLength, attributes_assign hPlan hValues, hUnnamed,
    extend_of_le hReach]

theorem namesOrEmpty_layout (x : TypedVector kind) (store : Store) :
    (x.toValue.layout store).namesOrEmpty = x.namesOrEmpty := by
  rw [layout_toValue]
  rfl

/-- Names that were assigned have the same plan again. -/
theorem run_plan_assign_names (hNames : ∀ names, x.attributes.names = some names →
      names.length = x.length) {queries : List String} (hQueries : "" ∉ queries)
    (hPlan : plan.isEmpty = false) (hValues : values ≠ []) {store : Store}
    (h : ((x.toValue.layout store).plan [.names (queries.map some)] .subset .write).run session
      = (.ok plan, final)) (store' : Store) (session' : Session) :
    (((x.assign plan values).toValue.layout store').plan [.names (queries.map some)] .subset
        .write).run session'
      = ((x.toValue.layout store).plan [.names (queries.map some)] .subset .write).run
        session' := by
  have hKnown := length_namesOrEmpty hNames
  have hCount : (x.toValue.layout store).namesOrEmpty.length = (x.toValue.layout store).length := by
    rw [namesOrEmpty_layout, layout_toValue]
    exact hKnown
  rw [Layout.run_plan_names_write hCount hQueries, namesOrEmpty_layout] at h
  obtain ⟨rfl⟩ := Except.ok.inj (congrArg Prod.fst h)
  have hSome : queries ≠ [] := by
    rintro rfl
    cases hPlan
  have hStored := names_assignNamed hSome hValues hNames
  have hStoredNames : ((x.assignNamed queries values).toValue.layout store').namesOrEmpty
      = namesWith x.namesOrEmpty queries := by
    rw [namesOrEmpty_layout, namesOrEmpty, hStored, Option.getD_some]
  refine Layout.run_plan_names_again hCount ?_ ?_ hQueries session'
  · refine (congrArg List.length hStoredNames).trans ?_
    rw [length_namesWith, hKnown, ← length_assignNamed hSome hValues hNames, layout_toValue]
    rfl
  · rw [namesOrEmpty_layout x store]
    exact hStoredNames

/-- Several positions have a plan only in an array of as many dimensions. -/
theorem exists_planArray_of_plan {first second : Position} {rest : List Position} {store : Store}
    {mode : Mode} {purpose : Purpose}
    (h : ((x.toValue.layout store).plan (first :: second :: rest) mode purpose).run session
      = (.ok plan, final)) :
    ∃ extents, x.attributes.dim = some extents
      ∧ extents.length = (first :: second :: rest).length
      ∧ ((x.toValue.layout store).planArray (first :: second :: rest) extents mode).run session
          = (.ok plan, final) := by
  have hDim : (x.toValue.layout store).dim = x.attributes.dim := by rw [layout_toValue]
  obtain ⟨hArity, hArray⟩ := Layout.planArray_of_plan h
  rw [hDim] at hArity hArray
  cases hExtents : x.attributes.dim with
  | none =>
    rw [hExtents] at hArity
    cases hArity
  | some extents =>
    rw [hExtents] at hArity hArray
    exact ⟨extents, rfl, hArity, hArray⟩

/-- With one position per dimension nothing is extended and no name is stored. -/
theorem layout_assign_of_planArray (hFit : x.attributes.Fit x.length) (hPlan : plan.isEmpty = false)
    (hValues : values ≠ []) {store : Store} {extents : List Nat}
    (hDim : x.attributes.dim = some extents) (hArity : extents.length = positions.length)
    (h : ((x.toValue.layout store).planArray positions extents .subset).run session
      = (.ok plan, final)) (store' : Store) :
    (x.assign plan values).toValue.layout store' = x.toValue.layout store := by
  have hBelow := Layout.below_of_planArray hArity (named_of_mem_axes hFit hDim store) h
  have hUnnamed : plan.names = none := by
    obtain ⟨_, -, rfl⟩ := Layout.run_planArray_eq_ok.mp h
    rfl
  refine layout_assign hPlan hValues hUnnamed ?_ store store'
  rw [← (hFit.dim extents hDim).2]
  exact Slots.below_iff_reach_le.mp hBelow

/-- Whatever an assignment did to a vector, its positions have the same plan again. -/
theorem run_plan_assign (hFit : x.attributes.Fit x.length)
    (hNames : ∀ queries, .names queries ∈ positions → none ∉ queries ∧ some "" ∉ queries)
    (hValues : plan.isEmpty = false → values ≠ []) {store : Store}
    (h : ((x.toValue.layout store).plan positions .subset .write).run session = (.ok plan, final))
    (store' : Store) (session' : Session) :
    (((x.assign plan values).toValue.layout store').plan positions .subset .write).run session'
      = ((x.toValue.layout store).plan positions .subset .write).run session' := by
  cases hPlan : plan.isEmpty with
  | true => rw [assign_of_isEmpty hPlan, layout_toValue, layout_toValue]
  | false =>
    have hLength : ((x.assign plan values).toValue.layout store').length
        = max (x.toValue.layout store).length plan.reach := by
      rw [layout_toValue, layout_toValue]
      exact length_assign hPlan (hValues hPlan)
    -- names are found where they were stored, and an array stays in shape; other positions depend on
    -- the length, which is as great as they reach
    match positions, hNames, h with
    | [], _, h =>
      exact congrArg (Checked.run · session')
        (Layout.planStorage_again (p := .missing) (fun _ hSame => by cases hSame) h hLength)
    | [.names queries], hNames, h =>
      obtain ⟨hMissing, hEmpty⟩ := hNames queries List.mem_cons_self
      obtain ⟨names, rfl⟩ := exists_map_some_of_notMem hMissing
      have hQueries : "" ∉ names := fun hMem => hEmpty (List.mem_map_of_mem hMem)
      exact run_plan_assign_names hFit.names hQueries hPlan (hValues hPlan) h store' session'
    | [.missing], _, h | [.indices _ _], _, h | [.mask _], _, h =>
      exact congrArg (Checked.run · session')
        (Layout.planStorage_again (fun _ hSame => by cases hSame) h hLength)
    | first :: second :: rest, _, h =>
      obtain ⟨extents, hDim, hArity, hArray⟩ := exists_planArray_of_plan h
      rw [layout_assign_of_planArray hFit hPlan (hValues hPlan) hDim hArity hArray store']

end TypedVector

/-! ## Assigning twice -/

namespace Value

variable {container y v w : Value} {positions : List Position} {world final : World}

/-- Values of the same kind are written as elements of the same kind. -/
theorem exists_ofValue_of_kind_eq (hContainer : container.isSequence) {kind : VectorKind}
    (hJoin : container.kind.join v.kind = some (.vector kind)) (hKinds : v.kind = w.kind) :
    ∃ elements : List kind.Elem, Replacement.ofValue container w .subset = .ok ⟨kind, elements⟩
      ∧ ∀ x : TypedVector kind, Replacement.ofValue x.toValue w .subset = .ok ⟨kind, elements⟩ := by
  rw [hKinds] at hJoin
  have hSwapped : w.kind.join container.kind = some (.vector kind) := by rwa [Kind.join_comm]
  obtain ⟨w', hw⟩ := exists_coerce_of_join (isSequence_of_join hContainer hJoin) hSwapped
  refine ⟨w'.elements, ?_, ?_⟩
  · exact Replacement.ofValue_subset_eq_ok.mpr ⟨kind, w', hJoin, hw, rfl⟩
  · intro x
    refine Replacement.ofValue_subset_eq_ok.mpr ⟨kind, w', ?_, hw, rfl⟩
    rw [TypedVector.kind_toValue]
    exact Kind.join_of_join hJoin

/-- Carrying out a plan that has been carried out before. -/
theorem run_overwriteAs_again (replacement : Replacement) {x : TypedVector replacement.kind}
    {values : List replacement.kind.Elem} {plan : Plan}
    (hTarget : container.coerce replacement.kind = .ok x)
    (hValues : plan.isEmpty = false → values ≠ []) (session : Session) :
    ((x.assign plan values).toValue.overwriteAs replacement plan .subset).run session
      = (container.overwriteAs replacement plan .subset).run session := by
  unfold overwriteAs
  rw [coerce_self, hTarget, Checked.run_bind, Checked.run_bind]
  rcases hFit : (plan.checkFit replacement.elements.length .subset).run session with ⟨_ | _, final⟩
  · rfl
  · exact congrArg (fun z : TypedVector _ => (Except.ok z.toValue, final))
      (TypedVector.assign_assign hValues (Plan.ne_nil_of_run_checkFit hFit))

/-- After an assignment, another one at the same positions comes to what it would have come to
before. -/
theorem run_assign_assign (hContainer : container.isSequence) (hWF : container.WellFormed)
    (hv : v.isNull = false) (hw : w.isNull = false) (hKinds : v.kind = w.kind)
    (hNames : ∀ queries, .names queries ∈ positions → none ∉ queries ∧ some "" ∉ queries)
    (h : (container.assign positions v .subset).run world = (.ok y, final)) (world' : World) :
    (y.assign positions w .subset).run world' = (container.assign positions w .subset).run world' := by
  rw [run_assign_eq_ok hContainer hv (pathSteps?_subset ..), run_overwrite_eq_ok] at h
  obtain ⟨⟨replacement, plan, middle, x, hReplacement, hPlan, hFit, hx, rfl⟩, -⟩ := h
  obtain ⟨kind, v', hJoin, -, rfl⟩ := Replacement.ofValue_subset_eq_ok.mp hReplacement
  obtain ⟨elements, hElements, hElements'⟩ := exists_ofValue_of_kind_eq hContainer hJoin hKinds
  have hValues : plan.isEmpty = false → v'.elements ≠ [] := Plan.ne_nil_of_run_checkFit hFit
  -- the positions are applied to the same in both worlds
  have hLayout : container.layout world.store = x.toValue.layout world'.store := by
    rw [← layout_toValue_of_coerce hx, TypedVector.layout_toValue, TypedVector.layout_toValue]
  rw [hLayout] at hPlan
  have hAgain := TypedVector.run_plan_assign (hWF.coerce hx).fit hNames hValues hPlan world'.store
    world'.session
  rw [run_assign_eq_overwrite (TypedVector.isSequence_toValue _) hw (pathSteps?_subset ..),
    run_assign_eq_overwrite hContainer hw (pathSteps?_subset ..), overwrite_eq_bind hElements,
    overwrite_eq_bind (hElements' _), Checked.run_bind, Checked.run_bind, hAgain,
    ← layout_toValue_of_coerce hx]
  rcases hRun : ((x.toValue.layout world'.store).plan positions .subset .write).run world'.session
    with ⟨_ | plan', planned⟩
  · rfl
  · cases (Layout.reporting_plan _ positions .subset .write).eq_of_run_eq_ok hRun hPlan
    dsimp only
    rw [run_overwriteAs_again ⟨kind, elements⟩ hx hValues planned]

/-- A second assignment at the same positions overwrites the first, and assigning the same value
again changes nothing. -/
theorem run_assign_again (hContainer : container.isSequence) (hWF : container.WellFormed)
    (hv : v.isNull = false) (hw : w.isNull = false) (hKinds : v.kind = w.kind)
    (hNames : ∀ queries, .names queries ∈ positions → none ∉ queries ∧ some "" ∉ queries)
    (h : (container.assign positions v .subset).run world = (.ok y, final)) :
    (∀ world', (y.assign positions w .subset).run world'
        = (container.assign positions w .subset).run world')
      ∧ (y.assign positions v .subset).run world = (.ok y, final) :=
  ⟨run_assign_assign hContainer hWF hv hw hKinds hNames h,
    (run_assign_assign hContainer hWF hv hv rfl hNames h world).trans h⟩

/-- The first assignment to flags of which one is named finds this one and appends an integer of a
new name, so that the second finds both. -/
theorem run_assign_again_named :
    let positions := [Position.names [some "b", some "c", some "b"]]
    let y := atomic .integer [some 1, some 9, some 8] { names := some [some "", some "b", some "c"] }
    (∀ world, (y.assign positions (atomic .integer [some 4] {}) .subset).run world
        = ((atomic .logical [some true, none] { names := some [some "", some "b"] }).assign positions
            (atomic .integer [some 4] {}) .subset).run world)
      ∧ (y.assign positions (atomic .integer [some 7, some 8, some 9] {}) .subset).run {}
          = (.ok y, {}) := by
  have hRun : ((atomic .logical [some true, none] { names := some [some "", some "b"] }).assign
      [.names [some "b", some "c", some "b"]] (atomic .integer [some 7, some 8, some 9] {})
      .subset).run {}
        = (.ok (atomic .integer [some 1, some 9, some 8]
            { names := some [some "", some "b", some "c"] }), {}) := rfl
  have hWF : (atomic .logical [some true, none] { names := some [some "", some "b"] }).WellFormed :=
    .atomic _ _ _ (.ofNames (by rintro _ ⟨⟩; rfl)) (by rintro _ ⟨⟩)
  refine run_assign_again rfl hWF rfl rfl rfl ?_ hRun
  intro queries hQueries
  cases List.mem_singleton.mp hQueries
  decide

end Value

end VectorIndexing
