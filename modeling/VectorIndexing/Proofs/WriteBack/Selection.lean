import VectorIndexing.Proofs.Names.NewSlots
import VectorIndexing.Proofs.Overwriting.Reports
import VectorIndexing.Proofs.WriteBack.Element

/-!
# Writing back a selection

What was read under `[` may be assigned at the same positions, and this changes nothing, provided
that the positions select elements that exist and do not carry names of their own. All there may
be is the warning of a mask, twice.

* `Slots.Inside`: offsets of elements that exist.
* `Selection.isSome_find?_of_inside`: names that select such offsets are found.
* `Layout.InPlace`, `Layout.exists_inPlace`: planning for both purposes.
* `TypedVector.assign_part_of_inPlace`: putting back what was read.
* `Value.assign_get`: writing back what was read, under both brackets.
-/

namespace VectorIndexing

/-! ## Names that are found -/

/-- Every offset is that of an element that exists. -/
def Slots.Inside (length : Nat) (offsets : List Offset) : Prop :=
  ∀ offset ∈ offsets, ∃ o, offset = some o ∧ o < length

theorem Slots.Inside.below {length : Nat} {offsets : List Offset} (h : Inside length offsets) :
    Below length offsets := by
  intro o ho
  obtain ⟨_, ⟨⟩, hIn⟩ := h _ ho
  exact hIn

namespace Selection

/-- Names that select existing elements are found. -/
theorem isSome_find?_of_inside {queries : Names} {length : Nat} {names : Option Names}
    {purpose : Purpose}
    (h : Slots.Inside length (ofQueries queries length names purpose).offsets) :
    ∀ query ∈ queries, ((NameTable.ofNames names queries.length).find? query).isSome := by
  cases purpose with
  | read =>
    intro query hQuery
    obtain ⟨o, ho, -⟩ := h _ (List.mem_map_of_mem hQuery)
    rw [ho]
    rfl
  | write =>
    refine isSome_find?_of_slotOffsets_lt length ?_
    intro o ho
    obtain ⟨_, ⟨⟩, hIn⟩ := h _ (List.mem_map_of_mem ho)
    exact hIn

end Selection

/-! ## Planning for both purposes -/

/-- What a position other than names selects has nothing to do with the purpose, and there are no
names unless the position carries them. -/
theorem Position.unnamed_of_select {p : Position} (hNames : ∀ queries, p ≠ .names queries)
    (hUnnamed : ∀ entries given, p ≠ .indices entries (some given)) {length : Nat}
    {names : Option Names} {purpose : Purpose} {s : Selection} {session final : Session}
    (h : (p.select length names purpose).run session = (.ok s, final)) :
    s.names = none ∧ ∀ other, p.select length names other = p.select length names purpose := by
  cases p with
  | missing =>
    obtain ⟨rfl, -⟩ := Checked.run_pure_eq_ok.mp h
    exact ⟨rfl, fun _ => rfl⟩
  | indices entries given =>
    refine ⟨?_, fun _ => rfl⟩
    cases given with
    | some given => exact absurd rfl (hUnnamed entries given)
    | none =>
      have hSelected := (Checked.run_ofExcept_eq_ok.mp h).1
      unfold Selection.ofIndices at hSelected
      split at hSelected
      · split at hSelected
        · cases hSelected
        · cases hSelected
          rfl
      · cases hSelected
        rfl
  | mask flags =>
    obtain ⟨rfl⟩ := Except.ok.inj ((Selection.reports_ofMask flags length).eq_ok_of_run h)
    exact ⟨rfl, fun _ => rfl⟩
  | names queries => exact absurd rfl (hNames queries)

namespace Layout

variable {layout : Layout} {positions : List Position} {purpose : Purpose} {plan : Plan}
  {session final : Session}

theorem unnamed_of_planStorage {p : Position} (hNames : ∀ queries, p ≠ .names queries)
    (hUnnamed : ∀ entries given, p ≠ .indices entries (some given))
    (h : (layout.planStorage p .subset purpose).run session = (.ok plan, final)) :
    plan.names = none
      ∧ ∀ other, layout.planStorage p .subset other = layout.planStorage p .subset purpose := by
  obtain ⟨s, hs, rfl⟩ := run_planStorage_subset_eq_ok.mp h
  obtain ⟨hNone, hSame⟩ := Position.unnamed_of_select hNames hUnnamed hs
  refine ⟨hNone, fun other => ?_⟩
  simp only [planStorage, hSame other]

theorem unnamed_of_plan (hNames : ∀ queries, positions ≠ [.names queries])
    (hUnnamed : ∀ entries given, .indices entries (some given) ∉ positions)
    (h : (layout.plan positions .subset purpose).run session = (.ok plan, final)) :
    plan.names = none
      ∧ ∀ other, layout.plan positions .subset other = layout.plan positions .subset purpose := by
  rcases positions with _ | ⟨first, _ | ⟨second, rest⟩⟩
  · have hMissing : (layout.planStorage .missing .subset purpose).run session = (.ok plan, final) := h
    exact unnamed_of_planStorage (fun _ hp => by cases hp) (fun _ _ hp => by cases hp) hMissing
  · refine unnamed_of_planStorage (fun queries hp => hNames queries (by rw [hp])) ?_ h
    rintro entries given rfl
    exact hUnnamed entries given List.mem_cons_self
  · obtain ⟨_, -, rfl⟩ := run_planArray_eq_ok.mp (planArray_of_plan h).2
    exact ⟨rfl, fun _ => rfl⟩

/-- Names that are found are the names of the elements where they are found. -/
theorem exists_holds_of_found {queries : Names} (hSome : queries ≠ [])
    (hFound : ∀ query ∈ queries,
      ((NameTable.ofNames layout.names queries.length).find? query).isSome) :
    ∃ known, layout.names = some known ∧ Slots.Holds known
      ((queries.map (NameTable.ofNames layout.names queries.length).find?).zip queries) := by
  obtain ⟨query, hQuery⟩ := List.exists_mem_of_ne_nil queries hSome
  obtain ⟨o, ho⟩ := Option.isSome_iff_exists.mp (hFound query hQuery)
  obtain ⟨known, hKnown, -⟩ := NameTable.getElem?_of_find?_ofNames ho
  refine ⟨known, hKnown, ?_⟩
  intro o' name hMem
  rw [← List.map_prod_right_eq_zip] at hMem
  obtain ⟨query', -, hPair⟩ := List.mem_map.mp hMem
  obtain ⟨hHere, rfl⟩ := Prod.mk.inj hPair
  obtain ⟨known', hKnown', hName⟩ := NameTable.getElem?_of_find?_ofNames hHere
  cases hKnown.symm.trans hKnown'
  exact hName

/-- Positions select the same existing elements for reading and for writing, with the same warnings,
and the names to be stored are there already. -/
structure InPlace (layout : Layout) (positions : List Position) (readPlan writePlan : Plan)
    (warnings : List Warning) : Prop where
  read : (layout.plan positions .subset .read).Reports (.ok readPlan) warnings
  write : (layout.plan positions .subset .write).Reports (.ok writePlan) warnings
  offsets : writePlan.offsets = readPlan.offsets
  inside : Slots.Inside layout.length readPlan.offsets
  names : writePlan.isEmpty = false → ∀ names, writePlan.names = some names →
    ∃ known, layout.names = some known ∧ Slots.Holds known (writePlan.offsets.zip names)

theorem inPlace_names {queries : Names}
    (hInside : Slots.Inside layout.length
      (Selection.ofQueries queries layout.length layout.names purpose).offsets) :
    layout.InPlace [.names queries]
      { offsets := queries.map (NameTable.ofNames layout.names queries.length).find? }
      { offsets := queries.map (NameTable.ofNames layout.names queries.length).find?
        names := some queries } [] := by
  have hFound := Selection.isSome_find?_of_inside hInside
  refine ⟨.pure _, ?_, rfl, ?_, ?_⟩
  · rw [← Selection.slotOffsets_of_found hFound]
    exact .pure _
  · cases purpose with
    | read => exact hInside
    | write =>
      rw [← Selection.slotOffsets_of_found hFound]
      exact hInside
  · rintro hSome names ⟨⟩
    refine exists_holds_of_found ?_ hFound
    rintro rfl
    cases hSome

/-- Positions without names of their own that select existing elements select them for both
purposes. -/
theorem exists_inPlace (hUnnamed : ∀ entries given, .indices entries (some given) ∉ positions)
    (hInside : Slots.Inside layout.length plan.offsets)
    (h : (layout.plan positions .subset purpose).run session = (.ok plan, final)) :
    ∃ readPlan writePlan warnings, layout.InPlace positions readPlan writePlan warnings
      ∧ (layout.plan positions .subset purpose).Reports (.ok plan) warnings
      ∧ ∀ w ∈ warnings, MaskWarning positions .subset w := by
  obtain ⟨outcome, warnings, hPlan, hWarnings⟩ := layout.emits_plan positions .subset purpose
  cases hPlan.eq_ok_of_run h
  by_cases hNames : ∃ queries, positions = [.names queries]
  · obtain ⟨queries, rfl⟩ := hNames
    have hSelected : (layout.plan [.names queries] .subset purpose).Reports
        (.ok
          { offsets := (Selection.ofQueries queries layout.length layout.names purpose).offsets
            names := (Selection.ofQueries queries layout.length layout.names purpose).names }) [] :=
      .pure _
    cases hSelected.eq_ok_of_run h
    exact ⟨_, _, [], inPlace_names hInside, hSelected, List.forall_mem_nil _⟩
  · obtain ⟨hNone, hSame⟩ := unnamed_of_plan (fun queries hp => hNames ⟨queries, hp⟩) hUnnamed h
    have hBoth : ∀ other, (layout.plan positions .subset other).Reports (.ok plan) warnings := by
      intro other
      rwa [hSame other]
    refine ⟨plan, plan, warnings, ⟨hBoth .read, hBoth .write, rfl, hInside, ?_⟩, hPlan, hWarnings⟩
    intro _ names hStored
    rw [hNone] at hStored
    cases hStored

end Layout

/-! ## Writing back -/

theorem Slots.holds_gather {α : Type} (fill : α) {xs : List α} {offsets : List Offset}
    (hInside : Inside xs.length offsets) : Holds xs (offsets.zip (gather fill xs offsets)) := by
  intro o v hMem
  rw [gather_eq_map, ← List.map_prod_left_eq_zip] at hMem
  obtain ⟨offset, hOffset, hPair⟩ := List.mem_map.mp hMem
  cases hPair
  obtain ⟨_, ⟨⟩, hIn⟩ := hInside _ hOffset
  rw [fetch, Option.bind_some, List.getElem?_eq_getElem hIn, Option.getD_some]

/-- As many values as slots go into them without rest. -/
theorem Plan.misfitWarnings_length (plan : Plan) (mode : Mode) :
    plan.misfitWarnings plan.offsets.length mode = [] := by
  simp [misfitWarnings, Misfits]

namespace TypedVector

variable {kind : VectorKind} {x : TypedVector kind} {positions : List Position} {store : Store}
  {readPlan writePlan : Plan} {warnings : List Warning}

theorem elements_part (x : TypedVector kind) (plan : Plan) :
    (x.part plan).elements = Slots.gather kind.fill x.elements plan.offsets := by
  unfold part
  split <;> rfl

theorem reports_get_of_inPlace
    (h : (x.toValue.layout store).InPlace positions readPlan writePlan warnings) :
    (x.toValue.get store positions .subset).Reports (.ok (x.part readPlan).toValue) warnings := by
  unfold Value.get
  rw [Value.pathSteps?_subset, getDirect_toValue, ← List.append_nil warnings]
  refine h.read.bind_ok ?_
  rw [Value.extract, vector?_toValue]
  exact .ofExcept _

/-- The elements that were read are put back into their slots, and the names as well. -/
theorem assign_part_of_inPlace
    (h : (x.toValue.layout store).InPlace positions readPlan writePlan warnings) :
    x.assign writePlan (x.part readPlan).elements = x := by
  have hInside : Slots.Inside x.length writePlan.offsets := by
    rw [h.offsets]
    simpa only [layout_toValue] using h.inside
  rw [elements_part, ← h.offsets]
  refine assign_eq_self hInside.below (Slots.length_gather ..) (Slots.holds_gather _ hInside) ?_
  simpa only [layout_toValue] using h.names

theorem reports_assign_of_inPlace
    (h : (x.toValue.layout store).InPlace positions readPlan writePlan warnings) :
    (x.toValue.assign positions (x.part readPlan).toValue .subset).Reports store (.ok x.toValue)
      warnings store := by
  have hReplacement : Replacement.ofValue x.toValue (x.part readPlan).toValue .subset
      = .ok ⟨kind, (x.part readPlan).elements⟩ := by
    refine Replacement.ofValue_subset_eq_ok.mpr
      ⟨kind, x.part readPlan, ?_, Value.coerce_self _, rfl⟩
    rw [kind_toValue, kind_toValue]
    exact Kind.join_self _
  have hLength : (x.part readPlan).elements.length = writePlan.offsets.length := by
    rw [elements_part, Slots.length_gather, h.offsets]
  have hComplete : writePlan.hasMissing = false := by
    apply Bool.eq_false_iff.mpr
    intro hMissing
    rw [Plan.hasMissing_eq_true_iff, h.offsets] at hMissing
    obtain ⟨_, hNone, -⟩ := h.inside none hMissing
    cases hNone
  have hReports := Value.reports_assign_of_plan x.isSequence_toValue (isNull_toValue _) hReplacement
    (Value.coerce_self x) h.write hComplete (Plan.ne_nil_of_length_eq hLength)
  rwa [assign_part_of_inPlace h, hLength, Plan.misfitWarnings_length, List.append_nil] at hReports

end TypedVector

/-! ## Sessions -/

namespace Session

@[simp] theorem level_collect (session : Session) (warnings : List Warning) :
    (session.collect warnings).level = session.level := by
  rcases session with ⟨level, collected⟩
  cases level <;> rfl

/-- Where one success comes through in spite of the warnings, every other one does. -/
theorem report_ok_of_report_ok {α β : Type} {session final other : Session}
    {warnings : List Warning} {a b : α} (h : session.report (.ok a) warnings = (.ok b, final))
    (hLevel : other.level = session.level) (c : β) :
    other.report (.ok c) warnings = (.ok c, other.collect warnings) := by
  rcases session with ⟨level, collected⟩
  rcases other with ⟨_, collected'⟩
  cases hLevel
  cases level with
  | ignore | defer | immediate => rfl
  | error =>
    cases warnings with
    | nil => rfl
    | cons w rest => cases h

end Session

/-! ## Both brackets -/

namespace Value

/-- Writing back what was read changes nothing. Under `[[` this holds for everything that is read
other than `NULL`, and there is no warning. Under `[` the positions have to select elements that
exist and must not carry names, and there are no warnings but those of their masks. -/
theorem assign_get :
    (∀ (x v : Value) (positions : List Position) (store : Store) (session : Session),
      v.isNull = false → ((x.get store positions .element).run session).1 = .ok v →
      (x.assign positions v .element).Restores x store)
    ∧ ∀ (kind : VectorKind) (x : TypedVector kind) (positions : List Position) (purpose : Purpose)
        (store : Store) (session final : Session) (plan : Plan),
        (∀ entries given, .indices entries (some given) ∉ positions) →
        ((x.toValue.layout store).plan positions .subset purpose).run session
          = (.ok plan, final) →
        (∀ offset ∈ plan.offsets, ∃ o, offset = some o ∧ o < x.length) →
        ∃ v warnings, (∀ w ∈ warnings, MaskWarning positions .subset w)
          ∧ (x.toValue.get store positions .subset).run session
              = (.ok v, session.collect warnings)
          ∧ (x.toValue.assign positions v .subset).run
                { session := session.collect warnings, store }
              = (.ok x.toValue,
                  { session := (session.collect warnings).collect warnings, store }) := by
  refine ⟨fun x v positions store session hv h => restores_assign hv h, ?_⟩
  intro kind x positions purpose store session final plan hUnnamed hPlan hInside
  have hLayout : Slots.Inside (x.toValue.layout store).length plan.offsets := by
    rwa [TypedVector.layout_toValue]
  obtain ⟨readPlan, writePlan, warnings, hInPlace, hReports, hWarnings⟩ :=
    Layout.exists_inPlace hUnnamed hLayout hPlan
  have hOk : session.report (.ok plan) warnings = (.ok plan, final) :=
    (hReports session).symm.trans hPlan
  refine ⟨(x.part readPlan).toValue, warnings, hWarnings, ?_, ?_⟩
  · rw [TypedVector.reports_get_of_inPlace hInPlace session]
    exact Session.report_ok_of_report_ok hOk rfl _
  · rw [TypedVector.reports_assign_of_inPlace hInPlace (session.collect warnings),
      Session.report_ok_of_report_ok hOk (Session.level_collect session warnings),
      Session.storeAfter, ite_self]

/-- A path leads to integers inside a list, which keep their names. A mask of two flags is repeated
for three integers of the same name, of which it selects the first and the last. -/
theorem assign_get_nested :
    let v := atomic .integer [some 1, none] { names := some [some "a", none] }
    let outer := list [null, list [v, null] {}] { names := some [some "a", some "b"] }
    let x : TypedVector (.atomic .integer) :=
      ⟨[some 5, none, some 7], { names := some [some "a", some "a", some "a"] }⟩
    let positions := [Position.mask [some true, some false]]
    (outer.assign [.indices [some 2, some 1] none] v .element).Restores outer ∅
      ∧ ∃ w warnings, (∀ warning ∈ warnings, MaskWarning positions .subset warning)
        ∧ (x.toValue.get ∅ positions .subset).run {} = (.ok w, Session.collect {} warnings)
        ∧ (x.toValue.assign positions w .subset).run
              { session := Session.collect {} warnings, store := ∅ }
            = (.ok x.toValue,
                { session := (Session.collect {} warnings).collect warnings, store := ∅ }) := by
  have hPlan : (Layout.plan { length := 3, names := some [some "a", some "a", some "a"] }
      [.mask [some true, some false]] .subset .read).run {}
        = (.ok { offsets := [some 0, some 2] }, { warnings := [.lengthMismatch] }) := rfl
  intro v outer x positions
  obtain ⟨hElement, hSubset⟩ := assign_get
  have hRead : ((outer.get ∅ [.indices [some 2, some 1] none] .element).run {}).1 = .ok v := rfl
  have hUnnamed : ∀ entries given, Position.indices entries (some given) ∉ positions := by
    intro entries given hMem
    cases List.mem_singleton.mp hMem
  refine ⟨hElement outer v _ ∅ {} rfl hRead,
    hSubset _ x positions .read ∅ {} _ _ hUnnamed hPlan ?_⟩
  rintro _ hOffset
  rcases List.mem_cons.mp hOffset with rfl | hLast
  · exact ⟨0, rfl, by decide⟩
  · exact ⟨2, List.mem_singleton.mp hLast, by decide⟩

end Value

end VectorIndexing
