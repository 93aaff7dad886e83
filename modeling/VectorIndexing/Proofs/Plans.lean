import VectorIndexing.Proofs.Warnings
import VectorIndexing.Reading.Get

/-!
# Facts about every plan

Whatever positions a plan was made from, the names it carries are as many as its offsets, and
the selections along the dimensions of an array have as many combinations as the plan has
offsets.

* `Selection.ofIndices_of_mixes`, `ofIndices_of_excludes`, `ofIndices_of_not_excludes`: when indices
  are refused, when they exclude and when they are listed.
* `Layout.namesAligned_of_plan`: names and offsets go in step.
* `Layout.dimsSized_of_plan`: selections and offsets agree in number.
* `TypedVector.run_getDirect_of_plan`: reading by plan.
-/

namespace VectorIndexing

/-- A traversal that succeeds has one result for each item. -/
theorem Checked.length_of_run_mapM {α β : Type} {f : α → Checked β} {xs : List α} {ys : List β}
    {session final : Session} (h : (xs.mapM f).run session = (.ok ys, final)) :
    ys.length = xs.length := by
  induction xs generalizing ys session final with
  | nil =>
    rw [List.mapM_nil, run_pure_eq_ok] at h
    exact congrArg List.length h.1
  | cons x xs ih =>
    rw [List.mapM_cons, run_bind_eq_ok] at h
    obtain ⟨y, middle, -, h⟩ := h
    obtain ⟨tail, later, hTail, h⟩ := run_bind_eq_ok.mp h
    obtain ⟨rfl, -⟩ := run_pure_eq_ok.mp h
    rw [List.length_cons, List.length_cons, ih hTail]

/-! ## Indices by sign -/

namespace Position

/-- Whether some index is negative. -/
def Excludes (entries : List (Option Int)) : Prop := ∃ i, some i ∈ entries ∧ i < 0

/-- Whether a negative index is mixed with a positive or a missing one. -/
def Mixes (entries : List (Option Int)) : Prop :=
  Excludes entries ∧ ((∃ i, some i ∈ entries ∧ 0 < i) ∨ none ∈ entries)

end Position

namespace Selection

variable {entries : List (Option Int)}

theorem any_isNegativeEntry : entries.any isNegativeEntry = true ↔ Position.Excludes entries := by
  rw [List.any_eq_true]
  constructor
  · rintro ⟨_ | i, hEntry, hNegative⟩
    · cases hNegative
    · exact ⟨i, hEntry, of_decide_eq_true hNegative⟩
  · rintro ⟨i, hEntry, hNegative⟩
    exact ⟨some i, hEntry, decide_eq_true hNegative⟩

theorem any_isPositiveEntry_or_isNone :
    entries.any (fun entry => isPositiveEntry entry || entry.isNone) = true
      ↔ (∃ i, some i ∈ entries ∧ 0 < i) ∨ none ∈ entries := by
  rw [List.any_eq_true]
  constructor
  · rintro ⟨_ | i, hEntry, hOther⟩
    · exact Or.inr hEntry
    · exact Or.inl ⟨i, hEntry, by simpa [isPositiveEntry] using hOther⟩
  · rintro (⟨i, hEntry, hPositive⟩ | hMissing)
    · exact ⟨some i, hEntry, by simpa [isPositiveEntry] using hPositive⟩
    · exact ⟨none, hMissing, rfl⟩

/-- Indices are refused if a negative one is mixed with others than zero. -/
theorem ofIndices_of_mixes (h : Position.Mixes entries) (given : Option Names) (length : Nat) :
    ofIndices entries given length = .error .invalidNegativeIndex := by
  rw [ofIndices, if_pos (any_isNegativeEntry.mpr h.1),
    if_pos (any_isPositiveEntry_or_isNone.mpr h.2)]

/-- Negative indices, with zeros among them, exclude. -/
theorem ofIndices_of_excludes (hExcludes : Position.Excludes entries)
    (hMixes : ¬ Position.Mixes entries) (given : Option Names) (length : Nat) :
    ofIndices entries given length = .ok { offsets := complement entries length } := by
  have hAlone : ¬ (entries.any fun entry => isPositiveEntry entry || entry.isNone) = true :=
    fun h => hMixes ⟨hExcludes, any_isPositiveEntry_or_isNone.mp h⟩
  rw [ofIndices, if_pos (any_isNegativeEntry.mpr hExcludes), if_neg hAlone]

/-- Other indices are listed, whatever the length. -/
theorem ofIndices_of_not_excludes (h : ¬ Position.Excludes entries) (given : Option Names)
    (length : Nat) : ofIndices entries given length = .ok (ofEntries entries given) := by
  rw [ofIndices, if_neg fun hAny => h (any_isNegativeEntry.mp hAny)]

/-- Indices of which none is negative or zero mean the slots before them. -/
theorem ofIndices_positive (hPositive : ∀ i, some i ∈ entries → 0 < i) (given : Option Names)
    (length : Nat) :
    ofIndices entries given length
      = .ok
          { offsets := entries.map offsetOfEntry
            names := (ofEntries entries given).names } := by
  have hExcludes : ¬ Position.Excludes entries := by
    rintro ⟨i, hi, hNegative⟩
    have := hPositive i hi
    omega
  have hKept : entries.filter isKept = entries := by
    rw [List.filter_eq_self]
    intro entry hEntry
    cases entry with
    | none => rfl
    | some i =>
      have := hPositive i hEntry
      simp [isKept]
      omega
  rw [ofIndices_of_not_excludes hExcludes]
  simp only [ofEntries, hKept]

/-- Negative indices, if there are any, exclude. -/
theorem ofIndices_negative {indices : List Int} (hSome : indices ≠ [])
    (hNegative : ∀ i ∈ indices, i < 0) (given : Option Names) (length : Nat) :
    ofIndices (indices.map some) given length
      = .ok { offsets := complement (indices.map some) length } := by
  obtain ⟨i, hi⟩ := List.exists_mem_of_ne_nil indices hSome
  refine ofIndices_of_excludes ⟨i, List.mem_map_of_mem hi, hNegative i hi⟩ ?_ given length
  rintro ⟨-, ⟨j, hj, hPositive⟩ | hMissing⟩
  · have := hNegative j (by simpa using hj)
    omega
  · simp at hMissing

end Selection

/-! ## Names of a selection -/

/-- The names, if there are any, are as many as the offsets. -/
def Selection.NamesAligned (s : Selection) : Prop :=
  ∀ names, s.names = some names → names.length = s.offsets.length

namespace Selection

theorem namesAligned_of_unnamed {s : Selection} (h : s.names = none) : s.NamesAligned := by
  intro names hNames
  rw [h] at hNames
  cases hNames

/-- Zeros are dropped from the indices and from their names alike. -/
theorem namesAligned_ofEntries (entries : List (Option Int)) (names : Option Names) :
    (ofEntries entries names).NamesAligned := by
  intro given hGiven
  obtain ⟨ns, rfl, rfl⟩ := Option.map_eq_some_iff.mp hGiven
  have hFirst : (entries.zip (Slots.extend none entries.length ns)).map Prod.fst = entries :=
    List.map_fst_zip (by rw [Slots.length_extend]; omega)
  have hKept : ∀ pairs : List (Option Int × Option String),
      (pairs.filter fun e => isKept e.1).length = ((pairs.map Prod.fst).filter isKept).length := by
    intro pairs
    rw [List.filter_map, List.length_map]
    rfl
  rw [List.length_map, hKept, hFirst]
  exact (List.length_map ..).symm

theorem namesAligned_ofIndices {entries : List (Option Int)} {names : Option Names}
    {length : Nat} {s : Selection} (h : ofIndices entries names length = .ok s) :
    s.NamesAligned := by
  unfold ofIndices at h
  split at h
  · split at h
    · cases h
    · cases h
      exact namesAligned_of_unnamed rfl
  · cases h
    exact namesAligned_ofEntries entries names

theorem namesAligned_ofMask {flags : List (Option Bool)} {length : Nat} {s : Selection}
    {session final : Session} (h : (ofMask flags length).run session = (.ok s, final)) :
    s.NamesAligned := by
  obtain ⟨rfl⟩ := Except.ok.inj ((reports_ofMask flags length).eq_ok_of_run h)
  exact namesAligned_of_unnamed rfl

theorem namesAligned_ofQueries (queries : Names) (length : Nat) (names : Option Names)
    (purpose : Purpose) : (ofQueries queries length names purpose).NamesAligned := by
  cases purpose with
  | read => exact namesAligned_of_unnamed rfl
  | write =>
    intro given hGiven
    cases hGiven
    simp [ofQueries]

theorem namesAligned_select {p : Position} {length : Nat} {names : Option Names}
    {purpose : Purpose} {s : Selection} {session final : Session}
    (h : (p.select length names purpose).run session = (.ok s, final)) : s.NamesAligned := by
  cases p with
  | missing =>
    obtain ⟨rfl, -⟩ := Checked.run_pure_eq_ok.mp h
    exact namesAligned_of_unnamed rfl
  | indices entries given =>
    exact namesAligned_ofIndices (Checked.run_ofExcept_eq_ok.mp h).1
  | mask flags => exact namesAligned_ofMask h
  | names queries =>
    obtain ⟨rfl, -⟩ := Checked.run_pure_eq_ok.mp h
    exact namesAligned_ofQueries queries length names purpose

end Selection

/-! ## Plans -/

namespace Plan

/-- The names, if there are any, are as many as the offsets. -/
def NamesAligned (plan : Plan) : Prop :=
  ∀ names, plan.names = some names → names.length = plan.offsets.length

/-- The selections along the dimensions, if there are any, have as many combinations as there are
offsets. -/
def DimsSized (plan : Plan) : Prop :=
  ∀ dims, plan.dims = some dims → IsArrayLength (dims.map Selection.length) plan.offsets.length

/-- No combination is left out, as long as a word can count them. -/
theorem DimsSized.length_eq {plan : Plan} (h : plan.DimsSized) {dims : List Selection}
    (hDims : plan.dims = some dims) (hCount : arraySize (dims.map Selection.length) < Word.size) :
    plan.length = arraySize (dims.map Selection.length) :=
  ((isArrayLength_iff hCount _).mp (h dims hDims)).symm

end Plan

namespace Layout

variable {layout : Layout} {plan : Plan} {session final : Session}

theorem planOfPick_namesAligned (layout : Layout) (p : Position) (pick : Pick) :
    (layout.planOfPick p pick).NamesAligned := by
  intro names hNames
  cases pick with
  | missing => cases hNames
  | slot o =>
    simp only [planOfPick] at hNames ⊢
    split at hNames
    · split at hNames
      · obtain ⟨_, -, rfl⟩ := Option.map_eq_some_iff.mp hNames
        rfl
      · cases hNames
    · cases hNames

/-- How the plan of a single position under `[` comes about. -/
theorem run_planStorage_subset_eq_ok {p : Position} {purpose : Purpose} :
    (layout.planStorage p .subset purpose).run session = (.ok plan, final)
      ↔ ∃ s, (p.select layout.length layout.names purpose).run session = (.ok s, final)
          ∧ plan = { offsets := s.offsets, names := s.names } := by
  simp only [planStorage, Checked.run_bind_eq_ok, Checked.run_pure_eq_ok]
  constructor
  · rintro ⟨s, middle, hs, rfl, rfl⟩
    exact ⟨s, hs, rfl⟩
  · rintro ⟨s, hs, rfl⟩
    exact ⟨s, final, hs, rfl, rfl⟩

/-- How the plan of a single position under `[[` comes about. -/
theorem run_planStorage_element_eq_ok {p : Position} {purpose : Purpose} :
    (layout.planStorage p .element purpose).run session = (.ok plan, final)
      ↔ ∃ pick, p.selectOne layout.length layout.names purpose = .ok pick
          ∧ plan = layout.planOfPick p pick ∧ final = session := by
  simp only [planStorage, Checked.run_bind_eq_ok, Checked.run_ofExcept_eq_ok,
    Checked.run_pure_eq_ok]
  constructor
  · rintro ⟨pick, middle, ⟨hPick, rfl⟩, rfl, rfl⟩
    exact ⟨pick, hPick, rfl, rfl⟩
  · rintro ⟨pick, hPick, rfl, rfl⟩
    exact ⟨pick, final, ⟨hPick, rfl⟩, rfl, rfl⟩

theorem namesAligned_of_planStorage {p : Position} {mode : Mode} {purpose : Purpose}
    (h : (layout.planStorage p mode purpose).run session = (.ok plan, final)) :
    plan.NamesAligned := by
  cases mode with
  | subset =>
    obtain ⟨s, hs, rfl⟩ := run_planStorage_subset_eq_ok.mp h
    exact Selection.namesAligned_select hs
  | element =>
    obtain ⟨pick, -, rfl, -⟩ := run_planStorage_element_eq_ok.mp h
    exact planOfPick_namesAligned layout p pick

theorem dims_of_planStorage {p : Position} {mode : Mode} {purpose : Purpose}
    (h : (layout.planStorage p mode purpose).run session = (.ok plan, final)) :
    plan.dims = none := by
  cases mode with
  | subset =>
    obtain ⟨s, -, rfl⟩ := run_planStorage_subset_eq_ok.mp h
    rfl
  | element =>
    obtain ⟨pick, -, rfl, -⟩ := run_planStorage_element_eq_ok.mp h
    cases pick <;> rfl

/-- How the plan of one position per dimension comes about. -/
theorem run_planArray_eq_ok {positions : List Position} {extents : List Nat} {mode : Mode} :
    (layout.planArray positions extents mode).run session = (.ok plan, final)
      ↔ ∃ selections : List Selection,
          Checked.run ((positions.zip (layout.axes extents)).mapM
              fun (e : Position × Axis) => e.2.choose e.1 mode) session = (.ok selections, final)
            ∧ plan = { offsets := partOffsets (selections.map Selection.offsets) extents
                       dims := some selections } := by
  simp only [planArray, Checked.run_bind_eq_ok, Checked.run_pure_eq_ok]
  constructor
  · rintro ⟨selections, middle, hs, rfl, rfl⟩
    exact ⟨selections, hs, rfl⟩
  · rintro ⟨selections, hs, rfl⟩
    exact ⟨selections, final, hs, rfl, rfl⟩

@[simp] theorem length_axes (layout : Layout) (extents : List Nat) :
    (layout.axes extents).length = extents.length := by
  simp [axes]

/-- Several positions have a plan only if there are as many dimensions. -/
theorem planArray_of_plan {first second : Position} {rest : List Position} {mode : Mode}
    {purpose : Purpose}
    (h : (layout.plan (first :: second :: rest) mode purpose).run session = (.ok plan, final)) :
    (layout.dim.getD []).length = (first :: second :: rest).length
      ∧ (layout.planArray (first :: second :: rest) (layout.dim.getD []) mode).run session
          = (.ok plan, final) := by
  simp only [Layout.plan] at h
  split at h
  · next hArity => exact ⟨hArity, h⟩
  · cases h

/-- A plan is that of one position, or that of one position per dimension. -/
theorem plan_cases {positions : List Position} {mode : Mode} {purpose : Purpose}
    (h : (layout.plan positions mode purpose).run session = (.ok plan, final)) :
    (∃ p, (layout.planStorage p mode purpose).run session = (.ok plan, final)) ∨
      (layout.dim.getD []).length = positions.length ∧ 2 ≤ positions.length ∧
        (layout.planArray positions (layout.dim.getD []) mode).run session
          = (.ok plan, final) := by
  match positions, h with
  | [], h => exact Or.inl ⟨_, h⟩
  | [p], h => exact Or.inl ⟨_, h⟩
  | first :: second :: rest, h =>
    obtain ⟨hArity, hArray⟩ := planArray_of_plan h
    exact Or.inr ⟨hArity, by simp, hArray⟩

theorem namesAligned_of_plan {positions : List Position} {mode : Mode} {purpose : Purpose}
    (h : (layout.plan positions mode purpose).run session = (.ok plan, final)) :
    plan.NamesAligned := by
  rcases plan_cases h with ⟨p, hp⟩ | ⟨-, -, hArray⟩
  · exact namesAligned_of_planStorage hp
  · obtain ⟨selections, -, rfl⟩ := run_planArray_eq_ok.mp hArray
    intro names hNames
    cases hNames

theorem dimsSized_of_plan {positions : List Position} {mode : Mode} {purpose : Purpose}
    (h : (layout.plan positions mode purpose).run session = (.ok plan, final)) :
    plan.DimsSized := by
  intro dims hDims
  rcases plan_cases h with ⟨p, hp⟩ | ⟨hArity, -, hArray⟩
  · rw [dims_of_planStorage hp] at hDims
    cases hDims
  · obtain ⟨selections, hSelections, rfl⟩ := run_planArray_eq_ok.mp hArray
    cases hDims
    have hLength := Checked.length_of_run_mapM hSelections
    rw [List.length_zip, length_axes, hArity, Nat.min_self] at hLength
    have hRank : (dims.map Selection.offsets).length = (layout.dim.getD []).length := by
      rw [List.length_map, hLength, hArity]
    have hLengths : (dims.map Selection.offsets).map List.length = dims.map Selection.length :=
      List.map_map
    rw [length_partOffsets _ _ hRank, hLengths]
    split
    · next hNone => exact Or.inr hNone
    · exact Or.inl rfl

end Layout

/-! ## Vectors -/

/-- What a vector shows to positions. -/
theorem TypedVector.layout_toValue {kind : VectorKind} (x : TypedVector kind) (store : Store) :
    x.toValue.layout store
      = { length := x.length
          names := x.attributes.names
          dim := x.attributes.dim
          dimnames := x.attributes.dimnames } := by
  cases kind <;> rfl

/-- A read that does not descend makes a plan and takes what it says. -/
theorem TypedVector.getDirect_toValue {kind : VectorKind} (x : TypedVector kind) (store : Store)
    (positions : List Position) (mode : Mode) :
    x.toValue.getDirect store positions mode = (do
      let plan ← (x.toValue.layout store).plan positions mode .read
      Checked.ofExcept (x.toValue.extract plan mode)) := by
  cases kind <;> rfl

theorem TypedVector.run_getDirect_of_plan {kind : VectorKind} {x : TypedVector kind}
    {store : Store} {positions : List Position} {mode : Mode} {session final : Session}
    {plan : Plan}
    (hPlan : ((x.toValue.layout store).plan positions mode .read).run session
      = (.ok plan, final)) :
    (x.toValue.getDirect store positions mode).run session
      = (x.toValue.extract plan mode, final) := by
  rw [getDirect_toValue, Checked.run_bind, hPlan]
  rfl

/-- A plan of one offset reads the element there. -/
theorem Value.extract_element {kind : VectorKind} (v : TypedVector kind) (plan : Plan) {o : Nat}
    (hPlan : plan.offsets = [some o]) (ho : o < v.length) :
    v.toValue.extract plan .element = .ok (v.element o) := by
  simp [extract, Plan.soleOffset, hPlan, ho, Except.map]

end VectorIndexing
