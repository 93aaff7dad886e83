import VectorIndexing.Proofs.Overwriting.Reports

/-!
# Assignments to different elements

Two assignments under `[` whose indices have no element in common may change places. Either of them
may extend the vector and take its shape, and the one that comes second finds the kind to which the
first has brought it, but in the end it is all the same.

* `TypedVector.assign_assign_comm`: writing as planned, in either order.
* `Selection.mem_ofEntries_iff`: the slots of indices.
* `Value.run_assign_assign_comm`: both orders of the assignments.
-/

namespace VectorIndexing

/-! ## Vectors -/

namespace TypedVector

variable {kind : VectorKind} {x : TypedVector kind} {plan other : Plan}
  {values values' : List kind.Elem}

theorem written_assign_of_values (hValues : values ≠ []) :
    Slots.Written kind.fill x.elements plan.offsets (fun j => values[j % values.length]?)
      (x.assign plan values).elements := by
  cases hPlan : plan.isEmpty with
  | true =>
    rw [assign_of_isEmpty hPlan, Plan.isEmpty_eq_true_iff.mp hPlan]
    exact .nil _ _ _
  | false => exact written_assign hPlan hValues

/-- Without names to be stored, the attributes change with the length and for no other reason. -/
theorem attributes_assign_of_unnamed (hUnnamed : plan.names = none) (hValues : values ≠ []) :
    (x.assign plan values).attributes = (x.extend plan.reach).attributes := by
  cases hPlan : plan.isEmpty with
  | true =>
    have hReach : plan.reach = 0 := by
      rw [Plan.reach, Plan.isEmpty_eq_true_iff.mp hPlan, Slots.reach_nil]
    rw [assign_of_isEmpty hPlan, hReach, extend_of_le (Nat.zero_le _)]
  | false => rw [attributes_assign hPlan hValues, hUnnamed]

/-- The attributes grow with every write, and in the end as far as the longer reach. -/
theorem attributes_assign_assign (hUnnamed : plan.names = none) (hUnnamed' : other.names = none)
    (hValues : values ≠ []) (hValues' : values' ≠ []) :
    ((x.assign plan values).assign other values').attributes
      = (x.extend (max plan.reach other.reach)).attributes := by
  have hLength : (x.assign plan values).length = (x.extend plan.reach).length := by
    rw [length_extend]
    exact (written_assign_of_values hValues).length_eq
  rw [attributes_assign_of_unnamed hUnnamed' hValues',
    attributes_extend_congr hLength (attributes_assign_of_unnamed hUnnamed hValues),
    extend_extend]

theorem assign_assign_comm (hDisjoint : ∀ o, some o ∈ plan.offsets → some o ∉ other.offsets)
    (hUnnamed : plan.names = none) (hUnnamed' : other.names = none) (hValues : values ≠ [])
    (hValues' : values' ≠ []) :
    (x.assign plan values).assign other values' = (x.assign other values').assign plan values := by
  ext1
  · exact Slots.Written.comm hDisjoint (written_assign_of_values hValues)
      (written_assign_of_values hValues') (written_assign_of_values hValues')
      (written_assign_of_values hValues)
  · rw [attributes_assign_assign hUnnamed hUnnamed' hValues hValues',
      attributes_assign_assign hUnnamed' hUnnamed hValues' hValues, Nat.max_comm]

end TypedVector

/-! ## Indices that are not negative -/

namespace Selection

theorem ofIndices_of_nonneg {indices : List Int} (hIndices : ∀ i ∈ indices, 0 ≤ i)
    (given : Option Names) (length : Nat) :
    ofIndices (indices.map some) given length = .ok (ofEntries (indices.map some) given) := by
  refine ofIndices_of_not_excludes ?_ given length
  rintro ⟨i, hi, hNegative⟩
  have := hIndices i (by simpa using hi)
  omega

/-- A slot is selected by the index after it, and zero selects nothing. -/
theorem mem_ofEntries_iff {indices : List Int} (hIndices : ∀ i ∈ indices, 0 ≤ i)
    (given : Option Names) (offset : Offset) :
    offset ∈ (ofEntries (indices.map some) given).offsets
      ↔ ∃ o : Nat, offset = some o ∧ (o : Int) + 1 ∈ indices := by
  simp only [ofEntries, List.mem_map, List.mem_filter]
  constructor
  · rintro ⟨_, ⟨⟨i, hi, rfl⟩, hKept⟩, rfl⟩
    have hZero : i ≠ 0 := by
      rintro rfl
      cases hKept
    have hNonneg := hIndices i hi
    refine ⟨(i - 1).toNat, rfl, ?_⟩
    have hBack : ((i - 1).toNat : Int) + 1 = i := by omega
    rwa [hBack]
  · rintro ⟨o, rfl, ho⟩
    refine ⟨some ((o : Int) + 1), ⟨⟨_, ho, rfl⟩, ?_⟩, ?_⟩
    · have hZero : (o : Int) + 1 ≠ 0 := by omega
      simpa [isKept] using hZero
    · simp [offsetOfEntry]

end Selection

/-- The plan of indices that are not negative, whatever they are applied to. -/
def Plan.ofIndices (indices : List Int) : Plan where
  offsets := (Selection.ofEntries (indices.map some) none).offsets

theorem Plan.hasMissing_ofIndices {indices : List Int} (hIndices : ∀ i ∈ indices, 0 ≤ i) :
    (ofIndices indices).hasMissing = false := by
  apply Bool.eq_false_iff.mpr
  intro hMissing
  obtain ⟨o, ho, -⟩ :=
    (Selection.mem_ofEntries_iff hIndices none none).mp (hasMissing_eq_true_iff.mp hMissing)
  cases ho

theorem Layout.reports_plan_indices (layout : Layout) {indices : List Int}
    (hIndices : ∀ i ∈ indices, 0 ≤ i) (purpose : Purpose) :
    (layout.plan [.indices (indices.map some) none] .subset purpose).Reports
      (.ok (.ofIndices indices)) [] := by
  intro session
  rw [Session.report_nil]
  refine run_planStorage_subset_eq_ok.mpr ⟨Selection.ofEntries (indices.map some) none, ?_, rfl⟩
  exact Checked.run_ofExcept_eq_ok.mpr ⟨Selection.ofIndices_of_nonneg hIndices none _, rfl⟩

/-! ## Assignments -/

namespace Value

variable {container : Value} {valueKind kind : VectorKind} {v w : TypedVector valueKind}
  {p q : List Int}

/-- What an assignment to indices comes to, once the kinds have joined. -/
theorem reports_assign_indices (hContainer : container.isSequence)
    (hJoin : container.kind.join (.vector valueKind) = some (.vector kind))
    {x : TypedVector kind} (hx : container.coerce kind = .ok x) {v' : TypedVector kind}
    (hv : v.toValue.coerce kind = .ok v') (hValues : v'.elements ≠ [])
    (hIndices : ∀ i ∈ p, 0 ≤ i) (store : Store) :
    (container.assign [.indices (p.map some) none] v.toValue .subset).Reports store
      (.ok (x.assign (.ofIndices p) v'.elements).toValue)
      ((Plan.ofIndices p).misfitWarnings v'.elements.length .subset) store := by
  have hReplacement : Replacement.ofValue container v.toValue .subset
      = .ok ⟨kind, v'.elements⟩ := by
    refine Replacement.ofValue_subset_eq_ok.mpr ⟨kind, v', ?_, hv, rfl⟩
    rw [TypedVector.kind_toValue]
    exact hJoin
  exact reports_assign_of_plan hContainer v.isNull_toValue hReplacement hx
    (Layout.reports_plan_indices _ hIndices .write) (Plan.hasMissing_ofIndices hIndices)
    fun _ => hValues

/-- Two assignments to indices, one after the other. -/
theorem reports_assign_assign_indices (hContainer : container.isSequence)
    (hJoin : container.kind.join (.vector valueKind) = some (.vector kind))
    {x : TypedVector kind} (hx : container.coerce kind = .ok x) {v' w' : TypedVector kind}
    (hv : v.toValue.coerce kind = .ok v') (hw : w.toValue.coerce kind = .ok w')
    (hValues : v'.elements ≠ []) (hValues' : w'.elements ≠ []) (hp : ∀ i ∈ p, 0 ≤ i)
    (hq : ∀ i ∈ q, 0 ≤ i) (store : Store) :
    Action.Reports (do
        let y ← container.assign [.indices (p.map some) none] v.toValue .subset
        y.assign [.indices (q.map some) none] w.toValue .subset)
      store
      (.ok ((x.assign (.ofIndices p) v'.elements).assign (.ofIndices q) w'.elements).toValue)
      ((Plan.ofIndices p).misfitWarnings v'.elements.length .subset
        ++ (Plan.ofIndices q).misfitWarnings w'.elements.length .subset) store := by
  refine (reports_assign_indices hContainer hJoin hx hv hValues hp store).bind_ok ?_
  refine reports_assign_indices (TypedVector.isSequence_toValue _) ?_ (coerce_self _) hw hValues'
    hq store
  rw [TypedVector.kind_toValue]
  exact Kind.join_of_join hJoin

end Value

/-- All there may be is the same warning, from both of two assignments. -/
theorem Plan.misfitWarnings_append_comm (plan other : Plan) (m n : Nat) (mode : Mode) :
    plan.misfitWarnings m mode ++ other.misfitWarnings n mode
      = other.misfitWarnings n mode ++ plan.misfitWarnings m mode := by
  unfold misfitWarnings
  split <;> split <;> rfl

namespace Value

variable {container : Value} {valueKind : VectorKind} {v w : TypedVector valueKind}
  {p q : List Int}

/-- Coercion to the join leaves a vector its elements. -/
theorem exists_coerce_ne_nil {kind : VectorKind} {u : TypedVector valueKind}
    (hJoin : container.kind.join (.vector valueKind) = some (.vector kind))
    (hu : u.elements ≠ []) :
    ∃ u' : TypedVector kind, u.toValue.coerce kind = .ok u' ∧ u'.elements ≠ [] := by
  have hSwapped : u.toValue.kind.join container.kind = some (.vector kind) := by
    rw [TypedVector.kind_toValue, Kind.join_comm]
    exact hJoin
  obtain ⟨u', hu'⟩ := exists_coerce_of_join u.isSequence_toValue hSwapped
  refine ⟨u', hu', ?_⟩
  have hLength : u'.length = u.length :=
    ((layout_of_coerce hu').2 ∅).trans (congrArg Layout.length (u.layout_toValue ∅))
  intro hNone
  rw [TypedVector.length, hNone] at hLength
  exact hu (List.length_eq_zero_iff.mp hLength.symm)

/-- If the kinds do not join, the first assignment fails. -/
theorem run_assign_assign_of_join_none (hContainer : container.isSequence)
    (hJoin : container.kind.join (.vector valueKind) = none) (positions positions' : List Position)
    (world : World) :
    Action.run (do
        let y ← container.assign positions v.toValue .subset
        y.assign positions' w.toValue .subset) world
      = (.error (.subassignTypeFix (.vector valueKind) container.kind), world) := by
  have hNone : container.kind.join v.toValue.kind = none := by
    rw [TypedVector.kind_toValue]
    exact hJoin
  rw [Action.run_bind, run_assign_eq_overwrite hContainer v.isNull_toValue (pathSteps?_subset ..),
    run_overwrite_of_ofValue_error (Replacement.ofValue_of_join_none rfl hNone),
    TypedVector.kind_toValue]

/-- Assignments to indices that have no element in common come to the same in either order: the
same result, or the same error, and the same warnings. -/
theorem run_assign_assign_comm (hContainer : container.isSequence) (hv : v.elements ≠ [])
    (hw : w.elements ≠ []) (hp : ∀ i ∈ p, 0 ≤ i) (hq : ∀ i ∈ q, 0 ≤ i)
    (hDisjoint : ∀ i ∈ p, 0 < i → i ∉ q) (world : World) :
    Action.run (do
        let y ← container.assign [.indices (p.map some) none] v.toValue .subset
        y.assign [.indices (q.map some) none] w.toValue .subset) world
      = Action.run (do
        let y ← container.assign [.indices (q.map some) none] w.toValue .subset
        y.assign [.indices (p.map some) none] v.toValue .subset) world := by
  cases hJoin : container.kind.join (.vector valueKind) with
  | none =>
    rw [run_assign_assign_of_join_none hContainer hJoin,
      run_assign_assign_of_join_none hContainer hJoin]
  | some joined =>
    obtain ⟨kind, rfl⟩ := Kind.exists_vector_of_join hJoin
    obtain ⟨x, hx⟩ := exists_coerce_of_join hContainer hJoin
    obtain ⟨v', hv', hValues⟩ := exists_coerce_ne_nil hJoin hv
    obtain ⟨w', hw', hValues'⟩ := exists_coerce_ne_nil hJoin hw
    -- an element that both write to would have its index in both lists
    have hSlots : ∀ o, some o ∈ (Plan.ofIndices p).offsets →
        some o ∉ (Plan.ofIndices q).offsets := by
      intro o ho ho'
      obtain ⟨_, ⟨⟩, hMem⟩ := (Selection.mem_ofEntries_iff hp none _).mp ho
      obtain ⟨_, ⟨⟩, hMem'⟩ := (Selection.mem_ofEntries_iff hq none _).mp ho'
      exact hDisjoint _ hMem (by omega) hMem'
    rcases world with ⟨session, store⟩
    rw [reports_assign_assign_indices hContainer hJoin hx hv' hw' hValues hValues' hp hq store
        session,
      reports_assign_assign_indices hContainer hJoin hx hw' hv' hValues' hValues hq hp store
        session,
      TypedVector.assign_assign_comm hSlots rfl rfl hValues hValues',
      Plan.misfitWarnings_append_comm]

/-- Both assignments extend the named flags, one of them farther than the other, and zeros select
nothing. -/
theorem run_assign_assign_comm_extending :
    let x := atomic .logical [some true, none] { names := some [some "a", none] }
    let v : TypedVector (.atomic .integer) := ⟨[some 7, some 8], {}⟩
    let w : TypedVector (.atomic .integer) := ⟨[some 9, none, some 4], {}⟩
    Action.run (do
        let y ← x.assign [.indices ([0, 5, 1].map some) none] v.toValue .subset
        y.assign [.indices ([3, 0].map some) none] w.toValue .subset) {}
      = Action.run (do
        let y ← x.assign [.indices ([3, 0].map some) none] w.toValue .subset
        y.assign [.indices ([0, 5, 1].map some) none] v.toValue .subset) {} := by
  intro x v w
  exact run_assign_assign_comm rfl (List.cons_ne_nil _ _) (List.cons_ne_nil _ _) (by decide)
    (by decide) (by decide) {}

end Value

end VectorIndexing
