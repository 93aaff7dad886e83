import VectorIndexing.Proofs.Overwriting.Refusals
import VectorIndexing.Proofs.ReadBack.Path

/-!
# Writing back an element

What was read under `[[` may be assigned at the same positions, and this changes nothing, wherever
it was read: from a vector or an array, from an environment or from the end of a path.

* `Slots.Holds`, `TypedVector.assign_eq_self`: writes of what is there already.
* `Layout.run_plan_element_write`: writing goes to the slot that was read.
* `Value.restores_assignAlong`: writing back at the end of a path.
-/

namespace VectorIndexing

/-! ## Writing what is there -/

namespace Slots

variable {α : Type} {xs : List α}

/-- Each of the writes finds in its slot what it puts there. -/
def Holds (xs : List α) (writes : List (Offset × α)) : Prop :=
  ∀ o v, (some o, v) ∈ writes → xs[o]? = some v

theorem putAll_of_holds {writes : List (Offset × α)} (h : Holds xs writes) :
    putAll xs writes = xs := by
  induction writes with
  | nil => rfl
  | cons w rest ih =>
    have hFirst : put xs w.1 w.2 = xs := by
      rcases w with ⟨_ | o, v⟩
      · rfl
      · obtain ⟨hIn, rfl⟩ := List.getElem?_eq_some_iff.mp (h o v List.mem_cons_self)
        exact List.set_getElem_self hIn
    rw [putAll, List.foldl_cons, hFirst]
    exact ih fun o v hMem => h o v (List.mem_cons_of_mem _ hMem)

/-- As many values as are needed are not repeated. -/
theorem recycle_self (xs : List α) : recycle xs xs.length = xs := by
  by_cases hNone : xs = []
  · rw [hNone]
    rfl
  · apply List.ext_getElem?
    intro i
    rw [getElem?_recycle xs _ _ hNone]
    split
    · next hIn => rw [Nat.mod_eq_of_lt hIn]
    · next hOut => exact (List.getElem?_eq_none (Nat.le_of_not_lt hOut)).symm

end Slots

/-- If there are slots and as many values, there are values. -/
theorem Plan.ne_nil_of_length_eq {plan : Plan} {α : Type} {values : List α}
    (hLength : values.length = plan.offsets.length) (hPlan : plan.isEmpty = false) :
    values ≠ [] := by
  rintro rfl
  rw [isEmpty_eq_true_iff.mpr (List.length_eq_zero_iff.mp hLength.symm)] at hPlan
  cases hPlan

/-- A vector stays as it is when its own elements are written to their slots, and its own names. -/
theorem TypedVector.assign_eq_self {kind : VectorKind} {x : TypedVector kind} {plan : Plan}
    {values : List kind.Elem} (hBelow : Slots.Below x.length plan.offsets)
    (hLength : values.length = plan.offsets.length)
    (hElements : Slots.Holds x.elements (plan.offsets.zip values))
    (hNames : plan.isEmpty = false → ∀ names, plan.names = some names →
      ∃ known, x.attributes.names = some known ∧ Slots.Holds known (plan.offsets.zip names)) :
    x.assign plan values = x := by
  cases hPlan : plan.isEmpty with
  | true => exact assign_of_isEmpty hPlan
  | false =>
    have hValues := Plan.ne_nil_of_length_eq hLength hPlan
    have hReach : plan.reach ≤ x.length := Slots.below_iff_reach_le.mp hBelow
    ext1
    · rw [elements_assign hPlan hValues, Slots.extend_of_le _ hReach, Slots.scatter, ← hLength,
        Slots.recycle_self, Slots.putAll_of_holds hElements]
    · rw [attributes_assign hPlan hValues, extend_of_le hReach]
      cases hStored : plan.names with
      | none => rfl
      | some names =>
        obtain ⟨known, hKnown, hHolds⟩ := hNames hPlan names hStored
        dsimp only
        rw [namesOrEmpty, hKnown, Option.getD_some, Slots.putAll_of_holds hHolds, ← hKnown]

/-! ## Planning for both purposes -/

namespace Pick

variable {length : Nat} {pick : Pick}

theorem ofOffset_write {offset : Nat} (h : ofOffset offset length .read = .ok pick) :
    ofOffset offset length .write = .ok pick := by
  unfold ofOffset at h ⊢
  split
  · next hIn => rwa [if_pos hIn] at h
  · next hOut =>
    rw [if_neg hOut] at h
    cases h

theorem ofIndex_write {entry : Option Int} (h : ofIndex entry length .read = .ok pick) :
    ofIndex entry length .write = .ok pick := by
  cases entry with
  | none => exact h
  | some i =>
    simp only [ofIndex] at h ⊢
    split
    · next hZero => rwa [if_pos hZero] at h
    · next hZero =>
      rw [if_neg hZero] at h
      split
      · next hNegative => rwa [if_pos hNegative] at h
      · next hNegative =>
        rw [if_neg hNegative] at h
        exact ofOffset_write h

theorem ofQuery_write {query : Option String} {names : Option Names}
    (h : ofQuery query length names .read = .ok pick) :
    ofQuery query length names .write = .ok pick := by
  unfold ofQuery at h ⊢
  split at h
  · exact h
  · cases h

theorem ofMask_write {flags : List (Option Bool)} (h : ofMask flags length .read = .ok pick) :
    ofMask flags length .write = .ok pick := by
  unfold ofMask at h ⊢
  split at h
  · exact ofOffset_write h
  · exact h
  · cases h
  · cases h

end Pick

/-- A position that selects an element for reading selects the same one for writing. -/
theorem Position.selectOne_write {p : Position} {length : Nat} {names : Option Names} {pick : Pick}
    (h : p.selectOne length names .read = .ok pick) :
    p.selectOne length names .write = .ok pick := by
  unfold selectOne at h ⊢
  split at h
  · cases h
  · cases h
  · cases h
  · cases h
  · exact Pick.ofIndex_write h
  · exact Pick.ofQuery_write h
  · exact Pick.ofMask_write h
  · cases h

namespace Layout

variable {layout : Layout} {positions : List Position} {plan : Plan} {session final : Session}
  {o : Nat}

/-- Writing under `[[` goes to the slot that was read, and names nothing. -/
theorem run_plan_element_write
    (h : (layout.plan positions .element .read).run session = (.ok plan, final))
    (hSlot : plan.offsets = [some o]) (hIn : o < layout.length) :
    (layout.plan positions .element .write).run session = (.ok plan, final)
      ∧ plan.names = none := by
  have hStorage : ∀ p, (layout.planStorage p .element .read).run session = (.ok plan, final) →
      (layout.planStorage p .element .write).run session = (.ok plan, final)
        ∧ plan.names = none := by
    intro p hp
    obtain ⟨pick, hPick, rfl, rfl⟩ := run_planStorage_element_eq_ok.mp hp
    refine ⟨run_planStorage_element_eq_ok.mpr ⟨pick, Position.selectOne_write hPick, rfl, rfl⟩, ?_⟩
    cases pick with
    | missing => rfl
    | slot o' =>
      obtain ⟨rfl⟩ := Option.some.inj (List.singleton_inj.mp hSlot)
      cases p <;> simp [planOfPick, Nat.not_le.mpr hIn]
  rcases positions with _ | ⟨first, _ | ⟨second, rest⟩⟩
  · exact hStorage .missing h
  · exact hStorage first h
  · -- with one position per dimension the purpose makes no difference
    obtain ⟨_, -, rfl⟩ := run_planArray_eq_ok.mp (planArray_of_plan h).2
    exact ⟨h, rfl⟩

end Layout

theorem Plan.soleOffset_eq_ok {plan : Plan} {length o : Nat} :
    plan.soleOffset length = .ok o ↔ plan.offsets = [some o] ∧ o < length := by
  unfold soleOffset
  split
  · next o' hSlot =>
    rw [hSlot]
    split
    · next hIn =>
      constructor
      · rintro ⟨⟩
        exact ⟨rfl, hIn⟩
      · rintro ⟨hSame, -⟩
        cases hSame
        rfl
    · next hOut =>
      constructor
      · intro h
        cases h
      · rintro ⟨hSame, hIn⟩
        cases hSame
        exact absurd hIn hOut
  · next hSlot => simp [hSlot]
  · next hSlot => simp [hSlot]
  · next hSlot _ _ =>
    constructor
    · intro h
      cases h
    · rintro ⟨hSame, -⟩
      exact absurd hSame (hSlot o)

/-! ## Writing back -/

/-- The assignment gives back the value that it is made to, without a warning, and all names are
bound to what they were bound to before. -/
def Action.Restores (assignment : Action Value) (x : Value) (store : Store) : Prop :=
  ∀ session, ∃ after, assignment.run { session, store } = (.ok x, { session, store := after })
    ∧ ∀ e name, after.binding? e name = store.binding? e name

namespace TypedVector

variable {kind : VectorKind} {x : TypedVector kind} {positions : List Position} {store : Store}
  {session : Session} {v : Value}

/-- What is read under `[[` is the element in the slot of the plan. -/
theorem exists_slot_of_getDirect
    (h : ((x.toValue.getDirect store positions .element).run session).1 = .ok v) :
    ∃ plan o e, ((x.toValue.layout store).plan positions .element .read).Reports (.ok plan) []
      ∧ plan.offsets = [some o] ∧ x.elements[o]? = some e ∧ v = kind.valueOf e := by
  have hRun : (x.toValue.getDirect store positions .element).run session = (.ok v, _) :=
    Prod.ext h rfl
  rw [getDirect_toValue] at hRun
  obtain ⟨plan, middle, hPlan, hExtract⟩ := Checked.run_bind_eq_ok.mp hRun
  obtain ⟨outcome, hReports⟩ :=
    (x.toValue.layout store).exists_reports_plan_element positions .read
  cases hReports.eq_ok_of_run hPlan
  obtain ⟨hExtract, -⟩ := Checked.run_ofExcept_eq_ok.mp hExtract
  rw [Value.extract, vector?_toValue] at hExtract
  obtain ⟨o, hSole, rfl⟩ := map_eq_ok.mp hExtract
  obtain ⟨hSlot, hIn⟩ := Plan.soleOffset_eq_ok.mp hSole
  have hElement := List.getElem?_eq_getElem hIn
  exact ⟨plan, o, _, hReports, hSlot, hElement, element_eq_valueOf hElement⟩

/-- Under `[[` an element of a vector is written to the vector as it is. -/
theorem ofValue_valueOf (x : TypedVector kind) (e : kind.Elem) :
    Replacement.ofValue x.toValue (kind.valueOf e) .element = .ok ⟨kind, [e]⟩ := by
  cases kind with
  | list => exact Replacement.ofValue_boxed rfl
  | atomic k =>
    refine (Replacement.ofValue_unboxed_eq_ok rfl).mpr ⟨.atomic k, ⟨[e], {}⟩, ?_, ?_, rfl, rfl⟩
    · exact Kind.join_self _
    · exact Value.coerce_self (⟨[e], {}⟩ : TypedVector (.atomic k))

/-- Writing back what was read from a vector. -/
theorem restores_assignDirect (x : TypedVector kind) (hv : v.isNull = false)
    (h : ((x.toValue.getDirect store positions .element).run session).1 = .ok v) :
    (x.toValue.assignDirect positions v .element).Restores x.toValue store := by
  obtain ⟨plan, o, e, hPlan, hSlot, hElement, rfl⟩ := exists_slot_of_getDirect h
  have hIn : o < x.length := (List.getElem?_eq_some_iff.mp hElement).1
  intro session'
  have hRead := (hPlan session').trans (Session.report_nil _ _)
  have hLayout : o < (x.toValue.layout store).length := by rwa [layout_toValue]
  obtain ⟨hWrite, hUnnamed⟩ := Layout.run_plan_element_write hRead hSlot hLayout
  have hSelf : x.assign plan [e] = x := by
    refine assign_eq_self ?_ (by rw [hSlot]; rfl) ?_ ?_
    · intro o' ho'
      rw [hSlot] at ho'
      cases List.mem_singleton.mp ho'
      exact hIn
    · intro o' e' hMem
      rw [hSlot] at hMem
      cases List.mem_singleton.mp hMem
      exact hElement
    · intro _ names hNames
      rw [hUnnamed] at hNames
      cases hNames
  have hOverwrite : (x.toValue.overwrite store positions (kind.valueOf e) .element).run session'
      = (.ok x.toValue, session') := by
    refine Value.run_overwrite_eq_ok.mpr ⟨⟨kind, [e]⟩, plan, session', x, ofValue_valueOf x e, hWrite,
      Plan.run_checkFit_element_eq_ok.mpr ⟨⟨o, hSlot⟩, rfl⟩, Value.coerce_self x, ?_⟩
    rw [hSelf]
  refine ⟨store, ?_, fun _ _ => rfl⟩
  rw [Value.run_assignDirect_eq_overwrite x.isSequence_toValue hv, hOverwrite]

end TypedVector

/-! ## Environments -/

/-- Binding a name to what was read under it. -/
theorem Action.restores_bindName {e : EnvRef} {positions : List Position} {v : Value}
    {store : Store} (hv : v.isNull = false) (h : store.get e positions .element = .ok v)
    (x : Value) :
    Restores (do
      bindName e positions v .element
      return x) x store := by
  obtain ⟨name, hName, hValue⟩ := map_eq_ok.mp h
  obtain ⟨-, rfl⟩ := boundName_eq_ok.mp hName
  -- an absent binding reads as `NULL`
  have hBound : store.binding? e name = some v := by
    cases hBinding : store.binding? e name with
    | some bound =>
      rw [hBinding] at hValue
      exact congrArg some hValue
    | none =>
      rw [hBinding, Option.getD_none] at hValue
      rw [← hValue] at hv
      cases hv
  intro session
  refine ⟨store.bind e name v, rfl, ?_⟩
  intro e' name'
  rw [Store.binding_bind]
  split
  · next hSame =>
    obtain ⟨rfl, rfl⟩ := hSame
    exact hBound.symm
  · rfl

namespace Value

variable {v : Value} {store : Store} {session : Session}

/-- Writing back what was read without descending. -/
theorem restores_assignDirect {x : Value} {positions : List Position} (hv : v.isNull = false)
    (h : ((x.getDirect store positions .element).run session).1 = .ok v) :
    (x.assignDirect positions v .element).Restores x store := by
  cases x with
  | closure _ => cases h
  | environment e => exact Action.restores_bindName hv h (environment e)
  | s4 object =>
    unfold getDirect at h
    unfold assignDirect
    dsimp only at h ⊢
    cases hData : object.data with
    | none =>
      rw [hData] at h
      cases h
    | some e =>
      rw [hData] at h
      exact Action.restores_bindName hv h (s4 object)
  | null =>
    -- `NULL` has only `NULL` to offer
    have hRun : (null.getDirect store positions .element).run session = (.ok v, _) := Prod.ext h rfl
    obtain ⟨plan, middle, -, hExtract⟩ := Checked.run_bind_eq_ok.mp hRun
    cases (Checked.run_ofExcept_eq_ok.mp hExtract).1
    cases hv
  | atomic k elements a =>
    exact TypedVector.restores_assignDirect (⟨elements, a⟩ : TypedVector (.atomic k)) hv h
  | list elements a =>
    exact TypedVector.restores_assignDirect (⟨elements, a⟩ : TypedVector .list) hv h

/-! ## Paths -/

/-- Writing back what was read at the end of a path. Each list on the way gets back its child. -/
theorem restores_assignAlong {x : Value} {steps : List Position} {level : Nat}
    (hv : v.isNull = false) (h : ((x.getAlong store steps level).run session).1 = .ok v) :
    (x.assignAlong (fun y p => y.assignDirect [p] v .element) steps level).Restores x store := by
  induction steps generalizing x level with
  | nil => cases h
  | cons step rest ih =>
    cases rest with
    | nil => exact restores_assignDirect hv h
    | cons next rest =>
      cases hInto : x.stepInto step level with
      | error e =>
        rw [getAlong, hInto] at h
        cases h
      | ok found =>
        obtain ⟨o, child⟩ := found
        rw [getAlong, hInto] at h
        have hChild := ih h
        obtain ⟨elements, a, rfl, hHere, -⟩ := stepInto_eq_ok hInto
        have hSelf : (list elements a).withElement o child = list elements a := by
          obtain ⟨hIn, rfl⟩ := List.getElem?_eq_some_iff.mp hHere
          rw [withElement, List.set_getElem_self hIn]
        intro session'
        obtain ⟨after, hRun, hBindings⟩ := hChild session'
        refine ⟨after, ?_, hBindings⟩
        rw [assignAlong, hInto, Action.run_bind, Action.run_ofExcept]
        dsimp only
        rw [Action.run_bind, hRun]
        dsimp only
        rw [hSelf, Action.run_pure]

/-- Writing back what was read under `[[`. -/
theorem restores_assign {x : Value} {positions : List Position} (hv : v.isNull = false)
    (h : ((x.get store positions .element).run session).1 = .ok v) :
    (x.assign positions v .element).Restores x store := by
  unfold get at h
  unfold assign
  cases hPath : x.pathSteps? positions .element with
  | some steps =>
    rw [hPath] at h
    exact restores_assignAlong hv h
  | none =>
    rw [hPath] at h
    exact restores_assignDirect hv h

end Value

end VectorIndexing
