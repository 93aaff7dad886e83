import VectorIndexing.Proofs.Invariants.Basic
import VectorIndexing.Proofs.Overwriting.Outcome

/-!
# Indexing calls keep invariants

What is read from a value with an invariant property has the property, and so has what an assignment
makes of values that have it. An assignment also keeps the store as it should be, even if it fails
half-way. A path adds nothing to this but the replacement of an element.

* `Value.Invariant.extract`, `get`: reading by a plan, and the read of an indexing call.
* `Value.Invariant.overwrite`, `remove`: the two changes of a vector.
* `Value.Invariant.assign`, `assignPath`: the assignments of an indexing call.
-/

namespace VectorIndexing

namespace Value.Invariant

variable {P : Value → Prop} (h : Invariant P)

include h

/-! ## Vectors -/

theorem element {kind : VectorKind} {v : TypedVector kind} (hv : P v.toValue) (o : Nat) :
    P (v.element o) := by
  cases kind with
  | atomic k => exact h.scalar k _
  | list =>
    rcases Slots.fetch_eq_or_mem Value.null v.elements (some o) with hFill | hOld
    · have hElement : v.element o = .null := hFill
      rw [hElement]
      exact h.null
    · exact h.elements hv _ hOld

theorem extract {x y : Value} (hx : P x) {plan : Plan} (hPlan : plan.DimsSized) {mode : Mode}
    (hExtract : x.extract plan mode = .ok y) : P y := by
  unfold Value.extract at hExtract
  split at hExtract
  · next kind v hVector =>
    rw [eq_toValue_of_vector? hVector] at hx
    cases mode with
    | subset =>
      cases hExtract
      exact h.part hx hPlan
    | element =>
      obtain ⟨o, -, rfl⟩ := map_eq_ok.mp hExtract
      exact h.element hx o
  · split at hExtract
    · cases hExtract
      exact h.null
    · cases hExtract

theorem assignTo {kind : VectorKind} {v : TypedVector kind} (hv : P v.toValue)
    {values : List kind.Elem} (hValues : ∀ e ∈ values, kind.ElemHas P e) (plan : Plan) :
    P (v.assign plan values).toValue := by
  have hWritten := h.scatter plan.offsets (h.extend plan.reach hv) hValues
  unfold TypedVector.assign
  split
  · exact hv
  · dsimp only
    split
    · exact h.scatterNames _ _ hWritten
    · exact hWritten

theorem removeOffsets {v : TypedVector .list} (hv : P v.toValue) (offsets : List Nat) :
    P (v.removeOffsets offsets).toValue := by
  unfold TypedVector.removeOffsets
  split
  · exact hv
  · exact h.dropMarked _ (h.extend _ hv)

/-- An element of a list may be replaced. -/
theorem withElement {x child : Value} (hx : P x) (hChild : P child) (o : Nat) :
    P (x.withElement o child) := by
  cases x with
  | list elements a =>
    have hValues : ∀ e ∈ [child], VectorKind.list.ElemHas P e := by
      intro e he
      rw [List.mem_singleton.mp he]
      exact hChild
    have hList : P (TypedVector.toValue (⟨elements, a⟩ : TypedVector .list)) := hx
    exact h.scatter [some o] hList hValues
  | null | atomic _ _ _ | closure _ | environment _ | s4 _ => exact hx

theorem coerceToKind {x y : Value} (hx : P x) {target : Kind}
    (hCoerce : x.coerceToKind target = .ok y) : P y := by
  unfold Value.coerceToKind at hCoerce
  split at hCoerce
  · cases hCoerce
    exact hx
  · split at hCoerce
    · obtain ⟨v, hv, rfl⟩ := map_eq_ok.mp hCoerce
      exact h.coerce hx hv
    · cases hCoerce

theorem convertTo {x y : Value} (hx : P x) {target : Kind}
    (hConvert : x.convertTo target = .ok y) : P y := by
  unfold Value.convertTo at hConvert
  split at hConvert
  · exact h.coerceToKind hx hConvert
  · cases hConvert

theorem elemHas_of_ofValue {container value : Value} (hValue : P value) {mode : Mode}
    {replacement : Replacement}
    (hReplacement : Replacement.ofValue container value mode = .ok replacement) :
    ∀ e ∈ replacement.elements, replacement.kind.ElemHas P e := by
  unfold Replacement.ofValue at hReplacement
  split at hReplacement
  · cases hReplacement
    intro e he
    rw [List.mem_singleton.mp he]
    exact hValue
  · obtain ⟨kind, -, hReplacement⟩ := bind_eq_ok.mp hReplacement
    obtain ⟨v, hv, hReplacement⟩ := bind_eq_ok.mp hReplacement
    dsimp only at hReplacement
    split at hReplacement
    · obtain ⟨_, -, hReplacement⟩ := bind_eq_ok.mp hReplacement
      cases hReplacement
      exact h.elements (h.coerce hValue hv)
    · cases hReplacement
      exact h.elements (h.coerce hValue hv)

/-! ## Reading -/

variable {store : Store} {x value : Value}

theorem of_get (hStore : store.Has P) {e : EnvRef} {positions : List Position} {mode : Mode}
    {y : Value} (hGet : store.get e positions mode = .ok y) : P y := by
  obtain ⟨name, -, rfl⟩ := map_eq_ok.mp hGet
  cases hBound : store.binding? e name with
  | none => exact h.null
  | some x => exact hStore e name x hBound

theorem getDirect (hStore : store.Has P) (hx : P x) (positions : List Position) (mode : Mode) :
    (x.getDirect store positions mode).Returns P := by
  have hPlanned : Checked.Returns P (do
      let plan ← (x.layout store).plan positions mode .read
      Checked.ofExcept (x.extract plan mode)) := by
    refine Checked.Returns.bind (Layout.returns_plan _ _ _ _) ?_
    intro plan hPlan
    apply Checked.Returns.ofExcept
    intro y hy
    exact h.extract hx hPlan hy
  cases x with
  | null | atomic _ _ _ | list _ _ => exact hPlanned
  | closure f => exact .throw _
  | environment e => exact .ofExcept fun y hy => h.of_get hStore hy
  | s4 object =>
    cases hData : object.data with
    | none =>
      simp only [Value.getDirect, hData]
      exact .throw _
    | some e =>
      simp only [Value.getDirect, hData]
      exact .ofExcept fun y hy => h.of_get hStore hy

/-- The child that a path descends into is an element of the list. -/
theorem stepInto (hx : P x) {step : Position} {level o : Nat} {child : Value}
    (hStep : x.stepInto step level = .ok (o, child)) : P child := by
  unfold Value.stepInto at hStep
  split at hStep
  · next elements attributes =>
    obtain ⟨o', -, hStep⟩ := bind_eq_ok.mp hStep
    split at hStep
    · next child' hChild =>
      cases hStep
      have hList : P (TypedVector.toValue (⟨elements, attributes⟩ : TypedVector .list)) := hx
      exact h.elements hList _ (List.mem_of_getElem? hChild)
    · cases hStep
  · cases hStep

theorem getAlong (hStore : store.Has P) (hx : P x) (steps : List Position) (level : Nat) :
    (x.getAlong store steps level).Returns P := by
  fun_induction Value.getAlong store x steps level with
  | case1 x level => exact .throw _
  | case2 x level last => exact h.getDirect hStore hx [last] .element
  | case3 x level step next rest ih =>
    refine Checked.Returns.bind (P := fun found : Nat × Value => P found.2) ?_ ?_
    · apply Checked.Returns.ofExcept
      intro found hFound
      exact h.stepInto hx hFound
    · intro found hChild
      exact ih found.2 hChild

theorem get (hStore : store.Has P) (hx : P x) (positions : List Position) (mode : Mode) :
    (x.get store positions mode).Returns P := by
  unfold Value.get
  split
  · exact h.getAlong hStore hx _ 0
  · exact h.getDirect hStore hx positions mode

/-! ## Changing vectors -/

theorem overwrite (hx : P x) (hValue : P value) (store : Store) (positions : List Position)
    (mode : Mode) : (x.overwrite store positions value mode).Returns P := by
  intro session result final hRun
  obtain ⟨replacement, plan, middle, target, hReplacement, -, -, hTarget, rfl⟩ :=
    run_overwrite_eq_ok.mp hRun
  exact h.assignTo (h.coerce hx hTarget) (h.elemHas_of_ofValue hValue hReplacement) plan

theorem removeFrom {v : TypedVector .list} (hv : P v.toValue) (layout : Layout)
    (positions : List Position) (mode : Mode) :
    (v.remove layout positions mode).Returns fun y => P y.toValue := by
  have hOffsets : ∀ computation : Checked (List Nat),
      (v.removeOffsets <$> computation).Returns fun y => P y.toValue := by
    intro computation
    rw [← bind_pure_comp]
    refine Checked.Returns.bind (.trivial _) ?_
    intro offsets _
    exact .pure (h.removeOffsets hv offsets)
  unfold TypedVector.remove
  split
  · exact hOffsets _
  · exact hOffsets _
  · exact .bind (.trivial _) fun _ _ => .throw _

theorem remove (hx : P x) (store : Store) (positions : List Position) (mode : Mode) :
    (x.remove store positions mode).Returns P := by
  unfold Value.remove
  split
  · exact .pure h.null
  · next elements attributes =>
    refine Checked.Returns.bind (h.removeFrom (v := ⟨elements, attributes⟩) hx _ positions mode) ?_
    intro y hy
    exact .pure hy
  · exact .throw _
  · refine Checked.Returns.bind (.trivial _) ?_
    intro plan _
    split
    · exact .pure hx
    · exact .throw _

/-! ## Assigning -/

theorem assignDirect (hx : P x) (positions : List Position) (hValue : P value) (mode : Mode) :
    (x.assignDirect positions value mode).Maintains P P := by
  have hChanged : Action.Maintains P P (do
      let store := (← getThe World).store
      Action.ofChecked
        (if value.isNull then x.remove store positions mode
        else x.overwrite store positions value mode)) := by
    refine Action.Maintains.bind Action.Maintains.getThe ?_
    intro world _
    apply Action.Maintains.ofChecked
    split
    · exact h.remove hx world.store positions mode
    · exact h.overwrite hx hValue world.store positions mode
  have hBound : ∀ e, Action.Maintains P P (do
      Action.bindName e positions value mode
      return x) := by
    intro e
    exact Action.Maintains.bind (.bindName e positions hValue mode) fun _ _ => .pure hx
  cases x with
  | null | atomic _ _ _ | list _ _ => exact hChanged
  | closure f => exact .throw _
  | environment e => exact hBound e
  | s4 object =>
    cases hData : object.data with
    | none =>
      simp only [Value.assignDirect, hData]
      exact .throw _
    | some e =>
      simp only [Value.assignDirect, hData]
      exact hBound e

/-- Along a path, each list keeps the property with its changed child. -/
theorem assignAlong {change : Value → Position → Action Value}
    (hChange : ∀ y p, P y → (change y p).Maintains P P) (hx : P x) (steps : List Position)
    (level : Nat) : (x.assignAlong change steps level).Maintains P P := by
  fun_induction Value.assignAlong change x steps level with
  | case1 x level => exact .throw _
  | case2 x level last => exact hChange x last hx
  | case3 x level step next rest ih =>
    refine Action.Maintains.bind (Q := fun found : Nat × Value => P found.2) ?_ ?_
    · apply Action.Maintains.ofExcept
      intro found hFound
      exact h.stepInto hx hFound
    · intro found hFound
      refine Action.Maintains.bind (ih found.2 hFound) ?_
      intro changed hChanged
      exact .pure (h.withElement hx hChanged found.1)

theorem assign (hx : P x) (positions : List Position) (hValue : P value) (mode : Mode) :
    (x.assign positions value mode).Maintains P P := by
  unfold Value.assign
  split
  · exact h.assignAlong (fun y p hy => h.assignDirect hy [p] hValue .element) hx _ 0
  · exact h.assignDirect hx positions hValue mode

theorem assignPath (hx : P x) (steps : List Position) (hValue : P value) (level : Nat) :
    (x.assignPath steps value level).Maintains P P :=
  h.assignAlong (fun _ p hy => h.assign hy [p] hValue .element) hx steps level

end Value.Invariant

end VectorIndexing
