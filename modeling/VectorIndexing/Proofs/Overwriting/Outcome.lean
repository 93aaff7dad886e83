import VectorIndexing.Proofs.Coercion
import VectorIndexing.Proofs.Plans
import VectorIndexing.Proofs.Written
import VectorIndexing.Writing.Assign

/-!
# The outcome of overwriting

How an overwriting assignment succeeds, stage by stage, and what the written vector looks like.

* `Value.run_overwrite_eq_ok`: the stages of a successful overwrite.
* `Value.run_assign_eq_overwrite`: when an assignment overwrites.
* `TypedVector.written_assign`, `TypedVector.attributes_assign`: elements and attributes of the
  written vector.
-/

namespace VectorIndexing

/-! ## Stages -/

theorem Kind.vectorFor_eq_ok {container value : Kind} {kind : VectorKind} :
    container.vectorFor value = .ok kind ↔ container.join value = some (.vector kind) := by
  unfold vectorFor targetFor
  rw [bind_eq_ok]
  constructor
  · rintro ⟨target, hTarget, hKind⟩
    split at hTarget
    · next hJoin =>
      cases hTarget
      cases target with
      | vector k =>
        cases hKind
        exact hJoin
      | null | closure | environment | s4 | symbol => cases hKind
    · cases hTarget
  · intro h
    exact ⟨.vector kind, by rw [h], rfl⟩

/-- Coercion does not change what positions are applied to. -/
theorem Value.layout_toValue_of_coerce {x : Value} {kind : VectorKind} {v : TypedVector kind}
    (h : x.coerce kind = .ok v) (store : Store) : v.toValue.layout store = x.layout store := by
  obtain ⟨hAttributes, hLength⟩ := layout_of_coerce h
  rw [TypedVector.layout_toValue, hAttributes, hLength store, layout, names?, dim?, dimnames?]
  cases x.attributes? <;> rfl

@[simp] theorem Value.boxes_subset (container value : Value) :
    container.boxes value .subset = false := rfl

/-- What is to be written under `[`: the elements of the value, coerced to the join. -/
theorem Replacement.ofValue_subset_eq_ok {container value : Value} {replacement : Replacement} :
    ofValue container value .subset = .ok replacement
      ↔ ∃ kind, ∃ v : TypedVector kind, container.kind.join value.kind = some (.vector kind)
          ∧ value.coerce kind = .ok v ∧ replacement = ⟨kind, v.elements⟩ := by
  simp only [ofValue, Value.boxes_subset, Bool.false_eq_true, if_false, bind_eq_ok,
    Kind.vectorFor_eq_ok]
  constructor
  · rintro ⟨kind, hJoin, v, hv, hReplacement⟩
    cases hReplacement
    exact ⟨kind, v, hJoin, hv, rfl⟩
  · rintro ⟨kind, v, hJoin, hv, rfl⟩
    exact ⟨kind, hJoin, v, hv, rfl⟩

theorem Replacement.checkSingle_eq_ok {length : Nat} {done : Unit} :
    checkSingle length = .ok done ↔ length = 1 := by
  unfold checkSingle
  split
  · next h => simp [h]
  · split <;> simp [*]

/-- What is to be written under `[[` for a value that is not stored whole: its one element. -/
theorem Replacement.ofValue_unboxed_eq_ok {container value : Value} {replacement : Replacement}
    (hBoxes : container.boxes value .element = false) :
    ofValue container value .element = .ok replacement
      ↔ ∃ kind, ∃ v : TypedVector kind, container.kind.join value.kind = some (.vector kind)
          ∧ value.coerce kind = .ok v ∧ v.length = 1 ∧ replacement = ⟨kind, v.elements⟩ := by
  simp only [ofValue, hBoxes, Bool.false_eq_true, if_false, if_true, bind_eq_ok,
    Kind.vectorFor_eq_ok, checkSingle_eq_ok]
  constructor
  · rintro ⟨kind, hJoin, v, hv, _, hLength, hReplacement⟩
    cases hReplacement
    exact ⟨kind, v, hJoin, hv, hLength, rfl⟩
  · rintro ⟨kind, v, hJoin, hv, hLength, rfl⟩
    exact ⟨kind, hJoin, v, hv, (), hLength, rfl⟩

theorem Replacement.ofValue_of_join_none {container value : Value} {mode : Mode}
    (hBoxes : container.boxes value mode = false) (hJoin : container.kind.join value.kind = none) :
    ofValue container value mode = .error (.subassignTypeFix value.kind container.kind) := by
  simp only [ofValue, hBoxes, Kind.vectorFor, Kind.targetFor, hJoin]
  rfl

/-- What is to be written under `[[` for a value that is stored whole: the value itself. -/
theorem Replacement.ofValue_boxed {container value : Value} {mode : Mode}
    (hBoxes : container.boxes value mode = true) :
    ofValue container value mode = .ok ⟨.list, [value]⟩ := by
  simp [ofValue, hBoxes]

namespace Value

variable {container value result : Value} {positions : List Position} {mode : Mode}

theorem run_overwrite_eq_ok {store : Store} {session final : Session} :
    (container.overwrite store positions value mode).run session = (.ok result, final)
      ↔ ∃ replacement plan middle, ∃ target : TypedVector replacement.kind,
          Replacement.ofValue container value mode = .ok replacement
          ∧ ((container.layout store).plan positions mode .write).run session = (.ok plan, middle)
          ∧ (plan.checkFit replacement.elements.length mode).run middle = (.ok (), final)
          ∧ container.coerce replacement.kind = .ok target
          ∧ result = (target.assign plan replacement.elements).toValue := by
  simp only [overwrite, Checked.run_bind_eq_ok, Checked.run_ofExcept_eq_ok,
    Checked.run_pure_eq_ok]
  constructor
  · rintro ⟨replacement, _, ⟨hReplacement, rfl⟩, plan, middle, hPlan, _, _, hFit, target, _,
      ⟨hTarget, rfl⟩, rfl, rfl⟩
    exact ⟨replacement, plan, middle, target, hReplacement, hPlan, hFit, hTarget, rfl⟩
  · rintro ⟨replacement, plan, middle, target, hReplacement, hPlan, hFit, hTarget, rfl⟩
    exact ⟨replacement, _, ⟨hReplacement, rfl⟩, plan, middle, hPlan, _, _, hFit, target, _,
      ⟨hTarget, rfl⟩, rfl, rfl⟩

theorem run_overwrite_of_ofValue_error {store : Store} {session : Session} {e : Error}
    (h : Replacement.ofValue container value mode = .error e) :
    (container.overwrite store positions value mode).run session = (.error e, session) := by
  rw [overwrite, h, Checked.run_bind, Checked.run_ofExcept]

theorem pathSteps?_subset (x : Value) (positions : List Position) :
    x.pathSteps? positions .subset = none := by
  cases x <;> rfl

/-- A position of one entry is no path. -/
theorem pathSteps?_single (x : Value) {p : Position} (hp : p.length? = some 1) (mode : Mode) :
    x.pathSteps? [p] mode = none := by
  cases x <;> cases mode <;> simp [pathSteps?, hp]

/-- The world after a computation that leaves the store alone. -/
theorem run_assignDirect_eq_overwrite (hContainer : container.isSequence)
    (hValue : value.isNull = false) (world : World) :
    (container.assignDirect positions value mode).run world
      = (((container.overwrite world.store positions value mode).run world.session).1,
          { world with
            session := ((container.overwrite world.store positions value mode).run
              world.session).2 }) := by
  cases container with
  | null | atomic _ _ _ | list _ _ =>
    simp only [assignDirect, hValue]
    rw [Action.run_bind, Action.run_getThe]
    rfl
  | closure _ | environment _ | s4 _ => cases hContainer

theorem run_assign_eq_overwrite (hContainer : container.isSequence)
    (hValue : value.isNull = false) (hPath : container.pathSteps? positions mode = none)
    (world : World) :
    (container.assign positions value mode).run world
      = (((container.overwrite world.store positions value mode).run world.session).1,
          { world with
            session := ((container.overwrite world.store positions value mode).run
              world.session).2 }) := by
  unfold assign
  rw [hPath]
  exact run_assignDirect_eq_overwrite hContainer hValue world

theorem run_assign_eq_ok (hContainer : container.isSequence) (hValue : value.isNull = false)
    (hPath : container.pathSteps? positions mode = none) {world final : World} :
    (container.assign positions value mode).run world = (.ok result, final)
      ↔ (container.overwrite world.store positions value mode).run world.session
          = (.ok result, final.session) ∧ final.store = world.store := by
  rw [run_assign_eq_overwrite hContainer hValue hPath]
  rcases (container.overwrite world.store positions value mode).run world.session with
    ⟨outcome, session⟩
  rcases final with ⟨finalSession, finalStore⟩
  simp only [Prod.mk.injEq, World.mk.injEq]
  constructor
  · rintro ⟨rfl, rfl, rfl⟩
    exact ⟨⟨rfl, rfl⟩, rfl⟩
  · rintro ⟨⟨rfl, rfl⟩, rfl⟩
    exact ⟨rfl, rfl, rfl⟩

end Value

/-! ## Fitting -/

namespace Plan

variable {plan : Plan} {length : Nat} {session final : Session}

theorem run_checkFit_element_eq_ok :
    (plan.checkFit length .element).run session = (.ok (), final)
      ↔ (∃ o, plan.offsets = [some o]) ∧ final = session := by
  unfold checkFit
  dsimp only
  split
  · next o h => simp [h, eq_comm]
  · next h =>
    constructor
    · intro hRun
      cases hRun
    · rintro ⟨⟨o, ho⟩, -⟩
      exact absurd ho (h o)

/-- The checks under `[`, in their order. -/
theorem run_checkFit_subset (plan : Plan) (length : Nat) (session : Session) :
    (plan.checkFit length .subset).run session
      = if plan.isEmpty then (.ok (), session)
        else if length = 0 then (.error .replacementZero, session)
        else if 1 < length ∧ plan.hasMissing then (.error .naSubscripted, session)
        else if plan.length % length ≠ 0 then (warn .notMultipleReplacement).run session
        else (.ok (), session) := by
  unfold checkFit
  dsimp only
  split
  · rfl
  · split
    · rfl
    · split
      · rfl
      · split <;> rfl

theorem length_ne_zero_of_run_checkFit
    (h : (plan.checkFit length .subset).run session = (.ok (), final))
    (hPlan : plan.isEmpty = false) : length ≠ 0 := by
  rintro rfl
  rw [run_checkFit_subset, hPlan] at h
  cases h

/-- If there are slots and the values fit, there are values. -/
theorem ne_nil_of_run_checkFit {α : Type} {values : List α}
    (h : (plan.checkFit values.length .subset).run session = (.ok (), final))
    (hPlan : plan.isEmpty = false) : values ≠ [] := by
  intro hNone
  exact length_ne_zero_of_run_checkFit h hPlan (List.length_eq_zero_iff.mpr hNone)

end Plan

/-! ## The written vector -/

namespace TypedVector

variable {kind : VectorKind}

@[ext] theorem ext {x y : TypedVector kind} (hElements : x.elements = y.elements)
    (hAttributes : x.attributes = y.attributes) : x = y := by
  cases x
  cases hElements
  cases hAttributes
  rfl

theorem elements_extend (x : TypedVector kind) (n : Nat) :
    (x.extend n).elements = Slots.extend kind.fill n x.elements := by
  unfold extend
  split
  · next h => exact (Slots.extend_of_le _ h).symm
  · rfl

theorem attributes_extend (x : TypedVector kind) (n : Nat) :
    (x.extend n).attributes
      = if n ≤ x.length then x.attributes
        else
          { x.attributes.withoutShape with
            names := x.attributes.names.map (Slots.extend (some "") n) } := by
  unfold extend
  split <;> rfl

/-- Only the length matters for what becomes of the attributes. -/
theorem attributes_extend_congr {x y : TypedVector kind} (hLength : x.length = y.length)
    (hAttributes : x.attributes = y.attributes) (n : Nat) :
    (x.extend n).attributes = (y.extend n).attributes := by
  rw [attributes_extend, attributes_extend, hLength, hAttributes]

theorem extend_of_le {x : TypedVector kind} {n : Nat} (h : n ≤ x.length) : x.extend n = x := by
  rw [extend, if_pos h]

theorem extend_extend (x : TypedVector kind) (m n : Nat) :
    (x.extend m).extend n = x.extend (max m n) := by
  unfold extend
  split
  · next hm =>
    split
    · rw [if_pos (by omega)]
    · rw [if_neg (by omega), Nat.max_eq_right (by omega)]
  · next hm =>
    have hMax : ¬ max m n ≤ x.length := by omega
    have hLength : TypedVector.length
        { elements := Slots.extend kind.fill m x.elements
          attributes :=
            { x.attributes.withoutShape with
              names := x.attributes.names.map (Slots.extend (some "") m) } } = m := by
      have hElements : (Slots.extend kind.fill m x.elements).length = max x.elements.length m :=
        Slots.length_extend ..
      have hx : x.elements.length = x.length := rfl
      have hmax : max x.elements.length m = m := by omega
      exact hElements.trans hmax
    rw [if_neg hMax, hLength]
    split
    · rw [Nat.max_eq_left (by omega)]
    · rw [Slots.extend_extend]
      simp only [Attributes.withoutShape, Option.map_map, Function.comp_def, Slots.extend_extend]

/-- Names of a vector that are as many as its elements grow with it. -/
theorem names_extend {x : TypedVector kind} (n : Nat)
    (hNames : ∀ names, x.attributes.names = some names → names.length = x.length) :
    (x.extend n).attributes.names = x.attributes.names.map (Slots.extend (some "") n) := by
  rw [attributes_extend]
  split
  · next h =>
    cases hx : x.attributes.names with
    | none => rfl
    | some names =>
      rw [Option.map_some, Slots.extend_of_le _ (by rw [hNames names hx]; exact h)]
  · rfl

theorem namesOrEmpty_extend {x : TypedVector kind} (n : Nat)
    (hNames : ∀ names, x.attributes.names = some names → names.length = x.length) :
    (x.extend n).namesOrEmpty = Slots.extend (some "") n x.namesOrEmpty := by
  unfold namesOrEmpty
  rw [names_extend n hNames, length_extend]
  cases x.attributes.names with
  | none =>
    simp only [Option.map_none, Option.getD_none]
    rw [Slots.extend, List.length_replicate, List.replicate_append_replicate]
    congr 1
    omega
  | some names => rfl

variable {x : TypedVector kind} {plan : Plan} {values : List kind.Elem}

theorem assign_of_isEmpty (h : plan.isEmpty = true) : x.assign plan values = x := by
  simp [assign, h]

theorem elements_assign (hPlan : plan.isEmpty = false) (hValues : values ≠ []) :
    (x.assign plan values).elements
      = Slots.scatter (Slots.extend kind.fill plan.reach x.elements) plan.offsets values := by
  have hRun : (plan.isEmpty || values.isEmpty) = false := by simp [hPlan, hValues]
  unfold assign
  rw [hRun, ← elements_extend]
  cases plan.names <;> rfl

theorem attributes_assign (hPlan : plan.isEmpty = false) (hValues : values ≠ []) :
    (x.assign plan values).attributes
      = match plan.names with
        | none => (x.extend plan.reach).attributes
        | some names =>
          { (x.extend plan.reach).attributes with
            names := some (Slots.putAll (x.extend plan.reach).namesOrEmpty
              (plan.offsets.zip names)) } := by
  have hRun : (plan.isEmpty || values.isEmpty) = false := by simp [hPlan, hValues]
  unfold assign
  rw [hRun]
  cases plan.names with
  | none => rfl
  | some names =>
    have hLength : ((x.extend plan.reach).scatter plan.offsets values).length
        = (x.extend plan.reach).length := length_scatter ..
    simp only [Bool.false_eq_true, if_false, scatterNames, namesOrEmpty, hLength]
    rfl

/-- The elements of the written vector, slot by slot. -/
theorem written_assign (hPlan : plan.isEmpty = false) (hValues : values ≠ []) :
    Slots.Written kind.fill x.elements plan.offsets (fun j => values[j % values.length]?)
      (x.assign plan values).elements := by
  rw [elements_assign hPlan hValues]
  exact Slots.written_scatter _ _ _ hValues

theorem length_assign (hPlan : plan.isEmpty = false) (hValues : values ≠ []) :
    (x.assign plan values).length = max x.length plan.reach :=
  (written_assign hPlan hValues).length_eq

end TypedVector

end VectorIndexing
