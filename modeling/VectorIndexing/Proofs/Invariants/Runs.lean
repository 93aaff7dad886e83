import VectorIndexing.Proofs.Invariants.Calls

/-!
# Runs keep invariants

An operation on values with an invariant property returns a value with the property and keeps the
bindings so, and therefore any number of operations do.

* `Value.Invariant.maintains_perform`: one operation.
* `Value.Invariant.run`: any number of operations.
-/

namespace VectorIndexing

variable {P : Value → Prop}

theorem Value.has_mapVector {x : Value} (hx : P x)
    {change : (kind : VectorKind) → TypedVector kind → TypedVector kind}
    (hChange : ∀ kind (v : TypedVector kind), P v.toValue → P (change kind v).toValue) :
    P (x.mapVector change) := by
  unfold Value.mapVector
  split
  · next kind v hVector =>
    rw [eq_toValue_of_vector? hVector] at hx
    exact hChange kind v hx
  · exact hx

namespace Value.Invariant

variable (h : Invariant P)

include h

theorem scatterValues {x values y : Value} (hx : P x) (hValues : P values)
    {offsets : List Offset} (hScatter : x.scatter offsets values = .ok y) : P y := by
  unfold Value.scatter at hScatter
  split at hScatter
  · next kind v hVector =>
    rw [eq_toValue_of_vector? hVector] at hx
    obtain ⟨w, hw, hScatter⟩ := bind_eq_ok.mp hScatter
    cases hScatter
    exact h.scatter offsets hx (h.elements (h.coerce hValues hw))
  · cases hScatter
    exact hx

theorem operand {made : List Value} (hMade : ∀ x ∈ made, P x) (number : Nat) :
    P (operand made number) := by
  unfold VectorIndexing.operand
  cases hFound : made[number]? with
  | none => exact h.null
  | some x => exact hMade x (List.mem_of_getElem? hFound)

/-- One operation. -/
theorem maintains_perform {made : List Value} (hMade : ∀ x ∈ made, P x) (operation : Operation) :
    (operation.perform made).Maintains P P := by
  have hOperand : ∀ number, P (VectorIndexing.operand made number) := h.operand hMade
  cases operation with
  | setAttribute target key value =>
    exact .ofExcept fun y hy => h.setAttribute (hOperand target) (hOperand value) hy
  | getAttribute target key =>
    apply Action.Maintains.pure
    cases hFound : (VectorIndexing.operand made target).getAttribute key with
    | none => exact h.null
    | some y => exact h.getAttribute (hOperand target) hFound
  | coerceToKind target kind => exact .ofExcept fun y hy => h.coerceToKind (hOperand target) hy
  | convertTo target kind => exact .ofExcept fun y hy => h.convertTo (hOperand target) hy
  | toList target =>
    apply Action.Maintains.ofExcept
    intro y hy
    obtain ⟨v, hv, rfl⟩ := map_eq_ok.mp hy
    exact h.coerce (hOperand target) hv
  | gather target offsets =>
    refine .pure (has_mapVector (hOperand target) ?_)
    intro kind v hv
    show P (v.part { offsets }).toValue
    exact h.part hv nofun
  | extend target length =>
    exact .pure (has_mapVector (hOperand target) fun _ _ hv => h.extend length hv)
  | dropMarked target remove =>
    exact .pure (has_mapVector (hOperand target) fun _ _ hv => h.dropMarked remove hv)
  | scatter target offsets values =>
    exact .ofExcept fun y hy => h.scatterValues (hOperand target) (hOperand values) hy
  | scatterNames target offsets names =>
    exact .pure (has_mapVector (hOperand target) fun _ _ hv => h.scatterNames offsets names hv)
  | withoutShape target =>
    exact .pure (has_mapVector (hOperand target) fun _ _ hv => h.withoutShape hv)
  | ofPairs pairs =>
    apply Action.Maintains.pure
    apply h.ofPairs
    intro p hp
    obtain ⟨q, -, rfl⟩ := List.mem_map.mp hp
    exact hOperand q.2
  | extract target positions planned purpose mode =>
    refine Action.Maintains.bind Action.Maintains.getThe ?_
    intro world _
    apply Action.Maintains.ofChecked
    refine Checked.Returns.bind (Layout.returns_plan _ _ _ _) ?_
    intro plan hPlan
    apply Checked.Returns.ofExcept
    intro y hy
    exact h.extract (hOperand target) hPlan hy
  | get target positions mode =>
    refine Action.Maintains.bind Action.Maintains.getThe ?_
    intro world hStore
    exact .ofChecked (h.get hStore (hOperand target) positions mode)
  | getPath target p =>
    refine Action.Maintains.bind Action.Maintains.getThe ?_
    intro world hStore
    exact .ofChecked (h.getAlong hStore (hOperand target) p.steps 0)
  | assign target positions value mode =>
    exact h.assign (hOperand target) positions (hOperand value) mode
  | assignPath target steps value level =>
    exact h.assignPath (hOperand target) steps (hOperand value) level
  | bind e name value =>
    refine Action.Maintains.bind (Q := fun _ => True) ?_ fun _ _ => .pure (h.environment e)
    intro world hStore
    exact ⟨hStore.bind (hOperand value) e name, fun _ _ => trivial⟩

theorem step {w : Workspace} (hw : w.Has P) (operation : Operation) : (w.step operation).Has P := by
  obtain ⟨hStore, hReturned⟩ := h.maintains_perform hw.values operation w.world hw.store
  unfold Workspace.step
  rcases hRun : (operation.perform w.values).run w.world with ⟨_ | x, world⟩
  · rw [hRun] at hStore
    exact ⟨hStore, hw.values⟩
  · rw [hRun] at hStore hReturned
    refine ⟨hStore, ?_⟩
    intro y hy
    rcases List.mem_append.mp hy with hOld | hNew
    · exact hw.values y hOld
    · rw [List.mem_singleton.mp hNew]
      exact hReturned x rfl

/-- Any number of operations. -/
theorem run {w : Workspace} (hw : w.Has P) (operations : List Operation) :
    (w.run operations).Has P := by
  induction operations generalizing w with
  | nil => exact hw
  | cons operation rest ih => exact ih (h.step hw operation)

end Value.Invariant

end VectorIndexing
