import VectorIndexing.Proofs.ReadBack.Slot

/-!
# Reading back from a container

An assignment under `[[` that does not descend changes one slot of a vector or one binding of
an environment, and reading at the same position gives back what was written there.

* `Value.Stored`: what such an assignment does, and what is read afterwards.
* `Value.stored_of_assignDirect`: every successful one does this.
-/

namespace VectorIndexing

/-- What is read from a slot that a value was written to: the value itself from a list, and from
an atomic vector the element it was converted to, without attributes. -/
def VectorKind.ReadsBack : VectorKind → Value → Value → Prop
  | .atomic k, value, r => ∃ v, value.coerce (.atomic k) = .ok v ∧ r = .atomic k v.elements {}
  | .list, value, r => r = value

/-- Writing `value` at `p` turned the container into another one, from which `r` is read. -/
inductive Value.Stored (value : Value) (p : Position) (before after : Store) :
    Value → Value → Value → Prop
  /-- A slot of a vector was written to, and the other elements are those of the coerced
  container. -/
  | vector {container r : Value} {kind : VectorKind} (x y : TypedVector kind) (o : Nat)
      (hContainer : container.coerce kind = .ok x)
      (hSlot : p.selectOne (container.length before) container.names? .write = .ok (.slot o))
      (hOthers : ∀ i, i < container.length before → i ≠ o → y.elements[i]? = x.elements[i]?)
      (hRead : kind.ReadsBack value r) (hStore : after = before) :
      Stored value p before after container y.toValue r
  | environment (e : EnvRef) (name : String) (hName : p = .names [some name])
      (hStore : after = before.bind e name value) :
      Stored value p before after (.environment e) (.environment e) value
  | s4 (object : S4Object) (e : EnvRef) (name : String) (hData : object.data = some e)
      (hName : p = .names [some name]) (hStore : after = before.bind e name value) :
      Stored value p before after (.s4 object) (.s4 object) value

/-! ## Environments -/

theorem boundName_eq_ok {positions : List Position} {mode : Mode} {name : String} :
    boundName positions mode = .ok name ↔ mode = .element ∧ positions = [.names [some name]] := by
  constructor
  · intro h
    unfold boundName at h
    split at h
    · cases h
    · cases h
      exact ⟨rfl, rfl⟩
    · cases h
  · rintro ⟨rfl, rfl⟩
    rfl

theorem Action.run_bindName_eq_ok {e : EnvRef} {p : Position} {value : Value}
    {world final : World} :
    (bindName e [p] value .element).run world = (.ok (), final)
      ↔ ∃ name, p = .names [some name]
          ∧ final = { world with store := world.store.bind e name value } := by
  unfold bindName
  rw [run_bind, run_ofExcept]
  constructor
  · intro h
    cases hName : boundName [p] .element with
    | error e =>
      rw [hName] at h
      cases h
    | ok name =>
      rw [hName] at h
      cases h
      exact ⟨name, (List.cons.inj (boundName_eq_ok.mp hName).2).1, rfl⟩
  · rintro ⟨name, rfl, rfl⟩
    rfl

theorem Store.get_bind (store : Store) (e : EnvRef) (name : String) (value : Value) :
    (store.bind e name value).get e [.names [some name]] .element = .ok value := by
  simp [Store.get, boundName, binding_bind, Except.map]

/-! ## Vectors -/

/-- Under `[[` one element is written, and it reads back as it should. -/
theorem Replacement.exists_element_of_ofValue {container value : Value}
    (hContainer : container.isSequence) (hValue : value.isNull = false)
    {replacement : Replacement} (h : ofValue container value .element = .ok replacement) :
    ∃ e, replacement.elements = [e]
      ∧ replacement.kind.ReadsBack value (replacement.kind.valueOf e) := by
  cases hBoxes : container.boxes value .element with
  | true =>
    rw [ofValue_boxed hBoxes] at h
    cases h
    exact ⟨value, rfl, rfl⟩
  | false =>
    obtain ⟨kind, v, hJoin, hv, hLength, rfl⟩ := (ofValue_unboxed_eq_ok hBoxes).mp h
    obtain ⟨e, he⟩ := List.length_eq_one_iff.mp hLength
    refine ⟨e, he, ?_⟩
    cases kind with
    | atomic k =>
      refine ⟨v, hv, ?_⟩
      rw [he]
      rfl
    | list =>
      -- a value that is not stored whole does not make a list of the container
      exfalso
      cases container with
      | null => cases value <;> simp_all [Value.boxes, Value.kind, Kind.join, Value.isNull]
      | atomic k xs a =>
        cases value <;>
          simp_all [Value.boxes, Value.kind, Kind.join, VectorKind.join, Value.isNull]
      | list xs a => cases hBoxes
      | closure _ | environment _ | s4 _ => cases hContainer

namespace Value

variable {container value result : Value} {p : Position} {world final : World}

/-- An overwritten vector reads back what was written. -/
theorem stored_of_overwrite (hp : p.length? = some 1) (hFindable : p.isFindable)
    (hContainer : container.isSequence) (hValue : value.isNull = false) {store : Store}
    {session after : Session}
    (h : (container.overwrite store [p] value .element).run session = (.ok result, after)) :
    ∃ r, Stored value p store store container result r ∧
      ∀ session, (result.getDirect store [p] .element).run session = (.ok r, session) := by
  obtain ⟨replacement, plan, middle, x, hReplacement, hPlan, hFit, hx, rfl⟩ :=
    run_overwrite_eq_ok.mp h
  obtain ⟨e, he, hRead⟩ := Replacement.exists_element_of_ofValue hContainer hValue hReplacement
  obtain ⟨pick, hPick, rfl, rfl⟩ := Layout.run_planStorage_element_eq_ok.mp hPlan
  obtain ⟨⟨o, hOffsets⟩, -⟩ := Plan.run_checkFit_element_eq_ok.mp hFit
  have hSlot : pick = .slot o := by
    cases pick with
    | missing => cases hOffsets
    | slot o' =>
      cases hOffsets
      rfl
  subst hSlot
  have hLengths := (layout_of_coerce hx).2
  have hLength : (container.layout store).length = x.length := (hLengths store).symm
  have hNames : (container.layout store).names = x.attributes.names := (names_of_coerce hx).symm
  rw [he]
  refine ⟨replacement.kind.valueOf e, ?_, ?_⟩
  · refine .vector x _ o hx hPick ?_ hRead rfl
    intro i hi hne
    have hOld : i < x.length := by
      rw [hLengths store]
      exact hi
    have hWritten := TypedVector.written_assign_pick (container.layout store) x p o e
    exact hWritten.kept i hOld fun hMem => hne (Option.some.inj (List.mem_singleton.mp hMem))
  · exact TypedVector.run_getDirect_assign store hp hFindable hLength hNames hPick

theorem stored_of_assignDirect (hp : p.length? = some 1) (hFindable : p.isFindable)
    (hValue : value.isNull = false)
    (h : (container.assignDirect [p] value .element).run world = (.ok result, final)) :
    ∃ r, Stored value p world.store final.store container result r ∧
      ∀ session, (result.getDirect final.store [p] .element).run session = (.ok r, session) := by
  have hSequence : container.isSequence →
      ∃ r, Stored value p world.store final.store container result r ∧
        ∀ session, (result.getDirect final.store [p] .element).run session
          = (.ok r, session) := by
    intro hContainer
    rw [run_assignDirect_eq_overwrite hContainer hValue] at h
    obtain ⟨hOutcome, rfl⟩ := Prod.mk.inj h
    exact stored_of_overwrite hp hFindable hContainer hValue (Prod.ext hOutcome rfl)
  cases container with
  | null | atomic _ _ _ | list _ _ => exact hSequence rfl
  | closure f => cases h
  | environment e =>
    obtain ⟨_, middle, hBind, hDone⟩ := Action.run_bind_eq_ok.mp h
    obtain ⟨name, rfl, rfl⟩ := Action.run_bindName_eq_ok.mp hBind
    cases hDone
    exact ⟨value, .environment e name rfl rfl, fun session =>
      Checked.run_ofExcept_eq_ok.mpr ⟨Store.get_bind .., rfl⟩⟩
  | s4 object =>
    cases hData : object.data with
    | none =>
      simp only [assignDirect, hData] at h
      cases h
    | some e =>
      simp only [assignDirect, hData] at h
      obtain ⟨_, middle, hBind, hDone⟩ := Action.run_bind_eq_ok.mp h
      obtain ⟨name, rfl, rfl⟩ := Action.run_bindName_eq_ok.mp hBind
      cases hDone
      refine ⟨value, .s4 object e name hData rfl rfl, ?_⟩
      intro session
      simp only [getDirect, hData]
      exact Checked.run_ofExcept_eq_ok.mpr ⟨Store.get_bind .., rfl⟩

end Value

end VectorIndexing
