import VectorIndexing.Proofs.Arrays.Bounds
import VectorIndexing.Proofs.Overwriting.Outcome
import VectorIndexing.Proofs.Warnings

/-!
# Why an assignment is refused

The assignment of a value other than `NULL` to `NULL`, a vector or a list is checked in five
respects, one after another: the kinds, the length under `[[`, the positions, missing positions
under `[[`, and the length under `[`. It fails with the first objection, and if there is none it
succeeds: what remains to be done cannot fail.

* `Value.objections`: the five checks.
* `Replacement.ofValue_of_objections`, `Plan.run_checkFit_of_objections`: the checks before and
  after planning.
* `Value.run_assign_of_objections`: the outcome of the assignment, and its warnings.
-/

namespace VectorIndexing

/-! ## Objections -/

namespace Value

/-- Under `[[` the value becomes one element of a list. It does so if either side is a list, and
in `NULL` unless it is an atomic vector of length one. -/
def StoredWhole (container value : Value) (mode : Mode) : Prop :=
  mode = .element ∧ (container.kind = .list ∨ value.kind = .list
    ∨ container.kind = .null ∧ ¬ ∃ k x a, value = atomic k [x] a)

theorem boxes_eq_true_iff {container value : Value} {mode : Mode} :
    container.boxes value mode = true ↔ container.StoredWhole value mode := by
  cases mode with
  | subset => simp [StoredWhole]
  | element =>
    cases container <;> cases value <;> simp [StoredWhole, boxes, kind, List.length_eq_one_iff]

instance (container value : Value) (mode : Mode) : Decidable (container.StoredWhole value mode) :=
  decidable_of_iff _ boxes_eq_true_iff

/-- The kinds have to join. -/
def kindObjection (container value : Value) (mode : Mode) : Option Error :=
  if container.StoredWhole value mode then none
  else if container.kind.join value.kind = none then
    some (.subassignTypeFix value.kind container.kind)
  else none

/-- Under `[[` there has to be one element. -/
def lengthObjection (store : Store) (container value : Value) (mode : Mode) : Option Error :=
  if mode = .element ∧ ¬ container.StoredWhole value mode then
    if value.length store = 0 then some .replacementZero
    else if 1 < value.length store then some .moreElementsSupplied
    else none
  else none

end Value

namespace Plan

/-- Under `[[` the element must not be missing. -/
def missingObjection (plan : Plan) (mode : Mode) : Option Error :=
  if mode = .element ∧ plan.offsets = [none] then some .naSubscripted else none

/-- The number of values does not divide the number of slots. -/
def Misfits (plan : Plan) (length : Nat) (mode : Mode) : Prop :=
  mode = .subset ∧ plan.offsets ≠ [] ∧ ¬ length ∣ plan.offsets.length

instance (plan : Plan) (length : Nat) (mode : Mode) : Decidable (plan.Misfits length mode) :=
  inferInstanceAs (Decidable (_ ∧ _ ∧ _))

/-- Under `[` values for slots must exist, several of them for slots that exist, and as many as go
into the slots without rest if warnings are errors. -/
def fitObjection (plan : Plan) (length : Nat) (mode : Mode) (level : WarningLevel) :
    Option Error :=
  if mode = .subset ∧ plan.offsets ≠ [] then
    if length = 0 then some .replacementZero
    else if 1 < length ∧ none ∈ plan.offsets then some .naSubscripted
    else if plan.Misfits length mode ∧ level = .error then
      some (.convertedWarning .notMultipleReplacement)
    else none
  else none

end Plan

/-- The objection that a result is if it is an error. -/
def Except.objection {α : Type} : Except Error α → Option Error
  | .error e => some e
  | .ok _ => none

/-- What there is to object to an assignment, in the order of the checks. -/
def Value.objections (world : World) (container : Value) (positions : List Position)
    (value : Value) (mode : Mode) : List (Option Error) :=
  let planned := (((container.layout world.store).plan positions mode .write).run world.session).1
  [container.kindObjection value mode,
    container.lengthObjection world.store value mode,
    Except.objection planned,
    planned.toOption.bind fun plan => plan.missingObjection mode,
    planned.toOption.bind fun plan =>
      plan.fitObjection (value.length world.store) mode world.session.level]

/-! ## What is to be written -/

section Stages

variable {container value : Value} {mode : Mode} {kind : VectorKind}

/-- A value that joins the kind of a container is one itself. -/
theorem Value.isSequence_of_join (hContainer : container.isSequence) {joined : Kind}
    (h : container.kind.join value.kind = some joined) : value.isSequence := by
  cases value with
  | null | atomic _ _ _ | list _ _ => rfl
  | closure _ | environment _ | s4 _ =>
    cases container with
    | null | atomic _ _ _ | list _ _ => cases h
    | closure _ | environment _ | s4 _ => cases hContainer

/-- A value other than `NULL` joins a container in a kind of vector. -/
theorem Value.exists_vector_of_join (hContainer : container.isSequence)
    (hValue : value.isNull = false) {joined : Kind}
    (h : container.kind.join value.kind = some joined) : ∃ kind, joined = .vector kind := by
  have hSequence := Value.isSequence_of_join hContainer h
  cases value with
  | null => cases hValue
  | atomic _ _ _ | list _ _ => exact Kind.exists_vector_of_join h
  | closure _ | environment _ | s4 _ => cases hSequence

theorem Value.exists_coerce_list {x : Value} (hx : x.isSequence) :
    ∃ v, x.coerce .list = .ok v := by
  cases x with
  | null | atomic _ _ _ | list _ _ => exact ⟨_, rfl⟩
  | closure _ | environment _ | s4 _ => cases hx

/-- Under `[[` the elements of a value that is not stored whole are counted. -/
theorem Replacement.ofValue_unboxed (hBoxes : container.boxes value .element = false)
    (hJoin : container.kind.join value.kind = some (.vector kind)) {v : TypedVector kind}
    (hv : value.coerce kind = .ok v) :
    ofValue container value .element = (checkSingle v.length).map fun _ => ⟨kind, v.elements⟩ := by
  have hKind := Kind.vectorFor_eq_ok.mpr hJoin
  simp only [ofValue, hBoxes, hKind, hv, bind, Except.bind]
  cases checkSingle v.length <;> rfl

theorem Replacement.checkSingle_length (hWhole : ¬ container.StoredWhole value .element)
    (store : Store) :
    checkSingle (value.length store)
      = match container.lengthObjection store value .element with
        | some e => .error e
        | none => .ok () := by
  have hCounted : Mode.element = Mode.element ∧ ¬ container.StoredWhole value .element :=
    ⟨rfl, hWhole⟩
  unfold checkSingle Value.lengthObjection
  rw [if_pos hCounted]
  by_cases hZero : value.length store = 0
  · rw [if_pos hZero, if_pos hZero]
  · rw [if_neg hZero, if_neg hZero]
    by_cases hOne : value.length store = 1
    · rw [if_pos hOne, if_neg (by omega)]
    · rw [if_neg hOne, if_pos (by omega)]

/-- The first two checks decide whether there is something to be written. If there is, it is under
`[` as long as the value, and the container can become a vector of its kind. -/
theorem Replacement.ofValue_of_objections (hContainer : container.isSequence)
    (hValue : value.isNull = false) (store : Store) :
    match (container.kindObjection value mode).or (container.lengthObjection store value mode) with
    | some e => ofValue container value mode = .error e
    | none => ∃ replacement, ∃ target : TypedVector replacement.kind,
        ofValue container value mode = .ok replacement
        ∧ (mode = .subset → replacement.elements.length = value.length store)
        ∧ container.coerce replacement.kind = .ok target := by
  by_cases hWhole : container.StoredWhole value mode
  · -- the value becomes an element as it is, and every container becomes a list
    obtain ⟨target, hTarget⟩ := Value.exists_coerce_list hContainer
    have hSubset : mode ≠ .subset := by
      rintro rfl
      cases hWhole.1
    simp only [Value.kindObjection, Value.lengthObjection, hWhole, if_true, not_true_eq_false,
      and_false, if_false, Option.or_none]
    exact ⟨⟨.list, [value]⟩, target, ofValue_boxed (Value.boxes_eq_true_iff.mpr hWhole),
      fun h => absurd h hSubset, hTarget⟩
  · have hBoxes : container.boxes value mode = false := by
      rwa [Bool.eq_false_iff, Ne, Value.boxes_eq_true_iff]
    cases hJoin : container.kind.join value.kind with
    | none =>
      simp only [Value.kindObjection, hWhole, hJoin, if_false, if_true, Option.some_or]
      exact ofValue_of_join_none hBoxes hJoin
    | some joined =>
      obtain ⟨kind, rfl⟩ := Value.exists_vector_of_join hContainer hValue hJoin
      obtain ⟨target, hTarget⟩ := Value.exists_coerce_of_join hContainer hJoin
      obtain ⟨v, hv⟩ : ∃ v, value.coerce kind = .ok v :=
        Value.exists_coerce_of_join (Value.isSequence_of_join hContainer hJoin)
          ((Kind.join_comm ..).trans hJoin)
      have hLength : v.length = value.length store := (Value.layout_of_coerce hv).2 store
      have hKinds : container.kindObjection value mode = none := by
        simp [Value.kindObjection, hWhole, hJoin]
      rw [hKinds, Option.none_or]
      cases mode with
      | subset =>
        have hSingle : container.lengthObjection store value .subset = none := by
          simp [Value.lengthObjection]
        rw [hSingle]
        exact ⟨⟨kind, v.elements⟩, target,
          ofValue_subset_eq_ok.mpr ⟨kind, v, hJoin, hv, rfl⟩, fun _ => hLength, hTarget⟩
      | element =>
        have hRun := ofValue_unboxed hBoxes hJoin hv
        rw [hLength, checkSingle_length hWhole] at hRun
        cases hSingle : container.lengthObjection store value .element with
        | some e =>
          rw [hSingle] at hRun
          exact hRun
        | none =>
          rw [hSingle] at hRun
          exact ⟨⟨kind, v.elements⟩, target, hRun, (fun h => nomatch h), hTarget⟩

/-! ## Whether it fits -/

/-- Under `[[` a plan is one slot, which may be missing. -/
theorem Layout.exists_of_plan_element {layout : Layout} {positions : List Position}
    {purpose : Purpose} {session final : Session} {plan : Plan}
    (h : (layout.plan positions .element purpose).run session = (.ok plan, final)) :
    ∃ o, plan.offsets = [o] := by
  rcases plan_cases h with ⟨p, hp⟩ | ⟨hArity, -, hArray⟩
  · obtain ⟨pick, -, rfl, -⟩ := run_planStorage_element_eq_ok.mp hp
    cases pick <;> exact ⟨_, rfl⟩
  · obtain ⟨o, ho⟩ := exists_of_planArray_element hArity hArray
    exact ⟨some o, ho⟩

end Stages

/-- The session with warnings collected, provided that it collects them. -/
def Session.collect (session : Session) (warnings : List Warning) : Session :=
  match session.level with
  | .defer | .immediate => { session with warnings := session.warnings ++ warnings }
  | .ignore | .error => session

@[simp] theorem Session.collect_nil (session : Session) : session.collect [] = session := by
  rcases session with ⟨level, collected⟩
  cases level <;> simp [collect]

namespace Plan

variable {plan : Plan} {length : Nat} {mode : Mode}

theorem hasMissing_eq_true_iff : plan.hasMissing = true ↔ none ∈ plan.offsets := by
  simp [hasMissing, Slots.hasMissing]

theorem isEmpty_eq_true_iff : plan.isEmpty = true ↔ plan.offsets = [] := by
  simp [isEmpty]

/-- The warning under `[` that the number of values does not divide the number of slots. -/
def misfitWarnings (plan : Plan) (length : Nat) (mode : Mode) : List Warning :=
  if plan.Misfits length mode then [.notMultipleReplacement] else []

/-- The last two checks decide whether the values fit. If they do, all there may be is the warning,
and it is not escalated. -/
theorem run_checkFit_of_objections (hElement : mode = .element → ∃ o, plan.offsets = [o])
    (session : Session) :
    (plan.checkFit length mode).run session
      = match (plan.missingObjection mode).or (plan.fitObjection length mode session.level) with
        | some e => (.error e, session)
        | none => (.ok (), session.collect (plan.misfitWarnings length mode)) := by
  cases mode with
  | element =>
    obtain ⟨o, ho⟩ := hElement rfl
    cases o with
    | none => simp [checkFit, missingObjection, ho]
    | some o => simp [checkFit, missingObjection, fitObjection, misfitWarnings, Misfits, ho]
  | subset =>
    rw [run_checkFit_subset]
    simp only [isEmpty_eq_true_iff, hasMissing_eq_true_iff, missingObjection, fitObjection,
      misfitWarnings, Misfits]
    by_cases hEmpty : plan.offsets = []
    · simp [hEmpty]
    · by_cases hZero : length = 0
      · simp [hEmpty, hZero]
      · by_cases hMissing : 1 < length ∧ none ∈ plan.offsets
        · simp [hEmpty, hZero, hMissing]
        · have hMod : plan.length % length = 0 ↔ length ∣ plan.offsets.length :=
            (Nat.dvd_iff_mod_eq_zero ..).symm
          simp only [hEmpty, hZero, hMissing, hMod, if_false, true_and, ne_eq, not_false_eq_true,
            if_true]
          by_cases hDvd : length ∣ plan.offsets.length
          · simp [hDvd]
          · rcases session with ⟨level, collected⟩
            rw [run_warn]
            cases level <;> simp [hDvd, Session.collect]

end Plan

/-! ## The outcome -/

namespace Value

variable {container value : Value} {positions : List Position} {mode : Mode}

/-- The first objection is made before planning, in planning or to the plan. -/
theorem findSome?_objections (world : World) :
    (container.objections world positions value mode).findSome? id
      = ((container.kindObjection value mode).or
          (container.lengthObjection world.store value mode)).or
        (match (((container.layout world.store).plan positions mode .write).run
            world.session).1 with
          | .error e => some e
          | .ok plan => (plan.missingObjection mode).or
              (plan.fitObjection (value.length world.store) mode world.session.level)) := by
  have hFirst : ∀ (o : Option Error) (rest : List (Option Error)),
      (o :: rest).findSome? id = o.or (rest.findSome? id) := by
    intro o rest
    cases o <;> rfl
  unfold objections
  generalize (((container.layout world.store).plan positions mode .write).run world.session).1
    = planned
  simp only [hFirst, List.findSome?_nil, Option.or_none, Option.or_assoc]
  cases planned <;> rfl

/-- Once it is settled what is to be written, planning and fitting have to succeed. -/
theorem run_overwrite_of_ofValue {replacement : Replacement}
    {target : TypedVector replacement.kind}
    (hReplacement : Replacement.ofValue container value mode = .ok replacement)
    (hTarget : container.coerce replacement.kind = .ok target) (store : Store)
    (session : Session) :
    (container.overwrite store positions value mode).run session
      = match ((container.layout store).plan positions mode .write).run session with
        | (.error e, planned) => (.error e, planned)
        | (.ok plan, planned) =>
          match (plan.checkFit replacement.elements.length mode).run planned with
          | (.error e, final) => (.error e, final)
          | (.ok _, final) => (.ok (target.assign plan replacement.elements).toValue, final) := by
  rw [overwrite, hReplacement, Checked.run_bind, Checked.run_ofExcept]
  dsimp only
  rw [Checked.run_bind]
  rcases ((container.layout store).plan positions mode .write).run session with ⟨_ | plan, planned⟩
  · rfl
  · dsimp only
    rw [Checked.run_bind]
    rcases (plan.checkFit replacement.elements.length mode).run planned with ⟨_ | _, final⟩
    · rfl
    · dsimp only
      rw [hTarget]
      rfl

/-- An assignment fails with the first objection. If there is none it succeeds, whatever the
positions mean, and has warned of what planning warns of and then of values that do not go into
the slots without rest. -/
theorem run_assign_of_objections (hContainer : container.isSequence)
    (hValue : value.isNull = false) (hPath : container.pathSteps? positions mode = none)
    (world : World) :
    match (container.objections world positions value mode).findSome? id with
    | some e => ((container.assign positions value mode).run world).1 = .error e
    | none => ∃ plan planned result,
        ((container.layout world.store).plan positions mode .write).run world.session
          = (.ok plan, planned)
        ∧ (container.assign positions value mode).run world
          = (.ok result, { world with
              session := planned.collect
                (plan.misfitWarnings (value.length world.store) mode) }) := by
  have hReplacement :=
    @Replacement.ofValue_of_objections container value mode hContainer hValue world.store
  rw [run_assign_eq_overwrite hContainer hValue hPath, findSome?_objections]
  cases hKinds : (container.kindObjection value mode).or
      (container.lengthObjection world.store value mode) with
  | some e =>
    rw [hKinds] at hReplacement
    rw [Option.some_or, run_overwrite_of_ofValue_error hReplacement]
  | none =>
    rw [hKinds] at hReplacement
    obtain ⟨replacement, target, hReplacement, hLength, hTarget⟩ := hReplacement
    rw [Option.none_or, run_overwrite_of_ofValue hReplacement hTarget]
    have hLevel := ((container.layout world.store).reporting_plan positions mode .write).level_run
      world.session
    rcases hPlan : ((container.layout world.store).plan positions mode .write).run world.session
      with ⟨_ | plan, planned⟩
    · rfl
    · -- under `[[` fitting does not look at the length, and under `[` it is that of the value
      have hFit : plan.checkFit replacement.elements.length mode
          = plan.checkFit (value.length world.store) mode := by
        cases mode with
        | element => rfl
        | subset => rw [hLength rfl]
      have hElement : mode = .element → ∃ o, plan.offsets = [o] := by
        rintro rfl
        exact Layout.exists_of_plan_element hPlan
      rw [hPlan] at hLevel
      dsimp only at hLevel ⊢
      rw [hFit, Plan.run_checkFit_of_objections hElement, hLevel]
      cases (plan.missingObjection mode).or
        (plan.fitObjection (value.length world.store) mode world.session.level) with
      | some e => rfl
      | none => exact ⟨plan, planned, _, rfl, rfl⟩

/-- Two flags for three elements are a matter of planning, three integers for the two slots that it
finds are one of fitting. Here it is the first of them that is escalated. -/
theorem run_assign_of_objections_mask :
    ((assign (.atomic .logical [some true, none, some false] {}) [.mask [some true, some false]]
        (.atomic .integer [some 5, some 6, some 7] {}) .subset).run
          { session := { level := .error } }).1
      = .error (.convertedWarning .lengthMismatch) :=
  @run_assign_of_objections (.atomic .logical [some true, none, some false] {})
    (.atomic .integer [some 5, some 6, some 7] {}) [.mask [some true, some false]] .subset
    rfl rfl rfl { session := { level := .error } }

end Value

end VectorIndexing
