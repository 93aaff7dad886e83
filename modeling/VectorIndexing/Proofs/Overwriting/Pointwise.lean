import VectorIndexing.Proofs.Overwriting.Outcome

/-!
# Overwriting, element by element

What `x[...] <- value` leaves in each slot, in the names and in the other attributes, in terms
of the plan of the positions alone.

* `Value.overwritten_of_assign`: every successful assignment of a vector does this, whatever
  the kinds and the positions.
* `Value.assign_stores_names`: positions that carry names store them, so the names of new slots
  need not be empty.
-/

namespace VectorIndexing

/-- `y` is the container after `value` was written to it as planned; `x` and `v` are the
container and the value, coerced to the kind in which they meet. -/
structure Value.Overwritten (store : Store) (container value : Value) (plan : Plan)
    {kind : VectorKind} (x v y : TypedVector kind) : Prop where
  join : container.kind.join value.kind = some (.vector kind)
  container_coerced : container.coerce kind = .ok x
  value_coerced : value.coerce kind = .ok v
  /-- Without offsets the container is coerced, and no more. -/
  unchanged : plan.isEmpty = true → container.coerceToKind (.vector kind) = .ok y.toValue
  length : plan.isEmpty = false → y.length = max (container.length store) plan.reach
  elements : plan.isEmpty = false →
    Slots.Written kind.fill x.elements plan.offsets
      (fun j => v.elements[j % value.length store]?) y.elements
  dim : plan.isEmpty = false →
    y.attributes.dim = if plan.reach ≤ container.length store then container.dim? else none
  dimnames : plan.isEmpty = false →
    y.attributes.dimnames
      = if plan.reach ≤ container.length store then container.dimnames? else none
  others : plan.isEmpty = false →
    y.attributes.others = container.attributes?.bind Attributes.others
  /-- Positions without names leave the names as they are. -/
  names_kept : plan.isEmpty = false → plan.names = none →
    y.attributes.names = container.names?.map (Slots.extend (some "") y.length)
  /-- Positions with names store them at the offsets, next to the names that were there or
  the empty names of a container without names. -/
  names_written : plan.isEmpty = false → ∀ given, plan.names = some given →
    ∃ names, y.attributes.names = some names ∧
      Slots.Written (some "")
        (container.names?.getD (List.replicate (container.length store) (some "")))
        plan.offsets (given[·]?) names

namespace TypedVector

variable {kind : VectorKind} {x : TypedVector kind} {plan : Plan} {values : List kind.Elem}

theorem dim_assign (hPlan : plan.isEmpty = false) (hValues : values ≠ []) :
    (x.assign plan values).attributes.dim
      = if plan.reach ≤ x.length then x.attributes.dim else none := by
  rw [attributes_assign hPlan hValues]
  cases plan.names <;> simp only [attributes_extend] <;> split <;> rfl

theorem dimnames_assign (hPlan : plan.isEmpty = false) (hValues : values ≠ []) :
    (x.assign plan values).attributes.dimnames
      = if plan.reach ≤ x.length then x.attributes.dimnames else none := by
  rw [attributes_assign hPlan hValues]
  cases plan.names <;> simp only [attributes_extend] <;> split <;> rfl

theorem others_assign (hPlan : plan.isEmpty = false) (hValues : values ≠ []) :
    (x.assign plan values).attributes.others = x.attributes.others := by
  rw [attributes_assign hPlan hValues]
  cases plan.names <;> simp only [attributes_extend] <;> split <;> rfl

theorem names_assign_of_unnamed (hPlan : plan.isEmpty = false) (hValues : values ≠ [])
    (hNames : ∀ names, x.attributes.names = some names → names.length = x.length)
    (hUnnamed : plan.names = none) :
    (x.assign plan values).attributes.names
      = x.attributes.names.map (Slots.extend (some "") (x.assign plan values).length) := by
  rw [length_assign hPlan hValues, attributes_assign hPlan hValues, hUnnamed]
  have hGrown : (x.extend plan.reach).attributes.names
      = x.attributes.names.map (Slots.extend (some "") plan.reach) := names_extend _ hNames
  dsimp only
  rw [hGrown]
  cases hx : x.attributes.names with
  | none => rfl
  | some names =>
    have hStays : Slots.extend (some "") x.length names = names :=
      Slots.extend_of_le _ (Nat.le_of_eq (hNames names hx).symm)
    rw [Option.map_some, Option.map_some, ← Slots.extend_extend, hStays]

theorem names_assign_of_named (hPlan : plan.isEmpty = false) (hValues : values ≠ [])
    (hNames : ∀ names, x.attributes.names = some names → names.length = x.length)
    (hAligned : plan.NamesAligned) {given : Names} (hGiven : plan.names = some given) :
    ∃ names, (x.assign plan values).attributes.names = some names ∧
      Slots.Written (some "") x.namesOrEmpty plan.offsets (given[·]?) names := by
  rw [attributes_assign hPlan hValues, hGiven]
  refine ⟨_, rfl, ?_⟩
  rw [namesOrEmpty_extend _ hNames]
  exact Slots.written_putAll _ _ (hAligned given hGiven)

end TypedVector

namespace Value

/-- An assignment under `[` that succeeds has resolved its positions and overwritten the
container as planned. -/
theorem overwritten_of_assign {container value result : Value} {positions : List Position}
    {world final : World} (hContainer : container.isSequence)
    (hNames : ∀ names, container.names? = some names →
      names.length = container.length world.store)
    (hValue : value.kind.isVector)
    (h : (container.assign positions value .subset).run world = (.ok result, final)) :
    ∃ plan session, ∃ kind, ∃ x v y : TypedVector kind,
      ((container.layout world.store).plan positions .subset .write).run world.session
          = (.ok plan, session)
        ∧ result = y.toValue ∧ result.kind = .vector kind
        ∧ Overwritten world.store container value plan x v y := by
  have hNotNull : value.isNull = false := by
    cases value <;> first | rfl | cases hValue
  rw [run_assign_eq_ok hContainer hNotNull (pathSteps?_subset ..), run_overwrite_eq_ok] at h
  obtain ⟨⟨replacement, plan, middle, x, hReplacement, hPlan, hFit, hx, rfl⟩, -⟩ := h
  obtain ⟨kind, v, hJoin, hv, rfl⟩ := Replacement.ofValue_subset_eq_ok.mp hReplacement
  obtain ⟨hAttributes, hLength⟩ := layout_of_coerce hx
  have hLengthX := hLength world.store
  have hLengthV := (layout_of_coerce hv).2 world.store
  -- the attributes of the coerced container are those of the container
  have hNamesX : x.attributes.names = container.names? := by
    rw [hAttributes, names?]
    cases container.attributes? <;> rfl
  have hAligned : ∀ names, x.attributes.names = some names → names.length = x.length := by
    intro names hGiven
    rw [hLengthX]
    exact hNames names (hNamesX ▸ hGiven)
  have hElements : plan.isEmpty = false → v.elements ≠ [] := by
    intro hPlanned hNone
    exact Plan.length_ne_zero_of_run_checkFit hFit hPlanned (by rw [hNone]; rfl)
  refine ⟨plan, middle, kind, x, v, x.assign plan v.elements, hPlan, rfl,
    TypedVector.kind_toValue _, hJoin, hx, hv, ?_, ?_, ?_, ?_, ?_, ?_, ?_, ?_⟩
  · intro hEmpty
    rw [TypedVector.assign_of_isEmpty hEmpty, coerceToKind_vector, hx]
    rfl
  · intro hPlanned
    rw [← hLengthX]
    exact TypedVector.length_assign hPlanned (hElements hPlanned)
  · intro hPlanned
    rw [← hLengthV]
    exact TypedVector.written_assign hPlanned (hElements hPlanned)
  · intro hPlanned
    rw [TypedVector.dim_assign hPlanned (hElements hPlanned), hLengthX, hAttributes, dim?]
    cases container.attributes? <;> rfl
  · intro hPlanned
    rw [TypedVector.dimnames_assign hPlanned (hElements hPlanned), hLengthX, hAttributes,
      dimnames?]
    cases container.attributes? <;> rfl
  · intro hPlanned
    rw [TypedVector.others_assign hPlanned (hElements hPlanned), hAttributes]
    cases container.attributes? <;> rfl
  · intro hPlanned hUnnamed
    rw [← hNamesX]
    exact TypedVector.names_assign_of_unnamed hPlanned (hElements hPlanned) hAligned hUnnamed
  · intro hPlanned given hGiven
    rw [← hNamesX, ← hLengthX]
    exact TypedVector.names_assign_of_named hPlanned (hElements hPlanned) hAligned
      (Layout.namesAligned_of_plan hPlan) hGiven

/-- Flags become integers, the fourth slot is made and written to twice, and the indices bring
names of their own. -/
theorem overwritten_of_assign_named_indices :
    ∃ plan session, ∃ kind, ∃ x v y : TypedVector kind,
      ((layout ∅ (atomic .logical [some true, none] { names := some [some "a", some "b"] })).plan
          [.indices [some 4, some 1, some 4] (some [some "u", some "v", some "w"])]
          .subset .write).run {} = (.ok plan, session)
        ∧ atomic .integer [some 8, none, none, some 9]
            { names := some [some "v", some "b", some "", some "w"] } = y.toValue
        ∧ Kind.atomic .integer = .vector kind
        ∧ Overwritten ∅ (atomic .logical [some true, none] { names := some [some "a", some "b"] })
            (atomic .integer [some 7, some 8, some 9] {}) plan x v y := by
  refine @overwritten_of_assign
    (atomic .logical [some true, none] { names := some [some "a", some "b"] })
    (atomic .integer [some 7, some 8, some 9] {}) _ _ {} {} rfl ?_ rfl rfl
  intro names h
  cases h
  rfl

/-- An element that is created by name has that name, and not the empty one. -/
theorem assign_stores_names :
    ∃ result final,
      (assign (atomic .integer [some 1] { names := some [some "p"] }) [.names [some "q"]]
          (atomic .integer [some 2] {}) .subset).run {} = (.ok result, final)
        ∧ result.names? = some [some "p", some "q"]
        ∧ result.names? ≠ (some [some "p"]).map (Slots.extend (some "") 2) :=
  ⟨_, _, rfl, rfl, by decide⟩

end Value

end VectorIndexing
