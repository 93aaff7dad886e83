import VectorIndexing.Conversion
import VectorIndexing.Store

/-!
# Coercion

What coercion keeps, and when it succeeds.

* `Value.layout_of_coerce`: coercion keeps the length and the attributes.
* `Value.exists_coerce_of_join`: what joins can be coerced to the join.
-/

namespace VectorIndexing

/-! ## What it keeps -/

/-- Coercion changes elements one by one and leaves the attributes as they are. -/
theorem Value.layout_of_coerce {x : Value} {kind : VectorKind} {v : TypedVector kind}
    (h : x.coerce kind = .ok v) :
    v.attributes = x.attributes?.getD {} ∧ ∀ store, v.length = x.length store := by
  cases x with
  | null =>
    cases h
    exact ⟨rfl, fun _ => rfl⟩
  | atomic k elements attributes =>
    cases kind with
    | atomic target =>
      simp only [coerce] at h
      split at h
      · cases h
        exact ⟨rfl, fun _ => by simp [TypedVector.length, Value.length]⟩
      · cases h
    | list =>
      cases h
      exact ⟨rfl, fun _ => by simp [TypedVector.length, Value.length]⟩
  | list elements attributes =>
    cases kind with
    | atomic target => cases h
    | list =>
      cases h
      exact ⟨rfl, fun _ => rfl⟩
  | closure _ | environment _ | s4 _ => cases kind <;> cases h

theorem Value.names_of_coerce {x : Value} {kind : VectorKind} {v : TypedVector kind}
    (h : x.coerce kind = .ok v) : v.attributes.names = x.names? := by
  rw [(layout_of_coerce h).1, names?]
  cases x.attributes? <;> rfl

/-- Coercion to a kind of vector, whichever kind the value has at first. -/
theorem Value.coerceToKind_vector (x : Value) (kind : VectorKind) :
    x.coerceToKind (.vector kind) = (x.coerce kind).map TypedVector.toValue := by
  unfold coerceToKind
  split
  · next h =>
    cases x with
    | atomic k elements attributes =>
      cases h
      simp [coerce, AtomicKind.convert?_self, TypedVector.toValue, Except.map]
    | list elements attributes =>
      cases h
      rfl
    | null | closure _ | environment _ | s4 _ => cases h
  · rfl

/-! ## When it succeeds -/

/-- Whether the value is `NULL` or a vector, the values that hold elements by position. -/
def Value.isSequence : Value → Bool
  | null | atomic .. | list .. => true
  | _ => false

theorem TypedVector.isSequence_toValue {kind : VectorKind} (x : TypedVector kind) :
    x.toValue.isSequence := by
  cases kind <;> rfl

theorem TypedVector.isNull_toValue {kind : VectorKind} (x : TypedVector kind) :
    x.toValue.isNull = false := by
  cases kind <;> rfl

theorem TypedVector.length_toValue {kind : VectorKind} (x : TypedVector kind) (store : Store) :
    x.toValue.length store = x.length := by
  cases kind <;> rfl

theorem AtomicKind.join_of_join {a b k : AtomicKind} (h : a.join b = some k) :
    a.join k = some k := by
  cases a <;> cases b <;> simp [join, rank] at h <;> subst h <;> rfl

/-- A value that joins another kind can be coerced to the join. -/
theorem Value.exists_coerce_of_join {x : Value} (hx : x.isSequence) {other : Kind}
    {kind : VectorKind} (h : x.kind.join other = some (.vector kind)) :
    ∃ v, x.coerce kind = .ok v := by
  cases x with
  | null => exact ⟨_, rfl⟩
  | list elements attributes =>
    have hKind : kind = .list := by
      cases other <;> simp [Value.kind, Kind.join] at h <;> exact h.symm
    subst hKind
    exact ⟨_, rfl⟩
  | atomic k elements attributes =>
    cases kind with
    | list => exact ⟨_, rfl⟩
    | atomic target =>
      have hJoin : k.join target = some target := by
        cases other with
        | vector other =>
          cases other with
          | atomic other =>
            simp [Value.kind, Kind.join, VectorKind.join] at h
            exact AtomicKind.join_of_join h
          | list => simp [Value.kind, Kind.join, VectorKind.join] at h
        | null =>
          simp [Value.kind, Kind.join] at h
          subst h
          simp [AtomicKind.join]
        | closure | environment | s4 | symbol => simp [Value.kind, Kind.join] at h
      obtain ⟨f, hf⟩ :=
        Option.isSome_iff_exists.mp ((AtomicKind.isSome_convert?_iff k target).mpr hJoin)
      exact ⟨⟨elements.map f, attributes⟩, by simp [coerce, hf]⟩
  | closure _ | environment _ | s4 _ => cases hx

end VectorIndexing
