import Mathlib.Data.List.Forall2
import VectorIndexing.Proofs.Numbers.WholeDoubles
import VectorIndexing.Writing.Assign

/-!
# Integers and doubles as indices

An integer vector and the same numbers as doubles mean the same position, with the same names, and
so a call may be given either. There is one number for which this fails: the smallest integer is an
index, but the double of it is out of bounds, since doubles are held against the greatest integer in
magnitude.

* `Position.indexOfDouble_ofInt`: the index of a double that holds an integer.
* `Position.ofValue_doubles`: the position of a vector of them.
* `Value.StandsFor`: integers written as doubles; `Value.getAt` and `Value.assignAt`: calls whose
  positions are given as values.
* `Value.positions_by_doubles`: when the two mean the same, and what follows for calls.
-/

namespace VectorIndexing

namespace Position

/-! ## Elements -/

/-- Doubles that hold integers are indices, except for the smallest integer. -/
theorem indexOfDouble_ofInt (n : Int32) :
    indexOfDouble (some (.ofInt n.toInt))
      = if n = Int32.minValue then .error .subscriptOutOfBounds else .ok (some n.toInt) := by
  have hLower : -2147483648 ≤ n.toInt := Int32.le_toInt n
  have hUpper : n.toInt < 2147483648 := Int32.toInt_lt n
  have hExact : (Double.ofInt n.toInt).truncate? = some n.toInt :=
    Double.truncate?_ofInt (by simp only [Double.exponentUnit]; omega)
  have hSmallest : n = Int32.minValue ↔ maxIndex < n.toInt.natAbs := by
    rw [← Int32.toInt_inj, Int32.toInt_minValue, maxIndex]
    omega
  simp only [indexOfDouble, Option.bind_some, hExact, hSmallest]

/-- Whatever else is among them, the smallest integer is refused. -/
theorem mapM_indexOfDouble (elements : List (Option Int32)) :
    (elements.map (Option.map fun n => Double.ofInt n.toInt)).mapM indexOfDouble
      = if some Int32.minValue ∈ elements then .error .subscriptOutOfBounds
        else .ok (elements.map (Option.map Int32.toInt)) := by
  induction elements with
  | nil => rfl
  | cons entry rest ih =>
    rw [List.map_cons, List.mapM_cons, ih]
    cases entry with
    | none =>
      have hMem : some Int32.minValue ∈ none :: rest ↔ some Int32.minValue ∈ rest := by simp
      simp only [hMem]
      split <;> rfl
    | some n =>
      rw [Option.map_some, indexOfDouble_ofInt]
      by_cases hFirst : n = Int32.minValue
      · subst hFirst
        rw [if_pos rfl, if_pos List.mem_cons_self]
        rfl
      · have hOther : some Int32.minValue ≠ some n := fun h => hFirst (Option.some.inj h).symm
        have hMem : some Int32.minValue ∈ some n :: rest ↔ some Int32.minValue ∈ rest := by
          simp [hOther]
        simp only [hMem, if_neg hFirst]
        split <;> rfl

/-! ## Vectors -/

theorem convertTo_double (elements : List (Option Int32)) (attributes : Attributes Value) :
    (Value.atomic .integer elements attributes).convertTo (.atomic .double)
      = .ok (.atomic .double (elements.map (Option.map fun n => Double.ofInt n.toInt))
          attributes) := rfl

/-- The position of integers as doubles. -/
theorem ofValue_doubles (elements : List (Option Int32)) (attributes : Attributes Value) :
    ofValue (.atomic .double (elements.map (Option.map fun n => Double.ofInt n.toInt)) attributes)
      = if some Int32.minValue ∈ elements then .error .subscriptOutOfBounds
        else ofValue (.atomic .integer elements attributes) := by
  simp only [ofValue, mapM_indexOfDouble]
  split <;> rfl

end Position

/-! ## Calls -/

namespace Value

/-- Whether the first value is the second, or the same integers as doubles. The smallest integer has
no such double. -/
inductive StandsFor : Value → Value → Prop
  | same (x : Value) : StandsFor x x
  | doubles {elements : List (Option Int32)} {attributes : Attributes Value} {y : Value}
      (hConverted : (atomic .integer elements attributes).convertTo (.atomic .double) = .ok y)
      (hSmallest : some Int32.minValue ∉ elements) :
      StandsFor y (atomic .integer elements attributes)

/-- Read at the positions that these values stand for. -/
def getAt (store : Store) (x : Value) (given : List Value) (mode : Mode) : Checked Value := do
  let positions ← Checked.ofExcept (given.mapM Position.ofValue)
  x.get store positions mode

/-- Assign at the positions that these values stand for. -/
def assignAt (x : Value) (given : List Value) (value : Value) (mode : Mode) : Action Value := do
  let positions ← Action.ofExcept (given.mapM Position.ofValue)
  x.assign positions value mode

theorem StandsFor.ofValue_eq {x y : Value} (h : x.StandsFor y) :
    Position.ofValue x = Position.ofValue y := by
  cases h with
  | same => rfl
  | doubles hConverted hSmallest =>
    cases hConverted.symm.trans (Position.convertTo_double _ _)
    rw [Position.ofValue_doubles, if_neg hSmallest]

/-- Each of several values may be replaced by one that stands for it. -/
theorem mapM_ofValue_of_standsFor {given others : List Value}
    (h : List.Forall₂ StandsFor given others) :
    given.mapM Position.ofValue = others.mapM Position.ofValue := by
  induction h with
  | nil => rfl
  | cons hHead _ ih => rw [List.mapM_cons, List.mapM_cons, hHead.ofValue_eq, ih]

/-- Integers are always indices, and as doubles they are the same indices with the same names
exactly if the smallest integer is not among them. In any number of positions of a call, integers
may then be given as doubles. -/
theorem positions_by_doubles (elements : List (Option Int32)) (attributes : Attributes Value) :
    (∃ y, (atomic .integer elements attributes).convertTo (.atomic .double) = .ok y
      ∧ Position.ofValue (atomic .integer elements attributes)
          = .ok (.indices (elements.map (Option.map Int32.toInt)) attributes.names)
      ∧ (Position.ofValue y = Position.ofValue (atomic .integer elements attributes)
          ↔ some Int32.minValue ∉ elements))
    ∧ ∀ (given others : List Value), List.Forall₂ StandsFor given others →
      ∀ (x : Value) (mode : Mode),
        (∀ store, x.getAt store given mode = x.getAt store others mode)
          ∧ ∀ value, x.assignAt given value mode = x.assignAt others value mode := by
  constructor
  · refine ⟨_, Position.convertTo_double elements attributes, rfl, ?_⟩
    rw [Position.ofValue_doubles]
    split
    · next hSmallest =>
      constructor
      · intro hSame
        cases hSame
      · intro hNot
        exact absurd hSmallest hNot
    · next hSmallest => exact ⟨fun _ => hSmallest, fun _ => rfl⟩
  · intro given others hGiven x mode
    have hPositions := mapM_ofValue_of_standsFor hGiven
    constructor
    · intro store
      rw [getAt, getAt, hPositions]
    · intro value
      rw [assignAt, assignAt, hPositions]

/-- Negative indices down to the second smallest integer, a missing one among them, and a column
that is given by a double. -/
theorem positions_by_doubles_negative :
    let indices := [some (-2147483647 : Int32), none]
    let named : Attributes Value := { names := some [some "a", none] }
    let doubles := atomic .double (indices.map (Option.map fun n => .ofInt n.toInt)) named
    let column := atomic .double [some (.ofInt 2)] {}
    Position.ofValue doubles
        = .ok (.indices [some (-2147483647), none] (some [some "a", none]))
      ∧ ∀ (x : Value) (mode : Mode) (store : Store),
          x.getAt store [doubles, column] mode
            = x.getAt store [atomic .integer indices named, atomic .integer [some 2] {}] mode := by
  intro indices named doubles column
  obtain ⟨⟨y, hConverted, hIntegers, hSame⟩, hCalls⟩ := positions_by_doubles indices named
  cases hConverted.symm.trans (Position.convertTo_double indices named)
  have hRows : StandsFor doubles (atomic .integer indices named) :=
    .doubles (Position.convertTo_double _ _) (by decide)
  have hColumn : StandsFor column (atomic .integer [some 2] {}) :=
    .doubles (Position.convertTo_double _ _) (by decide)
  refine ⟨(hSame.mpr (by decide)).trans hIntegers, ?_⟩
  intro x mode store
  exact (hCalls _ _ (.cons hRows (.cons hColumn .nil)) x mode).1 store

/-- The smallest integer is an index, and its double is refused. -/
theorem position_of_smallest_integer :
    (atomic .integer [some (-2147483648)] {}).convertTo (.atomic .double)
        = .ok (atomic .double [some (.ofInt (-2147483648))] {})
      ∧ Position.ofValue (atomic .integer [some (-2147483648)] {})
          = .ok (.indices [some (-2147483648)] none)
      ∧ Position.ofValue (atomic .double [some (.ofInt (-2147483648))] {})
          = .error .subscriptOutOfBounds :=
  ⟨rfl, rfl, Position.ofValue_doubles [some (-2147483648)] {}⟩

end Value

end VectorIndexing
