import VectorIndexing.Plan
import VectorIndexing.Steps

/-!
# Listing a part of an array by counting

The offsets of a part of an array can be listed by an odometer: a counter with one place for each
dimension starts at zero, each pass lists the offset of the combination that the counter stands at,
and then the first place goes up by one, with a carry to the next one where it reaches the end of
what is selected.

* `Odometer.offsets`: the loop, with every step that could break.
* `Odometer.remaining_lt_of_advance`: it ends.
-/

namespace VectorIndexing

namespace Odometer

/-- How far apart neighbours along each dimension are in the storage, if they are `stride` apart
along the first. Distances are words. -/
def strides (stride : Nat) : List Nat → List Nat
  | [] => []
  | extent :: extents => stride :: strides (Word.mul stride extent) extents

/-- The offset of the combination that the counter stands at, added to `sum`. As soon as something
missing is met, the combination is missing. -/
def offsetAt (sum : Nat) : List (List Offset) → (counter strides : List Nat) → Except Fault Offset
  | offsets :: rest, place :: counter, stride :: strides => do
    match ← Slots.takeAt offsets place with
    | some i => offsetAt (Word.add sum (Word.mul i stride)) rest counter strides
    | none => pure none
  | _, _, _ => pure (some sum)

/-- The counter in the next pass, if there is one: the first place goes up by one, and a place that
reaches its base starts again at zero while the next one goes up. -/
def advance : (bases counter : List Nat) → Except Fault (Option (List Nat))
  | _, [] => pure none
  | [], _ :: _ => throw .outOfRange
  | base :: bases, place :: counter =>
    if place + 1 < base then pure (some ((place + 1) :: counter))
    else (advance bases counter).map (Option.map (0 :: ·))

/-- A bound on the passes that are still to come. -/
def remaining : (bases counter : List Nat) → Nat
  | base :: bases, place :: counter => (base - place) + (base + 1) * remaining bases counter
  | _, _ => 0

/-- Every pass brings the end nearer. -/
theorem remaining_lt_of_advance {bases counter next : List Nat}
    (h : advance bases counter = .ok (some next)) :
    remaining bases next < remaining bases counter := by
  induction bases generalizing counter next with
  | nil => cases counter <;> cases h
  | cons base bases ih =>
    cases counter with
    | nil => cases h
    | cons place counter =>
      unfold advance at h
      split at h
      · next hWithin =>
        cases h
        simp only [remaining]
        omega
      · cases hCarry : advance bases counter with
        | error f =>
          rw [hCarry] at h
          cases h
        | ok carried =>
          rw [hCarry] at h
          cases carried with
          | none => cases h
          | some later =>
            cases h
            calc
              (base - 0) + (base + 1) * remaining bases later
                < (base + 1) * (remaining bases later + 1) := by
                  rw [Nat.mul_add, Nat.mul_one]
                  omega
              _ ≤ (base + 1) * remaining bases counter :=
                  Nat.mul_le_mul_left _ (Nat.succ_le_of_lt (ih hCarry))
              _ ≤ (base - place) + (base + 1) * remaining bases counter := Nat.le_add_left _ _

/-- The offsets that are listed in the pass with this counter and in all passes after it. -/
def listFrom (selected : List (List Offset)) (strides counter : List Nat) :
    Except Fault (List Offset) := do
  let offset ← offsetAt 0 selected counter strides
  match _h : advance (selected.map List.length) counter with
  | .error f => .error f
  | .ok none => .ok [offset]
  | .ok (some next) => (listFrom selected strides next).map (offset :: ·)
termination_by remaining (selected.map List.length) counter
decreasing_by exact remaining_lt_of_advance _h

/-- The offsets of all combinations of one selected offset per dimension, unless their number comes
to zero as a word. -/
def offsets (selected : List (List Offset)) (extents : List Nat) : Except Fault (List Offset) :=
  if Word.count (selected.map List.length) = 0 then .ok []
  else listFrom selected (strides 1 extents) (List.replicate selected.length 0)

end Odometer

end VectorIndexing
