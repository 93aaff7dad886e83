/-!
# Ranges of code points

A property of characters is given by the ranges of code points that have it, as a list of
ranges in ascending order that neither touch nor overlap.
-/

namespace VectorIndexing

/-- The code points from `first` to `last`, both included. -/
structure CodeRange where
  first : Nat
  last : Nat
  deriving DecidableEq, Repr

namespace CodeRange

/-- Whether the code point lies in the range. -/
def contains (r : CodeRange) (code : Nat) : Bool :=
  r.first ≤ code && code ≤ r.last

/-- Whether the code point lies in one of the ranges. -/
def covers (ranges : List CodeRange) (code : Nat) : Bool :=
  ranges.any (·.contains code)

/-- Whether no range is empty and each starts beyond the code point after the one before it. -/
def ascending : List CodeRange → Bool
  | [] => true
  | [r] => r.first ≤ r.last
  | r :: s :: rest => r.first ≤ r.last && r.last + 1 < s.first && ascending (s :: rest)

end CodeRange

end VectorIndexing
