import VectorIndexing.Number.Shortest

/-!
# Complex numbers
-/

namespace VectorIndexing

/-- A complex number in Cartesian form. -/
structure Complex where
  re : Double
  im : Double
  deriving DecidableEq, Repr

namespace Complex

def ofDouble (x : Double) : Complex := ⟨x, .ofInt 0⟩

/-- Equality of numbers, part by part. -/
def sameNumber (z w : Complex) : Bool := z.re.sameNumber w.re && z.im.sameNumber w.im

/-- Text such as `1.5-2i`; an imaginary part that is not a number has a plus sign. -/
def text (z : Complex) : String :=
  z.re.text ++ (if z.im.isNegative && !z.im.isNaN then "-" else "+") ++ z.im.abs.text ++ "i"

end Complex

end VectorIndexing
