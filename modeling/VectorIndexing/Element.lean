import VectorIndexing.Error
import VectorIndexing.Number.Complex
import VectorIndexing.Text.Quoted

/-!
# Elements of atomic vectors

The type of the elements of each atomic kind, the value that fills new slots, conversion
between kinds, and the texts of elements. A missing element is `none`; raw bytes have none.

* `AtomicKind.convert?_self`: converting to the own kind is the identity.
* `AtomicKind.convert?_fill`: conversion takes the fill value to the fill value.
-/

namespace VectorIndexing

/-- The elements of a vector of this kind. -/
abbrev AtomicKind.Elem : AtomicKind → Type
  | .raw => UInt8
  | .logical => Option Bool
  | .integer => Option Int32
  | .double => Option Double
  | .complex => Option Complex
  | .character => Option String

/-- Names of elements; a name may be missing, and unnamed elements carry the empty name. -/
abbrev Names := List (Option String)

namespace AtomicKind

/-- The element of slots that nothing was written to. -/
def fill : (k : AtomicKind) → k.Elem
  | .raw => 0
  | .logical | .integer | .double | .complex | .character => none

/-! ## Conversion -/

def textOfBool (b : Bool) : String := if b then "TRUE" else "FALSE"

def intOfBool (b : Bool) : Int := if b then 1 else 0

def textOfInt (n : Int32) : String := n.toInt.repr

/-- How elements of one kind become elements of another. Conversion goes up the order of
kinds only, and raw bytes take no part in it. -/
def convert? : (source target : AtomicKind) → Option (source.Elem → target.Elem)
  | .raw, .raw => some id
  | .logical, .logical => some id
  | .logical, .integer => some (Option.map fun b => Int32.ofInt (intOfBool b))
  | .logical, .double => some (Option.map fun b => Double.ofInt (intOfBool b))
  | .logical, .complex => some (Option.map fun b => Complex.ofDouble (.ofInt (intOfBool b)))
  | .logical, .character => some (Option.map textOfBool)
  | .integer, .integer => some id
  | .integer, .double => some (Option.map fun n => Double.ofInt n.toInt)
  | .integer, .complex => some (Option.map fun n => Complex.ofDouble (.ofInt n.toInt))
  | .integer, .character => some (Option.map textOfInt)
  | .double, .double => some id
  | .double, .complex => some (Option.map Complex.ofDouble)
  | .double, .character => some (Option.map Double.text)
  | .complex, .complex => some id
  | .complex, .character => some (Option.map Complex.text)
  | .character, .character => some id
  | _, _ => none

theorem convert?_self (k : AtomicKind) : k.convert? k = some id := by
  cases k <;> rfl

theorem convert?_fill {source target : AtomicKind} {f : source.Elem → target.Elem}
    (h : source.convert? target = some f) : f source.fill = target.fill := by
  cases source <;> cases target <;> simp only [convert?, Option.some.injEq, reduceCtorEq] at h <;>
    subst h <;> rfl

/-- An element can be converted exactly when the two kinds join in the target. -/
theorem isSome_convert?_iff (source target : AtomicKind) :
    (source.convert? target).isSome ↔ source.join target = some target := by
  cases source <;> cases target <;> simp [convert?, join, rank]

/-! ## Comparing -/

/-- Equality of elements as values: numbers are compared as numbers, and a missing element
equals a missing element. -/
def sameElem : (k : AtomicKind) → k.Elem → k.Elem → Bool
  | .raw, x, y => x == y
  | .logical, x, y => x == y
  | .integer, x, y => x == y
  | .character, x, y => x == y
  | .double, some x, some y => x.sameNumber y
  | .complex, some x, some y => x.sameNumber y
  | .double, x, y | .complex, x, y => x.isNone && y.isNone

/-- Equality of sequences of elements, one by one. -/
def sameElems (k : AtomicKind) : List k.Elem → List k.Elem → Bool
  | [], [] => true
  | x :: xs, y :: ys => k.sameElem x y && k.sameElems xs ys
  | _, _ => false

/-! ## Texts -/

/-- The text of an element when its vector is shown. -/
def display : (k : AtomicKind) → k.Elem → String
  | .raw, byte => byte.toNat.repr
  | .logical, x => x.elim "NA" toString
  | .integer, x => x.elim "NA" textOfInt
  | .double, x => x.elim "NA" Double.display
  | .complex, x => x.elim "NA" Complex.text
  | .character, x => x.getD "NA"

end AtomicKind

/-- The text of an element with strings told apart from other elements by quotes. -/
def AtomicKind.inspect : (k : AtomicKind) → k.Elem → String
  | .character, x => x.elim "NA" quoted
  | k, x => k.display x

end VectorIndexing
