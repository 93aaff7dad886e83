/-!
# Double precision numbers

A double is its 64-bit binary64 encoding; every operation needed here is exact integer
arithmetic on the encoded significand and exponent.

* `Double.sameNumber`: equality of numbers, under which NaN differs from itself and the two
  zeros agree. Equality of encodings is `=`.
* `Double.ofInt`, `Double.truncate?`: whole numbers to doubles and back.
-/

namespace VectorIndexing

/-- A binary64 number, given by its encoding. -/
structure Double where
  bits : UInt64
  deriving DecidableEq, Repr

namespace Double

/-! ## Decoding -/

/-- The place value of the sign bit, `2 ^ 63`. -/
def signUnit : Nat := 0x8000000000000000

/-- The place value of the lowest bit of the exponent field, `2 ^ 52`. -/
def exponentUnit : Nat := 0x10000000000000

/-- The sign bit, which is also set in `-0` and may be set in a NaN. -/
def isNegative (x : Double) : Bool := signUnit ≤ x.bits.toNat

def exponentField (x : Double) : Nat := x.bits.toNat / exponentUnit % 2048

def fraction (x : Double) : Nat := x.bits.toNat % exponentUnit

def isFinite (x : Double) : Bool := x.exponentField != 2047

def isNaN (x : Double) : Bool := x.exponentField == 2047 && x.fraction != 0

def isInfinite (x : Double) : Bool := x.exponentField == 2047 && x.fraction == 0

def isZero (x : Double) : Bool := x.exponentField == 0 && x.fraction == 0

/-- A finite number has the magnitude `significand * 2 ^ exponent`. -/
def significand (x : Double) : Nat :=
  if x.exponentField = 0 then x.fraction else x.fraction + exponentUnit

def exponent (x : Double) : Int := (max x.exponentField 1 : Nat) - 1075

/-- The number without its sign. -/
def abs (x : Double) : Double := ⟨UInt64.ofNat (x.bits.toNat % signUnit)⟩

/-- The encoding of NaN that stands for all of them in output. -/
def canonicalNaN : Double := ⟨0x7ff8000000000000⟩

/-! ## Comparing -/

/-- Equality of numbers: NaN equals nothing, and the zeros are equal. -/
def sameNumber (x y : Double) : Bool :=
  !x.isNaN && !y.isNaN && (x == y || (x.isZero && y.isZero))

/-! ## Whole numbers -/

/-- Encoding of a whole number below `2 ^ 64` without sign; digits beyond the 53rd are cut. -/
def encodeNat (n : Nat) : Nat :=
  if n = 0 then 0
  else (1022 + n.log2) * exponentUnit + (n <<< (52 - n.log2)) >>> (n.log2 - 52)

/-- The double of a whole number, exact up to `2 ^ 53` in magnitude. -/
def ofInt (n : Int) : Double :=
  ⟨UInt64.ofNat ((if n < 0 then signUnit else 0) + encodeNat n.natAbs)⟩

/-- Magnitude of a finite number with its fractional part cut off. -/
def floorAbs (x : Double) : Nat :=
  (x.significand <<< x.exponent.toNat) >>> (-x.exponent).toNat

/-- The whole number toward zero; an infinity or NaN has none. -/
def truncate? (x : Double) : Option Int :=
  if x.isFinite then
    some (if x.isNegative then -(x.floorAbs : Int) else x.floorAbs)
  else none

/-- The whole number toward zero, held within the signed 64-bit range; NaN gives zero. -/
def toInt64Range (x : Double) : Int :=
  match x.truncate? with
  | some n => max (-signUnit) (min n (signUnit - 1))
  | none => if x.isNaN then 0 else if x.isNegative then -signUnit else signUnit - 1

/-- The whole number this equals, if it is one. -/
def wholeNumber? (x : Double) : Option Int :=
  x.truncate?.bind fun n =>
    if x.floorAbs <<< (-x.exponent).toNat = x.significand <<< x.exponent.toNat then some n
    else none

end Double

end VectorIndexing
