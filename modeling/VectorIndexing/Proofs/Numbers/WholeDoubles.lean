import VectorIndexing.Number.Double

/-!
# Whole numbers as doubles

A whole number below `2 ^ 53` in magnitude has a double of its own: its digits, shifted until there
are 53 of them, are the significand, so that cutting off the fractional part gives the number back.

* `Double.ofFields`: a double by its three fields.
* `Double.ofInt_eq_ofFields`: the fields of a whole number.
* `Double.truncate?_ofInt`: whole numbers to doubles and back.
-/

namespace VectorIndexing.Double

/-! ## Fields -/

/-- The double with this sign, exponent field and fraction. -/
def ofFields (negative : Bool) (exponent fraction : Nat) : Double :=
  ⟨UInt64.ofNat ((if negative then signUnit else 0) + exponent * exponentUnit + fraction)⟩

section

variable {exponent fraction : Nat}

theorem toNat_bits_ofFields (negative : Bool) (hExponent : exponent < 2048)
    (hFraction : fraction < exponentUnit) :
    (ofFields negative exponent fraction).bits.toNat
      = (if negative then signUnit else 0) + exponent * exponentUnit + fraction := by
  simp only [ofFields, UInt64.toNat_ofNat']
  apply Nat.mod_eq_of_lt
  simp only [signUnit, exponentUnit] at *
  split <;> omega

theorem isNegative_ofFields (negative : Bool) (hExponent : exponent < 2048)
    (hFraction : fraction < exponentUnit) :
    (ofFields negative exponent fraction).isNegative = negative := by
  simp only [isNegative, toNat_bits_ofFields negative hExponent hFraction]
  simp only [signUnit, exponentUnit] at *
  cases negative with
  | false =>
    simp only [Bool.false_eq_true, if_false, decide_eq_false_iff_not]
    omega
  | true =>
    simp only [if_true, decide_eq_true_eq]
    omega

theorem exponentField_ofFields (negative : Bool) (hExponent : exponent < 2048)
    (hFraction : fraction < exponentUnit) :
    (ofFields negative exponent fraction).exponentField = exponent := by
  simp only [exponentField, toNat_bits_ofFields negative hExponent hFraction]
  simp only [signUnit, exponentUnit] at *
  split <;> omega

theorem fraction_ofFields (negative : Bool) (hExponent : exponent < 2048)
    (hFraction : fraction < exponentUnit) :
    (ofFields negative exponent fraction).fraction = fraction := by
  simp only [Double.fraction, toNat_bits_ofFields negative hExponent hFraction]
  simp only [signUnit, exponentUnit] at *
  split <;> omega

end

/-! ## The fields of a whole number -/

/-- The digits of a number, shifted to the left until there are 53 of them. -/
def normalized (n : Nat) : Nat := n <<< (52 - n.log2)

section

variable {n : Nat}

theorem log2_le_of_lt (hn : n < 2 * exponentUnit) : n.log2 ≤ 52 := by
  rcases Nat.eq_zero_or_pos n with rfl | hPos
  · rw [Nat.log2_zero]
    exact Nat.zero_le 52
  · have hLog : n.log2 < 53 := (Nat.log2_lt (Nat.ne_of_gt hPos)).mpr hn
    omega

/-- The first of the 53 digits is set. -/
theorem normalized_bounds (hPos : 0 < n) (hn : n < 2 * exponentUnit) :
    exponentUnit ≤ normalized n ∧ normalized n < 2 * exponentUnit := by
  have hLog := log2_le_of_lt hn
  have hLower : 2 ^ n.log2 ≤ n := Nat.log2_self_le (Nat.ne_of_gt hPos)
  have hUpper : n < 2 ^ (n.log2 + 1) := Nat.lt_log2_self
  have hSplit : exponentUnit = 2 ^ n.log2 * 2 ^ (52 - n.log2) := by
    rw [← Nat.pow_add, Nat.add_sub_cancel' hLog]
    rfl
  have hPower := Nat.two_pow_pos (52 - n.log2)
  rw [normalized, Nat.shiftLeft_eq, hSplit]
  constructor
  · exact Nat.mul_le_mul_right _ hLower
  · rw [← Nat.mul_assoc, ← Nat.pow_succ']
    exact Nat.mul_lt_mul_of_pos_right hUpper hPower

theorem encodeNat_eq (hPos : 0 < n) (hn : n < 2 * exponentUnit) :
    encodeNat n = (1023 + n.log2) * exponentUnit + (normalized n - exponentUnit) := by
  have hLog := log2_le_of_lt hn
  obtain ⟨hLower, -⟩ := normalized_bounds hPos hn
  have hNoCut : n.log2 - 52 = 0 := by omega
  rw [encodeNat, if_neg (Nat.ne_of_gt hPos), hNoCut, Nat.shiftRight_zero]
  show (1022 + n.log2) * exponentUnit + normalized n = _
  have hCarry : (1023 + n.log2) * exponentUnit = (1022 + n.log2) * exponentUnit + exponentUnit := by
    rw [← Nat.succ_mul]
    congr 1
    omega
  omega

end

/-- The leading digit of the significand is not stored. -/
theorem ofInt_eq_ofFields {n : Int} (hSome : n ≠ 0) (hn : n.natAbs < 2 * exponentUnit) :
    ofInt n = ofFields (n < 0) (1023 + n.natAbs.log2) (normalized n.natAbs - exponentUnit) := by
  have hPos : 0 < n.natAbs := Int.natAbs_pos.mpr hSome
  simp only [ofInt, ofFields, encodeNat_eq hPos hn, decide_eq_true_eq, Nat.add_assoc]

/-! ## There and back -/

/-- A whole number below `2 ^ 53` in magnitude is the whole part of its double. -/
theorem truncate?_ofInt {n : Int} (hn : n.natAbs < 2 * exponentUnit) :
    (ofInt n).truncate? = some n := by
  by_cases hZero : n = 0
  · subst hZero
    decide
  have hPos : 0 < n.natAbs := Int.natAbs_pos.mpr hZero
  have hLog := log2_le_of_lt hn
  obtain ⟨hLower, hUpper⟩ := normalized_bounds hPos hn
  have hExponent : 1023 + n.natAbs.log2 < 2048 := by omega
  have hFraction : normalized n.natAbs - exponentUnit < exponentUnit := by omega
  rw [ofInt_eq_ofFields hZero hn]
  generalize hx : ofFields (n < 0) (1023 + n.natAbs.log2) (normalized n.natAbs - exponentUnit) = x
  have hNegative : x.isNegative = decide (n < 0) := by
    rw [← hx, isNegative_ofFields _ hExponent hFraction]
  have hField : x.exponentField = 1023 + n.natAbs.log2 := by
    rw [← hx, exponentField_ofFields _ hExponent hFraction]
  have hFinite : x.isFinite = true := by
    simp only [isFinite, hField, bne_iff_ne]
    omega
  have hSignificand : x.significand = normalized n.natAbs := by
    rw [significand, hField, if_neg (by omega), ← hx, fraction_ofFields _ hExponent hFraction]
    omega
  have hScale : x.exponent = (n.natAbs.log2 : Int) - 52 := by
    simp only [exponent, hField]
    omega
  have hMagnitude : x.floorAbs = n.natAbs := by
    have hUp : x.exponent.toNat = 0 := by omega
    have hDown : (-x.exponent).toNat = 52 - n.natAbs.log2 := by omega
    rw [floorAbs, hSignificand, hUp, hDown, Nat.shiftLeft_zero, normalized,
      Nat.shiftLeft_shiftRight]
  rw [truncate?, if_pos hFinite, hNegative, hMagnitude]
  congr 1
  simp only [decide_eq_true_eq]
  split <;> omega

/-- A double that is a whole number has it as its whole part. -/
theorem truncate?_of_wholeNumber? {x : Double} {n : Int} (h : x.wholeNumber? = some n) :
    x.truncate? = some n := by
  obtain ⟨m, hTruncated, hWhole⟩ := Option.bind_eq_some_iff.mp h
  split at hWhole
  · cases hWhole
    exact hTruncated
  · cases hWhole

end VectorIndexing.Double
