import VectorIndexing.Kind

/-!
# Warnings and errors

An error is the cause of a refusal; its wording is given by `Error.message` alone. A warning
does not stop an operation unless the session turns it into the error `convertedWarning`.
-/

namespace VectorIndexing

/-- Conditions that are reported without stopping the operation. -/
inductive Warning where
  | notMultipleReplacement
  | lengthMismatch
  deriving DecidableEq, Repr

def Warning.message : Warning → String
  | notMultipleReplacement =>
    "number of items to replace is not a multiple of replacement length"
  | lengthMismatch => "longer object length is not a multiple of shorter object length"

/-- Why an operation was refused. -/
inductive Error where
  /-- The number of positions differs from the number of dimensions. -/
  | incorrectSubscripts
  /-- Two positions for something that has no dimensions. -/
  | incorrectSubscriptsMatrix
  /-- As `incorrectSubscripts`, when a single element is selected. -/
  | improperSubscript
  | naSubscripted
  | selectLessThanOne
  | selectMoreThanOne
  | invalidNegativeIndex
  | subscriptOutOfBounds
  | invalidSubscriptType (kind : Kind)
  | notMultipleReplacement
  | replacementZero
  | moreElementsSupplied
  /-- Values of kind `value` and a container of kind `container` have no common kind. -/
  | subassignTypeFix (value container : Kind)
  | subscriptTypes (value container : Kind)
  | noSuchIndexAtLevel (level : Nat)
  | recursiveIndexingFailed (level : Nat)
  | noApplicableMethod
  | objectNotSubsettable (kind : Kind)
  | dimsDoNotMatchLength (product length : Nat)
  | namesLengthMismatch (names length : Nat)
  | convertedWarning (warning : Warning)
  /-- The position given to an environment is not one name. -/
  | bindingNameExpected
  | attributeOnNonVector
  /-- Elements of this kind have no text to serve as names. -/
  | namesFromVector (kind : Kind)
  | namesFromObject (kind : Kind)
  | dimsNotNumeric
  | dimsEmpty
  | dimsMissing
  | dimsNegative
  | dimnamesOnNonArray
  | dimnamesRankMismatch (given rank : Nat)
  /-- The names given for this dimension (counted from one) are not as many as its extent. -/
  | dimnamesExtentMismatch (dimension : Nat)
  | dimnamesNotList
  deriving DecidableEq, Repr

namespace Error

def message : Error → String
  | incorrectSubscripts => "incorrect number of subscripts"
  | incorrectSubscriptsMatrix => "incorrect number of subscripts on matrix"
  | improperSubscript => "[[ ]] improper number of subscripts"
  | naSubscripted => "NAs are not allowed in subscripted assignments"
  | selectLessThanOne => "attempt to select less than one element"
  | selectMoreThanOne => "attempt to select more than one element"
  | invalidNegativeIndex => "only 0's may be mixed with negative subscripts"
  | subscriptOutOfBounds => "subscript out of bounds"
  | invalidSubscriptType kind => "invalid subscript type '" ++ kind.name ++ "'"
  | notMultipleReplacement =>
    "number of items to replace is not a multiple of replacement length"
  | replacementZero => "replacement has length zero"
  | moreElementsSupplied => "more elements supplied than there are to replace"
  | subassignTypeFix value container =>
    "incompatible types (from " ++ value.name ++ " to " ++ container.name
      ++ ") in subassignment type fix"
  | subscriptTypes value container =>
    "incompatible types (from " ++ value.name ++ " to " ++ container.name ++ ") in [[ assignment"
  | noSuchIndexAtLevel level => "no such index at level " ++ level.repr ++ "\n"
  | recursiveIndexingFailed level => "recursive indexing failed at level " ++ level.repr ++ "\n"
  | noApplicableMethod => "no method for assigning subsets of this S4 class"
  | objectNotSubsettable kind => "object of type '" ++ kind.name ++ "' is not subsettable"
  | dimsDoNotMatchLength product length =>
    "dims [product " ++ product.repr ++ "] do not match the length of object ["
      ++ length.repr ++ "]"
  | namesLengthMismatch names length =>
    "'names' attribute [" ++ names.repr ++ "] must be the same length as the vector ["
      ++ length.repr ++ "]"
  | convertedWarning warning => "(converted from warning) " ++ warning.message
  | bindingNameExpected => "wrong args for environment subassignment"
  | attributeOnNonVector => "attempt to set an attribute on a non-vector object"
  | namesFromVector kind => "cannot use a " ++ kind.name ++ " vector as names"
  | namesFromObject kind => "cannot use an object of type '" ++ kind.name ++ "' as names"
  | dimsNotNumeric => "invalid second argument, must be vector or NULL"
  | dimsEmpty => "length-0 dimension vector is invalid"
  | dimsMissing => "the dims contain missing or infinite values"
  | dimsNegative => "the dims contain negative values"
  | dimnamesOnNonArray => "'dimnames' applied to non-array"
  | dimnamesRankMismatch given rank =>
    "length of 'dimnames' [" ++ given.repr ++ "] must match that of 'dims' ["
      ++ rank.repr ++ "]"
  | dimnamesExtentMismatch dimension =>
    "length of 'dimnames' [" ++ dimension.repr ++ "] not equal to array extent"
  | dimnamesNotList => "'dimnames' must be a list"

/-- The text shown to a user. -/
def display (e : Error) : String := "Error: " ++ e.message

end Error

/-! ## Small laws -/

section Except

variable {α β : Type}

/-- Of two computations in a row, both succeed if the whole does. -/
theorem bind_eq_ok {x : Except Error α} {f : α → Except Error β} {b : β} :
    x >>= f = .ok b ↔ ∃ a, x = .ok a ∧ f a = .ok b := by
  cases x with
  | error e =>
    constructor
    · intro h
      cases h
    · rintro ⟨_, h, -⟩
      cases h
  | ok a =>
    constructor
    · intro h
      exact ⟨a, rfl, h⟩
    · rintro ⟨_, hx, h⟩
      cases hx
      exact h

theorem map_eq_ok {x : Except Error α} {f : α → β} {b : β} :
    x.map f = .ok b ↔ ∃ a, x = .ok a ∧ f a = b := by
  cases x <;> simp [Except.map]

end Except

end VectorIndexing
