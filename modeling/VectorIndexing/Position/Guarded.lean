import VectorIndexing.Guarded
import VectorIndexing.Position.Pick

/-!
# Guarded positions

How a position selects elements, with every place that is taken from a mask, from flags or from the
entries of the position as a step that may break.

* `Guarded.select`: the elements selected under `[`.
* `Guarded.selectOne`: the element selected under `[[`.
-/

namespace VectorIndexing

namespace Guarded

/-! ## Masks -/

/-- The offsets that a mask selects, the mask being repeated up to the length. -/
def maskOffsets (flags : List (Option Bool)) (length : Nat) : Except Fault (List Offset) := do
  let flagged ← (List.range (max length flags.length)).mapM fun o => do
    return (← Slots.takeRecycled flags o, o)
  return flagged.filterMap Selection.flagOffset

/-- The warning about a mask that does not go into the length. -/
def warnOfMisfit (flags : List (Option Bool)) (length : Nat) : Guarded Session Unit := do
  if flags.length < length then
    if (← ofStep (remainder length flags.length)) ≠ 0 then ofSound (warn .lengthMismatch)

/-- The selection of a mask. -/
def ofMask (flags : List (Option Bool)) (length : Nat) : Guarded Session Selection := do
  if flags.isEmpty then return { offsets := [] }
  warnOfMisfit flags length
  return { offsets := ← ofStep (maskOffsets flags length) }

/-! ## Indices -/

/-- Set the flag of the element that an index excludes, if there is such an element. -/
def exclude (length : Nat) (excluded : List Bool) (entry : Option Int) :
    Except Fault (List Bool) :=
  match entry with
  | some i =>
    -- zero excludes nothing, and neither does an index that goes beyond the end
    if 0 ≤ -i - 1 ∧ -i - 1 < length then Slots.replaceAt excluded (-i - 1).toNat true
    else .ok excluded
  | none => .ok excluded

/-- The elements whose flag is not set. -/
def unflagged (length : Nat) (excluded : List Bool) : Except Fault (List Offset) := do
  let flagged ← (List.range length).mapM fun o => do return (o, ← Slots.takeAt excluded o)
  return (flagged.filter fun flag => !flag.2).map fun flag => some flag.1

/-- The elements that no negative index excludes. -/
def complement (entries : List (Option Int)) (length : Nat) : Except Fault (List Offset) := do
  unflagged length (← entries.foldlM (exclude length) (List.replicate length false))

/-- Negative indices exclude, and mix with zeros only. -/
def ofIndices (entries : List (Option Int)) (names : Option Names) (length : Nat) :
    Guarded Session Selection :=
  if entries.any Selection.isNegativeEntry then
    if entries.any fun entry => Selection.isPositiveEntry entry || entry.isNone then
      refuse .invalidNegativeIndex
    else do return { offsets := ← ofStep (complement entries length) }
  else return Selection.ofEntries entries names

/-! ## One position -/

/-- The elements that a position selects under `[`. -/
def select (p : Position) (length : Nat) (names : Option Names) (purpose : Purpose) :
    Guarded Session Selection :=
  match p with
  | .indices entries given => ofIndices entries given length
  | .mask flags => ofMask flags length
  | p => ofSound (p.select length names purpose)

/-- The only entry of a position. -/
def soleEntry {α : Type} (entries : List α) : Except Failure α :=
  if entries.length = 0 then .error (.refused .selectLessThanOne)
  else if 1 < entries.length then .error (.refused .selectMoreThanOne)
  else (Slots.takeAt entries 0).mapError .broken

/-- The one element that a position selects under `[[`. -/
def selectOne (p : Position) (length : Nat) (names : Option Names) (purpose : Purpose) :
    Except Failure Pick :=
  match p with
  | .missing => .error (.refused (.invalidSubscriptType .symbol))
  | .indices entries _ => do
    let entry ← soleEntry entries
    (Pick.ofIndex entry length purpose).mapError .refused
  | .names queries => do
    let query ← soleEntry queries
    (Pick.ofQuery query length names purpose).mapError .refused
  | .mask flags =>
    if flags.isEmpty then .error (.refused .selectLessThanOne)
    else do
      match ← (maskOffsets flags length).mapError .broken with
      | [some o] => (Pick.ofOffset o length purpose).mapError .refused
      | [none] => .ok .missing
      | [] => .error (.refused .selectLessThanOne)
      | _ => .error (.refused .selectMoreThanOne)

end Guarded

end VectorIndexing
