import Std.Data.HashMap
import VectorIndexing.Element

/-!
# Looking names up

A name is looked up among the names of a vector and found at its first occurrence. The empty
name and missing names are never found. For a batch of look-ups in long names a table of
first occurrences is built once.

* `NameTable.get?_ofNames`: with or without the table, the answer is `firstNamed`.
-/

namespace VectorIndexing

/-- Offset of the first element with this name; nothing has the empty name. -/
def firstNamed (names : Names) (name : String) : Option Nat :=
  if name.isEmpty then none else names.idxOf? (some name)

/-- Names prepared for look-ups. -/
structure NameTable where
  names : Names
  /-- First occurrences, if they were tabulated. -/
  firsts : Option (Std.HashMap String Nat)

namespace NameTable

/-- Names at least this long are tabulated before a batch of look-ups. -/
def batchThreshold : Nat := 16

/-- Enter the names from `offset` on, keeping entries that are there already. -/
def tabulate : Names → Nat → Std.HashMap String Nat → Std.HashMap String Nat
  | [], _, firsts => firsts
  | some name :: rest, offset, firsts =>
    tabulate rest (offset + 1) (firsts.insertIfNew name offset)
  | none :: rest, offset, firsts => tabulate rest (offset + 1) firsts

/-- Prepare for a number of look-ups. -/
def ofNames (names : Option Names) (queries : Nat) : NameTable :=
  let names := names.getD []
  { names
    firsts :=
      if 1 < queries ∧ batchThreshold ≤ names.length then some (tabulate names 0 ∅)
      else none }

/-- Offset of the first element with this name. -/
def get? (table : NameTable) (name : String) : Option Nat :=
  if name.isEmpty then none
  else
    match table.firsts with
    | some firsts => firsts[name]?
    | none => firstNamed table.names name

/-- Look up a name that may be missing; a missing name is not found. -/
def find? (table : NameTable) (query : Option String) : Option Nat :=
  query.bind table.get?

/-! ## The table holds first occurrences -/

theorem getElem?_tabulate (names : Names) (offset : Nat) (firsts : Std.HashMap String Nat)
    (name : String) :
    (tabulate names offset firsts)[name]?
      = (firsts[name]?).or ((names.idxOf? (some name)).map (offset + ·)) := by
  induction names generalizing offset firsts with
  | nil => simp [tabulate]
  | cons head rest ih =>
    have shifted : ∀ i, offset + 1 + i = offset + (i + 1) := by omega
    cases head with
    | none => simp [tabulate, ih, List.idxOf?_cons, shifted, Function.comp_def]
    | some first =>
      rw [tabulate, ih, Std.HashMap.getElem?_insertIfNew]
      by_cases same : first = name
      · subst same
        by_cases known : first ∈ firsts
        · simp [known]
        · simp [List.idxOf?_cons, known]
      · simp [List.idxOf?_cons, same, shifted, Function.comp_def]

theorem get?_ofNames (names : Option Names) (queries : Nat) (name : String) :
    (ofNames names queries).get? name = firstNamed (names.getD []) name := by
  unfold get? ofNames firstNamed
  split
  · rfl
  · next h =>
    by_cases hq : 1 < queries ∧ batchThreshold ≤ (names.getD []).length
    · simp [hq, getElem?_tabulate]
    · simp [hq]

end NameTable

end VectorIndexing
