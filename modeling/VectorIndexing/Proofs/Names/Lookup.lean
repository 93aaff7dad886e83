import VectorIndexing.Position.NameTable
import VectorIndexing.Slots

/-!
# First occurrences of names

A look-up finds the first element of a name, and the empty name is never found. This does not
depend on how many names are looked up at once.

* `firstNamed_eq_some_iff`: what a look-up finds.
* `NameTable.find?_ofNames`: looking up in a table is the same.
* `firstMatches`: several look-ups.
-/

namespace VectorIndexing

theorem idxOf?_eq_some_of_first {names : Names} {query : Option String} {o : Nat}
    (ho : names[o]? = some query) (hFirst : ∀ j, j < o → names[j]? ≠ some query) :
    names.idxOf? query = some o := by
  obtain ⟨hIn, hGet⟩ := List.getElem?_eq_some_iff.mp ho
  refine List.idxOf?_eq_some_iff.mpr ⟨hIn, hGet, ?_⟩
  intro j hj hSame
  exact hFirst j hj (List.getElem?_eq_some_iff.mpr ⟨by omega, hSame⟩)

theorem ne_of_idxOf?_eq_some {names : Names} {query : Option String} {o j : Nat}
    (h : names.idxOf? query = some o) (hj : j < o) : names[j]? ≠ some query := by
  obtain ⟨hIn, -, hBefore⟩ := List.idxOf?_eq_some_iff.mp h
  intro hSame
  obtain ⟨hjIn, hGet⟩ := List.getElem?_eq_some_iff.mp hSame
  exact hBefore j hj hGet

theorem ne_of_idxOf?_eq_none {names : Names} {query : Option String}
    (h : names.idxOf? query = none) (j : Nat) : names[j]? ≠ some query := by
  intro hSame
  exact List.idxOf?_eq_none_iff.mp h (List.mem_of_getElem? hSame)

/-- A look-up finds the first occurrence of a name that is not empty. -/
theorem firstNamed_eq_some_iff {names : Names} {name : String} {o : Nat} :
    firstNamed names name = some o
      ↔ name.isEmpty = false ∧ names[o]? = some (some name)
          ∧ ∀ j, j < o → names[j]? ≠ some (some name) := by
  unfold firstNamed
  constructor
  · intro h
    split at h
    · cases h
    · next hName =>
      obtain ⟨hIn, hGet, -⟩ := List.idxOf?_eq_some_iff.mp h
      exact ⟨Bool.eq_false_iff.mpr hName, List.getElem?_eq_some_iff.mpr ⟨hIn, hGet⟩,
        fun j hj => ne_of_idxOf?_eq_some h hj⟩
  · rintro ⟨hName, ho, hFirst⟩
    rw [hName]
    exact idxOf?_eq_some_of_first ho hFirst

theorem lt_of_firstNamed {names : Names} {name : String} {o : Nat}
    (h : firstNamed names name = some o) : o < names.length :=
  (List.getElem?_eq_some_iff.mp (firstNamed_eq_some_iff.mp h).2.1).1

namespace NameTable

/-- Without a table of names, looking up is looking for the first occurrence. -/
theorem find?_ofNames (names : Option Names) (queries : Nat) (name : String) :
    (ofNames names queries).find? (some name) = firstNamed (names.getD []) name :=
  get?_ofNames names queries name

/-- What is found lies inside a vector whose names are as many as its elements. -/
theorem lt_of_find?_ofNames {names : Option Names} {length queries o : Nat}
    {query : Option String} (hNames : ∀ given, names = some given → given.length = length)
    (h : (ofNames names queries).find? query = some o) : o < length := by
  cases query with
  | none => cases h
  | some name =>
    rw [find?_ofNames] at h
    have hIn := lt_of_firstNamed h
    cases names with
    | none => cases hIn
    | some given => exact hNames given rfl ▸ hIn

theorem find?_ofNames_eq_bind (names : Option Names) (queries : Nat) (query : Option String) :
    (ofNames names queries).find? query = query.bind (firstNamed (names.getD [])) := by
  cases query with
  | none => rfl
  | some name => exact find?_ofNames names queries name

/-- What is found has the name that was looked up. -/
theorem getElem?_of_find?_ofNames {names : Option Names} {queries o : Nat}
    {query : Option String} (h : (ofNames names queries).find? query = some o) :
    ∃ known, names = some known ∧ known[o]? = some query := by
  cases query with
  | none => cases h
  | some name =>
    rw [find?_ofNames] at h
    obtain ⟨-, hHere, -⟩ := firstNamed_eq_some_iff.mp h
    cases names with
    | none => cases hHere
    | some known => exact ⟨known, rfl, hHere⟩

end NameTable

/-- The offset of the first element of each name. A missing or an empty name has no element, like
a name that does not occur. -/
def firstMatches (names : Option Names) (queries : Names) : List Offset :=
  queries.map fun query => query.bind (firstNamed (names.getD []))

end VectorIndexing
