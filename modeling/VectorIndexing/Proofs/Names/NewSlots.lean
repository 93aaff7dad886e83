import Mathlib.Data.List.Nodup
import VectorIndexing.Proofs.Names.Lookup
import VectorIndexing.Position.Selection

/-!
# Slots for new names

Names that are written to have the slot where they are found, and the others have new slots behind
the last element.

* `Selection.slotOf?`, `Selection.remember`: what is known when a query is reached, and what is
  known after it.
* `Selection.getElem?_slotOffsets_of_slotOf?`, `Selection.le_of_getElem?_slotOffsets`: the slot of a
  query that is known, and of one that is not.
* `Selection.mem_slotOffsets_iff`: the old slots are those of the names that are found.
* `Selection.slotOffsets_of_found`: the slots if there is no new one.
* `namesWith`: the names after elements were created for those that were absent.
* `Selection.slotOffsets_eq_map`: the slots of names are where they are then found.
-/

namespace VectorIndexing

/-- Whether elements can be found by the query: it is a name, and not the empty one. -/
def isName : Option String → Bool
  | some name => !name.isEmpty
  | none => false

namespace Selection

/-! ## What is known at a query -/

/-- The slot that a query has without a new one: where it is found, or the slot that was created
for it before. -/
def slotOf? (table : NameTable) (created : List (String × Nat)) (query : Option String) :
    Option Nat :=
  (table.find? query).or (if isName query then query.bind (List.lookup · created) else none)

/-- The slots created so far, and the one created for the query if it can be found again. -/
def remember (created : List (String × Nat)) (query : Option String) (o : Nat) :
    List (String × Nat) :=
  match query with
  | some name => if name.isEmpty then created else (name, o) :: created
  | none => created

variable {table : NameTable} {created : List (String × Nat)} {next o : Nat}
  {query other : Option String} {queries rest : Names}

theorem slotOf?_nil (table : NameTable) (query : Option String) :
    slotOf? table [] query = table.find? query := by
  simp [slotOf?]

theorem slotOf?_of_unnamed (h : isName query = false) : slotOf? table created query = none := by
  cases query with
  | none => rfl
  | some name =>
    have hEmpty : name.isEmpty = true := by simpa [isName] using h
    simp [slotOf?, isName, NameTable.find?, NameTable.get?, hEmpty]

theorem slotOffsets_cons_of_slotOf? (h : slotOf? table created query = some o) :
    slotOffsets table created next (query :: rest)
      = o :: slotOffsets table created next rest := by
  cases query with
  | none => cases h
  | some name =>
    cases hFound : table.find? (some name) with
    | some found =>
      rw [slotOf?, hFound] at h
      cases h
      rw [slotOffsets, hFound]
    | none =>
      cases hName : name.isEmpty with
      | true => simp [slotOf?, hFound, isName, hName] at h
      | false =>
        have hLookup : created.lookup name = some o := by
          simpa [slotOf?, hFound, isName, hName] using h
        simp [slotOffsets, hFound, hName, hLookup]

theorem slotOffsets_cons_of_slotOf?_eq_none (h : slotOf? table created query = none) :
    slotOffsets table created next (query :: rest)
      = next :: slotOffsets table (remember created query next) (next + 1) rest := by
  obtain ⟨hFound, hCreated⟩ := Option.or_eq_none_iff.mp h
  cases query with
  | none =>
    rw [slotOffsets, hFound]
    rfl
  | some name =>
    cases hName : name.isEmpty with
    | true => simp [slotOffsets, remember, hFound, hName]
    | false =>
      have hLookup : created.lookup name = none := by simpa [isName, hName] using hCreated
      simp [slotOffsets, remember, hFound, hName, hLookup]

/-- After a new slot was created for a name, that is its slot, and all others have the slots they
had. -/
theorem slotOf?_remember (h : slotOf? table created query = none) :
    slotOf? table (remember created query next) other
      = if other = query ∧ isName query then some next else slotOf? table created other := by
  by_cases hName : isName query = true
  · cases query with
    | none => cases hName
    | some name =>
      have hFound : table.find? (some name) = none := (Option.or_eq_none_iff.mp h).1
      have hEmpty : name.isEmpty = false := by simpa [isName] using hName
      by_cases hSame : other = some name
      · subst hSame
        simp [slotOf?, remember, hFound, hEmpty, isName]
      · rw [if_neg fun hBoth => hSame hBoth.1]
        cases other with
        | none => rfl
        | some name' =>
          have hDifferent : (name' == name) = false := by simpa using hSame
          simp [slotOf?, remember, hEmpty, List.lookup_cons, hDifferent]
  · rw [if_neg fun hBoth => hName hBoth.2]
    cases query with
    | none => rfl
    | some name =>
      have hEmpty : name.isEmpty = true := by simpa [isName] using hName
      simp [remember, hEmpty]

/-! ## The slot of a query -/

/-- A query keeps the slot it is known to have. -/
theorem getElem?_slotOffsets_of_slotOf? {i : Nat} (hQuery : queries[i]? = some query)
    (h : slotOf? table created query = some o) :
    (slotOffsets table created next queries)[i]? = some o := by
  induction queries generalizing created next i with
  | nil => cases hQuery
  | cons first rest ih =>
    cases i with
    | zero =>
      obtain rfl : first = query := Option.some.inj hQuery
      rw [slotOffsets_cons_of_slotOf? h]
      rfl
    | succ i =>
      rw [List.getElem?_cons_succ] at hQuery
      cases hFirst : slotOf? table created first with
      | some o' =>
        rw [slotOffsets_cons_of_slotOf? hFirst, List.getElem?_cons_succ]
        exact ih hQuery h
      | none =>
        rw [slotOffsets_cons_of_slotOf?_eq_none hFirst, List.getElem?_cons_succ]
        refine ih hQuery ?_
        rw [slotOf?_remember hFirst, if_neg, h]
        rintro ⟨rfl, -⟩
        rw [hFirst] at h
        cases h

/-- A query without a slot gets a new one. -/
theorem le_of_getElem?_slotOffsets {i : Nat} (hQuery : queries[i]? = some query)
    (h : slotOf? table created query = none)
    (hSlot : (slotOffsets table created next queries)[i]? = some o) : next ≤ o := by
  induction queries generalizing created next i with
  | nil => cases hQuery
  | cons first rest ih =>
    cases i with
    | zero =>
      obtain rfl : first = query := Option.some.inj hQuery
      rw [slotOffsets_cons_of_slotOf?_eq_none h] at hSlot
      exact Nat.le_of_eq (Option.some.inj hSlot)
    | succ i =>
      rw [List.getElem?_cons_succ] at hQuery
      cases hFirst : slotOf? table created first with
      | some o' =>
        rw [slotOffsets_cons_of_slotOf? hFirst, List.getElem?_cons_succ] at hSlot
        exact ih hQuery h hSlot
      | none =>
        rw [slotOffsets_cons_of_slotOf?_eq_none hFirst, List.getElem?_cons_succ] at hSlot
        -- the query is either the first one again, or it is still without a slot
        by_cases hSame : query = first ∧ isName first
        · have hKnown : slotOf? table (remember created first next) query = some next := by
            rw [slotOf?_remember hFirst, if_pos hSame]
          rw [getElem?_slotOffsets_of_slotOf? hQuery hKnown] at hSlot
          exact Nat.le_of_eq (Option.some.inj hSlot)
        · have hStill : slotOf? table (remember created first next) query = none := by
            rw [slotOf?_remember hFirst, if_neg hSame, h]
          exact Nat.le_of_succ_le (ih hQuery hStill hSlot)

theorem exists_getElem?_slotOffsets {i : Nat} (hQuery : queries[i]? = some query) :
    ∃ o, (slotOffsets table created next queries)[i]? = some o := by
  have hIn : i < (slotOffsets table created next queries).length := by
    rw [length_slotOffsets]
    exact (List.getElem?_eq_some_iff.mp hQuery).1
  exact ⟨_, List.getElem?_eq_getElem hIn⟩

/-! ## Slots of names that are found -/

/-- Below the length, the slot of a query is where it is found. -/
theorem find?_of_getElem?_slotOffsets {length i : Nat} (hQuery : queries[i]? = some query)
    (hSlot : (slotOffsets table [] length queries)[i]? = some o) (hOld : o < length) :
    table.find? query = some o := by
  rw [← slotOf?_nil]
  cases hKnown : slotOf? table [] query with
  | some found => rw [← getElem?_slotOffsets_of_slotOf? hQuery hKnown, hSlot]
  | none =>
    have hNew := le_of_getElem?_slotOffsets hQuery hKnown hSlot
    omega

/-- The slots below the length are those of the names that are found there. -/
theorem mem_slotOffsets_iff {length : Nat} (hOld : o < length) :
    o ∈ slotOffsets table [] length queries ↔ ∃ query ∈ queries, table.find? query = some o := by
  constructor
  · intro hMem
    obtain ⟨i, hSlot⟩ := List.mem_iff_getElem?.mp hMem
    have hi : i < queries.length := by
      rw [← length_slotOffsets table [] length queries]
      exact (List.getElem?_eq_some_iff.mp hSlot).1
    have hQuery := List.getElem?_eq_getElem hi
    exact ⟨_, List.mem_of_getElem? hQuery, find?_of_getElem?_slotOffsets hQuery hSlot hOld⟩
  · rintro ⟨query, hMem, hFound⟩
    obtain ⟨i, hQuery⟩ := List.mem_iff_getElem?.mp hMem
    rw [← slotOf?_nil] at hFound
    exact List.mem_of_getElem? (getElem?_slotOffsets_of_slotOf? hQuery hFound)

/-- If no slot is new, all names are found. -/
theorem isSome_find?_of_slotOffsets_lt (length : Nat)
    (h : ∀ o ∈ slotOffsets table [] length queries, o < length) :
    ∀ query ∈ queries, (table.find? query).isSome := by
  intro query hMem
  obtain ⟨i, hQuery⟩ := List.mem_iff_getElem?.mp hMem
  obtain ⟨o, hSlot⟩ := exists_getElem?_slotOffsets hQuery
  rw [find?_of_getElem?_slotOffsets hQuery hSlot (h o (List.mem_of_getElem? hSlot))]
  rfl

/-- Names that are found have the slots where they are found. -/
theorem slotOffsets_of_found (h : ∀ query ∈ queries, (table.find? query).isSome) :
    (slotOffsets table created next queries).map some = queries.map table.find? := by
  induction queries with
  | nil => rfl
  | cons query rest ih =>
    obtain ⟨o, hFound⟩ := Option.isSome_iff_exists.mp (h query List.mem_cons_self)
    have hKnown : slotOf? table created query = some o := by
      rw [slotOf?, hFound, Option.some_or]
    rw [slotOffsets_cons_of_slotOf? hKnown, List.map_cons, List.map_cons, hFound,
      ih fun other hRest => h other (List.mem_cons_of_mem _ hRest)]

end Selection

/-! ## Names behind the known ones -/

theorem idxOf?_of_mem {names : Names} {query : Option String} (h : query ∈ names) :
    names.idxOf? query = some (names.idxOf query) := by
  rw [List.idxOf_eq_getD_idxOf?]
  cases hFound : names.idxOf? query with
  | none => exact absurd h (List.idxOf?_eq_none_iff.mp hFound)
  | some o => rfl

theorem idxOf?_append_singleton (names : Names) (last query : Option String) :
    (names ++ [last]).idxOf? query
      = (names.idxOf? query).or (if last = query then some names.length else none) := by
  simp only [List.idxOf?, List.findIdx?_append]
  by_cases h : last = query <;> simp [h, List.findIdx?_cons]

/-- The names that are not known, each of them once, in the order of their first occurrences. -/
def absentNames (known : Names) (queries : List String) : List String :=
  (queries.filter fun name => some name ∉ known).eraseDups

/-- The known names, and behind them the absent ones. -/
def namesWith (known : Names) (queries : List String) : Names :=
  known ++ (absentNames known queries).map some

section

variable {known : Names} {queries rest : List String} {name : String}

theorem mem_absentNames :
    name ∈ absentNames known queries ↔ name ∈ queries ∧ some name ∉ known := by
  simp [absentNames]

theorem absentNames_cons_of_mem (h : some name ∈ known) :
    absentNames known (name :: rest) = absentNames known rest := by
  simp [absentNames, h]

/-- Once a name has been added it is known. -/
theorem absentNames_cons_of_notMem (h : some name ∉ known) :
    absentNames known (name :: rest) = name :: absentNames (known ++ [some name]) rest := by
  have hRest : (rest.filter fun other => some other ∉ known).filter (fun other => !other == name)
      = rest.filter fun other => some other ∉ known ++ [some name] := by
    rw [List.filter_filter]
    refine List.filter_congr ?_
    intro other _
    by_cases hSame : other = name <;> simp [hSame]
  rw [absentNames, List.filter_cons_of_pos (by simpa using h), List.eraseDups_cons, hRest]
  rfl

theorem namesWith_cons_of_mem (h : some name ∈ known) :
    namesWith known (name :: rest) = namesWith known rest := by
  rw [namesWith, absentNames_cons_of_mem h, namesWith]

theorem namesWith_cons_of_notMem (h : some name ∉ known) :
    namesWith known (name :: rest) = namesWith (known ++ [some name]) rest := by
  rw [namesWith, absentNames_cons_of_notMem h, namesWith, List.map_cons, List.append_assoc]
  rfl

theorem nodup_absentNames (known : Names) (queries : List String) :
    (absentNames known queries).Nodup := by
  induction queries generalizing known with
  | nil => exact List.nodup_nil
  | cons name rest ih =>
    by_cases h : some name ∈ known
    · rw [absentNames_cons_of_mem h]
      exact ih known
    · rw [absentNames_cons_of_notMem h]
      refine List.nodup_cons.mpr ⟨?_, ih _⟩
      intro hAgain
      exact (mem_absentNames.mp hAgain).2 (by simp)

theorem mem_namesWith (h : name ∈ queries) : some name ∈ namesWith known queries := by
  by_cases hKnown : some name ∈ known
  · exact List.mem_append_left _ hKnown
  · exact List.mem_append_right _ (List.mem_map_of_mem (mem_absentNames.mpr ⟨h, hKnown⟩))

theorem length_namesWith :
    (namesWith known queries).length = known.length + (absentNames known queries).length := by
  rw [namesWith, List.length_append, List.length_map]

/-- Where names were known they stay, and the first occurrence of each is the same. -/
theorem idxOf_namesWith_of_mem (h : some name ∈ known) :
    (namesWith known queries).idxOf (some name) = known.idxOf (some name) := by
  rw [namesWith, List.idxOf_append, if_pos h]

/-- Absent names are first found behind the known ones, in their order. -/
theorem idxOf_namesWith_of_absent {i : Nat} (h : (absentNames known queries)[i]? = some name) :
    (namesWith known queries).idxOf (some name) = known.length + i := by
  have hAbsent : some name ∉ known := (mem_absentNames.mp (List.mem_of_getElem? h)).2
  have hNodup : ((absentNames known queries).map some).Nodup :=
    (nodup_absentNames known queries).map fun _ _ => Option.some.inj
  have hMapped : ((absentNames known queries).map some)[i]? = some (some name) := by
    rw [List.getElem?_map, h]
    rfl
  obtain ⟨hi, hGet⟩ := List.getElem?_eq_some_iff.mp hMapped
  rw [namesWith, List.idxOf_append_of_notMem hAbsent, ← hGet, hNodup.idxOf_getElem]

end

/-- The slot of a name is where it is found once every name that gets a new slot has been added.
The table and the slots created so far know the first occurrences. -/
theorem Selection.slotOffsets_eq_map {table : NameTable} {created : List (String × Nat)}
    {known : Names} {queries : List String}
    (hLookup : ∀ name, name ≠ "" →
      slotOf? table created (some name) = known.idxOf? (some name))
    (hQueries : "" ∉ queries) :
    slotOffsets table created known.length (queries.map some)
      = queries.map fun name => (namesWith known queries).idxOf (some name) := by
  induction queries generalizing created known with
  | nil => rfl
  | cons name rest ih =>
    have hName : name ≠ "" := fun h => hQueries (h ▸ List.mem_cons_self)
    have hRest : "" ∉ rest := fun h => hQueries (List.mem_cons_of_mem _ h)
    rw [List.map_cons, List.map_cons]
    by_cases hKnown : some name ∈ known
    · have hSlot := (hLookup name hName).trans (idxOf?_of_mem hKnown)
      rw [slotOffsets_cons_of_slotOf? hSlot, ih hLookup hRest,
        namesWith_cons_of_mem hKnown, idxOf_namesWith_of_mem hKnown]
    · have hNone : known.idxOf? (some name) = none := List.idxOf?_eq_none_iff.mpr hKnown
      have hNew := (hLookup name hName).trans hNone
      have hNext : (namesWith known (name :: rest)).idxOf (some name) = known.length := by
        rw [namesWith, absentNames_cons_of_notMem hKnown, List.idxOf_append_of_notMem hKnown]
        simp
      have hGrown : ∀ other, other ≠ "" →
          slotOf? table (remember created (some name) known.length) (some other)
            = (known ++ [some name]).idxOf? (some other) := by
        intro other hOther
        rw [slotOf?_remember hNew, idxOf?_append_singleton, hLookup other hOther]
        by_cases hSame : other = name
        · subst hSame
          simp [hNone, isName, hName]
        · have hDifferent : some name ≠ some other := fun h => hSame (Option.some.inj h).symm
          rw [if_neg fun hBoth => hDifferent hBoth.1.symm, if_neg hDifferent, Option.or_none]
      have hLater := ih hGrown hRest
      rw [List.length_append, List.length_singleton] at hLater
      rw [slotOffsets_cons_of_slotOf?_eq_none hNew, hLater, hNext, namesWith_cons_of_notMem hKnown]

end VectorIndexing
