import VectorIndexing.Proofs.Names.NewSlots
import VectorIndexing.Proofs.WellFormed.Basic
import VectorIndexing.Plan

/-!
# Batches of look-ups

Names may be looked up alone or many at a time, and a table of first occurrences is built only for
a large batch in long names. Either way a query is answered as if it were alone: this holds for the
table itself, for reading and writing by names as far as the elements that exist are concerned, and
for the names along a dimension of an array.

* `NameTable.lookedUpAlone`: the answer to a query does not depend on the batch it is in.
* `TypedVector.namedAlike`: looking up a name in a vector agrees with the positions that names are,
  except that it finds the empty name.
-/

namespace VectorIndexing

/-! ## The table -/

theorem firstNamed_eq_none_iff {names : Names} {name : String} :
    firstNamed names name = none ↔ name = "" ∨ some name ∉ names := by
  unfold firstNamed
  split
  · next hEmpty => simp [String.isEmpty_iff.mp hEmpty]
  · next hName =>
    have hFilled : name ≠ "" := fun h => hName (String.isEmpty_iff.mpr h)
    simp [hFilled]

theorem NameTable.get?_ofNames_eq_some_iff {names : Option Names} {batch o : Nat} {name : String} :
    (ofNames names batch).get? name = some o
      ↔ name ≠ "" ∧ (names.getD [])[o]? = some (some name)
          ∧ ∀ j, j < o → (names.getD [])[j]? ≠ some (some name) := by
  have hName : name.isEmpty = false ↔ name ≠ "" := by simp
  rw [get?_ofNames, firstNamed_eq_some_iff, hName]

theorem NameTable.map_find?_ofNames (names : Option Names) (batch : Nat) (queries : Names) :
    queries.map (ofNames names batch).find? = firstMatches names queries :=
  List.map_congr_left fun query _ => find?_ofNames_eq_bind names batch query

theorem getElem?_firstMatches {names : Option Names} {queries : Names} {query : Option String}
    {i : Nat} (h : queries[i]? = some query) :
    (firstMatches names queries)[i]? = some (query.bind (firstNamed (names.getD []))) := by
  rw [firstMatches, List.getElem?_map, h]
  rfl

/-! ## Reading and writing by names -/

namespace Selection

variable {names : Option Names} {length : Nat} {queries : Names} {query : Option String} {i o : Nat}

theorem offsets_ofQueries_read (names : Option Names) (length : Nat) (queries : Names) :
    (ofQueries queries length names .read).offsets = firstMatches names queries :=
  NameTable.map_find?_ofNames names queries.length queries

/-- Among the slots that exist, writing selects for a query the one where it is found. -/
theorem getElem?_offsets_ofQueries_write (h : queries[i]? = some query) (ho : o < length) :
    (ofQueries queries length names .write).offsets[i]? = some (some o)
      ↔ query.bind (firstNamed (names.getD [])) = some o := by
  rw [← NameTable.find?_ofNames_eq_bind names queries.length]
  change ((slotOffsets (.ofNames names queries.length) [] length queries).map some)[i]?
    = some (some o) ↔ _
  rw [List.getElem?_map, Option.map_eq_some_iff]
  constructor
  · rintro ⟨o', hSlot, hSame⟩
    obtain rfl : o' = o := Option.some.inj hSame
    exact find?_of_getElem?_slotOffsets h hSlot ho
  · intro hFound
    refine ⟨o, getElem?_slotOffsets_of_slotOf? h ?_, rfl⟩
    rw [slotOf?_nil, hFound]

end Selection

/-! ## The names along a dimension -/

namespace Layout.Axis

theorem mapM_lookup (table : NameTable) (queries : Names) :
    queries.mapM (lookup table)
      = if none ∈ queries.map table.find? then .error .subscriptOutOfBounds
        else .ok (queries.map table.find?) := by
  induction queries with
  | nil => rfl
  | cons query rest ih =>
    rw [List.mapM_cons, ih, List.map_cons]
    cases hQuery : table.find? query with
    | none =>
      rw [if_pos List.mem_cons_self, lookup, hQuery]
      rfl
    | some o =>
      rw [lookup, hQuery]
      by_cases hRest : none ∈ rest.map table.find?
      · rw [if_pos hRest, if_pos (List.mem_cons_of_mem _ hRest)]
        rfl
      · rw [if_neg hRest, if_neg (by simpa using hRest)]
        rfl

/-- Every name must be found along the dimension, and is then selected where it is found. -/
theorem run_select_names (axis : Axis) (queries : Names) (session : Session) :
    (axis.select (.names queries)).run session
      = (if none ∈ firstMatches axis.names queries then .error .subscriptOutOfBounds
          else .ok { offsets := firstMatches axis.names queries }, session) := by
  simp only [select]
  rw [Checked.run_bind, Checked.run_ofExcept, mapM_lookup, NameTable.map_find?_ofNames]
  by_cases h : none ∈ firstMatches axis.names queries
  · rw [if_pos h, if_pos h]
  · rw [if_neg h, if_neg h]
    rfl

/-- A query is selected along a dimension if and where it is found. -/
theorem run_select_query_eq_ok {axis : Axis} {query : Option String} {offset : Offset}
    {session : Session} :
    (axis.select (.names [query])).run session = (.ok { offsets := [offset] }, session)
      ↔ offset ≠ none ∧ query.bind (firstNamed (axis.names.getD [])) = offset := by
  rw [run_select_names]
  cases hFound : query.bind (firstNamed (axis.names.getD [])) with
  | none => simp [firstMatches, hFound, eq_comm]
  | some o =>
    simp only [firstMatches, List.map_cons, List.map_nil, hFound, List.mem_singleton, reduceCtorEq,
      if_false, Prod.mk.injEq, Except.ok.injEq, Selection.mk.injEq, List.cons.injEq, and_true]
    exact ⟨fun h => ⟨h ▸ Option.some_ne_none o, h⟩, fun h => h.2⟩

theorem run_select_query_eq_error {axis : Axis} {query : Option String} {session : Session} :
    (axis.select (.names [query])).run session = (.error .subscriptOutOfBounds, session)
      ↔ query.bind (firstNamed (axis.names.getD [])) = none := by
  rw [run_select_names]
  cases hFound : query.bind (firstNamed (axis.names.getD [])) <;> simp [firstMatches, hFound]

/-- A batch is selected along a dimension if each of its queries is, and as each of them is. -/
theorem run_select_names_eq_ok {axis : Axis} {queries : Names} {s : Selection}
    {session final : Session} :
    (axis.select (.names queries)).run session = (.ok s, final)
      ↔ s.names = none ∧ final = session ∧ s.offsets.length = queries.length
          ∧ ∀ (i : Nat) query, queries[i]? = some query → ∃ offset, s.offsets[i]? = some offset
            ∧ (axis.select (.names [query])).run session
                = (.ok { offsets := [offset] }, session) := by
  rw [run_select_names]
  constructor
  · intro h
    split at h
    · cases h
    · next hFound =>
      cases h
      refine ⟨rfl, rfl, List.length_map _, ?_⟩
      intro i query hQuery
      have hOffset : (firstMatches axis.names queries)[i]?
          = some (query.bind (firstNamed (axis.names.getD []))) := getElem?_firstMatches hQuery
      refine ⟨_, hOffset, run_select_query_eq_ok.mpr ⟨?_, rfl⟩⟩
      intro hNone
      exact hFound (List.mem_of_getElem? (hNone ▸ hOffset))
  · rintro ⟨hNames, rfl, hLength, hEach⟩
    have hOffsets : s.offsets = firstMatches axis.names queries := by
      refine List.ext_getElem? fun i => ?_
      cases hQuery : queries[i]? with
      | none =>
        have hPast : queries.length ≤ i := List.getElem?_eq_none_iff.mp hQuery
        rw [List.getElem?_eq_none (hLength ▸ hPast),
          List.getElem?_eq_none (by rwa [firstMatches, List.length_map])]
      | some query =>
        obtain ⟨offset, hOffset, hAlone⟩ := hEach i query hQuery
        rw [hOffset, getElem?_firstMatches hQuery, (run_select_query_eq_ok.mp hAlone).2]
    have hFound : none ∉ firstMatches axis.names queries := by
      intro hNone
      obtain ⟨i, hNone⟩ := List.mem_iff_getElem?.mp (hOffsets ▸ hNone)
      have hi : i < queries.length := hLength ▸ (List.getElem?_eq_some_iff.mp hNone).1
      obtain ⟨offset, hOffset, hAlone⟩ := hEach i _ (List.getElem?_eq_getElem hi)
      exact (run_select_query_eq_ok.mp hAlone).1 (Option.some.inj (hOffset.symm.trans hNone))
    rw [if_neg hFound, ← hOffsets]
    obtain ⟨offsets, names⟩ := s
    cases hNames
    rfl

/-- A batch is refused if one of its queries is, and for the same reason. -/
theorem run_select_names_eq_error {axis : Axis} {queries : Names} {e : Error}
    {session final : Session} :
    (axis.select (.names queries)).run session = (.error e, final)
      ↔ e = .subscriptOutOfBounds ∧ final = session
          ∧ ∃ query ∈ queries, (axis.select (.names [query])).run session
              = (.error .subscriptOutOfBounds, session) := by
  simp only [run_select_query_eq_error]
  rw [run_select_names]
  have hMem : none ∈ firstMatches axis.names queries
      ↔ ∃ query ∈ queries, query.bind (firstNamed (axis.names.getD [])) = none := List.mem_map
  rw [← hMem]
  by_cases hNone : none ∈ firstMatches axis.names queries
  · rw [if_pos hNone]
    constructor
    · intro h
      cases h
      exact ⟨rfl, rfl, hNone⟩
    · rintro ⟨rfl, rfl, -⟩
      rfl
  · rw [if_neg hNone]
    constructor
    · intro h
      cases h
    · rintro ⟨-, -, hRefused⟩
      exact absurd hRefused hNone

end Layout.Axis

/-! ## Every query as if it were alone -/

/-- Among these names a query is answered in the same way whatever else is looked up with it. -/
structure LookedUpAlone (names : Option Names) : Prop where
  /-- A name is found at its first element, whatever the number of look-ups prepared for. -/
  found : ∀ batch name o, (NameTable.ofNames names batch).get? name = some o
    ↔ name ≠ "" ∧ (names.getD [])[o]? = some (some name)
        ∧ ∀ j, j < o → (names.getD [])[j]? ≠ some (some name)
  absent : ∀ batch name, (NameTable.ofNames names batch).get? name = none
    ↔ name = "" ∨ some name ∉ names.getD []
  same : ∀ batch batch',
    (NameTable.ofNames names batch).get? = (NameTable.ofNames names batch').get?
  /-- Two batches that are read select the same element for a query that both contain. -/
  read : ∀ (length : Nat) (queries queries' : Names) (i i' : Nat) query,
    queries[i]? = some query → queries'[i']? = some query →
      ∃ s s', (Position.names queries).select length names .read = pure s
        ∧ (Position.names queries').select length names .read = pure s'
        ∧ s.offsets[i]? = s'.offsets[i']? ∧ s.offsets.length = queries.length
  /-- Two batches that are written select the same element for a query that both contain, if they
  select an element that exists. -/
  write : ∀ (length : Nat) (queries queries' : Names) (i i' : Nat) query,
    queries[i]? = some query → queries'[i']? = some query →
      ∃ s s', (Position.names queries).select length names .write = pure s
        ∧ (Position.names queries').select length names .write = pure s'
        ∧ ∀ o, o < length →
            (s.offsets[i]? = some (some o) ↔ s'.offsets[i']? = some (some o))
  /-- With these names along a dimension, a batch is selected as each of its queries is. -/
  dimension : ∀ (axis : Layout.Axis) (queries : Names) (s : Selection) (session final : Session),
    axis.names = names →
      ((axis.select (.names queries)).run session = (.ok s, final)
        ↔ s.names = none ∧ final = session ∧ s.offsets.length = queries.length
            ∧ ∀ (i : Nat) query, queries[i]? = some query → ∃ offset, s.offsets[i]? = some offset
              ∧ (axis.select (.names [query])).run session
                  = (.ok { offsets := [offset] }, session))
  /-- It is refused if one of its queries is. -/
  dimensionRefused : ∀ (axis : Layout.Axis) (queries : Names) (e : Error)
    (session final : Session), axis.names = names →
      ((axis.select (.names queries)).run session = (.error e, final)
        ↔ e = .subscriptOutOfBounds ∧ final = session
            ∧ ∃ query ∈ queries, (axis.select (.names [query])).run session
                = (.error .subscriptOutOfBounds, session))

theorem NameTable.lookedUpAlone (names : Option Names) : LookedUpAlone names where
  found := fun _ _ _ => get?_ofNames_eq_some_iff
  absent := by
    intro batch name
    rw [get?_ofNames, firstNamed_eq_none_iff]
  same := by
    intro batch batch'
    funext name
    rw [get?_ofNames, get?_ofNames]
  read := by
    intro length queries queries' i i' query hQuery hQuery'
    refine ⟨_, _, rfl, rfl, ?_, ?_⟩
    · rw [Selection.offsets_ofQueries_read, Selection.offsets_ofQueries_read,
        getElem?_firstMatches hQuery, getElem?_firstMatches hQuery']
    · rw [Selection.offsets_ofQueries_read]
      exact List.length_map _
  write := by
    intro length queries queries' i i' query hQuery hQuery'
    refine ⟨_, _, rfl, rfl, ?_⟩
    intro o ho
    rw [Selection.getElem?_offsets_ofQueries_write hQuery ho,
      Selection.getElem?_offsets_ofQueries_write hQuery' ho]
  dimension := fun _ _ _ _ _ _ => Layout.Axis.run_select_names_eq_ok
  dimensionRefused := fun _ _ _ _ _ _ => Layout.Axis.run_select_names_eq_error

/-! ## The offset of a name -/

namespace TypedVector

variable {kind : VectorKind} {x : TypedVector kind} {name : String}

/-- Looking up the name in the vector agrees with the positions that the name is. -/
structure NamedAlike (x : TypedVector kind) (name : String) : Prop where
  /-- Under `[` the name selects the element that it is found at. -/
  subset : ∀ o, x.toValue.offsetNamed? name = some o
    ↔ (Position.names [some name]).select x.length x.attributes.names .read
        = pure { offsets := [some o] }
  /-- So it does under `[[`. -/
  element : ∀ o, x.toValue.offsetNamed? name = some o
    ↔ (Position.names [some name]).selectOne x.length x.attributes.names .read = .ok (.slot o)
  /-- A name that is not found is out of bounds under `[[`. -/
  absent : x.toValue.offsetNamed? name = none
    ↔ (Position.names [some name]).selectOne x.length x.attributes.names .read
        = .error .subscriptOutOfBounds
  /-- Among several names it selects what it is found at, or nothing that exists. -/
  batch : ∀ (queries : Names) (i : Nat), queries[i]? = some (some name) →
    ∃ s, (Position.names queries).select x.length x.attributes.names .read = pure s
      ∧ s.offsets[i]? = some (x.toValue.offsetNamed? name)

theorem offsetNamed?_toValue (x : TypedVector kind) (name : String) :
    x.toValue.offsetNamed? name = (x.attributes.names.getD []).idxOf? (some name) := by
  have hNames : x.toValue.names? = x.attributes.names := by
    cases kind <;> rfl
  rw [Value.offsetNamed?, hNames]
  cases x.attributes.names <;> rfl

/-- Looking up a name is looking for its first element, unless the empty name is asked for. -/
theorem offsetNamed?_eq_firstNamed (h : name = "" → some "" ∉ x.attributes.names.getD []) :
    x.toValue.offsetNamed? name = firstNamed (x.attributes.names.getD []) name := by
  rw [offsetNamed?_toValue, firstNamed]
  split
  · next hEmpty =>
    obtain rfl : name = "" := String.isEmpty_iff.mp hEmpty
    exact List.idxOf?_eq_none_iff.mpr (h rfl)
  · rfl

/-- Under `[[` a name is read where it is found. -/
theorem selectOne_query_read (name : String) (length : Nat) (names : Option Names) :
    (Position.names [some name]).selectOne length names .read
      = match firstNamed (names.getD []) name with
        | some o => .ok (.slot o)
        | none => .error .subscriptOutOfBounds := by
  change Pick.ofQuery (some name) length names .read = _
  rw [Pick.ofQuery, NameTable.find?_ofNames]
  rfl

theorem select_query_read (name : String) (length : Nat) (names : Option Names) :
    (Position.names [some name]).select length names .read
      = pure { offsets := [firstNamed (names.getD []) name] } := by
  change pure (Selection.mk ([some name].map (NameTable.ofNames names 1).find?) none) = _
  rw [NameTable.map_find?_ofNames]
  rfl

/-- Looking up a name agrees with the positions that the name is, unless some element has the empty
name and that is looked up. -/
theorem namedAlike (h : name = "" → some "" ∉ x.attributes.names.getD []) : x.NamedAlike name where
  subset := by
    intro o
    rw [offsetNamed?_eq_firstNamed h, select_query_read]
    constructor
    · intro hFound
      rw [hFound]
    · intro hSame
      have hRun := congrArg (fun c : Checked Selection => c.run {}) hSame
      simpa using hRun
  element := by
    intro o
    rw [offsetNamed?_eq_firstNamed h, selectOne_query_read]
    cases firstNamed (x.attributes.names.getD []) name <;> simp
  absent := by
    rw [offsetNamed?_eq_firstNamed h, selectOne_query_read]
    cases firstNamed (x.attributes.names.getD []) name <;> simp
  batch := by
    intro queries i hQuery
    refine ⟨_, rfl, ?_⟩
    rw [Selection.offsets_ofQueries_read, getElem?_firstMatches hQuery,
      offsetNamed?_eq_firstNamed h]
    rfl

/-- A name that two elements have, beside a missing and an empty one. -/
theorem namedAlike_repeated :
    ("a" = "" → some "" ∉ [some "", none, some "a", some "a"])
      ∧ NamedAlike
          (⟨[some 1, some 2, some 3, some 4],
            { names := some [some "", none, some "a", some "a"] }⟩ : TypedVector (.atomic .integer))
          "a" :=
  have hName : "a" = "" → some "" ∉ [some "", none, some "a", some "a"] := by decide
  ⟨hName, namedAlike hName⟩

/-- The empty name is found at an element that has it, and no position that it is selects that
element. -/
theorem offsetNamed?_empty :
    (Value.atomic .integer [some 1] { names := some [some ""] }).WellFormed
      ∧ (Value.atomic .integer [some 1] { names := some [some ""] }).offsetNamed? "" = some 0
      ∧ (Position.names [some ""]).select 1 (some [some ""]) .read = pure { offsets := [none] }
      ∧ (Position.names [some ""]).selectOne 1 (some [some ""]) .read
          = .error .subscriptOutOfBounds := by
  refine ⟨?_, rfl, rfl, rfl⟩
  refine .atomic .integer _ _ (.ofNames ?_) Attributes.valuesWellFormed_empty
  rintro given ⟨⟩
  rfl

end TypedVector

end VectorIndexing
