import VectorIndexing.Attribute
import VectorIndexing.Proofs.WellFormed.Basic

/-!
# Setting attributes keeps values well formed

Each attribute with rules of its own is checked against the length or the extents before it is
set, and any other attribute is set under a key that those do not use. So the attributes of a
well-formed value still fit after one of them is set to a well-formed value.

* `Attributes.setNames_eq_ok`, `setDim_eq_ok`, `setDimnames_eq_ok`: what each rule sets.
* `Attributes.FitBy.setNames`, `setDim`, `setDimnames`, `setOther`: one lemma for each rule.
* `Attributes.getAt`, `Attributes.setAt`: the rules of all keys in one;
  `TypedVector.getAttribute_toValue`, `setAttribute_toValue`: reading and setting by key.
* `Value.WellFormedBy.setAttribute`, `getAttribute`: setting and reading keep values well formed.
-/

namespace VectorIndexing

/-- A traversal that succeeds does so at every item. -/
theorem getElem?_of_mapM_eq_ok {α β : Type} {f : α → Except Error β} {xs : List α} {ys : List β}
    (h : xs.mapM f = .ok ys) :
    ys.length = xs.length ∧
      ∀ (i : Nat) (y : β), ys[i]? = some y → ∃ x, xs[i]? = some x ∧ f x = .ok y := by
  induction xs generalizing ys with
  | nil =>
    cases h
    exact ⟨rfl, by simp⟩
  | cons x xs ih =>
    rw [List.mapM_cons, bind_eq_ok] at h
    obtain ⟨y, hHead, h⟩ := h
    obtain ⟨rest, hRest, h⟩ := bind_eq_ok.mp h
    cases h
    obtain ⟨hLength, hItems⟩ := ih hRest
    refine ⟨congrArg (· + 1) hLength, ?_⟩
    intro i z hz
    cases i with
    | zero =>
      cases hz
      exact ⟨x, rfl, hHead⟩
    | succ i => exact hItems i z hz

/-- A traversal that succeeds at every item succeeds. -/
theorem mapM_eq_ok_of_getElem? {α β : Type} {f : α → Except Error β} {xs : List α} {ys : List β}
    (hLength : ys.length = xs.length)
    (h : ∀ (i : Nat) (x : α) (y : β), xs[i]? = some x → ys[i]? = some y → f x = .ok y) :
    xs.mapM f = .ok ys := by
  induction xs generalizing ys with
  | nil =>
    cases ys with
    | nil => rfl
    | cons y ys => cases hLength
  | cons x xs ih =>
    cases ys with
    | nil => cases hLength
    | cons y ys =>
      have hRest := ih (Nat.succ.inj hLength) fun i x' y' hx hy => h (i + 1) x' y' hx hy
      rw [List.mapM_cons, h 0 x y rfl rfl, hRest]
      rfl

namespace OrderedMap

variable {κ α : Type} [DecidableEq κ]

theorem mem_insertIn [LT κ] [DecidableLT κ] {key : κ} {value : α} {entries : List (κ × α)}
    {e : κ × α} (h : e ∈ insertIn key value entries) : e = (key, value) ∨ e ∈ entries := by
  fun_induction insertIn key value entries with
  | case1 => exact Or.inl (List.mem_singleton.mp h)
  | case2 v rest => grind
  | case3 k v rest => grind
  | case4 k v rest => grind

theorem mem_of_findIn {key : κ} {value : α} {entries : List (κ × α)}
    (h : findIn key entries = some value) : (key, value) ∈ entries := by
  fun_induction findIn key entries with
  | case1 => cases h
  | case2 v rest => grind
  | case3 k v rest => grind

theorem insertIn_ne_nil [LT κ] [DecidableLT κ] (key : κ) (value : α) (entries : List (κ × α)) :
    insertIn key value entries ≠ [] := by
  fun_induction insertIn key value entries <;> simp

end OrderedMap

/-! ## Rules -/

theorem AttributeKey.notMem_reservedKeys {text key : String} (h : ofString text = other key) :
    key ∉ reservedKeys := by
  unfold ofString at h
  split at h <;> cases h
  simp_all [reservedKeys]

namespace Value

/-- Extents come from a vector that is not empty. -/
theorem ne_nil_of_toExtents {x : Value} {extents : List Nat} (h : x.toExtents = .ok extents) :
    extents ≠ [] := by
  have hEntries : ∀ entries : List (Option Int),
      (do if entries.isEmpty then throw Error.dimsEmpty
          entries.mapM toExtent) = Except.ok extents → extents ≠ [] := by
    intro entries hRun
    cases entries with
    | nil => cases hRun
    | cons entry rest =>
      have hLength := (getElem?_of_mapM_eq_ok hRun).1
      rintro rfl
      cases hLength
  unfold toExtents at h
  split at h
  · exact hEntries _ h
  · exact hEntries _ h
  · cases h

/-- Each dimension that is given names is given as many as its extent. -/
theorem getElem?_of_toDimnames {extents : List Nat} {entries : List Value}
    {axes : List (Option Names)} (hRank : entries.length = extents.length)
    (h : toDimnames extents entries = .ok axes) :
    axes.length = extents.length ∧ ∀ (i : Nat) (names : Names),
      axes[i]? = some (some names) → extents[i]? = some names.length := by
  obtain ⟨hLength, hItems⟩ := getElem?_of_mapM_eq_ok h
  refine ⟨by simpa [hRank] using hLength, ?_⟩
  intro i names hi
  obtain ⟨⟨⟨entry, extent⟩, j⟩, hItem, hNames⟩ := hItems i (some names) hi
  dsimp only at hNames
  split at hNames
  · cases hNames
  · obtain ⟨given, -, hNames⟩ := bind_eq_ok.mp hNames
    split at hNames
    · next hExtent =>
      cases hNames
      rw [List.getElem?_zipIdx] at hItem
      obtain ⟨pair, hPair, hSame⟩ := Option.map_eq_some_iff.mp hItem
      cases hSame
      rw [hExtent]
      exact (List.getElem?_zip_eq_some.mp hPair).2
    · cases hNames

end Value

/-! ## Setting -/

namespace Attributes

variable {sized : List Nat → Nat → Prop} {a b : Attributes Value} {n : Nat} {value : Value}

theorem mem_other {e : String × Value} (h : e ∈ a.other.entries) :
    ∃ m, a.others = some m ∧ e ∈ m.entries := by
  unfold Attributes.other at h
  cases hOthers : a.others with
  | none =>
    rw [hOthers] at h
    cases h
  | some m =>
    rw [hOthers] at h
    exact ⟨m, rfl, h⟩

/-- Names are taken away, or they are read from the value and filled up to the length. -/
theorem setNames_eq_ok (h : a.setNames n value = .ok b) :
    (value.isNull = true ∧ b = { a with names := none })
      ∨ value.isNull = false ∧ ∃ given, value.toNames = .ok given ∧ given.length ≤ n
          ∧ b = { a with names := some (Slots.extend none n given) } := by
  unfold setNames at h
  split at h
  · next hNull =>
    cases h
    exact Or.inl ⟨hNull, rfl⟩
  · next hSome =>
    obtain ⟨given, hGiven, h⟩ := bind_eq_ok.mp h
    dsimp only at h
    split at h
    · cases h
    · cases h
      exact Or.inr ⟨by simpa using hSome, given, hGiven, by omega, rfl⟩

/-- The shape is taken away, or extents of an array of this length are read from the value. -/
theorem setDim_eq_ok (h : a.setDim n value = .ok b) :
    (value.isNull = true ∧ b = a.withoutShape)
      ∨ value.isNull = false ∧ ∃ extents, value.toExtents = .ok extents ∧ IsArrayLength extents n
          ∧ b = { a with names := none, dim := some extents, dimnames := none } := by
  unfold setDim at h
  split at h
  · next hNull =>
    cases h
    exact Or.inl ⟨hNull, rfl⟩
  · next hSome =>
    obtain ⟨extents, hExtents, h⟩ := bind_eq_ok.mp h
    dsimp only at h
    split at h
    · cases h
    · next hSize =>
      cases h
      exact Or.inr ⟨by simpa using hSome, extents, hExtents, Decidable.not_not.mp hSize, rfl⟩

/-- The names along the dimensions are taken away, or they are read from a list with an entry for
each dimension. -/
theorem setDimnames_eq_ok (h : a.setDimnames value = .ok b) :
    (value.isNull = true ∧ b = { a with dimnames := none })
      ∨ ∃ entries attributes extents axes, value = .list entries attributes
          ∧ a.dim = some extents ∧ entries.length = extents.length
          ∧ Value.toDimnames extents entries = .ok axes
          ∧ b = { a with dimnames := some axes } := by
  unfold setDimnames at h
  split at h
  · cases h
    exact Or.inl ⟨rfl, rfl⟩
  · next entries attributes =>
    split at h
    · cases h
    · next extents hDim =>
      dsimp only at h
      split at h
      · cases h
      · next hRank =>
        obtain ⟨axes, hAxes, h⟩ := bind_eq_ok.mp h
        cases h
        exact Or.inr ⟨entries, attributes, extents, axes, rfl, hDim,
          Decidable.not_not.mp hRank, hAxes, rfl⟩
  · cases h

theorem FitBy.setNames (ha : a.FitBy sized n) (h : a.setNames n value = .ok b) :
    b.FitBy sized n := by
  rcases setNames_eq_ok h with ⟨-, rfl⟩ | ⟨-, given, -, hLength, rfl⟩
  · exact ⟨nofun, ha.dim, ha.dimnames, ha.others⟩
  · apply ha.rename
    rw [Slots.length_extend]
    omega

/-- The extents are checked against the length, and with them go the names they do not allow. -/
theorem FitBy.setDim (ha : a.FitBy IsArrayLength n) (h : a.setDim n value = .ok b) :
    b.FitBy IsArrayLength n := by
  rcases setDim_eq_ok h with ⟨-, rfl⟩ | ⟨-, extents, hExtents, hSize, rfl⟩
  · exact ha.withoutShape ha.names
  · refine ⟨nofun, ?_, nofun, ha.others⟩
    intro given hGiven
    cases hGiven
    exact ⟨Value.ne_nil_of_toExtents hExtents, hSize⟩

theorem FitBy.setDimnames (ha : a.FitBy sized n) (h : a.setDimnames value = .ok b) :
    b.FitBy sized n := by
  rcases setDimnames_eq_ok h with
    ⟨-, rfl⟩ | ⟨entries, attributes, extents, axes, rfl, hDim, hRank, hAxes, rfl⟩
  · exact ⟨ha.names, ha.dim, nofun, ha.others⟩
  · refine ⟨ha.names, ha.dim, ?_, ha.others⟩
    intro given hGiven
    cases hGiven
    exact ⟨extents, hDim, Value.getElem?_of_toDimnames hRank hAxes⟩

/-- Attributes with rules of their own leave the others alone. -/
theorem others_of_setNames (h : a.setNames n value = .ok b) : b.others = a.others := by
  rcases setNames_eq_ok h with ⟨-, rfl⟩ | ⟨-, given, -, -, rfl⟩ <;> rfl

theorem others_of_setDim (h : a.setDim n value = .ok b) : b.others = a.others := by
  rcases setDim_eq_ok h with ⟨-, rfl⟩ | ⟨-, extents, -, -, rfl⟩ <;> rfl

theorem others_of_setDimnames (h : a.setDimnames value = .ok b) : b.others = a.others := by
  rcases setDimnames_eq_ok h with ⟨-, rfl⟩ | ⟨entries, attributes, extents, axes, -, -, -, -, rfl⟩
    <;> rfl

/-- What is in the map once an attribute is set by key was there before, or has been set. -/
theorem mem_of_setOther {key : String} {m : OrderedMap String Value}
    (hm : (a.setOther key value).others = some m) {e : String × Value} (he : e ∈ m.entries) :
    (e = (key, value) ∧ value.isNull = false) ∨ ∃ m', a.others = some m' ∧ e ∈ m'.entries := by
  unfold setOther at hm
  split at hm
  · obtain ⟨hMap, -⟩ := Option.filter_eq_some_iff.mp hm
    obtain ⟨m', hm', rfl⟩ := Option.map_eq_some_iff.mp hMap
    exact Or.inr ⟨m', hm', (List.mem_filter.mp he).1⟩
  · next hNotNull =>
    cases hm
    rcases OrderedMap.mem_insertIn he with rfl | hOld
    · exact Or.inl ⟨rfl, by simpa using hNotNull⟩
    · exact Or.inr (mem_other hOld)

/-- Attributes that are set by key stay a map that holds something. -/
theorem entries_ne_nil_of_setOther {key : String} {m : OrderedMap String Value}
    (hm : (a.setOther key value).others = some m) : m.entries ≠ [] := by
  unfold setOther at hm
  split at hm
  · obtain ⟨-, hSome⟩ := Option.filter_eq_some_iff.mp hm
    simpa [OrderedMap.isEmpty] using hSome
  · cases hm
    exact OrderedMap.insertIn_ne_nil _ _ _

/-- Attributes that are set by key leave those with rules of their own alone. -/
theorem setOther_eq (a : Attributes Value) (key : String) (value : Value) :
    a.setOther key value = { a with others := (a.setOther key value).others } := by
  unfold setOther
  split <;> rfl

theorem FitBy.setOther (ha : a.FitBy sized n) {key : String} (hKey : key ∉ reservedKeys) :
    (a.setOther key value).FitBy sized n := by
  have hOthers : ∀ m, (a.setOther key value).others = some m →
      m.entries ≠ [] ∧ ∀ e ∈ m.entries, e.2.isNull = false ∧ e.1 ∉ reservedKeys := by
    intro m hm
    refine ⟨entries_ne_nil_of_setOther hm, ?_⟩
    intro e he
    rcases mem_of_setOther hm he with ⟨rfl, hNotNull⟩ | ⟨m', hm', hOld⟩
    · exact ⟨hNotNull, hKey⟩
    · exact (ha.others m' hm').2 e hOld
  rw [setOther_eq]
  exact ⟨ha.names, ha.dim, ha.dimnames, hOthers⟩

theorem ValuesWellFormedBy.setOther (ha : a.ValuesWellFormedBy sized)
    (hValue : value.WellFormedBy sized) (key : String) :
    (a.setOther key value).ValuesWellFormedBy sized := by
  intro m hm e he
  rcases mem_of_setOther hm he with ⟨rfl, -⟩ | ⟨m', hm', hOld⟩
  · exact hValue
  · exact ha m' hm' e hOld

/-- What is read under a key. -/
def getAt (a : Attributes Value) : AttributeKey → Option Value
  | .names => a.names.map Value.ofNames
  | .dim => a.dim.map fun extents =>
      .atomic .integer (extents.map fun extent => some (Int32.ofNat extent)) {}
  | .dimnames => a.dimnames.map fun axes => .list (axes.map Value.ofNames?) {}
  | .other key => a.other.find? key

/-- The attributes of `n` elements after a value was set under a key. -/
def setAt (a : Attributes Value) (n : Nat) (key : AttributeKey) (value : Value) :
    Except Error (Attributes Value) :=
  match key with
  | .names => a.setNames n value
  | .dim => a.setDim n value
  | .dimnames => a.setDimnames value
  | .other key => pure (a.setOther key value)

end Attributes

/-- New attributes that fit the elements keep a vector well formed. -/
theorem TypedVector.WellFormedBy.withAttributes {sized : List Nat → Nat → Prop}
    {kind : VectorKind} {v : TypedVector kind} (hv : v.WellFormedBy sized) {a : Attributes Value}
    (hFit : a.FitBy sized v.length) (hValues : a.ValuesWellFormedBy sized) :
    (v.toValue.withAttributes a).WellFormedBy sized := by
  cases kind with
  | atomic k => exact .atomic k _ _ hFit hValues
  | list => exact .list _ _ hv.elements hFit hValues

theorem TypedVector.getAttribute_withAttributes {kind : VectorKind} (v : TypedVector kind)
    (a : Attributes Value) (key : String) :
    (v.toValue.withAttributes a).getAttribute key = a.getAt (.ofString key) := by
  cases kind <;> unfold Value.getAttribute Attributes.getAt <;>
    cases AttributeKey.ofString key <;> rfl

theorem TypedVector.getAttribute_toValue {kind : VectorKind} (v : TypedVector kind)
    (key : String) : v.toValue.getAttribute key = v.attributes.getAt (.ofString key) := by
  have hSame : v.toValue.withAttributes v.attributes = v.toValue := by cases kind <;> rfl
  rw [← getAttribute_withAttributes v v.attributes, hSame]

/-- Setting an attribute changes the attributes alone, as the rule of the key has it. -/
theorem TypedVector.setAttribute_toValue {kind : VectorKind} (v : TypedVector kind) (key : String)
    (value : Value) :
    v.toValue.setAttribute key value
      = (v.attributes.setAt v.length (.ofString key) value).map v.toValue.withAttributes := by
  rw [Value.setAttribute, vector?_toValue]
  unfold Attributes.setAt
  cases AttributeKey.ofString key <;> rfl

namespace Value

theorem setAttribute_eq_ok {x y value : Value} {key : String}
    (h : x.setAttribute key value = .ok y) :
    ∃ (kind : VectorKind) (v : TypedVector kind) (a : Attributes Value),
      x = v.toValue ∧ v.attributes.setAt v.length (.ofString key) value = .ok a
        ∧ y = v.toValue.withAttributes a := by
  cases hVector : x.vector? with
  | none =>
    rw [setAttribute, hVector] at h
    cases h
  | some vector =>
    obtain ⟨kind, v⟩ := vector
    obtain rfl := eq_toValue_of_vector? hVector
    rw [v.setAttribute_toValue] at h
    obtain ⟨a, hSet, rfl⟩ := map_eq_ok.mp h
    exact ⟨kind, v, a, rfl, hSet, rfl⟩

/-- What setting an attribute does: the others are left alone, or one of them is set. -/
theorem exists_of_setAttribute {x y value : Value} {key : String}
    (h : x.setAttribute key value = .ok y) :
    ∃ (kind : VectorKind) (v : TypedVector kind) (a : Attributes Value),
      x = v.toValue ∧ y = v.toValue.withAttributes a
        ∧ ((a.others = v.attributes.others
            ∧ (v.attributes.FitBy IsArrayLength v.length → a.FitBy IsArrayLength v.length))
          ∨ ∃ key' ∉ reservedKeys, a = v.attributes.setOther key' value) := by
  obtain ⟨kind, v, a, rfl, hSet, rfl⟩ := setAttribute_eq_ok h
  refine ⟨kind, v, a, rfl, rfl, ?_⟩
  cases hKey : AttributeKey.ofString key with
  | names =>
    rw [hKey] at hSet
    exact Or.inl ⟨Attributes.others_of_setNames hSet, fun hFit => hFit.setNames hSet⟩
  | dim =>
    rw [hKey] at hSet
    exact Or.inl ⟨Attributes.others_of_setDim hSet, fun hFit => hFit.setDim hSet⟩
  | dimnames =>
    rw [hKey] at hSet
    exact Or.inl ⟨Attributes.others_of_setDimnames hSet, fun hFit => hFit.setDimnames hSet⟩
  | other key' =>
    rw [hKey] at hSet
    cases hSet
    exact Or.inr ⟨key', AttributeKey.notMem_reservedKeys hKey, rfl⟩

/-- An attribute that is read has no attributes in it, or is one of those without rules of their
own. -/
theorem plain_or_mem_of_getAttribute {x y : Value} {key : String}
    (h : x.getAttribute key = some y) :
    y.Plain ∨ ∃ a m, x.attributes? = some a ∧ a.others = some m ∧ ∃ e ∈ m.entries, e.2 = y := by
  obtain ⟨a, ha, h⟩ := Option.bind_eq_some_iff.mp h
  split at h
  · obtain ⟨names, -, rfl⟩ := Option.map_eq_some_iff.mp h
    exact Or.inl (.atomic .character names)
  · obtain ⟨extents, -, rfl⟩ := Option.map_eq_some_iff.mp h
    exact Or.inl (.atomic .integer _)
  · obtain ⟨axes, -, rfl⟩ := Option.map_eq_some_iff.mp h
    refine Or.inl (.list _ ?_)
    intro e he
    obtain ⟨axis, -, rfl⟩ := List.mem_map.mp he
    cases axis with
    | none => exact .null
    | some names => exact .atomic .character names
  · obtain ⟨m, hm, hMem⟩ := Attributes.mem_other (OrderedMap.mem_of_findIn h)
    exact Or.inr ⟨a, m, ha, hm, _, hMem, rfl⟩

theorem WellFormedBy.setAttribute {x y value : Value} (hx : x.WellFormedBy IsArrayLength)
    (hValue : value.WellFormedBy IsArrayLength) {key : String}
    (h : x.setAttribute key value = .ok y) : y.WellFormedBy IsArrayLength := by
  obtain ⟨kind, v, a, rfl, rfl, hChanged⟩ := exists_of_setAttribute h
  have hv : v.WellFormedBy IsArrayLength := TypedVector.wellFormed_toValue_iff.mp hx
  rcases hChanged with ⟨hOthers, hFit⟩ | ⟨key', hKey, rfl⟩
  · refine hv.withAttributes (hFit hv.fit) ?_
    intro m hm
    exact hv.values m (hOthers ▸ hm)
  · exact hv.withAttributes (hv.fit.setOther hKey) (hv.values.setOther hValue key')

theorem WellFormedBy.getAttribute {sized : List Nat → Nat → Prop} {x y : Value}
    (hx : x.WellFormedBy sized) {key : String} (h : x.getAttribute key = some y) :
    y.WellFormedBy sized := by
  rcases plain_or_mem_of_getAttribute h with hPlain | ⟨a, m, ha, hm, e, he, rfl⟩
  · exact hPlain.wellFormed
  · exact hx.values ha m hm e he

end Value

end VectorIndexing
