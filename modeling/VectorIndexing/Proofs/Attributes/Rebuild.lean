import Mathlib.Data.List.Basic
import VectorIndexing.Proofs.Attributes.Ordered
import VectorIndexing.Proofs.WellFormed.Runs

/-!
# Attributes rebuild a vector

What is read of a vector's attributes, key by key, can be set again: on the bare elements it makes
the vector that it was read from. The extents have to come first, since they clear the names, and
then the names along them; the keys without rules of their own may come in any order.

* `Value.attributesAt`, `Value.setAttributes`: reading and setting several attributes.
* `TypedVector.setAttributes_attributesAt`: what is read makes the same vector.
* `Workspace.setAttributes_attributesAt_run`: so it does for whatever operations made.
-/

namespace VectorIndexing

/-! ## Several attributes -/

namespace Value

/-- The attributes that are present under the keys, in the order of the keys. -/
def attributesAt (x : Value) (keys : List String) : List (String × Value) :=
  keys.filterMap fun key => (x.getAttribute key).map (key, ·)

/-- Set attributes one after another. -/
def setAttributes (x : Value) (entries : List (String × Value)) : Except Error Value :=
  entries.foldlM (fun y e => y.setAttribute e.1 e.2) x

theorem attributesAt_append (x : Value) (keys keys' : List String) :
    x.attributesAt (keys ++ keys') = x.attributesAt keys ++ x.attributesAt keys' :=
  List.filterMap_append

theorem setAttributes_append (x : Value) (entries entries' : List (String × Value)) :
    x.setAttributes (entries ++ entries')
      = x.setAttributes entries >>= fun y => y.setAttributes entries' :=
  List.foldlM_append

/-- One attribute, which stands for a field that may be empty, is set if the field is not. -/
theorem setAttributes_attributesAt_single {α : Type} {x y z : Value} {key : String}
    {field : Option α} {toValue : α → Value} (hRead : x.getAttribute key = field.map toValue)
    (hEmpty : field = none → z = y)
    (hFilled : ∀ content, field = some content → y.setAttribute key (toValue content) = .ok z) :
    y.setAttributes (x.attributesAt [key]) = .ok z := by
  cases hField : field with
  | none =>
    have hNothing : x.attributesAt [key] = [] := by simp [attributesAt, hRead, hField]
    rw [hNothing, hEmpty hField]
    rfl
  | some content =>
    have hOne : x.attributesAt [key] = [(key, toValue content)] := by
      simp [attributesAt, hRead, hField]
    rw [hOne]
    show (y.setAttribute key (toValue content) >>= fun y => .ok y) = .ok z
    rw [hFilled content hField]
    rfl

end Value

/-! ## Extents and names along them -/

/-- The extents, if there are any, fit in 32-bit integers, which they are read as. -/
def Attributes.ExtentsReadable (a : Attributes Value) : Prop :=
  ∀ extents, a.dim = some extents → ∀ extent ∈ extents, extent ≤ 2147483647

namespace Value

/-- Numbers that are not negative are extents. -/
theorem mapM_toExtent (extents : List Nat) :
    (extents.map fun (extent : Nat) => some (extent : Int)).mapM toExtent = .ok extents := by
  apply mapM_eq_ok_of_getElem?
  · rw [List.length_map]
  · intro i entry extent hEntry hExtent
    rw [List.getElem?_map, hExtent] at hEntry
    cases hEntry
    simp [toExtent]

/-- Extents that fit in 32 bits are set as they are read. -/
theorem toExtents_ofExtents {extents : List Nat} (hSome : extents ≠ [])
    (hBound : ∀ extent ∈ extents, extent ≤ 2147483647) :
    (atomic .integer (extents.map fun extent => some (Int32.ofNat extent)) {}).toExtents
      = .ok extents := by
  have hEntries : (extents.map fun extent => some (Int32.ofNat extent)).map
      (Option.map Int32.toInt) = extents.map fun (extent : Nat) => some (extent : Int) := by
    rw [List.map_map]
    apply List.map_congr_left
    intro extent hExtent
    have hReadable := hBound extent hExtent
    exact congrArg some (Int32.toInt_ofNat_of_lt (by omega))
  have hNotEmpty : (extents.map fun (extent : Nat) => some (extent : Int)).isEmpty = false := by
    simpa using hSome
  show (do
    if ((extents.map fun extent => some (Int32.ofNat extent)).map
      (Option.map Int32.toInt)).isEmpty then throw Error.dimsEmpty
    ((extents.map fun extent => some (Int32.ofNat extent)).map
      (Option.map Int32.toInt)).mapM toExtent) = Except.ok extents
  rw [hEntries, hNotEmpty]
  exact mapM_toExtent extents

/-- Names are set as they are read. -/
theorem toNames_ofNames (names : Names) : (ofNames names).toNames = .ok names := by
  simp [ofNames, toNames, AtomicKind.convert?_self]

/-- Names along dimensions are set as they are read, provided that they fit. -/
theorem toDimnames_ofNames {extents : List Nat} {axes : List (Option Names)}
    (hRank : axes.length = extents.length)
    (hNames : ∀ (i : Nat) (names : Names), axes[i]? = some (some names) →
      extents[i]? = some names.length) :
    toDimnames extents (axes.map ofNames?) = .ok axes := by
  apply mapM_eq_ok_of_getElem?
  · simp [hRank]
  · rintro i ⟨⟨entry, extent⟩, j⟩ axis hItem hAxis
    rw [List.getElem?_zipIdx] at hItem
    obtain ⟨pair, hPair, hSame⟩ := Option.map_eq_some_iff.mp hItem
    cases hSame
    obtain ⟨hEntry, hExtent⟩ := List.getElem?_zip_eq_some.mp hPair
    rw [List.getElem?_map, hAxis] at hEntry
    cases hEntry
    cases axis with
    | none => rfl
    | some names =>
      cases (hNames i names hAxis).symm.trans hExtent
      show ((ofNames names).toNames >>= fun given =>
        if given.length = names.length then pure (some given)
        else throw (.dimnamesExtentMismatch (0 + i + 1))) = .ok (some names)
      rw [toNames_ofNames]
      exact if_pos rfl

end Value

namespace Attributes

variable {a : Attributes Value} {n : Nat}

theorem setDim_ofExtents {extents : List Nat} (hSome : extents ≠ [])
    (hSize : IsArrayLength extents n) (hBound : ∀ extent ∈ extents, extent ≤ 2147483647) :
    a.setDim n (.atomic .integer (extents.map fun extent => some (Int32.ofNat extent)) {})
      = .ok { a with names := none, dim := some extents, dimnames := none } := by
  simp only [setDim, Value.isNull, Bool.false_eq_true, if_false,
    Value.toExtents_ofExtents hSome hBound]
  exact if_neg (Decidable.not_not.mpr hSize)

theorem setDimnames_ofNames {extents : List Nat} {axes : List (Option Names)}
    (hDim : a.dim = some extents) (hRank : axes.length = extents.length)
    (hNames : ∀ (i : Nat) (names : Names), axes[i]? = some (some names) →
      extents[i]? = some names.length) :
    a.setDimnames (.list (axes.map Value.ofNames?) {}) = .ok { a with dimnames := some axes } := by
  have hLength : ¬ (axes.map Value.ofNames?).length ≠ extents.length := by simp [hRank]
  simp only [setDimnames, hDim, Value.toDimnames_ofNames hRank hNames]
  exact if_neg hLength

theorem setNames_ofNames {names : Names} (h : names.length = n) :
    a.setNames n (.ofNames names) = .ok { a with names := some names } := by
  have hExtend : Slots.extend none n names = names := by simp [Slots.extend, h]
  have hFits : ¬ n < names.length := by omega
  rw [setNames, Value.toNames_ofNames]
  show (if n < names.length then throw _ else pure _) = _
  rw [if_neg hFits, hExtend]
  rfl

end Attributes

/-! ## One key after another -/

theorem AttributeKey.ofString_of_notMem {key : String} (h : key ∉ reservedKeys) :
    ofString key = other key := by
  simp only [reservedKeys, List.mem_cons, List.not_mem_nil, or_false, not_or] at h
  unfold ofString
  split <;> simp_all

namespace TypedVector

variable {kind : VectorKind} {v : TypedVector kind} {b : Attributes Value}

/-- The vector with other attributes. -/
def setting (v : TypedVector kind) (b : Attributes Value) : Value :=
  TypedVector.toValue { v with attributes := b }

theorem attributes?_toValue (v : TypedVector kind) : v.toValue.attributes? = some v.attributes := by
  cases kind <;> rfl

theorem setAttribute_setting {key : String} {value : Value} {c : Attributes Value}
    (h : b.setAt v.length (.ofString key) value = .ok c) :
    (v.setting b).setAttribute key value = .ok (v.setting c) := by
  have hSet : (v.setting b).setAttribute key value
      = (b.setAt v.length (.ofString key) value).map (v.setting b).withAttributes :=
    setAttribute_toValue { v with attributes := b } key value
  rw [hSet, h]
  cases kind <;> rfl

theorem setAttributes_dim (hFit : v.attributes.FitBy IsArrayLength v.length)
    (hReadable : v.attributes.ExtentsReadable) :
    (v.setting {}).setAttributes (v.toValue.attributesAt ["dim"])
      = .ok (v.setting { dim := v.attributes.dim }) := by
  have hRead : v.toValue.getAttribute "dim" = v.attributes.dim.map fun extents =>
      .atomic .integer (extents.map fun extent => some (Int32.ofNat extent)) {} :=
    v.getAttribute_toValue "dim"
  apply Value.setAttributes_attributesAt_single hRead
  · intro hDim
    rw [hDim]
  · intro extents hDim
    obtain ⟨hSome, hSize⟩ := hFit.dim extents hDim
    rw [hDim]
    exact setAttribute_setting (Attributes.setDim_ofExtents hSome hSize (hReadable extents hDim))

theorem setAttributes_dimnames (hFit : v.attributes.FitBy IsArrayLength v.length) :
    (v.setting { dim := v.attributes.dim }).setAttributes (v.toValue.attributesAt ["dimnames"])
      = .ok (v.setting { dim := v.attributes.dim, dimnames := v.attributes.dimnames }) := by
  have hRead : v.toValue.getAttribute "dimnames" = v.attributes.dimnames.map fun axes =>
      .list (axes.map Value.ofNames?) {} :=
    v.getAttribute_toValue "dimnames"
  apply Value.setAttributes_attributesAt_single hRead
  · intro hDimnames
    rw [hDimnames]
  · intro axes hDimnames
    obtain ⟨extents, hDim, hRank, hNames⟩ := hFit.dimnames axes hDimnames
    rw [hDimnames]
    exact setAttribute_setting (Attributes.setDimnames_ofNames hDim hRank hNames)

theorem setAttributes_names (hFit : v.attributes.FitBy IsArrayLength v.length) :
    (v.setting { dim := v.attributes.dim, dimnames := v.attributes.dimnames }).setAttributes
        (v.toValue.attributesAt ["names"])
      = .ok (v.setting
          { names := v.attributes.names
            dim := v.attributes.dim
            dimnames := v.attributes.dimnames }) := by
  have hRead : v.toValue.getAttribute "names" = v.attributes.names.map Value.ofNames :=
    v.getAttribute_toValue "names"
  apply Value.setAttributes_attributesAt_single hRead
  · intro hNames
    rw [hNames]
  · intro names hNames
    rw [hNames]
    exact setAttribute_setting (Attributes.setNames_ofNames (hFit.names names hNames))

/-! ## Other keys -/

/-- Other attributes than those with rules of their own are put in the map. -/
theorem setAttributes_others (b : Attributes Value) {e : String × Value}
    {rest : List (String × Value)}
    (hAdded : ∀ e' ∈ e :: rest, e'.1 ∉ reservedKeys ∧ e'.2.isNull = false) :
    (v.setting b).setAttributes (e :: rest)
      = .ok (v.setting
          { b with others := some ((e :: rest).foldl (fun m e => m.insert e.1 e.2) b.other) }) := by
  have hSet : ∀ (b : Attributes Value) (e : String × Value), e.1 ∉ reservedKeys →
      e.2.isNull = false → (v.setting b).setAttribute e.1 e.2
        = .ok (v.setting { b with others := some (b.other.insert e.1 e.2) }) := by
    intro b e hKey hNotNull
    apply setAttribute_setting
    simp only [AttributeKey.ofString_of_notMem hKey, Attributes.setAt, Attributes.setOther,
      hNotNull]
    rfl
  induction rest generalizing b e with
  | nil =>
    obtain ⟨hKey, hNotNull⟩ := hAdded e List.mem_cons_self
    show ((v.setting b).setAttribute e.1 e.2 >>= fun y => .ok y) = _
    rw [hSet b e hKey hNotNull]
    rfl
  | cons e' rest ih =>
    obtain ⟨hKey, hNotNull⟩ := hAdded e List.mem_cons_self
    show ((v.setting b).setAttribute e.1 e.2 >>= fun y => y.setAttributes (e' :: rest)) = _
    rw [hSet b e hKey hNotNull]
    exact ih _ fun e hMem => hAdded e (List.mem_cons_of_mem _ hMem)

/-- What is read under all keys of the map is what it holds. -/
theorem attributesAt_perm (hFit : v.attributes.FitBy IsArrayLength v.length)
    (hOrdered : v.attributes.Ordered) {keys : List String} (hKeys : keys.Perm v.attributes.other.keys) :
    (v.toValue.attributesAt keys).Perm v.attributes.other.entries := by
  have hEntry : ∀ e ∈ v.attributes.other.entries,
      (v.toValue.getAttribute e.1).map (e.1, ·) = some e := by
    intro e he
    obtain ⟨m, hm, hMem⟩ := Attributes.mem_other he
    have hKey : e.1 ∉ reservedKeys := ((hFit.others m hm).2 e hMem).2
    have hRead : v.toValue.getAttribute e.1 = v.attributes.other.find? e.1 := by
      rw [v.getAttribute_toValue, AttributeKey.ofString_of_notMem hKey]
      rfl
    rw [hRead, hOrdered.other.find?_of_mem he]
    rfl
  have hAll : v.toValue.attributesAt v.attributes.other.keys = v.attributes.other.entries := by
    unfold Value.attributesAt OrderedMap.keys
    rw [List.filterMap_map]
    exact (List.filterMap_congr hEntry).trans List.filterMap_some
  rw [← hAll]
  exact hKeys.filterMap _

/-- What is read under all keys of the map makes it again. -/
theorem setAttributes_other (hFit : v.attributes.FitBy IsArrayLength v.length)
    (hOrdered : v.attributes.Ordered) {keys : List String} (hKeys : keys.Perm v.attributes.other.keys) :
    (v.setting { v.attributes with others := none }).setAttributes (v.toValue.attributesAt keys)
      = .ok v.toValue := by
  have hPerm := attributesAt_perm hFit hOrdered hKeys
  have hAdded : ∀ e ∈ v.toValue.attributesAt keys, e.1 ∉ reservedKeys ∧ e.2.isNull = false := by
    intro e he
    obtain ⟨m, hm, hMem⟩ := Attributes.mem_other (hPerm.mem_iff.mp he)
    exact ((hFit.others m hm).2 e hMem).symm
  have hMap : OrderedMap.ofList (v.toValue.attributesAt keys) = v.attributes.other :=
    OrderedMap.ofList_of_perm hOrdered.other hPerm
  cases hOthers : v.attributes.others with
  | none =>
    have hSame : { v.attributes with others := none } = v.attributes := by rw [← hOthers]
    have hNothing : v.toValue.attributesAt keys = [] := by
      rw [Attributes.other, hOthers] at hPerm
      exact hPerm.eq_nil
    rw [hNothing, hSame]
    rfl
  | some m =>
    have hOther : v.attributes.other = m := by rw [Attributes.other, hOthers, Option.getD_some]
    rw [hOther] at hPerm hMap
    cases hEntries : v.toValue.attributesAt keys with
    | nil =>
      rw [hEntries] at hPerm
      exact absurd hPerm.nil_eq.symm (hFit.others m hOthers).1
    | cons e rest =>
      rw [hEntries] at hAdded hMap
      have hSame : { v.attributes with others := some m } = v.attributes := by rw [← hOthers]
      rw [setAttributes_others _ hAdded]
      show Except.ok (v.setting
        { v.attributes with others := some (OrderedMap.ofList (e :: rest)) }) = _
      rw [hMap, hSame]
      rfl

/-- The attributes that are read of a vector make it again when they are set on its bare elements,
the extents first, then the names along them and the names, and the others in any order. -/
theorem setAttributes_attributesAt (hFit : v.attributes.FitBy IsArrayLength v.length)
    (hOrdered : v.attributes.Ordered)
    (hReadable : v.attributes.ExtentsReadable)
    {keys : List String} (hKeys : keys.Perm v.attributes.other.keys) :
    (v.setting {}).setAttributes
        (v.toValue.attributesAt (["dim", "dimnames", "names"] ++ keys))
      = .ok v.toValue := by
  have hSplit : v.toValue.attributesAt (["dim", "dimnames", "names"] ++ keys)
      = v.toValue.attributesAt ["dim"] ++ (v.toValue.attributesAt ["dimnames"]
        ++ (v.toValue.attributesAt ["names"] ++ v.toValue.attributesAt keys)) := by
    simp only [← Value.attributesAt_append]
    rfl
  calc
    (v.setting {}).setAttributes (v.toValue.attributesAt (["dim", "dimnames", "names"] ++ keys))
      = (v.setting { dim := v.attributes.dim }).setAttributes
          (v.toValue.attributesAt ["dimnames"]
            ++ (v.toValue.attributesAt ["names"] ++ v.toValue.attributesAt keys)) := by
        rw [hSplit, Value.setAttributes_append, setAttributes_dim hFit hReadable]
        rfl
    _ = (v.setting { dim := v.attributes.dim, dimnames := v.attributes.dimnames }).setAttributes
          (v.toValue.attributesAt ["names"] ++ v.toValue.attributesAt keys) := by
        rw [Value.setAttributes_append, setAttributes_dimnames hFit]
        rfl
    _ = (v.setting
          { names := v.attributes.names
            dim := v.attributes.dim
            dimnames := v.attributes.dimnames }).setAttributes (v.toValue.attributesAt keys) := by
        rw [Value.setAttributes_append, setAttributes_names hFit]
        rfl
    _ = .ok v.toValue := setAttributes_other hFit hOrdered hKeys

end TypedVector

/-! ## Runs -/

theorem Workspace.Plain.ordered {w : Workspace} (h : w.Plain) : w.Has Value.Ordered where
  store := fun e name x hx => (h.store e name x hx).ordered
  values := fun x hx => (h.values x hx).ordered

/-- Whatever vector or list operations make or bind, starting from values without attributes: what
is read of its attributes makes it again. -/
theorem Workspace.setAttributes_attributesAt_run {w : Workspace} (h : w.Plain)
    (operations : List Operation) {x : Value}
    (hx : x ∈ (w.run operations).values
      ∨ ∃ e name, (w.run operations).world.store.binding? e name = some x)
    {a : Attributes Value} (ha : x.attributes? = some a)
    (hReadable : a.ExtentsReadable)
    {keys : List String} (hKeys : keys.Perm a.other.keys) :
    (x.withAttributes {}).setAttributes
        (x.attributesAt (["dim", "dimnames", "names"] ++ keys)) = .ok x := by
  have hWellFormed : (w.run operations).WellFormed := h.wellFormed.run operations
  have hOrdered : (w.run operations).Has Value.Ordered :=
    Value.invariant_ordered.run h.ordered operations
  have hValue : x.WellFormedBy IsArrayLength ∧ x.Ordered := by
    rcases hx with hMade | ⟨e, name, hBound⟩
    · exact ⟨hWellFormed.values x hMade, hOrdered.values x hMade⟩
    · exact ⟨hWellFormed.store e name x hBound, hOrdered.store e name x hBound⟩
  have hVector : ∃ v : (kind : VectorKind) × TypedVector kind, x.vector? = some v := by
    cases x with
    | atomic k elements _ => exact ⟨_, rfl⟩
    | list elements _ => exact ⟨_, rfl⟩
    | null | closure _ | environment _ | s4 _ => cases ha
  obtain ⟨⟨kind, v⟩, hVector⟩ := hVector
  cases Value.eq_toValue_of_vector? hVector
  have hSame : v.attributes = a := Option.some.inj ((v.attributes?_toValue).symm.trans ha)
  subst hSame
  have hBare : v.toValue.withAttributes {} = v.setting {} := by cases kind <;> rfl
  rw [hBare]
  exact TypedVector.setAttributes_attributesAt
    (TypedVector.wellFormed_toValue_iff.mp hValue.1).fit
    (TypedVector.ordered_toValue_iff.mp hValue.2).attributes hReadable hKeys

/-- A matrix with names for its rows and two more attributes, which are set in another order than
they are kept in. -/
theorem Workspace.setAttributes_attributesAt_run_matrix :
    let rows : Value := .list [.atomic .character [some "r", some "s"] {}, .null] {}
    let extents : Value := .atomic .integer [some 2, some 2] {}
    let w : Workspace :=
      { values := [.atomic .integer [some 1, some 2, some 3, none] {}, extents, rows] }
    let operations : List Operation :=
      [.setAttribute 0 "dim" 1, .setAttribute 3 "dimnames" 2, .setAttribute 4 "shape" 1,
        .setAttribute 5 "labels" 2]
    let x : Value := .atomic .integer [some 1, some 2, some 3, none]
      { dim := some [2, 2]
        dimnames := some [some [some "r", some "s"], none]
        others := some ⟨[("labels", rows), ("shape", extents)]⟩ }
    x ∈ (w.run operations).values
      ∧ (x.withAttributes {}).setAttributes
          (x.attributesAt ["dim", "dimnames", "names", "shape", "labels"]) = .ok x := by
  intro rows extents w operations x
  have hPlain : w.Plain := by
    refine ⟨nofun, ?_⟩
    intro y hy
    simp only [w, List.mem_cons, List.not_mem_nil, or_false] at hy
    rcases hy with rfl | rfl | rfl
    · exact .atomic .integer _
    · exact .atomic .integer _
    · refine .list _ ?_
      intro z hz
      rcases List.mem_cons.mp hz with rfl | hz
      · exact .atomic .character _
      · rw [List.mem_singleton.mp hz]
        exact .null
  have hMade : x ∈ (w.run operations).values := by
    refine List.mem_of_getElem? (i := 6) ?_
    rfl
  have hReadable : Attributes.ExtentsReadable { dim := some [2, 2] } := by
    rintro _ ⟨⟩
    decide
  exact ⟨hMade, setAttributes_attributesAt_run hPlain operations (Or.inl hMade) rfl hReadable
    (List.Perm.swap _ _ [])⟩

end VectorIndexing
