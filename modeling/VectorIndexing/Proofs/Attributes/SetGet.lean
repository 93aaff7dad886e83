import Mathlib.Data.List.Forall2
import VectorIndexing.Proofs.Attributes.Rebuild
import VectorIndexing.Proofs.Coercion
import VectorIndexing.Proofs.Numbers.WholeDoubles

/-!
# Reading an attribute that was set

What is read under a key after a value was set under it, and what is then read under the others.

* `Attributes.getAt_of_setAt_ne`, `Attributes.getAt_of_clears`: which of the others are lost.
* `Value.toExtents_of_wholeNumbers`, `Attributes.getAt_dim_iff`: extents are held in 64 bits and
  read in 32.
* `Value.readAsNames_of_toDimnames`: names along dimensions.
* `Value.GivesBack`, `Value.givesBack_of_setAttribute`: all keys.
-/

namespace VectorIndexing

theorem OrderedMap.eq_empty_of_isEmpty {κ α : Type} {m : OrderedMap κ α} (h : m.isEmpty = true) :
    m = ∅ := by
  obtain ⟨entries⟩ := m
  exact congrArg OrderedMap.mk (List.isEmpty_iff.mp h)

/-! ## The other keys -/

namespace AttributeKey

/-- The key as it is written. -/
def text : AttributeKey → String
  | names => "names"
  | dim => "dim"
  | dimnames => "dimnames"
  | other key => key

theorem text_ofString (key : String) : (ofString key).text = key := by
  unfold ofString
  split <;> rfl

/-- Whether setting a value under the first key takes away what is under the second: an array has no
names, and without extents there are no names along them. -/
def Clears (key : AttributeKey) (value : Value) (second : AttributeKey) : Prop :=
  key = dim ∧ (second = dimnames ∨ second = names ∧ value.isNull = false)

end AttributeKey

namespace Attributes

variable {a b : Attributes Value} {n : Nat} {key second : AttributeKey} {value : Value}

theorem find?_other_setOther (a : Attributes Value) (key key' : String) (value : Value) :
    (a.setOther key value).other.find? key'
      = if key = key' then (if value.isNull then none else some value)
        else a.other.find? key' := by
  unfold setOther
  cases value.isNull with
  | false => simp [Attributes.other]
  | true =>
    cases hOthers : a.others with
    | none => simp [Attributes.other, hOthers]
    | some m =>
      -- a map that has become empty is given up, and nothing is found in it either
      have hErased : ((some (m.erase key)).filter fun m => !m.isEmpty).getD ∅ = m.erase key := by
        rw [Option.filter_some]
        split
        · rfl
        · next hEmpty => exact (OrderedMap.eq_empty_of_isEmpty (by simpa using hEmpty)).symm
      simp only [if_true, Attributes.other, hOthers, Option.map_some, hErased,
        OrderedMap.find?_erase, Option.getD_some]

/-- The keys that are not taken away keep what they had. -/
theorem getAt_of_setAt_ne (h : a.setAt n key value = .ok b) (hSecond : second ≠ key)
    (hKept : ¬ key.Clears value second) : b.getAt second = a.getAt second := by
  cases key with
  | names =>
    rcases setNames_eq_ok h with ⟨-, rfl⟩ | ⟨-, given, -, -, rfl⟩ <;>
      cases second <;> first | rfl | exact absurd rfl hSecond
  | dim =>
    rcases setDim_eq_ok h with ⟨hNull, rfl⟩ | ⟨hSome, extents, -, -, rfl⟩
    · cases second with
      | names | other => rfl
      | dim => exact absurd rfl hSecond
      | dimnames => exact absurd ⟨rfl, Or.inl rfl⟩ hKept
    · cases second with
      | other => rfl
      | names => exact absurd ⟨rfl, Or.inr ⟨rfl, hSome⟩⟩ hKept
      | dim => exact absurd rfl hSecond
      | dimnames => exact absurd ⟨rfl, Or.inl rfl⟩ hKept
  | dimnames =>
    rcases setDimnames_eq_ok h with
      ⟨-, rfl⟩ | ⟨entries, attributes, extents, axes, -, -, -, -, rfl⟩ <;>
      cases second <;> first | rfl | exact absurd rfl hSecond
  | other key =>
    cases h
    cases second with
    | names | dim | dimnames => rw [setOther_eq]; rfl
    | other key' =>
      have hKeys : key ≠ key' := fun hSame => hSecond (hSame ▸ rfl)
      rw [getAt, find?_other_setOther, if_neg hKeys, getAt]

theorem getAt_of_clears (h : a.setAt n key value = .ok b) (hClears : key.Clears value second) :
    b.getAt second = none := by
  obtain ⟨rfl, hClears⟩ := hClears
  rcases setDim_eq_ok h with ⟨hNull, rfl⟩ | ⟨hSome, extents, -, -, rfl⟩
  · rcases hClears with rfl | ⟨rfl, hSome⟩
    · rfl
    · rw [hNull] at hSome
      cases hSome
  · rcases hClears with rfl | ⟨rfl, -⟩ <;> rfl

/-! ## The key itself -/

/-- Nothing is left under a key that is set to `NULL`. -/
theorem getAt_of_setAt_null (h : a.setAt n key .null = .ok b) : b.getAt key = none := by
  cases key with
  | names | dim | dimnames =>
    cases h
    rfl
  | other key =>
    cases h
    rw [getAt, find?_other_setOther, if_pos rfl]
    rfl

end Attributes

namespace Value

theorem eq_null_of_isNull {x : Value} (h : x.isNull = true) : x = null := by
  cases x with
  | null => rfl
  | atomic _ _ _ | list _ _ | closure _ | environment _ | s4 _ => cases h

/-! ### Names -/

/-- The value as a character vector, whose elements are the names. -/
def ConvertsToNames (x : Value) (names : Names) : Prop :=
  ∃ attributes, x.convertTo (.atomic .character) = .ok (atomic .character names attributes)

theorem convertsToNames_of_toNames {x : Value} {names : Names} (h : x.toNames = .ok names) :
    x.ConvertsToNames names := by
  cases x with
  | atomic k elements attributes =>
    refine ⟨attributes, ?_⟩
    simp only [toNames] at h
    split at h
    · next f hConvert =>
      cases h
      show (atomic k elements attributes).coerceToKind (.vector (.atomic .character)) = _
      rw [coerceToKind_vector]
      simp only [coerce, hConvert]
      rfl
    · cases h
  | null | list _ _ | closure _ | environment _ | s4 _ => cases h

/-- An entry for a dimension is read as it is if it is `NULL`, and as the names it stands for
otherwise. -/
def ReadAsNames (entry read : Value) : Prop :=
  (entry = null ∧ read = null)
    ∨ entry.isNull = false ∧ ∃ names, entry.ConvertsToNames names ∧ read = ofNames names

theorem readAsNames_of_toDimnames {extents : List Nat} {entries : List Value}
    {axes : List (Option Names)} (hRank : entries.length = extents.length)
    (h : toDimnames extents entries = .ok axes) :
    List.Forall₂ ReadAsNames entries (axes.map ofNames?) := by
  obtain ⟨hLength, hItems⟩ := getElem?_of_mapM_eq_ok h
  have hAxes : axes.length = entries.length := by simpa [hRank] using hLength
  refine List.forall₂_iff_get.mpr ⟨by simp [hAxes], ?_⟩
  intro i hEntry hRead
  have hi : i < axes.length := by omega
  obtain ⟨⟨⟨entry, extent⟩, j⟩, hItem, hGiven⟩ := hItems i axes[i] (List.getElem?_eq_getElem hi)
  rw [List.getElem?_zipIdx] at hItem
  obtain ⟨pair, hPair, hSame⟩ := Option.map_eq_some_iff.mp hItem
  cases hSame
  obtain rfl : entries[i] = entry :=
    (List.getElem?_eq_some_iff.mp (List.getElem?_zip_eq_some.mp hPair).1).2
  rw [List.get_eq_getElem, List.get_eq_getElem, List.getElem_map]
  dsimp only at hGiven
  split at hGiven
  · next hNull =>
    have hNone : none = axes[i] := Except.ok.inj hGiven
    rw [← hNone]
    exact Or.inl ⟨eq_null_of_isNull hNull, rfl⟩
  · next hSome =>
    obtain ⟨names, hNames, hGiven⟩ := bind_eq_ok.mp hGiven
    split at hGiven
    · have hNamed : some names = axes[i] := Except.ok.inj hGiven
      rw [← hNamed]
      exact Or.inr ⟨by simpa using hSome, names, convertsToNames_of_toNames hNames, rfl⟩
    · cases hGiven

/-! ### Extents -/

/-- The elements of a numeric vector; those that are not whole numbers count as missing. -/
def wholeNumbers? : Value → Option (List (Option Int))
  | atomic .integer elements _ => some (elements.map (Option.map Int32.toInt))
  | atomic .double elements _ => some (elements.map (·.bind Double.wholeNumber?))
  | _ => none

/-- The elements are these numbers. -/
def HasNumbers (x : Value) (numbers : List Nat) : Prop :=
  x.wholeNumbers? = some (numbers.map fun (number : Nat) => some (number : Int))

/-- The value is the integer vector of these numbers, without attributes. -/
def IsIntegers (x : Value) (numbers : List Nat) : Prop :=
  ∃ elements, x = atomic .integer elements {} ∧ x.HasNumbers numbers

/-- The greatest extent that is held. -/
def maxExtent : Nat := Double.signUnit - 1

theorem eq_of_mapM_toExtent {entries : List (Option Int)} {numbers extents : List Nat}
    (hEntries : entries = numbers.map fun (number : Nat) => some (number : Int))
    (h : (do if entries.isEmpty then throw Error.dimsEmpty
             entries.mapM toExtent) = Except.ok extents) : extents = numbers := by
  rw [hEntries] at h
  dsimp only at h
  split at h
  · cases h
  · rw [mapM_toExtent] at h
    exact (Except.ok.inj h).symm

theorem toInt64Range_of_wholeNumber? {x : Double} {number : Nat}
    (h : x.wholeNumber? = some (number : Int)) :
    x.toInt64Range = (min number maxExtent : Nat) := by
  rw [Double.toInt64Range, Double.truncate?_of_wholeNumber? h]
  simp only [Double.signUnit, maxExtent]
  omega

/-- Extents are the whole numbers of the value, held within 64 bits. -/
theorem toExtents_of_wholeNumbers {value : Value} {numbers extents : List Nat}
    (hNumbers : value.HasNumbers numbers) (h : value.toExtents = .ok extents) :
    extents = numbers.map (min · maxExtent) := by
  unfold toExtents at h
  split at h
  · next elements attributes =>
    have hEntries : elements.map (Option.map Int32.toInt)
        = numbers.map fun (number : Nat) => some (number : Int) := Option.some.inj hNumbers
    have hBelow : ∀ number ∈ numbers, min number maxExtent = number := by
      intro number hMem
      have hEntry : some (number : Int) ∈ elements.map (Option.map Int32.toInt) := by
        rw [hEntries]
        exact List.mem_map_of_mem hMem
      obtain ⟨element, -, hElement⟩ := List.mem_map.mp hEntry
      obtain ⟨i, -, hInt⟩ := Option.map_eq_some_iff.mp hElement
      have hUpper := Int32.toInt_lt i
      simp only [maxExtent, Double.signUnit]
      omega
    rw [List.map_congr_left hBelow, List.map_id']
    exact eq_of_mapM_toExtent hEntries h
  · next elements attributes =>
    have hEntries : elements.map (·.bind Double.wholeNumber?)
        = numbers.map fun (number : Nat) => some (number : Int) := Option.some.inj hNumbers
    refine eq_of_mapM_toExtent ?_ h
    have hHeld : elements.map (Option.map Double.toInt64Range)
        = (elements.map (·.bind Double.wholeNumber?)).map
            (Option.map fun number => ((min number.toNat maxExtent : Nat) : Int)) := by
      rw [List.map_map]
      apply List.map_congr_left
      intro element hMem
      have hEntry : element.bind Double.wholeNumber?
          ∈ elements.map (·.bind Double.wholeNumber?) := List.mem_map_of_mem hMem
      rw [hEntries] at hEntry
      obtain ⟨number, -, hNumber⟩ := List.mem_map.mp hEntry
      obtain ⟨x, rfl, hWhole⟩ := Option.bind_eq_some_iff.mp hNumber.symm
      simp only [Option.map_some, Function.comp_apply, Option.bind_some, hWhole,
        toInt64Range_of_wholeNumber? hWhole, Int.toNat_natCast]
    rw [hHeld, hEntries, List.map_map, List.map_map]
    rfl
  · cases h

/-- An extent is read as it is if it fits in 32 bits, and only then. -/
theorem toInt_ofNat_min_iff (number : Nat) :
    (Int32.ofNat (min number maxExtent)).toInt = (number : Int) ↔ number ≤ 2147483647 := by
  constructor
  · intro hRead
    have hUpper := Int32.toInt_lt (Int32.ofNat (min number maxExtent))
    omega
  · intro hFits
    have hHeld : min number maxExtent = number := by
      simp only [maxExtent, Double.signUnit]
      omega
    rw [hHeld, Int32.toInt_ofNat_of_lt (by omega)]

theorem isIntegers_ofExtents_iff {numbers : List Nat} :
    (atomic .integer ((numbers.map (min · maxExtent)).map fun extent => some (Int32.ofNat extent))
        {}).IsIntegers numbers
      ↔ ∀ number ∈ numbers, number ≤ 2147483647 := by
  have hElements : (atomic .integer ((numbers.map (min · maxExtent)).map fun extent =>
          some (Int32.ofNat extent)) {}).wholeNumbers?
      = some (numbers.map fun number => some (Int32.ofNat (min number maxExtent)).toInt) := by
    simp only [wholeNumbers?, List.map_map]
    rfl
  have hAll : (numbers.map fun number => some (Int32.ofNat (min number maxExtent)).toInt)
        = numbers.map (fun (number : Nat) => some (number : Int))
      ↔ ∀ number ∈ numbers, number ≤ 2147483647 := by
    rw [List.map_inj_left]
    refine forall₂_congr ?_
    intro number _
    rw [Option.some.injEq, toInt_ofNat_min_iff]
  rw [← hAll, ← Option.some.injEq, ← hElements]
  constructor
  · rintro ⟨elements, -, hRead⟩
    exact hRead
  · intro hRead
    exact ⟨_, rfl, hRead⟩

end Value

/-- Extents that are held are read as they were given exactly if they fit in 32 bits. -/
theorem Attributes.getAt_dim_iff {a : Attributes Value} {numbers : List Nat}
    (h : a.dim = some (numbers.map (min · Value.maxExtent))) :
    (∃ read, a.getAt .dim = some read ∧ read.IsIntegers numbers) ∧ a.dim = some numbers
      ↔ ∀ number ∈ numbers, number ≤ 2147483647 := by
  rw [← Value.isIntegers_ofExtents_iff]
  constructor
  · rintro ⟨⟨read, hRead, hIntegers⟩, -⟩
    rw [getAt, h] at hRead
    obtain rfl := Option.some.inj hRead
    exact hIntegers
  · intro hIntegers
    have hHeld : numbers.map (min · Value.maxExtent) = numbers := by
      refine (List.map_congr_left ?_).trans (List.map_id' numbers)
      intro number hMem
      have hFits := Value.isIntegers_ofExtents_iff.mp hIntegers number hMem
      simp only [Value.maxExtent, Double.signUnit]
      omega
    refine ⟨⟨_, ?_, hIntegers⟩, h.trans (congrArg some hHeld)⟩
    rw [getAt, h]
    rfl

/-! ## All keys -/

namespace Value

/-- What is read of `y`, which is `x` after the value was set under the key. -/
structure GivesBack (x : Value) (key : String) (value y : Value) : Prop where
  /-- The elements are those of `x`. -/
  elements : ∃ attributes, y = x.withAttributes attributes
  removed : value = null → y.getAttribute key = none
  /-- Names are the value as a character vector, filled up to the length. -/
  names : key = "names" → value.isNull = false →
    ∃ names, value.ConvertsToNames names ∧ ∀ store, names.length ≤ x.length store
      ∧ y.getAttribute key = some (ofNames (Slots.extend none (x.length store) names))
  /-- Extents are held as they were given, if they can be held at all. -/
  held : key = "dim" → ∀ numbers : List Nat, value.HasNumbers numbers →
    y.dim? = some (numbers.map (min · maxExtent))
  /-- They are read as they were given exactly if all of them fit in 32 bits. -/
  dim : key = "dim" → ∀ numbers : List Nat, value.HasNumbers numbers →
    ((∃ read, y.getAttribute key = some read ∧ read.IsIntegers numbers) ∧ y.dim? = some numbers
      ↔ ∀ number ∈ numbers, number ≤ 2147483647)
  /-- Names along dimensions are a list without attributes. -/
  dimnames : key = "dimnames" → value.isNull = false →
    ∃ entries attributes read, value = list entries attributes
      ∧ y.getAttribute key = some (list read {}) ∧ List.Forall₂ ReadAsNames entries read
  other : key ∉ reservedKeys → value.isNull = false → y.getAttribute key = some value
  /-- The keys that are not taken away keep what they had. -/
  kept : ∀ second, second ≠ key →
    ¬ (AttributeKey.ofString key).Clears value (.ofString second) →
      y.getAttribute second = x.getAttribute second
  cleared : ∀ second, (AttributeKey.ofString key).Clears value (.ofString second) →
    y.getAttribute second = none

end Value

namespace TypedVector

variable {kind : VectorKind}

theorem dim?_withAttributes (v : TypedVector kind) (a : Attributes Value) :
    (v.toValue.withAttributes a).dim? = a.dim := by
  cases kind <;> rfl

end TypedVector

namespace Value

/-- Setting an attribute changes what is read under its key, and for extents it takes away the names
that do not go with them. -/
theorem givesBack_of_setAttribute {x value y : Value} {key : String}
    (h : x.setAttribute key value = .ok y) : x.GivesBack key value y := by
  obtain ⟨kind, v, a, rfl, hSet, rfl⟩ := setAttribute_eq_ok h
  have hDim : key = "dim" → ∀ numbers : List Nat, value.HasNumbers numbers →
      a.dim = some (numbers.map (min · maxExtent)) := by
    rintro rfl numbers hNumbers
    rcases Attributes.setDim_eq_ok hSet with ⟨hNull, -⟩ | ⟨-, extents, hExtents, -, rfl⟩
    · rw [eq_null_of_isNull hNull] at hNumbers
      cases hNumbers
    · exact congrArg some (toExtents_of_wholeNumbers hNumbers hExtents)
  refine
    { elements := ⟨a, rfl⟩
      removed := ?_
      names := ?_
      held := ?_
      dim := ?_
      dimnames := ?_
      other := ?_
      kept := ?_
      cleared := ?_ }
  · rintro rfl
    rw [v.getAttribute_withAttributes]
    exact Attributes.getAt_of_setAt_null hSet
  · rintro rfl hSome
    rcases Attributes.setNames_eq_ok hSet with ⟨hNull, -⟩ | ⟨-, names, hNames, hLength, rfl⟩
    · rw [hSome] at hNull
      cases hNull
    · refine ⟨names, convertsToNames_of_toNames hNames, ?_⟩
      intro store
      rw [v.length_toValue, v.getAttribute_withAttributes]
      exact ⟨hLength, rfl⟩
  · intro hKey numbers hNumbers
    rw [v.dim?_withAttributes, hDim hKey numbers hNumbers]
  · rintro rfl numbers hNumbers
    rw [v.getAttribute_withAttributes, v.dim?_withAttributes]
    exact Attributes.getAt_dim_iff (hDim rfl numbers hNumbers)
  · rintro rfl hSome
    rcases Attributes.setDimnames_eq_ok hSet with
      ⟨hNull, -⟩ | ⟨entries, attributes, extents, axes, rfl, -, hRank, hAxes, rfl⟩
    · rw [hSome] at hNull
      cases hNull
    · refine ⟨entries, attributes, axes.map ofNames?, rfl, ?_,
        readAsNames_of_toDimnames hRank hAxes⟩
      rw [v.getAttribute_withAttributes]
      rfl
  · intro hKey hSome
    rw [v.getAttribute_withAttributes]
    rw [AttributeKey.ofString_of_notMem hKey] at hSet ⊢
    cases hSet
    rw [Attributes.getAt, Attributes.find?_other_setOther, if_pos rfl, hSome]
    rfl
  · intro second hSecond hKept
    have hKeys : AttributeKey.ofString second ≠ AttributeKey.ofString key := by
      intro hSame
      have hText := congrArg AttributeKey.text hSame
      rw [AttributeKey.text_ofString, AttributeKey.text_ofString] at hText
      exact hSecond hText
    rw [v.getAttribute_withAttributes, v.getAttribute_toValue]
    exact Attributes.getAt_of_setAt_ne hSet hKeys hKept
  · intro second hClears
    rw [v.getAttribute_withAttributes]
    exact Attributes.getAt_of_clears hSet hClears

/-- A matrix without rows whose second extent fits in 32 bits. -/
theorem givesBack_of_setAttribute_rowless :
    let x := atomic .integer [] { names := some [] }
    let value := atomic .double [some (.ofInt 0), some (.ofInt 2147483647)] {}
    let y := atomic .integer [] { dim := some [0, 2147483647] }
    x.setAttribute "dim" value = .ok y ∧ x.GivesBack "dim" value y := by
  intro x value y
  have hSet : x.setAttribute "dim" value = .ok y := rfl
  exact ⟨hSet, givesBack_of_setAttribute hSet⟩

/-- A matrix without rows may have more columns than 32 bits can count. The extent that is read is
negative, and is refused when it is set again. -/
theorem getAttribute_of_setAttribute_wide :
    let value := atomic .double [some (.ofInt 0), some (.ofInt 3000000000)] {}
    let y := atomic .integer [] { dim := some [0, 3000000000] }
    let read := atomic .integer [some 0, some (-1294967296)] {}
    value.HasNumbers [0, 3000000000]
      ∧ (atomic .integer [] {}).setAttribute "dim" value = .ok y
      ∧ y.dim? = some [0, 3000000000]
      ∧ y.getAttribute "dim" = some read
      ∧ ¬ read.HasNumbers [0, 3000000000]
      ∧ (atomic .integer [] {}).setAttribute "dim" read = .error .dimsNegative := by
  intro value y read
  refine ⟨rfl, rfl, rfl, rfl, ?_, rfl⟩
  simp [HasNumbers, wholeNumbers?, read]

end Value

end VectorIndexing
