import Mathlib.Data.List.Forall2
import VectorIndexing.Conversion
import VectorIndexing.Store

/-!
# Well-formed values

The attributes of a well-formed value agree with its length: there is a name for each element,
the extents multiply to the length, and the names along a dimension are as many as its extent.
Elements of lists and values of attributes are well formed in turn. A store is well formed if
every binding is.

Extents are measured by a rule: strictly, they multiply to the length; as operations see it, their
product may also go beyond a word (`IsArrayLength`). All else is the same for both.

* `Attributes.FitBy`, `Attributes.Fit`: what attributes have to do with the length.
* `Value.WellFormedBy`, `Value.WellFormed`: the property of values, and
  `TypedVector.WellFormedBy` of vectors.
* `Value.Plain`: values without any attributes.
-/

namespace VectorIndexing

/-- The keys of attributes with rules of their own. -/
def reservedKeys : List String := ["names", "dim", "dimnames"]

/-- The attributes are such as a vector of this length can have, if `sized` tells which extents go
with which length. -/
structure Attributes.FitBy (sized : List Nat → Nat → Prop) (a : Attributes Value) (length : Nat) :
    Prop where
  names : ∀ names, a.names = some names → names.length = length
  dim : ∀ extents, a.dim = some extents → extents ≠ [] ∧ sized extents length
  dimnames : ∀ axes, a.dimnames = some axes →
    ∃ extents, a.dim = some extents ∧ axes.length = extents.length ∧
      ∀ (i : Nat) (names : Names), axes[i]? = some (some names) →
        extents[i]? = some names.length
  others : ∀ m, a.others = some m →
    m.entries ≠ [] ∧ ∀ e ∈ m.entries, e.2.isNull = false ∧ e.1 ∉ reservedKeys

/-- The attributes are such as a vector of this length can have: extents multiply to the length. -/
abbrev Attributes.Fit (a : Attributes Value) (length : Nat) : Prop :=
  a.FitBy (fun extents length => arraySize extents = length) length

inductive Value.WellFormedBy (sized : List Nat → Nat → Prop) : Value → Prop
  | null : WellFormedBy sized .null
  | atomic (k : AtomicKind) (elements : List k.Elem) (a : Attributes Value)
      (hFit : a.FitBy sized elements.length)
      (hOthers : ∀ m, a.others = some m → ∀ e ∈ m.entries, WellFormedBy sized e.2) :
      WellFormedBy sized (.atomic k elements a)
  | list (elements : List Value) (a : Attributes Value)
      (hElements : ∀ x ∈ elements, WellFormedBy sized x)
      (hFit : a.FitBy sized elements.length)
      (hOthers : ∀ m, a.others = some m → ∀ e ∈ m.entries, WellFormedBy sized e.2) :
      WellFormedBy sized (.list elements a)
  | closure (f : Closure) : WellFormedBy sized (.closure f)
  | environment (e : EnvRef) : WellFormedBy sized (.environment e)
  | s4 (o : S4Object) : WellFormedBy sized (.s4 o)

/-- Well formed, with extents that multiply to the length. -/
abbrev Value.WellFormed (x : Value) : Prop :=
  x.WellFormedBy fun extents length => arraySize extents = length

/-- A value without attributes, like all the values inside it. -/
inductive Value.Plain : Value → Prop
  | null : Plain .null
  | atomic (k : AtomicKind) (elements : List k.Elem) : Plain (.atomic k elements {})
  | list (elements : List Value) (hElements : ∀ x ∈ elements, Plain x) : Plain (.list elements {})
  | closure (f : Closure) : Plain (.closure f)
  | environment (e : EnvRef) : Plain (.environment e)
  | s4 (o : S4Object) : Plain (.s4 o)

/-! ## Attributes -/

namespace Attributes

variable {sized : List Nat → Nat → Prop} {a : Attributes Value} {n : Nat}

/-- The values of the attributes without rules of their own are well formed. -/
def ValuesWellFormedBy (sized : List Nat → Nat → Prop) (a : Attributes Value) : Prop :=
  ∀ m, a.others = some m → ∀ e ∈ m.entries, e.2.WellFormedBy sized

theorem FitBy.empty (n : Nat) : FitBy sized {} n where
  names := by
    intro names h
    cases h
  dim := by
    intro extents h
    cases h
  dimnames := by
    intro axes h
    cases h
  others := by
    intro m h
    cases h

theorem valuesWellFormed_empty : ValuesWellFormedBy sized {} := by
  intro m h
  cases h

/-- Names alone fit if they are as many as the elements. -/
theorem FitBy.ofNames {names : Option Names}
    (h : ∀ given, names = some given → given.length = n) : FitBy sized { names } n where
  names := h
  dim := (FitBy.empty n).dim
  dimnames := (FitBy.empty n : FitBy sized {} n).dimnames
  others := (FitBy.empty n : FitBy sized {} n).others

/-- The shape of an array fits if the extents go with the length, and the names along a dimension
are as many as its extent. -/
theorem FitBy.ofDim {extents : List Nat} {dimnames : Option (List (Option Names))}
    (hSome : extents ≠ []) (hSized : sized extents n)
    (hNamed : ∀ axes, dimnames = some axes →
      List.Forall₂ (fun given extent => ∀ names, given = some names → names.length = extent)
        axes extents) :
    FitBy sized { dim := some extents, dimnames } n where
  names := nofun
  dim := by
    rintro _ ⟨⟩
    exact ⟨hSome, hSized⟩
  dimnames := by
    intro axes hAxes
    have hAll := hNamed axes hAxes
    refine ⟨extents, rfl, hAll.length_eq, fun i names hi => ?_⟩
    obtain ⟨hIn, hHere⟩ := List.getElem?_eq_some_iff.mp hi
    have hExtent : i < extents.length := hAll.length_eq ▸ hIn
    rw [hAll.get hIn hExtent names hHere]
    exact List.getElem?_eq_getElem hExtent
  others := nofun

/-- Without their shape, attributes fit any length that the new names fit. -/
theorem FitBy.withoutShape (h : a.FitBy sized n) {m : Nat} {names : Option Names}
    (hNames : ∀ given, names = some given → given.length = m) :
    FitBy sized { a.withoutShape with names } m where
  names := hNames
  dim := by
    intro extents hDim
    cases hDim
  dimnames := by
    intro axes hDimnames
    cases hDimnames
  others := h.others

/-- The names may change as long as their number stays. -/
theorem FitBy.rename (h : a.FitBy sized n) {names : Names} (hNames : names.length = n) :
    FitBy sized { a with names := some names } n where
  names := by
    intro given hGiven
    cases hGiven
    exact hNames
  dim := h.dim
  dimnames := h.dimnames
  others := h.others

end Attributes

/-! ## Vectors -/

/-- Elements of lists are values, and have to be well formed. -/
def VectorKind.ElemWellFormedBy (sized : List Nat → Nat → Prop) :
    (kind : VectorKind) → kind.Elem → Prop
  | .atomic _, _ => True
  | .list, x => x.WellFormedBy sized

section

variable {sized : List Nat → Nat → Prop}

theorem VectorKind.elemWellFormed_fill (kind : VectorKind) :
    kind.ElemWellFormedBy sized kind.fill := by
  cases kind with
  | atomic k => trivial
  | list => exact Value.WellFormedBy.null

structure TypedVector.WellFormedBy (sized : List Nat → Nat → Prop) {kind : VectorKind}
    (x : TypedVector kind) : Prop where
  elements : ∀ e ∈ x.elements, kind.ElemWellFormedBy sized e
  fit : x.attributes.FitBy sized x.length
  values : x.attributes.ValuesWellFormedBy sized

theorem TypedVector.wellFormed_toValue_iff {kind : VectorKind} {x : TypedVector kind} :
    x.toValue.WellFormedBy sized ↔ x.WellFormedBy sized := by
  cases kind with
  | atomic k =>
    constructor
    · intro h
      cases h with
      | atomic _ _ _ hFit hOthers => exact ⟨fun _ _ => trivial, hFit, hOthers⟩
    · intro h
      exact .atomic k _ _ h.fit h.values
  | list =>
    constructor
    · intro h
      cases h with
      | list _ _ hElements hFit hOthers => exact ⟨hElements, hFit, hOthers⟩
    · intro h
      exact .list _ _ h.elements h.fit h.values

/-- Elements without attributes are a well-formed vector. -/
theorem TypedVector.wellFormed_bare {kind : VectorKind} {elements : List kind.Elem}
    (h : ∀ e ∈ elements, kind.ElemWellFormedBy sized e) :
    ({ elements } : TypedVector kind).WellFormedBy sized where
  elements := h
  fit := Attributes.FitBy.empty _
  values := Attributes.valuesWellFormed_empty

namespace Value

theorem wellFormed_bareAtomic (k : AtomicKind) (elements : List k.Elem) :
    (atomic k elements {}).WellFormedBy sized :=
  .atomic k elements {} (.empty _) Attributes.valuesWellFormed_empty

theorem wellFormed_bareList {elements : List Value} (h : ∀ x ∈ elements, x.WellFormedBy sized) :
    (list elements {}).WellFormedBy sized :=
  .list elements {} h (.empty _) Attributes.valuesWellFormed_empty

theorem Plain.wellFormed {x : Value} (h : x.Plain) : x.WellFormedBy sized := by
  induction h with
  | null => exact .null
  | atomic k elements => exact wellFormed_bareAtomic k elements
  | list elements _ ih => exact wellFormed_bareList ih
  | closure f => exact .closure f
  | environment e => exact .environment e
  | s4 o => exact .s4 o

theorem WellFormedBy.values {x : Value} (h : x.WellFormedBy sized) {a : Attributes Value}
    (ha : x.attributes? = some a) : a.ValuesWellFormedBy sized := by
  cases h with
  | atomic _ _ _ _ hOthers | list _ _ _ _ hOthers =>
    cases ha
    exact hOthers
  | null | closure | environment | s4 => cases ha

end Value

end

end VectorIndexing
