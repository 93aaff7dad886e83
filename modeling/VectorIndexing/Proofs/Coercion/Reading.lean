import VectorIndexing.Proofs.Coercion
import VectorIndexing.Proofs.Plans

/-!
# Reading coerced vectors

Coercion to an atomic kind converts the elements of an atomic vector one by one and keeps all that
positions look at. So a read may come before it or after it.

* `AtomicKind.ConvertsTo`: the kinds that a kind converts to.
* `AtomicKind.isMissing_convert`: conversion neither makes nor loses missing elements.
* `TypedVector.part_convert`, `TypedVector.extract_convert`: reading by plan.
* `Value.get_coerceToKind`: when coercion succeeds, and reading what it gives.
-/

namespace VectorIndexing

/-! ## Elements -/

namespace AtomicKind

/-- Elements convert to their own kind and, raw bytes aside, to every kind that comes later. -/
def ConvertsTo (source target : AtomicKind) : Prop :=
  target = source ∨ (source ≠ raw ∧ target ≠ raw ∧ source.rank < target.rank)

instance (source target : AtomicKind) : Decidable (source.ConvertsTo target) :=
  inferInstanceAs (Decidable (_ ∨ _))

/-- Whether an element is missing. A raw byte never is. -/
def isMissing : (k : AtomicKind) → k.Elem → Bool
  | .raw, _ => false
  | .logical, x | .integer, x | .double, x | .complex, x | .character, x => x.isNone

variable {source target : AtomicKind}

theorem isSome_convert?_iff_convertsTo :
    (source.convert? target).isSome ↔ source.ConvertsTo target := by
  cases source <;> cases target <;> simp [convert?, ConvertsTo, rank]

/-- Missing elements stay missing, and no other element becomes missing. -/
theorem isMissing_convert {f : source.Elem → target.Elem} (h : source.convert? target = some f)
    (x : source.Elem) : target.isMissing (f x) = source.isMissing x := by
  cases source <;> cases target <;> simp only [convert?, Option.some.injEq, reduceCtorEq] at h <;>
    subst h <;> first | rfl | exact Option.isNone_map

end AtomicKind

namespace Slots

variable {α β : Type}

theorem fetch_map (f : α → β) (fill : α) (xs : List α) (offset : Offset) :
    fetch (f fill) (xs.map f) offset = f (fetch fill xs offset) := by
  cases offset with
  | none => rfl
  | some o => simp [fetch, Option.getD_map]

theorem gather_map (f : α → β) (fill : α) (xs : List α) (offsets : List Offset) :
    gather (f fill) (xs.map f) offsets = (gather fill xs offsets).map f := by
  rw [gather_eq_map, gather_eq_map, List.map_map]
  exact List.map_congr_left fun offset _ => fetch_map f fill xs offset

end Slots

/-! ## Vectors -/

namespace TypedVector

variable {source target : AtomicKind} {f : source.Elem → target.Elem}

/-- The vector with its elements converted. -/
def convert (f : source.Elem → target.Elem) (x : TypedVector (.atomic source)) :
    TypedVector (.atomic target) where
  elements := x.elements.map f
  attributes := x.attributes

@[simp] theorem length_convert (x : TypedVector (.atomic source)) :
    (x.convert f).length = x.length := by
  simp [convert, length]

theorem coerceToKind_toValue (h : source.convert? target = some f)
    (x : TypedVector (.atomic source)) :
    x.toValue.coerceToKind (.atomic target) = .ok (x.convert f).toValue := by
  rw [Value.coerceToKind_vector]
  simp only [toValue, Value.coerce, h]
  rfl

theorem layout_convert (x : TypedVector (.atomic source)) (store : Store) :
    (x.convert f).toValue.layout store = x.toValue.layout store := by
  rw [layout_toValue, layout_toValue, length_convert]
  rfl

/-- Slots that do not exist read as the fill value, which converts to the fill value. -/
theorem part_convert (hFill : f source.fill = target.fill) (x : TypedVector (.atomic source))
    (plan : Plan) : (x.convert f).part plan = (x.part plan).convert f := by
  have hElements : Slots.gather target.fill (x.elements.map f) plan.offsets
      = (Slots.gather source.fill x.elements plan.offsets).map f := by
    rw [← hFill]
    exact Slots.gather_map f source.fill x.elements plan.offsets
  have hGather : (x.convert f).gather plan.offsets = (x.gather plan.offsets).convert f :=
    congrArg (fun elements => TypedVector.mk elements _) hElements
  unfold part
  cases plan.dims with
  | none => exact hGather
  | some dims =>
    dsimp only
    rw [hGather]
    rfl

theorem element_convert (hFill : f source.fill = target.fill) (x : TypedVector (.atomic source))
    (o : Nat) :
    (x.convert f).element o
      = .scalar target (f (Slots.fetch source.fill x.elements (some o))) := by
  have hFetch := Slots.fetch_map f source.fill x.elements (some o)
  rw [hFill] at hFetch
  exact congrArg (Value.scalar target) hFetch

theorem extract_convert (h : source.convert? target = some f) (x : TypedVector (.atomic source))
    (plan : Plan) (mode : Mode) :
    (x.convert f).toValue.extract plan mode
      = (x.toValue.extract plan mode >>= fun r => r.coerceToKind (.atomic target)) := by
  have hFill := AtomicKind.convert?_fill h
  unfold Value.extract
  rw [vector?_toValue, vector?_toValue]
  cases mode with
  | subset =>
    dsimp only
    rw [part_convert hFill]
    exact (coerceToKind_toValue h (x.part plan)).symm
  | element =>
    dsimp only
    rw [length_convert]
    cases plan.soleOffset x.length with
    | error e => rfl
    | ok o =>
      have hElement := element_convert hFill x o
      exact (congrArg Except.ok hElement).trans
        (coerceToKind_toValue h ⟨[Slots.fetch source.fill x.elements (some o)], {}⟩).symm

/-- Reading a converted vector is reading the vector and converting what was read. -/
theorem get_convert (h : source.convert? target = some f) (x : TypedVector (.atomic source))
    (store : Store) (positions : List Position) (mode : Mode) :
    (x.convert f).toValue.get store positions mode = (do
      let r ← x.toValue.get store positions mode
      Checked.ofExcept (r.coerceToKind (.atomic target))) := by
  have hGet : ∀ {k : AtomicKind} (y : TypedVector (.atomic k)),
      y.toValue.get store positions mode = (do
        let plan ← (y.toValue.layout store).plan positions mode .read
        Checked.ofExcept (y.toValue.extract plan mode)) := fun _ => rfl
  rw [hGet, hGet, layout_convert, bind_assoc]
  simp only [extract_convert h, Checked.ofExcept_bind]

end TypedVector

/-! ## Coercion and reading -/

namespace Value

/-- Coercion to an atomic kind succeeds if the elements convert to it, and otherwise fails by naming
both kinds. It keeps the length and the attributes, neither makes nor loses missing elements, and
may as well be left until after a read: the outcome is the same, and so are the warnings. -/
theorem get_coerceToKind (source target : AtomicKind) (elements : List source.Elem)
    (attributes : Attributes Value) :
    ((∃ y, (atomic source elements attributes).coerceToKind (.atomic target) = .ok y)
        ↔ source.ConvertsTo target)
      ∧ (¬ source.ConvertsTo target →
          (atomic source elements attributes).coerceToKind (.atomic target)
            = .error (.subassignTypeFix (.atomic source) (.atomic target)))
      ∧ ∀ y, (atomic source elements attributes).coerceToKind (.atomic target) = .ok y →
          ∃ converted : List target.Elem, y = atomic target converted attributes
            ∧ converted.length = elements.length
            ∧ (∀ i : Nat, (converted[i]?).map target.isMissing = (elements[i]?).map source.isMissing)
            ∧ ∀ store positions mode,
                y.get store positions mode = (do
                  let r ← (atomic source elements attributes).get store positions mode
                  Checked.ofExcept (r.coerceToKind (.atomic target))) := by
  let x : TypedVector (.atomic source) := ⟨elements, attributes⟩
  cases hConvert : source.convert? target with
  | none =>
    have hNot : ¬ source.ConvertsTo target := by
      rw [← AtomicKind.isSome_convert?_iff_convertsTo, hConvert]
      exact Bool.false_ne_true
    have hError : (atomic source elements attributes).coerceToKind (.atomic target)
        = .error (.subassignTypeFix (.atomic source) (.atomic target)) := by
      rw [coerceToKind_vector]
      simp only [coerce, hConvert]
      rfl
    rw [hError]
    refine ⟨⟨?_, fun h => absurd h hNot⟩, fun _ => rfl, ?_⟩
    · rintro ⟨y, hOk⟩
      cases hOk
    · intro y hOk
      cases hOk
  | some f =>
    have hConverts : source.ConvertsTo target := by
      rw [← AtomicKind.isSome_convert?_iff_convertsTo, hConvert]
      rfl
    have hOk : (atomic source elements attributes).coerceToKind (.atomic target)
        = .ok (x.convert f).toValue := TypedVector.coerceToKind_toValue hConvert x
    rw [hOk]
    refine ⟨⟨fun _ => hConverts, fun _ => ⟨_, rfl⟩⟩, fun hNot => absurd hConverts hNot, ?_⟩
    intro y hy
    cases hy
    refine ⟨elements.map f, rfl, List.length_map .., ?_, TypedVector.get_convert hConvert x⟩
    intro i
    rw [List.getElem?_map, Option.map_map]
    exact congrArg (Option.map · _) (funext (AtomicKind.isMissing_convert hConvert))

/-- Flags in a matrix that is named along its columns become integers, and the missing one stays
missing. -/
theorem get_coerceToKind_matrix :
    let attributes : Attributes Value :=
      { dim := some [2, 2], dimnames := some [none, some [some "a", some "b"]] }
    let x := atomic .logical [some true, none, some false, some true] attributes
    let y := atomic .integer [some 1, none, some 0, some 1] attributes
    x.coerceToKind (.atomic .integer) = .ok y
      ∧ ∀ store positions mode,
          y.get store positions mode = (do
            let r ← x.get store positions mode
            Checked.ofExcept (r.coerceToKind (.atomic .integer))) := by
  intro attributes x y
  have hCoerced : x.coerceToKind (.atomic .integer) = .ok y := rfl
  obtain ⟨converted, -, -, -, hGet⟩ :=
    (get_coerceToKind .logical .integer _ attributes).2.2 y hCoerced
  exact ⟨hCoerced, hGet⟩

end Value

end VectorIndexing
