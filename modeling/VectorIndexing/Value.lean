import VectorIndexing.Element
import VectorIndexing.OrderedMap
import VectorIndexing.Slots
import VectorIndexing.Word

/-!
# Values

A value is `NULL`, an atomic vector, a list, or one of three values that are known by their
identity alone: functions, environments and S4 objects. Vectors and lists carry attributes.

`TypedVector kind` is the common view of atomic vectors and lists as vectors of one element type;
`Value.vector?` and `TypedVector.toValue` pass between the two.

* `Value.same`: equality of values, with numbers compared as numbers and functions,
  environments and S4 objects by identity.
-/

namespace VectorIndexing

/-- Attributes of a vector. -/
structure Attributes (α : Type) where
  names : Option Names := none
  dim : Option (List Nat) := none
  /-- Per dimension, the names along it, if it has any. -/
  dimnames : Option (List (Option Names)) := none
  /-- The attributes without rules of their own, if there are any. -/
  others : Option (OrderedMap String α) := none
  deriving DecidableEq

/-- A function. Its identity is the number `id`. -/
structure Closure where
  id : Nat
  formals : List String
  body : String
  deriving DecidableEq

/-- A reference to an environment. -/
structure EnvRef where
  id : Nat
  deriving DecidableEq

/-- An S4 object. Positions applied to it go to the environment in its data slot. -/
structure S4Object where
  id : Nat
  className : String
  data : Option EnvRef
  deriving DecidableEq

inductive Value where
  | null
  | atomic (kind : AtomicKind) (elements : List kind.Elem) (attributes : Attributes Value)
  | list (elements : List Value) (attributes : Attributes Value)
  | closure (function : Closure)
  | environment (ref : EnvRef)
  | s4 (object : S4Object)

instance : Inhabited Value := ⟨.null⟩

/-- Number of elements of an array with these extents. -/
def arraySize (extents : List Nat) : Nat := extents.foldr (· * ·) 1

/-- Whether an array with these extents counts as one of `length` elements: the extents multiply to
the length, be it as numbers or as words. -/
def IsArrayLength (extents : List Nat) (length : Nat) : Prop :=
  arraySize extents = length ∨ Word.count extents = length

instance (extents : List Nat) (length : Nat) : Decidable (IsArrayLength extents length) :=
  inferInstanceAs (Decidable (_ ∨ _))

/-- As long as the product fits a word, it has to be the length. -/
theorem isArrayLength_iff {extents : List Nat} (h : arraySize extents < Word.size)
    (length : Nat) : IsArrayLength extents length ↔ arraySize extents = length := by
  rw [IsArrayLength, Word.count_of_lt h]
  exact or_self_iff

/-- A length that is a word has to be what the extents multiply to as words. -/
theorem isArrayLength_iff_count {length : Nat} (h : length < Word.size) (extents : List Nat) :
    IsArrayLength extents length ↔ Word.count extents = length := by
  refine or_iff_right_of_imp fun hSize => ?_
  rw [← hSize] at h ⊢
  exact Word.count_of_lt h

namespace Attributes

variable {α : Type}

/-- Whether there are no attributes at all. -/
def isEmpty (a : Attributes α) : Bool :=
  a.names.isNone && a.dim.isNone && a.dimnames.isNone && a.others.isNone

/-- The attributes without rules of their own, by key. -/
def other (a : Attributes α) : OrderedMap String α := a.others.getD ∅

/-- Forget the array shape. -/
def withoutShape (a : Attributes α) : Attributes α := { a with dim := none, dimnames := none }

end Attributes

/-- The elements of a vector of this kind. -/
abbrev VectorKind.Elem : VectorKind → Type
  | .atomic k => k.Elem
  | .list => Value

/-- The element of slots that nothing was written to. -/
def VectorKind.fill : (k : VectorKind) → k.Elem
  | .atomic k => k.fill
  | .list => Value.null

/-- A vector of one kind: its elements and its attributes. -/
structure TypedVector (kind : VectorKind) where
  elements : List kind.Elem
  attributes : Attributes Value := {}

namespace TypedVector

/-- The vector as a value. -/
def toValue : {kind : VectorKind} → TypedVector kind → Value
  | .atomic k, x => .atomic k x.elements x.attributes
  | .list, x => .list x.elements x.attributes

end TypedVector

namespace Value

/-- The vector that a value is, with its kind. -/
def vector? : Value → Option ((kind : VectorKind) × TypedVector kind)
  | atomic k elements attributes => some ⟨.atomic k, ⟨elements, attributes⟩⟩
  | list elements attributes => some ⟨.list, ⟨elements, attributes⟩⟩
  | _ => none

def kind : Value → Kind
  | null => .null
  | atomic k _ _ => .atomic k
  | list _ _ => .list
  | closure _ => .closure
  | environment _ => .environment
  | s4 _ => .s4

def isNull : Value → Bool
  | null => true
  | _ => false

/-- The attributes of a vector or list; other values cannot have any. -/
def attributes? : Value → Option (Attributes Value)
  | atomic _ _ a | list _ a => some a
  | _ => none

/-- The value with its attributes replaced, if it can have any. -/
def withAttributes (x : Value) (a : Attributes Value) : Value :=
  match x with
  | atomic k elements _ => atomic k elements a
  | list elements _ => list elements a
  | other => other

/-- A list with one element replaced; any other value as it is. -/
def withElement (x : Value) (offset : Nat) (child : Value) : Value :=
  match x with
  | list elements a => list (elements.set offset child) a
  | other => other

def names? (x : Value) : Option Names := x.attributes?.bind Attributes.names

def dim? (x : Value) : Option (List Nat) := x.attributes?.bind Attributes.dim

def dimnames? (x : Value) : Option (List (Option Names)) := x.attributes?.bind Attributes.dimnames

/-- Offset of the first element with this name. -/
def offsetNamed? (x : Value) (name : String) : Option Nat :=
  x.names?.bind fun names => names.idxOf? (some name)

/-- A character vector without attributes. -/
def ofNames (names : Names) : Value := atomic .character names {}

/-! ## Equality -/

mutual

/-- Equality of values. NaN differs from itself, so a value need not be the same as itself. -/
def same : Value → Value → Bool
  | null, null => true
  | atomic k xs a, atomic k' ys b =>
    (if h : k' = k then k.sameElems xs (h ▸ ys) else false) && sameAttributes a b
  | list xs a, list ys b => sameList xs ys && sameAttributes a b
  | closure f, closure g => f.id == g.id
  | environment e, environment e' => e == e'
  | s4 o, s4 o' => o.id == o'.id
  | _, _ => false
termination_by structural x => x

def sameList : List Value → List Value → Bool
  | [], [] => true
  | x :: xs, y :: ys => same x y && sameList xs ys
  | _, _ => false
termination_by structural xs => xs

def sameAttributes : Attributes Value → Attributes Value → Bool
  | ⟨names, dim, dimnames, others⟩, b =>
    names == b.names && dim == b.dim && dimnames == b.dimnames && sameOthers others b.others
termination_by structural a => a

def sameOthers : Option (OrderedMap String Value) → Option (OrderedMap String Value) → Bool
  | none, none => true
  | some m, some m' => sameMap m m'
  | _, _ => false
termination_by structural m => m

def sameMap : OrderedMap String Value → OrderedMap String Value → Bool
  | ⟨xs⟩, b => sameEntries xs b.entries
termination_by structural a => a

def sameEntries : List (String × Value) → List (String × Value) → Bool
  | [], [] => true
  | e :: es, e' :: es' => sameEntry e e' && sameEntries es es'
  | _, _ => false
termination_by structural es => es

def sameEntry : String × Value → String × Value → Bool
  | (key, x), (key', y) => key == key' && same x y
termination_by structural e => e

end

end Value

/-! ## Small laws -/

@[simp] theorem TypedVector.vector?_toValue {kind : VectorKind} (x : TypedVector kind) :
    x.toValue.vector? = some ⟨kind, x⟩ := by
  cases kind <;> rfl

@[simp] theorem TypedVector.kind_toValue {kind : VectorKind} (x : TypedVector kind) :
    x.toValue.kind = .vector kind := by
  cases kind <;> rfl

theorem Value.eq_toValue_of_vector? {x : Value} {v : (kind : VectorKind) × TypedVector kind}
    (h : x.vector? = some v) : x = v.2.toValue := by
  cases x <;> simp only [Value.vector?, Option.some.injEq, reduceCtorEq] at h <;> subst h <;> rfl

end VectorIndexing
