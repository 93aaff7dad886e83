/-!
# Kinds of values

The vector kinds form a chain `logical < integer < double < complex < character < list`
along which elements convert without loss of meaning; raw bytes stand aside and convert
only when boxed into a list. The other kinds describe values that are not vectors.

* `Kind.join`: the least kind to which two kinds can both be brought, if there is one.
* `Kind.name`, `Kind.ofName?`: the spelling of a kind and its inverse.
-/

namespace VectorIndexing

/-- Kinds of vectors whose elements are scalars. -/
inductive AtomicKind where
  | raw
  | logical
  | integer
  | double
  | complex
  | character
  deriving DecidableEq, Repr

/-- Kinds of vectors: the elements are scalars of one kind, or arbitrary values. -/
inductive VectorKind where
  | atomic (kind : AtomicKind)
  | list
  deriving DecidableEq, Repr

/-- Kinds of values. The kind `symbol` is that of a position left out of a call. -/
inductive Kind where
  | null
  | vector (kind : VectorKind)
  | closure
  | environment
  | s4
  | symbol
  deriving DecidableEq, Repr

namespace AtomicKind

/-- Place in the conversion order. -/
def rank : AtomicKind → Nat
  | raw => 0
  | logical => 1
  | integer => 2
  | double => 3
  | complex => 4
  | character => 5

def name : AtomicKind → String
  | raw => "raw"
  | logical => "logical"
  | integer => "integer"
  | double => "double"
  | complex => "complex"
  | character => "character"

/-- The later of two kinds; raw only meets itself. -/
def join (a b : AtomicKind) : Option AtomicKind :=
  if a = b then some a
  else if a = raw ∨ b = raw then none
  else if a.rank ≤ b.rank then some b else some a

end AtomicKind

namespace VectorKind

def rank : VectorKind → Nat
  | atomic k => k.rank
  | list => 6

def name : VectorKind → String
  | atomic k => k.name
  | list => "list"

/-- Anything can be put into a list; otherwise the scalars decide. -/
def join : VectorKind → VectorKind → Option VectorKind
  | atomic a, atomic b => (a.join b).map atomic
  | list, _ | _, list => some list

@[simp] theorem list_join (k : VectorKind) : list.join k = some list := by
  cases k <;> rfl

@[simp] theorem join_list (k : VectorKind) : k.join list = some list := by
  cases k <;> rfl

end VectorKind

namespace Kind

abbrev atomic (k : AtomicKind) : Kind := vector (.atomic k)

abbrev list : Kind := vector .list

/-- Every kind, in ascending order. -/
def all : List Kind :=
  [null, atomic .raw, atomic .logical, atomic .integer, atomic .double, atomic .complex,
    atomic .character, list, closure, environment, s4, symbol]

/-- Place in the order of `all`. -/
def rank : Kind → Nat
  | null => 0
  | vector k => k.rank + 1
  | closure => 8
  | environment => 9
  | s4 => 10
  | symbol => 11

instance : Ord Kind where
  compare a b := compare a.rank b.rank

def name : Kind → String
  | null => "NULL"
  | vector k => k.name
  | closure => "closure"
  | environment => "environment"
  | s4 => "S4"
  | symbol => "symbol"

/-- The kind with the given spelling. -/
def ofName? (text : String) : Option Kind :=
  all.find? fun k => k.name == text

def isAtomic : Kind → Bool
  | vector (.atomic _) => true
  | _ => false

def isVector : Kind → Bool
  | vector _ => true
  | _ => false

/-- The least kind to which both kinds can be brought. `null` gives way to every vector
kind; a kind that is not a vector kind meets only itself. -/
def join : Kind → Kind → Option Kind
  | null, null => some null
  | null, vector k | vector k, null => some (vector k)
  | vector a, vector b => (a.join b).map vector
  | a, b => if a = b then some a else none

/-! ## Small laws -/

theorem join_self (k : Kind) : k.join k = some k := by
  rcases k with _ | ((_ | _ | _ | _ | _ | _) | _) | _ | _ | _ | _ <;> decide

/-- A join absorbs the kinds it was made from. -/
theorem join_bind_join (a b : Kind) : ((a.join b).bind fun k => k.join b) = a.join b := by
  rcases a with _ | ((_ | _ | _ | _ | _ | _) | _) | _ | _ | _ | _ <;>
    rcases b with _ | ((_ | _ | _ | _ | _ | _) | _) | _ | _ | _ | _ <;> decide

theorem join_of_join {a b k : Kind} (h : a.join b = some k) : k.join b = some k := by
  have hAbsorbs := join_bind_join a b
  rw [h] at hAbsorbs
  exact hAbsorbs

/-- Whatever joins a vector kind does so in a vector kind. -/
theorem exists_vector_of_join {a joined : Kind} {k : VectorKind}
    (h : a.join (vector k) = some joined) : ∃ kind, joined = vector kind := by
  cases a with
  | null => exact ⟨k, (Option.some.inj h).symm⟩
  | vector a =>
    obtain ⟨kind, -, rfl⟩ := Option.map_eq_some_iff.mp h
    exact ⟨kind, rfl⟩
  | closure | environment | s4 | symbol => simp [join] at h

theorem join_comm (a b : Kind) : a.join b = b.join a := by
  rcases a with _ | ((_ | _ | _ | _ | _ | _) | _) | _ | _ | _ | _ <;>
    rcases b with _ | ((_ | _ | _ | _ | _ | _) | _) | _ | _ | _ | _ <;> decide

end Kind

end VectorIndexing
