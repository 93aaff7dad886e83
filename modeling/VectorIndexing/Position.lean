import VectorIndexing.Value

/-!
# Positions

A position is one argument of an indexing call: it says which elements along one dimension,
or along the whole vector, are meant. Indices count from one; a negative index excludes an
element, zero selects nothing, and a missing index selects a missing element.
-/

namespace VectorIndexing

/-- How strictly positions are taken. `[` selects any number of elements and tolerates missing
and absent ones; `[[` demands exactly one. -/
inductive Mode where
  | subset
  | element
  deriving DecidableEq, Repr

namespace Mode

/-- The brackets of an indexing call. -/
def symbol : Mode → String
  | subset => "["
  | element => "[["

def ofSymbol? (text : String) : Option Mode :=
  [subset, element].find? fun mode => mode.symbol == text

end Mode

/-- What a position is resolved for. Positions beyond the end extend a vector that is written
to, and only then. -/
inductive Purpose where
  | read
  | write
  deriving DecidableEq, Repr

inductive Position where
  /-- All elements. -/
  | missing
  /-- Elements by index, with the names that elements created at these indices receive. -/
  | indices (entries : List (Option Int)) (names : Option Names)
  /-- Elements at which the mask, repeated as needed, is true. -/
  | mask (flags : List (Option Bool))
  /-- Elements by name. -/
  | names (queries : Names)
  deriving DecidableEq, Repr

namespace Position

/-- Number of entries; a position that is missing has none to count. -/
def length? : Position → Option Nat
  | missing => none
  | indices entries _ => some entries.length
  | mask flags => some flags.length
  | names queries => some queries.length

/-- One position per entry, in order. -/
def steps : Position → List Position
  | missing => [missing]
  | indices entries _ => entries.map fun entry => indices [entry] none
  | mask flags => flags.map fun flag => mask [flag]
  | names queries => queries.map fun query => names [query]

/-- The name that the position gives to an element it creates; the name may be missing. -/
def nameForNew? : Position → Option (Option String)
  | names queries => queries.head?
  | indices _ (some given) => given.head?
  | _ => none

/-- Greatest index a double can stand for. -/
def maxIndex : Nat := 2147483647

/-- The index a double stands for: its whole part. A double that is not finite is missing. -/
def indexOfDouble (x : Option Double) : Except Error (Option Int) :=
  match x.bind Double.truncate? with
  | none => .ok none
  | some n => if maxIndex < n.natAbs then .error .subscriptOutOfBounds else .ok (some n)

/-- The position that a value stands for. -/
def ofValue : Value → Except Error Position
  | .null => .ok (indices [] none)
  | .atomic .integer elements attributes =>
    .ok (indices (elements.map (Option.map Int32.toInt)) attributes.names)
  | .atomic .double elements attributes => do
    let entries ← elements.mapM indexOfDouble
    pure (indices entries attributes.names)
  | .atomic .logical elements _ => .ok (mask elements)
  | .atomic .character elements _ => .ok (names elements)
  | x => .error (.invalidSubscriptType x.kind)

end Position

end VectorIndexing
