import VectorIndexing.Reading.Extract

/-!
# Reading by position

`x[...]` and `x[[...]]` for any value. An environment is indexed by the name of a binding, an
S4 object through its data slot, and a list under `[[` with several entries by a path: all
entries but the last descend into elements that are lists themselves.

* `Value.get`: the read of an indexing call.
* `Value.getAlong`: the descent along a path.
-/

namespace VectorIndexing

/-- The name by which positions refer to a binding of an environment. -/
def boundName (positions : List Position) (mode : Mode) : Except Error String :=
  match mode, positions with
  | .subset, _ => .error (.objectNotSubsettable .environment)
  | .element, [.names [some name]] => .ok name
  | .element, _ => .error .bindingNameExpected

/-- A binding of an environment; an absent one reads as `NULL`. -/
def Store.get (store : Store) (e : EnvRef) (positions : List Position) (mode : Mode) :
    Except Error Value :=
  (boundName positions mode).map fun name => (store.binding? e name).getD .null

/-- A read that does not descend. -/
def Value.getDirect (store : Store) (x : Value) (positions : List Position) (mode : Mode) :
    Checked Value :=
  match x with
  | .closure _ => throw (.objectNotSubsettable .closure)
  | .environment e => Checked.ofExcept (store.get e positions mode)
  | .s4 object =>
    match object.data with
    | some e => Checked.ofExcept (store.get e positions mode)
    | none => throw (.objectNotSubsettable .s4)
  | x => do
    let plan ← (x.layout store).plan positions mode .read
    Checked.ofExcept (x.extract plan mode)

/-! ## Paths -/

/-- The steps of a path, if the positions are one: a list is indexed under `[[` by a single
position of several entries. -/
def Value.pathSteps? (x : Value) (positions : List Position) (mode : Mode) :
    Option (List Position) :=
  match x, mode, positions with
  | .list _ _, .element, [p] => if 1 < p.length?.getD 0 then some p.steps else none
  | _, _, _ => none

/-- The element that a step of a path descends into, counted as the given level from zero. A
step that selects no existing element is reported with its number. -/
def Position.stepOffset (step : Position) (length : Nat) (names : Option Names) (level : Nat) :
    Except Error Nat :=
  match step.selectOne length names .read with
  | .ok (.slot o) => .ok o
  | .ok .missing | .error .subscriptOutOfBounds | .error .selectLessThanOne =>
    .error (.noSuchIndexAtLevel (level + 1))
  | .error e => .error e

/-- The child of a value that a step of a path descends into, with its offset. -/
def Value.stepInto (x : Value) (step : Position) (level : Nat) : Except Error (Nat × Value) :=
  match x with
  | .list elements attributes => do
    let o ← step.stepOffset elements.length attributes.names level
    match elements[o]? with
    | some child => pure (o, child)
    | none => throw (.noSuchIndexAtLevel (level + 1))
  | _ => throw (.recursiveIndexingFailed (level + 1))

/-- Read at the end of a path. The last step is an ordinary read under `[[`. -/
def Value.getAlong (store : Store) (x : Value) (steps : List Position) (level : Nat) :
    Checked Value :=
  match steps with
  | [] => throw .selectLessThanOne
  | [last] => x.getDirect store [last] .element
  | step :: next :: rest => do
    let (_, child) ← Checked.ofExcept (x.stepInto step level)
    child.getAlong store (next :: rest) (level + 1)

/-- Read along the path whose steps are the entries of a position. -/
def Value.getPath (store : Store) (x : Value) (p : Position) : Checked Value :=
  x.getAlong store p.steps 0

/-- Read the elements at the given positions. -/
def Value.get (store : Store) (x : Value) (positions : List Position) (mode : Mode) :
    Checked Value :=
  match x.pathSteps? positions mode with
  | some steps => x.getAlong store steps 0
  | none => x.getDirect store positions mode

end VectorIndexing
