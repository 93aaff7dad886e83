import VectorIndexing.Value

/-!
# The store of environments

An environment is a reference into the store, so that every holder of the reference sees the
same bindings. An environment nothing was ever bound in is empty.

* `Store.binding_bind`: reading a binding after another was made.
-/

namespace VectorIndexing

/-- The bindings of one environment. -/
abbrev Frame := OrderedMap String Value

/-- The bindings of all environments. -/
structure Store where
  frames : OrderedMap Nat Frame := ∅

namespace Store

instance : EmptyCollection Store := ⟨{ frames := ∅ }⟩

/-- The bindings of an environment. -/
def frame (store : Store) (e : EnvRef) : Frame := (store.frames.find? e.id).getD ∅

/-- The value bound to a name, if there is one. -/
def binding? (store : Store) (e : EnvRef) (name : String) : Option Value :=
  (store.frame e).find? name

/-- Bind a name, replacing an earlier binding. -/
def bind (store : Store) (e : EnvRef) (name : String) (value : Value) : Store :=
  { frames := store.frames.insert e.id ((store.frame e).insert name value) }

/-! ## Small laws -/

theorem frame_bind (store : Store) (e e' : EnvRef) (name : String) (value : Value) :
    (store.bind e name value).frame e'
      = if e = e' then (store.frame e).insert name value else store.frame e' := by
  rcases e with ⟨i⟩
  rcases e' with ⟨j⟩
  by_cases h : i = j <;> simp [frame, bind, h]

theorem binding_bind (store : Store) (e e' : EnvRef) (name name' : String) (value : Value) :
    (store.bind e name value).binding? e' name'
      = if e = e' ∧ name = name' then some value else store.binding? e' name' := by
  by_cases h : e = e' <;> by_cases h' : name = name' <;> simp [binding?, frame_bind, h, h']

end Store

/-- Number of elements, or of bindings; a function or an S4 object counts as one. -/
def Value.length (store : Store) : Value → Nat
  | null => 0
  | atomic _ elements _ => elements.length
  | list elements _ => elements.length
  | environment e => (store.frame e).size
  | closure _ | s4 _ => 1

end VectorIndexing
