import VectorIndexing.Checked
import VectorIndexing.Store

/-!
# Worlds

Indexing calls share a session and a store of environments. Most of them only warn or fail;
those that bind names in environments are an `Action`.
-/

namespace VectorIndexing

/-- The state that indexing calls share. -/
structure World where
  session : Session := {}
  store : Store := ∅

/-- A computation that may warn, may fail and may bind names in environments. -/
abbrev Action (α : Type) := ExceptT Error (StateM World) α

namespace Action

/-- The outcome together with the world afterwards. -/
def run {α : Type} (x : Action α) (world : World) : Except Error α × World :=
  StateT.run (ExceptT.run x) world

/-- A computation that leaves the store alone. -/
def ofChecked {α : Type} (x : Checked α) : Action α :=
  ExceptT.mk fun world =>
    let (outcome, session) := x.run world.session
    (outcome, { world with session })

def ofExcept {α : Type} (x : Except Error α) : Action α := ofChecked (Checked.ofExcept x)

/-! ## Small laws -/

variable {α β : Type}

@[simp] theorem run_ofChecked (x : Checked α) (world : World) :
    (ofChecked x).run world
      = ((x.run world.session).1, { world with session := (x.run world.session).2 }) := rfl

/-- An error ends an action, and the world stays as the error found it. -/
theorem run_bind (x : Action α) (f : α → Action β) (world : World) :
    (x >>= f).run world = match x.run world with
      | (.ok a, world) => (f a).run world
      | (.error e, world) => (.error e, world) := by
  simp only [run, ExceptT.run_bind, StateT.run_bind]
  cases h : StateT.run (ExceptT.run x) world with
  | mk outcome world => cases outcome <;> rfl

@[simp] theorem run_pure (a : α) (world : World) :
    (pure a : Action α).run world = (.ok a, world) := rfl

@[simp] theorem run_throw (e : Error) (world : World) :
    (throw e : Action α).run world = (.error e, world) := rfl

@[simp] theorem run_ofExcept (x : Except Error α) (world : World) :
    (ofExcept x).run world = (x, world) := rfl

theorem run_ofExcept_eq_ok {x : Except Error α} {world final : World} {a : α} :
    (ofExcept x).run world = (.ok a, final) ↔ x = .ok a ∧ final = world := by
  rw [run_ofExcept, Prod.mk.injEq, eq_comm (a := world)]

@[simp] theorem run_getThe (world : World) :
    (getThe World : Action World).run world = (.ok world, world) := rfl

/-- Of two actions in a row, both succeed if the whole does. -/
theorem run_bind_eq_ok {x : Action α} {f : α → Action β} {world final : World} {b : β} :
    (x >>= f).run world = (.ok b, final)
      ↔ ∃ a middle, x.run world = (.ok a, middle) ∧ (f a).run middle = (.ok b, final) := by
  rw [run_bind]
  rcases x.run world with ⟨_ | a, middle⟩
  · simp
  · constructor
    · intro h
      exact ⟨a, middle, rfl, h⟩
    · rintro ⟨_, _, hx, h⟩
      cases hx
      exact h

end Action

end VectorIndexing
