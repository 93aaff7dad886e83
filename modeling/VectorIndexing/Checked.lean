import VectorIndexing.Error

/-!
# Sessions

A session decides what becomes of a warning: it is dropped, collected, or turned into an
error at the moment it is emitted. `Checked α` is a computation that may warn and may fail.

* `Checked.run_bind`, `run_warn`: how computations run.
* `Checked.run_bind_eq_ok`: how they succeed.
-/

namespace VectorIndexing

/-- What a session does with warnings. `defer` and `immediate` both collect them. -/
inductive WarningLevel where
  | ignore
  | defer
  | immediate
  | error
  deriving DecidableEq, Repr

namespace WarningLevel

def all : List WarningLevel := [ignore, defer, immediate, error]

def name : WarningLevel → String
  | ignore => "ignore"
  | defer => "defer"
  | immediate => "immediate"
  | error => "error"

def ofName? (text : String) : Option WarningLevel :=
  all.find? fun level => level.name == text

/-- The level of a numeric setting: negative numbers ignore, two and above escalate. -/
def ofInt (n : Int) : WarningLevel :=
  if n < 0 then ignore
  else if n = 0 then defer
  else if n = 1 then immediate
  else error

end WarningLevel

/-- The level in force and the warnings collected so far, oldest first. -/
structure Session where
  level : WarningLevel := .defer
  warnings : List Warning := []
  deriving DecidableEq, Repr

/-- A computation that may emit warnings and may fail. -/
abbrev Checked (α : Type) := ExceptT Error (StateM Session) α

/-- Emit one warning, as the level in force demands. -/
def warn (w : Warning) : Checked Unit := do
  let session ← get
  match session.level with
  | .ignore => pure ()
  | .defer | .immediate => set { session with warnings := session.warnings ++ [w] }
  | .error => throw (.convertedWarning w)

namespace Checked

/-- The outcome together with the session afterwards. -/
def run {α : Type} (x : Checked α) (session : Session) : Except Error α × Session :=
  StateT.run (ExceptT.run x) session

/-- A computation that never warns. -/
def ofExcept {α : Type} (x : Except Error α) : Checked α := ExceptT.mk (pure x)

/-! ## Small laws -/

variable {α β : Type}

@[simp] theorem run_pure (a : α) (session : Session) :
    (pure a : Checked α).run session = (.ok a, session) := rfl

@[simp] theorem run_throw (e : Error) (session : Session) :
    (throw e : Checked α).run session = (.error e, session) := rfl

@[simp] theorem run_ofExcept (x : Except Error α) (session : Session) :
    (ofExcept x).run session = (x, session) := rfl

/-- An error ends a computation, and the session stays as the error found it. -/
theorem run_bind (x : Checked α) (f : α → Checked β) (session : Session) :
    (x >>= f).run session = match x.run session with
      | (.ok a, session) => (f a).run session
      | (.error e, session) => (.error e, session) := by
  simp only [run, ExceptT.run_bind, StateT.run_bind]
  cases h : StateT.run (ExceptT.run x) session with
  | mk outcome session => cases outcome <;> rfl

/-- Of two computations in a row, both succeed if the whole does. -/
theorem run_bind_eq_ok {x : Checked α} {f : α → Checked β} {session final : Session} {b : β} :
    (x >>= f).run session = (.ok b, final)
      ↔ ∃ a middle, x.run session = (.ok a, middle) ∧ (f a).run middle = (.ok b, final) := by
  rw [run_bind]
  rcases x.run session with ⟨_ | a, middle⟩
  · simp
  · constructor
    · intro h
      exact ⟨a, middle, rfl, h⟩
    · rintro ⟨_, _, hx, h⟩
      cases hx
      exact h

theorem run_ofExcept_eq_ok {x : Except Error α} {session final : Session} {a : α} :
    (ofExcept x).run session = (.ok a, final) ↔ x = .ok a ∧ final = session := by
  rw [run_ofExcept, Prod.mk.injEq, eq_comm (a := session)]

/-- A computation that only may fail, in two steps. -/
theorem ofExcept_bind (outcome : Except Error α) (f : α → Except Error β) :
    ofExcept (outcome >>= f) = (ofExcept outcome >>= fun a => ofExcept (f a)) := by
  cases outcome <;> rfl

theorem run_pure_eq_ok {a b : α} {session final : Session} :
    (pure a : Checked α).run session = (.ok b, final) ↔ b = a ∧ final = session := by
  simp [eq_comm]

end Checked

/-- What becomes of one warning at each level. -/
theorem run_warn (w : Warning) (session : Session) :
    (warn w).run session = match session.level with
      | .ignore => (.ok (), session)
      | .defer | .immediate => (.ok (), { session with warnings := session.warnings ++ [w] })
      | .error => (.error (.convertedWarning w), session) := by
  rcases session with ⟨level, warnings⟩
  cases level <;> rfl

end VectorIndexing
