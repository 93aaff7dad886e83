import VectorIndexing.Steps
import VectorIndexing.World

/-!
# Guarded computations

A guarded computation is either refused, as the rules have it, or breaks at a step that did not get
what it needs. Beside the functions that work on vectors stand guarded ones, which do the same with
every step that could break named as one.

* `Guarded`: computations that may be refused and may break.
* `Guarded.ofStep`, `Guarded.ofSound`: steps that may break, and computations that know no such
  steps.
-/

namespace VectorIndexing

/-- Why a guarded computation has no result. -/
inductive Failure where
  | refused (e : Error)
  | broken (f : Fault)

/-- A computation over some state that may be refused and may break. -/
abbrev Guarded (σ α : Type) := ExceptT Failure (StateM σ) α

namespace Guarded

variable {σ α : Type}

def run (x : Guarded σ α) (state : σ) : Except Failure α × σ :=
  StateT.run (ExceptT.run x) state

def ofOutcome (x : Except Failure α) : Guarded σ α := ExceptT.mk (pure x)

def ofExcept (x : Except Error α) : Guarded σ α := ofOutcome (x.mapError .refused)

/-- A step that may break. -/
def ofStep (x : Except Fault α) : Guarded σ α := ofOutcome (x.mapError .broken)

def refuse (e : Error) : Guarded σ α := throw (.refused e)

/-- A computation without steps that may break. -/
def ofSound (x : ExceptT Error (StateM σ) α) : Guarded σ α :=
  ExceptT.mk fun state =>
    let (outcome, after) := StateT.run (ExceptT.run x) state
    (outcome.mapError .refused, after)

/-- A guarded computation that knows the session only. -/
def ofSession (x : Guarded Session α) : Guarded World α :=
  ExceptT.mk fun world =>
    let (outcome, session) := x.run world.session
    (outcome, { world with session })

end Guarded

end VectorIndexing
