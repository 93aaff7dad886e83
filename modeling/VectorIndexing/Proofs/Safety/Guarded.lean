import VectorIndexing.Guarded

/-!
# What guarded computations keep to

A guarded computation keeps to a computation that knows no steps which may break if it does the same
in every respect, and then it never breaks.

* `Guarded.Keeps`: the guarded computation does what the other one does.
* `Guarded.Keeps.bind`, `Guarded.Keeps.mapM`: keeping to it step by step.
* `Guarded.Keeps.unbroken`: whatever keeps does not break.
-/

namespace VectorIndexing

namespace Guarded

variable {σ α β : Type}

/-- From this state, the guarded computation does what the other one does. -/
def Keeps (x : Guarded σ α) (y : ExceptT Error (StateM σ) α) (state : σ) : Prop :=
  x.run state = (ofSound y).run state

/-- A failure ends a computation, and the state stays as the failure found it. -/
theorem run_bind (x : Guarded σ α) (f : α → Guarded σ β) (state : σ) :
    (x >>= f).run state = match x.run state with
      | (.ok a, after) => (f a).run after
      | (.error e, after) => (.error e, after) := by
  simp only [run, ExceptT.run_bind, StateT.run_bind]
  cases h : StateT.run (ExceptT.run x) state with
  | mk outcome after => cases outcome <;> rfl

theorem run_ofSound (x : ExceptT Error (StateM σ) α) (state : σ) :
    (ofSound x).run state
      = ((StateT.run (ExceptT.run x) state).1.mapError .refused,
          (StateT.run (ExceptT.run x) state).2) := rfl

/-- A step that does not break. -/
theorem ofStep_bind {x : Except Fault α} {a : α} (h : x = .ok a) (f : α → Guarded σ β) :
    (ofStep x >>= f) = f a := by
  subst h
  rfl

theorem ofSound_bind (x : ExceptT Error (StateM σ) α) (f : α → ExceptT Error (StateM σ) β) :
    ofSound (x >>= f) = (ofSound x >>= fun a => ofSound (f a)) := by
  funext state
  change (ofSound (x >>= f)).run state = (ofSound x >>= fun a => ofSound (f a)).run state
  rw [run_bind, run_ofSound, run_ofSound]
  simp only [ExceptT.run_bind, StateT.run_bind]
  cases h : StateT.run (ExceptT.run x) state with
  | mk outcome after => cases outcome <;> rfl

namespace Keeps

variable {x : Guarded σ α} {y : ExceptT Error (StateM σ) α} {f : α → Guarded σ β}
  {g : α → ExceptT Error (StateM σ) β} {state : σ}

theorem ofSound (y : ExceptT Error (StateM σ) α) (state : σ) : (ofSound y).Keeps y state := rfl

theorem pure (a : α) (state : σ) :
    (Pure.pure a : Guarded σ α).Keeps (Pure.pure a) state := rfl

theorem refuse (e : Error) (state : σ) :
    (Guarded.refuse e : Guarded σ α).Keeps (throw e) state := rfl

theorem bind (hx : x.Keeps y state)
    (hf : ∀ a after, StateT.run (ExceptT.run y) state = (.ok a, after) →
      (f a).Keeps (g a) after) :
    (x >>= f).Keeps (y >>= g) state := by
  have hx : x.run state = (Guarded.ofSound y).run state := hx
  rw [Keeps, ofSound_bind, run_bind, run_bind, hx, run_ofSound]
  rcases hRun : StateT.run (ExceptT.run y) state with ⟨_ | a, after⟩
  · rfl
  · exact hf a after hRun

/-- A step that does not break need not be mentioned. -/
theorem step {step : Except Fault β} {k : β → Guarded σ α} {b : β} (h : step = .ok b)
    (hk : (k b).Keeps y state) : (Guarded.ofStep step >>= k).Keeps y state := by
  rw [ofStep_bind h]
  exact hk

theorem ofStep {step : Except Fault α} {a : α} (h : step = .ok a) (state : σ) :
    (Guarded.ofStep step).Keeps (Pure.pure a) state := by
  subst h
  rfl

theorem mapM {γ : Type} {f : γ → Guarded σ α} {g : γ → ExceptT Error (StateM σ) α} {xs : List γ}
    (h : ∀ x ∈ xs, ∀ state, (f x).Keeps (g x) state) (state : σ) :
    Keeps (xs.mapM f) (xs.mapM g) state := by
  induction xs generalizing state with
  | nil => rfl
  | cons x xs ih =>
    rw [List.mapM_cons, List.mapM_cons]
    refine .bind (h x List.mem_cons_self state) fun a after _ => ?_
    refine .bind (ih (fun y hy => h y (List.mem_cons_of_mem _ hy)) after) fun _ later _ => ?_
    exact .pure _ later

theorem getThe (world : World) :
    (MonadStateOf.get : Guarded World World).Keeps (MonadStateOf.get : Action World) world := rfl

theorem ofOutcome {x : Except Failure α} {y : Except Error α} (h : x = y.mapError .refused)
    (session : Session) : (Guarded.ofOutcome x).Keeps (Checked.ofExcept y) session := by
  subst h
  rfl

theorem ofSession {x : Guarded Session α} {y : Checked α} {world : World}
    (h : x.Keeps y world.session) : (Guarded.ofSession x).Keeps (Action.ofChecked y) world := by
  have hRun : x.run world.session = (Guarded.ofSound y).run world.session := h
  change ((x.run world.session).1, { world with session := (x.run world.session).2 }) = _
  rw [hRun]
  rfl

end Keeps

end Guarded

end VectorIndexing
