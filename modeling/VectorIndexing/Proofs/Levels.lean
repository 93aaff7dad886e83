import VectorIndexing.Proofs.Warnings
import VectorIndexing.Writing.Assign

/-!
# Warning levels

The level of a session decides what becomes of warnings and nothing else. A call has one outcome,
one list of warnings and one effect on the store. The warnings are collected or dropped, or the
first of them takes the place of the outcome; in this case the call has no effect, since warnings
come before every change.

* `Value.reporting_get`, `Value.reporting_overwrite`, `Value.reporting_remove`: calls that leave
  the store alone.
* `Action.Reports`: the outcome, the warnings and the effect of a call.
* `Action.levelsAgree_of_call`: the four levels, for every call.
-/

namespace VectorIndexing

/-! ## Calls that leave the store alone -/

namespace Value

theorem reporting_getDirect (store : Store) (x : Value) (positions : List Position) (mode : Mode) :
    (x.getDirect store positions mode).Reporting := by
  cases x with
  | closure _ => exact .throw _
  | environment _ => exact .ofExcept _
  | s4 object =>
    unfold getDirect
    dsimp only
    split
    · exact .ofExcept _
    · exact .throw _
  | null | atomic _ _ _ | list _ _ =>
    exact .bind (Layout.reporting_plan _ positions mode .read) fun _ => .ofExcept _

theorem reporting_getAlong (store : Store) (x : Value) (steps : List Position) (level : Nat) :
    (x.getAlong store steps level).Reporting := by
  induction steps generalizing x level with
  | nil => exact .throw _
  | cons step rest ih =>
    cases rest with
    | nil => exact reporting_getDirect store x [step] .element
    | cons next rest => exact .bind (.ofExcept _) fun found => ih found.2 (level + 1)

theorem reporting_get (store : Store) (x : Value) (positions : List Position) (mode : Mode) :
    (x.get store positions mode).Reporting := by
  unfold get
  split
  · exact reporting_getAlong store x _ 0
  · exact reporting_getDirect store x positions mode

theorem reporting_overwrite (store : Store) (container : Value) (positions : List Position)
    (value : Value) (mode : Mode) : (container.overwrite store positions value mode).Reporting := by
  refine .bind (.ofExcept _) fun replacement => ?_
  refine .bind (Layout.reporting_plan _ positions mode .write) fun plan => ?_
  refine .bind (plan.reporting_checkFit _ mode) fun _ => ?_
  exact .bind (.ofExcept _) fun _ => .pure _

end Value

theorem Layout.reporting_removedOffsets (layout : Layout) (p : Position) (mode : Mode) :
    (layout.removedOffsets p mode).Reporting := by
  cases mode with
  | subset => exact .bind (p.reporting_select _ _ _) fun _ => .pure _
  | element =>
    refine .bind (.ofExcept _) fun pick => ?_
    cases pick with
    | slot o => exact .pure _
    | missing => exact .pure _

theorem TypedVector.reporting_remove (layout : Layout) (x : TypedVector .list)
    (positions : List Position) (mode : Mode) : (x.remove layout positions mode).Reporting := by
  unfold TypedVector.remove
  split
  · exact (layout.reporting_removedOffsets _ mode).map _
  · exact (layout.reporting_removedOffsets _ mode).map _
  · exact .bind (layout.reporting_plan _ mode .write) fun _ => .throw _

theorem Value.reporting_remove (store : Store) (container : Value) (positions : List Position)
    (mode : Mode) : (container.remove store positions mode).Reporting := by
  unfold Value.remove
  split
  · exact .pure _
  · exact .bind (TypedVector.reporting_remove _ _ positions _) fun _ => .pure _
  · exact .throw _
  · refine .bind (Layout.reporting_plan _ positions .subset .write) fun plan => ?_
    split
    · exact .pure _
    · exact .throw _

/-! ## Calls that may bind a name -/

/-- The store behind a computation that goes from one store to another: an escalated warning stops
it before it has changed anything. -/
def Session.storeAfter (session : Session) (warnings : List Warning) (before after : Store) :
    Store :=
  if session.level = .error ∧ warnings ≠ [] then before else after

namespace Action

variable {α β : Type}

/-- From the store `before`, the action has an outcome, emits warnings and leaves the store
`after` behind, unless a warning is escalated. -/
def Reports (x : Action α) (before : Store) (outcome : Except Error α) (warnings : List Warning)
    (after : Store) : Prop :=
  ∀ session, x.run { session, store := before }
    = ((session.report outcome warnings).1,
        { session := (session.report outcome warnings).2
          store := session.storeAfter warnings before after })

/-- From every store the action has an outcome, warnings and an effect that are the same in every
session. -/
def Reporting (x : Action α) : Prop :=
  ∀ before, ∃ outcome warnings after, x.Reports before outcome warnings after

namespace Reports

variable {x : Action α} {before after : Store} {outcome : Except Error α}
  {warnings : List Warning}

theorem ofChecked {x : Checked α} (hx : x.Reports outcome warnings) (before : Store) :
    (Action.ofChecked x).Reports before outcome warnings before := by
  intro session
  rw [run_ofChecked, hx session, Session.storeAfter, ite_self]

/-- What comes after the last change must not warn. -/
theorem bind_pure (hx : x.Reports before outcome warnings after) (f : α → β) :
    (x >>= fun a => pure (f a)).Reports before (outcome.map f) warnings after := by
  intro session
  rw [run_bind, hx session]
  rcases session with ⟨level, collected⟩
  cases level <;> cases outcome <;> cases warnings <;> rfl

/-- Two actions in a row, the first of which leaves the store alone. -/
theorem bind_ok {a : α} {f : α → Action β} {result : Except Error β} {later : List Warning}
    (hx : x.Reports before (.ok a) warnings before)
    (hf : (f a).Reports before result later after) :
    (x >>= f).Reports before result (warnings ++ later) after := by
  intro session
  rw [run_bind, hx session]
  rcases session with ⟨level, collected⟩
  cases level with
  | ignore => exact hf _
  | defer | immediate =>
    refine (hf _).trans ?_
    simp [Session.report, Session.storeAfter]
  | error =>
    cases warnings with
    | nil => exact hf _
    | cons w rest => rfl

end Reports

namespace Reporting

variable {x : Action α}

theorem ofChecked {x : Checked α} (hx : x.Reporting) : (Action.ofChecked x).Reporting := by
  intro before
  obtain ⟨outcome, warnings, hx⟩ := hx
  exact ⟨outcome, warnings, before, .ofChecked hx before⟩

theorem throw (e : Error) : (MonadExcept.throw e : Action α).Reporting := .ofChecked (.throw e)

theorem bind_pure (hx : x.Reporting) (f : α → β) : (x >>= fun a => pure (f a)).Reporting := by
  intro before
  obtain ⟨outcome, warnings, after, hx⟩ := hx before
  exact ⟨_, _, _, hx.bind_pure f⟩

/-- What comes before the first change may fail. -/
theorem ofExcept_bind (outcome : Except Error α) {f : α → Action β}
    (hf : ∀ a, (f a).Reporting) : (Action.ofExcept outcome >>= f).Reporting := by
  cases outcome with
  | error e => exact .throw e
  | ok a => exact hf a

theorem bindName (e : EnvRef) (positions : List Position) (value : Value) (mode : Mode) :
    (Action.bindName e positions value mode).Reporting := by
  refine .ofExcept_bind _ fun name => ?_
  intro before
  refine ⟨.ok (), [], before.bind e name value, ?_⟩
  intro session
  rw [Session.report_nil]
  simp only [Session.storeAfter, ne_eq, not_true_eq_false, and_false, if_false]
  rfl

end Reporting

end Action

namespace Value

theorem reporting_assignDirect (x : Value) (positions : List Position) (value : Value)
    (mode : Mode) : (x.assignDirect positions value mode).Reporting := by
  have hSequence : ∀ y : Value, Action.Reporting (do
      let store := (← getThe World).store
      Action.ofChecked
        (if value.isNull then y.remove store positions mode
        else y.overwrite store positions value mode)) := by
    intro y before
    have hChange : (if value.isNull then y.remove before positions mode
        else y.overwrite before positions value mode).Reporting := by
      split
      · exact reporting_remove before y positions mode
      · exact reporting_overwrite before y positions value mode
    obtain ⟨outcome, warnings, after, hReports⟩ := Action.Reporting.ofChecked hChange before
    refine ⟨outcome, warnings, after, ?_⟩
    intro session
    rw [Action.run_bind, Action.run_getThe]
    exact hReports session
  cases x with
  | closure _ => exact .throw _
  | environment e => exact .bind_pure (.bindName e positions value mode) fun _ => environment e
  | s4 object =>
    unfold assignDirect
    dsimp only
    split
    · exact .throw _
    · next e _ => exact .bind_pure (.bindName e positions value mode) fun _ => s4 object
  | null | atomic _ _ _ | list _ _ => exact hSequence _

theorem reporting_assignAlong {change : Value → Position → Action Value}
    (hChange : ∀ y p, (change y p).Reporting) (x : Value) (steps : List Position) (level : Nat) :
    (x.assignAlong change steps level).Reporting := by
  induction steps generalizing x level with
  | nil => exact .throw _
  | cons step rest ih =>
    cases rest with
    | nil => exact hChange x step
    | cons next rest =>
      -- on the way down nothing is changed yet, and on the way back nothing can fail any more
      refine .ofExcept_bind _ fun found => ?_
      exact .bind_pure (ih found.2 (level + 1)) fun changed => x.withElement found.1 changed

theorem reporting_assign (x : Value) (positions : List Position) (value : Value) (mode : Mode) :
    (x.assign positions value mode).Reporting := by
  unfold assign
  split
  · exact reporting_assignAlong (fun y p => y.reporting_assignDirect [p] value .element) x _ 0
  · exact x.reporting_assignDirect positions value mode

theorem reporting_assignPath (x : Value) (steps : List Position) (value : Value) (level : Nat) :
    (x.assignPath steps value level).Reporting :=
  reporting_assignAlong (fun y p => y.reporting_assign [p] value .element) x steps level

end Value

/-! ## The four levels -/

namespace Action

variable {α : Type} {x : Action α}

/-- Run at a level, without warnings collected before. -/
def runAt (x : Action α) (level : WarningLevel) (store : Store) : Except Error α × World :=
  x.run { session := { level, warnings := [] }, store }

/-- Started without warnings, the action comes to the same at all levels but for the warnings. Two
levels collect them and one drops them. At the last one the first warning, if there is one, takes
the place of the outcome, and the store stays as it was. -/
def LevelsAgree (x : Action α) (store : Store) : Prop :=
  ∃ outcome warnings after,
    x.runAt .defer store = (outcome, { session := ⟨.defer, warnings⟩, store := after })
    ∧ x.runAt .immediate store = (outcome, { session := ⟨.immediate, warnings⟩, store := after })
    ∧ x.runAt .ignore store = (outcome, { session := ⟨.ignore, []⟩, store := after })
    ∧ x.runAt .error store = match warnings with
      | [] => (outcome, { session := ⟨.error, []⟩, store := after })
      | w :: _ => (.error (.convertedWarning w), { session := ⟨.error, []⟩, store })

theorem Reporting.levelsAgree (hx : x.Reporting) (store : Store) : x.LevelsAgree store := by
  obtain ⟨outcome, warnings, after, hx⟩ := hx store
  refine ⟨outcome, warnings, after, hx _, hx _, hx _, (hx _).trans ?_⟩
  cases warnings <;> rfl

/-- Planning, reading and assigning come to the same at all levels but for the warnings, which are
escalated before any name is bound. -/
theorem levelsAgree_of_call (store : Store) :
    (∀ (x : Value) positions mode purpose,
      (ofChecked ((x.layout store).plan positions mode purpose)).LevelsAgree store)
    ∧ (∀ (x : Value) positions mode, (ofChecked (x.get store positions mode)).LevelsAgree store)
    ∧ (∀ (x : Value) p, (ofChecked (x.getPath store p)).LevelsAgree store)
    ∧ (∀ (x : Value) positions value mode, (x.assign positions value mode).LevelsAgree store)
    ∧ ∀ (x : Value) steps value level, (x.assignPath steps value level).LevelsAgree store := by
  refine ⟨?_, ?_, ?_, ?_, ?_⟩
  · intro x positions mode purpose
    exact (Reporting.ofChecked ((x.layout store).reporting_plan positions mode purpose)).levelsAgree
      store
  · intro x positions mode
    exact (Reporting.ofChecked (x.reporting_get store positions mode)).levelsAgree store
  · intro x p
    exact (Reporting.ofChecked (x.reporting_getAlong store p.steps 0)).levelsAgree store
  · intro x positions value mode
    exact (x.reporting_assign positions value mode).levelsAgree store
  · intro x steps value level
    exact (x.reporting_assignPath steps value level).levelsAgree store

end Action

end VectorIndexing
