import VectorIndexing.Writing.Overwrite

/-!
# Outcomes and warnings

A computation that may warn has an outcome and a list of warnings that do not depend on the
session. The session decides only what becomes of the warnings: whether they are dropped or
collected, or whether the first of them takes the place of the outcome.

* `Session.report`: what a session makes of an outcome and of warnings.
* `Checked.Reports`: the outcome and the warnings of a computation.
* `Layout.emits_plan`: planning has them, and warns of nothing but masks.
* `Plan.reporting_checkFit`: checking has them.
-/

namespace VectorIndexing

/-- The result of a computation in a session, from its outcome and the warnings on the way. -/
def Session.report {α : Type} (session : Session) (outcome : Except Error α)
    (warnings : List Warning) : Except Error α × Session :=
  match session.level with
  | .ignore => (outcome, session)
  | .defer | .immediate => (outcome, { session with warnings := session.warnings ++ warnings })
  | .error =>
    match warnings with
    | [] => (outcome, session)
    | w :: _ => (.error (.convertedWarning w), session)

/-- The outcome and the warnings of a computation, whatever the session. -/
def Checked.Reports {α : Type} (x : Checked α) (outcome : Except Error α)
    (warnings : List Warning) : Prop :=
  ∀ session, x.run session = session.report outcome warnings

/-- The computation has an outcome and warnings that are the same in every session. -/
def Checked.Reporting {α : Type} (x : Checked α) : Prop :=
  ∃ outcome warnings, x.Reports outcome warnings

/-- The computation has an outcome and warnings that are the same in every session, and the warnings
are of one sort. -/
def Checked.Emits {α : Type} (x : Checked α) (P : Warning → Prop) : Prop :=
  ∃ outcome warnings, x.Reports outcome warnings ∧ ∀ w ∈ warnings, P w

namespace Session

variable {α : Type}

@[simp] theorem report_nil (session : Session) (outcome : Except Error α) :
    session.report outcome [] = (outcome, session) := by
  rcases session with ⟨level, warnings⟩
  cases level <;> simp [report]

@[simp] theorem level_report (session : Session) (outcome : Except Error α)
    (warnings : List Warning) : (session.report outcome warnings).2.level = session.level := by
  rcases session with ⟨level, collected⟩
  cases level <;> cases warnings <;> rfl

/-- A success is the outcome itself. -/
theorem eq_ok_of_report_eq_ok {session final : Session} {outcome : Except Error α}
    {warnings : List Warning} {a : α} (h : session.report outcome warnings = (.ok a, final)) :
    outcome = .ok a := by
  rcases session with ⟨level, collected⟩
  cases level with
  | ignore | defer | immediate => exact congrArg Prod.fst h
  | error =>
    cases warnings with
    | nil => exact congrArg Prod.fst h
    | cons w rest => cases h

end Session

namespace Checked

variable {α β : Type} {x : Checked α} {f : α → Checked β}

namespace Reports

theorem pure (a : α) : (Pure.pure a : Checked α).Reports (.ok a) [] := by
  intro session
  rw [Session.report_nil, run_pure]

theorem throw (e : Error) : (MonadExcept.throw e : Checked α).Reports (.error e) [] := by
  intro session
  rw [Session.report_nil, run_throw]

theorem ofExcept (outcome : Except Error α) : (Checked.ofExcept outcome).Reports outcome [] := by
  intro session
  rw [Session.report_nil, run_ofExcept]

theorem warn (w : Warning) : (VectorIndexing.warn w).Reports (.ok ()) [w] := by
  rintro ⟨level, collected⟩
  cases level <;> rfl

theorem eq_ok_of_run {outcome : Except Error α} {warnings : List Warning}
    (hx : x.Reports outcome warnings) {session final : Session} {a : α}
    (h : x.run session = (.ok a, final)) : outcome = .ok a :=
  Session.eq_ok_of_report_eq_ok ((hx session).symm.trans h)

theorem bind_error {e : Error} {warnings : List Warning} (hx : x.Reports (.error e) warnings) :
    (x >>= f).Reports (.error e) warnings := by
  intro session
  rw [run_bind, hx session]
  rcases session with ⟨level, collected⟩
  cases level <;> cases warnings <;> rfl

/-- The warnings of two computations in a row are collected one behind the other, and the first
of them is the one that is escalated. -/
theorem bind_ok {a : α} {warnings later : List Warning} {outcome : Except Error β}
    (hx : x.Reports (.ok a) warnings) (hf : (f a).Reports outcome later) :
    (x >>= f).Reports outcome (warnings ++ later) := by
  intro session
  rw [run_bind, hx session]
  rcases session with ⟨level, collected⟩
  cases level with
  | ignore => exact hf _
  | defer | immediate =>
    refine (hf _).trans ?_
    simp [Session.report]
  | error =>
    cases warnings with
    | nil => exact hf _
    | cons w rest => rfl

end Reports

namespace Reporting

theorem pure (a : α) : (Pure.pure a : Checked α).Reporting := ⟨_, _, .pure a⟩

theorem throw (e : Error) : (MonadExcept.throw e : Checked α).Reporting := ⟨_, _, .throw e⟩

theorem ofExcept (outcome : Except Error α) : (Checked.ofExcept outcome).Reporting :=
  ⟨_, _, .ofExcept outcome⟩

theorem warn (w : Warning) : (VectorIndexing.warn w).Reporting := ⟨_, _, .warn w⟩

theorem bind (hx : x.Reporting) (hf : ∀ a, (f a).Reporting) : (x >>= f).Reporting := by
  obtain ⟨outcome, warnings, hx⟩ := hx
  cases outcome with
  | error e => exact ⟨_, _, hx.bind_error⟩
  | ok a =>
    obtain ⟨result, later, hf⟩ := hf a
    exact ⟨_, _, hx.bind_ok hf⟩

theorem map (hx : x.Reporting) (g : α → β) : (g <$> x).Reporting := by
  rw [← bind_pure_comp]
  exact hx.bind fun a => .pure (g a)

/-- Wherever it succeeds, it succeeds with the same. -/
theorem eq_of_run_eq_ok (hx : x.Reporting) {session final session' final' : Session} {a b : α}
    (h : x.run session = (.ok a, final)) (h' : x.run session' = (.ok b, final')) : a = b := by
  obtain ⟨outcome, warnings, hx⟩ := hx
  exact Except.ok.inj ((hx.eq_ok_of_run h).symm.trans (hx.eq_ok_of_run h'))

/-- The level in force stays. -/
theorem level_run (hx : x.Reporting) (session : Session) :
    (x.run session).2.level = session.level := by
  obtain ⟨outcome, warnings, hx⟩ := hx
  rw [hx session, Session.level_report]

end Reporting

namespace Emits

variable {P Q : Warning → Prop}

theorem reporting (hx : x.Emits P) : x.Reporting := by
  obtain ⟨outcome, warnings, hx, -⟩ := hx
  exact ⟨outcome, warnings, hx⟩

theorem mono (hx : x.Emits P) (hSort : ∀ w, P w → Q w) : x.Emits Q := by
  obtain ⟨outcome, warnings, hx, hWarnings⟩ := hx
  exact ⟨outcome, warnings, hx, fun w hw => hSort w (hWarnings w hw)⟩

/-- Without a warning, every sort of warning will do. -/
theorem ofReports {outcome : Except Error α} (hx : x.Reports outcome []) : x.Emits P := by
  refine ⟨outcome, [], hx, ?_⟩
  intro w hw
  cases hw

theorem pure (a : α) : (Pure.pure a : Checked α).Emits P := ofReports (.pure a)

theorem throw (e : Error) : (MonadExcept.throw e : Checked α).Emits P := ofReports (.throw e)

theorem ofExcept (outcome : Except Error α) : (Checked.ofExcept outcome).Emits P :=
  ofReports (.ofExcept outcome)

theorem bind (hx : x.Emits P) (hf : ∀ a, (f a).Emits P) : (x >>= f).Emits P := by
  obtain ⟨outcome, warnings, hx, hWarnings⟩ := hx
  cases outcome with
  | error e => exact ⟨_, _, hx.bind_error, hWarnings⟩
  | ok a =>
    obtain ⟨result, later, hf, hLater⟩ := hf a
    exact ⟨_, _, hx.bind_ok hf, List.forall_mem_append.mpr ⟨hWarnings, hLater⟩⟩

theorem mapM {f : α → Checked β} {xs : List α} (hf : ∀ a ∈ xs, (f a).Emits P) :
    (xs.mapM f).Emits P := by
  induction xs with
  | nil =>
    rw [List.mapM_nil]
    exact .pure []
  | cons x rest ih =>
    obtain ⟨hFirst, hRest⟩ := List.forall_mem_cons.mp hf
    rw [List.mapM_cons]
    exact .bind hFirst fun y => .bind (ih hRest) fun ys => .pure (y :: ys)

end Emits

end Checked

/-! ## Masks -/

namespace Selection

/-- The warning of a mask whose repetitions do not make up the length. -/
def maskWarnings (flags : List (Option Bool)) (length : Nat) : List Warning :=
  if flags ≠ [] ∧ maskMisfits flags length then [.lengthMismatch] else []

/-- A mask selects where it is true. -/
theorem reports_ofMask (flags : List (Option Bool)) (length : Nat) :
    (ofMask flags length).Reports (.ok { offsets := maskOffsets flags length })
      (maskWarnings flags length) := by
  cases flags with
  | nil =>
    have hNone : Slots.recycle ([] : List (Option Bool)) (max length 0) = [] :=
      List.filterMap_eq_nil_iff.mpr fun _ _ => rfl
    rw [maskOffsets, List.length_nil, hNone]
    exact .pure _
  | cons flag rest =>
    cases hMisfits : maskMisfits (flag :: rest) length with
    | true =>
      have hWarnings : maskWarnings (flag :: rest) length = [.lengthMismatch] := by
        simp [maskWarnings, hMisfits]
      rw [ofMask, hMisfits, hWarnings]
      exact .bind_ok (.warn _) (.pure _)
    | false =>
      have hWarnings : maskWarnings (flag :: rest) length = [] := by simp [maskWarnings, hMisfits]
      rw [ofMask, hMisfits, hWarnings]
      exact .pure _

end Selection

/-! ## Planning -/

/-- The warnings that planning may emit: under `[`, of masks. -/
def MaskWarning (positions : List Position) (mode : Mode) (w : Warning) : Prop :=
  mode = .subset ∧ w = .lengthMismatch ∧ ∃ flags, .mask flags ∈ positions

theorem MaskWarning.mono {positions others : List Position} {mode : Mode} {w : Warning}
    (h : MaskWarning positions mode w) (hOthers : ∀ p ∈ positions, p ∈ others) :
    MaskWarning others mode w := by
  obtain ⟨hMode, hWarning, flags, hMask⟩ := h
  exact ⟨hMode, hWarning, flags, hOthers _ hMask⟩

theorem Position.emits_select (p : Position) (length : Nat) (names : Option Names)
    (purpose : Purpose) : (p.select length names purpose).Emits (MaskWarning [p] .subset) := by
  cases p with
  | missing => exact .pure _
  | indices entries given => exact .ofExcept _
  | mask flags =>
    refine ⟨_, _, Selection.reports_ofMask flags length, ?_⟩
    intro w hw
    unfold Selection.maskWarnings at hw
    split at hw
    · exact ⟨rfl, List.mem_singleton.mp hw, flags, List.mem_singleton.mpr rfl⟩
    · cases hw
  | names queries => exact .pure _

theorem Position.reporting_select (p : Position) (length : Nat) (names : Option Names)
    (purpose : Purpose) : (p.select length names purpose).Reporting :=
  (p.emits_select length names purpose).reporting

namespace Layout

theorem emits_planStorage (layout : Layout) (p : Position) (mode : Mode) (purpose : Purpose) :
    (layout.planStorage p mode purpose).Emits (MaskWarning [p] mode) := by
  cases mode with
  | subset => exact .bind (p.emits_select _ _ _) fun _ => .pure _
  | element => exact .bind (.ofExcept _) fun _ => .pure _

theorem Axis.emits_choose (axis : Axis) (p : Position) (mode : Mode) :
    (axis.choose p mode).Emits (MaskWarning [p] mode) := by
  have hChecked : ∀ p : Position, Checked.Emits (do
      let s ← p.select axis.extent none .read
      if axis.extent < Slots.reach s.offsets then throw .subscriptOutOfBounds
      return { offsets := s.offsets : Selection }) (MaskWarning [p] .subset) := by
    intro p
    refine .bind (p.emits_select _ _ _) ?_
    intro s
    split
    · exact .bind (.throw _) fun _ => .pure _
    · exact .pure _
  cases mode with
  | element => exact .ofExcept _
  | subset =>
    cases p with
    | names queries => exact .bind (.ofExcept _) fun _ => .pure _
    | missing | indices _ _ | mask _ => exact hChecked _

theorem emits_planArray (layout : Layout) (positions : List Position) (extents : List Nat)
    (mode : Mode) :
    (layout.planArray positions extents mode).Emits (MaskWarning positions mode) := by
  refine .bind (.mapM ?_) fun _ => .pure _
  rintro ⟨p, axis⟩ hPair
  refine (axis.emits_choose p mode).mono fun w hw => hw.mono ?_
  intro p' hp'
  cases List.mem_singleton.mp hp'
  exact (List.of_mem_zip hPair).1

/-- Planning warns of nothing but masks. -/
theorem emits_plan (layout : Layout) (positions : List Position) (mode : Mode)
    (purpose : Purpose) :
    (layout.plan positions mode purpose).Emits (MaskWarning positions mode) := by
  unfold plan
  split
  · refine (layout.emits_planStorage .missing mode purpose).mono ?_
    rintro w ⟨-, -, flags, hMask⟩
    cases List.mem_singleton.mp hMask
  · exact layout.emits_planStorage _ mode purpose
  · dsimp only
    split
    · exact layout.emits_planArray _ _ mode
    · exact .throw _

theorem reporting_plan (layout : Layout) (positions : List Position) (mode : Mode)
    (purpose : Purpose) : (layout.plan positions mode purpose).Reporting :=
  (layout.emits_plan positions mode purpose).reporting

/-- Under `[[` planning does not warn at all. -/
theorem exists_reports_plan_element (layout : Layout) (positions : List Position)
    (purpose : Purpose) : ∃ outcome, (layout.plan positions .element purpose).Reports outcome [] := by
  obtain ⟨outcome, warnings, hPlan, hWarnings⟩ := layout.emits_plan positions .element purpose
  have hNone : warnings = [] := by
    rw [List.eq_nil_iff_forall_not_mem]
    intro w hw
    cases (hWarnings w hw).1
  exact ⟨outcome, hNone ▸ hPlan⟩

end Layout

/-! ## Checking -/

theorem Plan.reporting_checkFit (plan : Plan) (length : Nat) (mode : Mode) :
    (plan.checkFit length mode).Reporting := by
  unfold checkFit
  cases mode with
  | element =>
    dsimp only
    split
    · exact .pure _
    · exact .throw _
  | subset =>
    dsimp only
    repeat' split
    all_goals first
      | exact .pure _
      | exact .throw _
      | exact .warn _

end VectorIndexing
