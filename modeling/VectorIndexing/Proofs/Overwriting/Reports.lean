import VectorIndexing.Proofs.Levels
import VectorIndexing.Proofs.Overwriting.Refusals
import VectorIndexing.Proofs.Planned

/-!
# Overwriting that succeeds

When the plan of an assignment under `[` has no missing offset and there are values for it, nothing
stands in the way of the assignment. It warns of what planning warns of, and then perhaps of values
that do not go into the slots without rest.

* `Plan.reports_checkFit`: values that fit.
* `Value.reports_assign_of_plan`: the outcome and the warnings of the assignment.
-/

namespace VectorIndexing

theorem Plan.reports_checkFit {plan : Plan} {length : Nat} (hComplete : plan.hasMissing = false)
    (hLength : plan.isEmpty = false → length ≠ 0) :
    (plan.checkFit length .subset).Reports (.ok ()) (plan.misfitWarnings length .subset) := by
  intro session
  rw [run_checkFit_subset, hComplete]
  cases hEmpty : plan.isEmpty with
  | true =>
    have hNone : plan.misfitWarnings length .subset = [] := by
      simp [misfitWarnings, Misfits, isEmpty_eq_true_iff.mp hEmpty]
    rw [hNone, Session.report_nil, if_pos rfl]
  | false =>
    have hSome : plan.offsets ≠ [] := by
      intro hNone
      rw [isEmpty_eq_true_iff.mpr hNone] at hEmpty
      cases hEmpty
    have hMisfits : plan.length % length ≠ 0 ↔ plan.Misfits length .subset := by
      simp [Misfits, hSome, Nat.dvd_iff_mod_eq_zero, Plan.length]
    simp only [hLength hEmpty, hMisfits, misfitWarnings, Bool.false_eq_true, and_false, if_false]
    split
    · exact Checked.Reports.warn _ session
    · rw [Session.report_nil]

namespace Value

variable {container value : Value} {positions : List Position} {store : Store} {plan : Plan}
  {warnings : List Warning} {replacement : Replacement} {target : TypedVector replacement.kind}

/-- Carrying out a plan without missing offsets. -/
theorem reports_overwriteAs (hTarget : container.coerce replacement.kind = .ok target)
    (hComplete : plan.hasMissing = false)
    (hValues : plan.isEmpty = false → replacement.elements ≠ []) :
    (container.overwriteAs replacement plan .subset).Reports
      (.ok (target.assign plan replacement.elements).toValue)
      (plan.misfitWarnings replacement.elements.length .subset) := by
  have hLength : plan.isEmpty = false → replacement.elements.length ≠ 0 :=
    fun hSome hNone => hValues hSome (List.length_eq_zero_iff.mp hNone)
  unfold overwriteAs
  rw [hTarget, ← List.append_nil (plan.misfitWarnings _ _)]
  refine (Plan.reports_checkFit hComplete hLength).bind_ok ?_
  exact Checked.Reports.pure _

/-- An assignment that has a plan without missing offsets, and values for it, succeeds. -/
theorem reports_assign_of_plan (hContainer : container.isSequence)
    (hValue : value.isNull = false)
    (hReplacement : Replacement.ofValue container value .subset = .ok replacement)
    (hTarget : container.coerce replacement.kind = .ok target)
    (hPlan : ((container.layout store).plan positions .subset .write).Reports (.ok plan) warnings)
    (hComplete : plan.hasMissing = false)
    (hValues : plan.isEmpty = false → replacement.elements ≠ []) :
    (container.assign positions value .subset).Reports store
      (.ok (target.assign plan replacement.elements).toValue)
      (warnings ++ plan.misfitWarnings replacement.elements.length .subset) store := by
  have hOverwrite : (container.overwrite store positions value .subset).Reports
      (.ok (target.assign plan replacement.elements).toValue)
      (warnings ++ plan.misfitWarnings replacement.elements.length .subset) := by
    rw [overwrite_eq_bind hReplacement]
    exact hPlan.bind_ok (reports_overwriteAs hTarget hComplete hValues)
  intro session
  rw [run_assign_eq_overwrite hContainer hValue (pathSteps?_subset ..), hOverwrite session,
    Session.storeAfter, ite_self]

end Value

end VectorIndexing
