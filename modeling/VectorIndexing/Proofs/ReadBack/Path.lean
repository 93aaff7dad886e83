import VectorIndexing.Proofs.ReadBack.Container

/-!
# Reading back along a path

An assignment under `[[` along a path changes the container at its end and replaces one element
in each list above it, so the path leads to the changed container afterwards.

* `Value.ChangedAlong`: two values that differ at the end of a path only.
* `Value.changedAlong_of_assignAlong`: what an assignment along a path does.
* `Value.get_of_assign`: reading after assigning under `[[`, with or without a path.
-/

namespace VectorIndexing

/-- The path leads to `c` in the first value and to `d` in the second, with the step `last` left
to take there. Each list on the way has the same attributes and the same elements in both,
except for the child that the path goes on to. -/
inductive Value.ChangedAlong (last : Position) (c d : Value) :
    List Position → Value → Value → Prop
  | here : ChangedAlong last c d [last] c d
  | child (elements : List Value) (a : Attributes Value) (step next : Position)
      (rest : List Position) (o : Nat) (before after : Value)
      (hStep : step.selectOne elements.length a.names .read = .ok (.slot o))
      (hChild : elements[o]? = some before)
      (hRest : ChangedAlong last c d (next :: rest) before after) :
      ChangedAlong last c d (step :: next :: rest) (.list elements a)
        (.list (elements.set o after) a)

namespace Value

theorem stepInto_eq_ok {x child : Value} {step : Position} {level o : Nat}
    (h : x.stepInto step level = .ok (o, child)) :
    ∃ elements a, x = .list elements a ∧ elements[o]? = some child
      ∧ step.selectOne elements.length a.names .read = .ok (.slot o) := by
  unfold stepInto at h
  split at h
  · next elements a =>
    obtain ⟨o', hOffset, h⟩ := bind_eq_ok.mp h
    split at h
    · next child' hChild =>
      cases h
      refine ⟨elements, a, rfl, hChild, ?_⟩
      unfold Position.stepOffset at hOffset
      split at hOffset
      · next hSelected =>
        cases hOffset
        exact hSelected
      all_goals cases hOffset
    · cases h
  · cases h

/-- A step leads to the child it selects, whichever level it is counted as. -/
theorem stepInto_list {elements : List Value} {a : Attributes Value} {step : Position}
    {o : Nat} {child : Value} (hChild : elements[o]? = some child)
    (hStep : step.selectOne elements.length a.names .read = .ok (.slot o)) (level : Nat) :
    (list elements a).stepInto step level = .ok (o, child) := by
  have hOffset : step.stepOffset elements.length a.names level = .ok o := by
    simp [Position.stepOffset, hStep]
  refine bind_eq_ok.mpr ⟨o, hOffset, ?_⟩
  rw [hChild]
  rfl

/-- An assignment along a path changes the container at its end, and the path leads there
again. -/
theorem changedAlong_of_assignAlong {value : Value} (hValue : value.isNull = false)
    {x y : Value} {steps : List Position} {level : Nat} {world final : World}
    (hLast : ∀ last, steps.getLast? = some last → last.length? = some 1 ∧ last.isFindable)
    (h : (x.assignAlong (fun z p => z.assignDirect [p] value .element) steps level).run world
      = (.ok y, final)) :
    ∃ last c d r, ChangedAlong last c d steps x y
      ∧ Stored value last world.store final.store c d r
      ∧ ∀ session level, (y.getAlong final.store steps level).run session = (.ok r, session) := by
  induction steps generalizing x y level with
  | nil => cases h
  | cons step rest ih =>
    cases rest with
    | nil =>
      obtain ⟨hOne, hFindable⟩ := hLast step rfl
      obtain ⟨r, hStored, hRead⟩ := stored_of_assignDirect hOne hFindable hValue h
      exact ⟨step, x, y, r, .here, hStored, fun session _ => hRead session⟩
    | cons next rest =>
      obtain ⟨⟨o, child⟩, middle, hInto, h⟩ := Action.run_bind_eq_ok.mp h
      obtain ⟨changed, after, hChange, hDone⟩ := Action.run_bind_eq_ok.mp h
      obtain ⟨hFound, rfl⟩ := Action.run_ofExcept_eq_ok.mp hInto
      obtain ⟨elements, a, rfl, hChild, hStep⟩ := stepInto_eq_ok hFound
      cases hDone
      have hLastRest : ∀ last, (next :: rest).getLast? = some last →
          last.length? = some 1 ∧ last.isFindable := by
        intro last hGet
        exact hLast last (by rw [List.getLast?_cons_cons]; exact hGet)
      obtain ⟨last, c, d, r, hPath, hStored, hRead⟩ := ih hLastRest hChange
      refine ⟨last, c, d, r, .child elements a step next rest o child changed hStep hChild hPath,
        hStored, ?_⟩
      intro session level
      have hIn : o < elements.length := (List.getElem?_eq_some_iff.mp hChild).1
      have hAgain : (list (elements.set o changed) a).stepInto step level = .ok (o, changed) := by
        apply stepInto_list
        · rw [List.getElem?_set_self hIn]
        · rw [List.length_set]
          exact hStep
      rw [withElement, getAlong, hAgain, Checked.run_bind, Checked.run_ofExcept]
      exact hRead session (level + 1)

end Value

/-! ## Positions as paths -/

namespace Position

theorem length?_of_mem_steps {p step : Position} (hp : p ≠ missing) (h : step ∈ p.steps) :
    step.length? = some 1 := by
  cases p with
  | missing => exact absurd rfl hp
  | indices _ _ | mask _ | names _ =>
    obtain ⟨entry, -, rfl⟩ := List.mem_map.mp h
    rfl

/-- A position of one entry is one step, which differs from it in given names at most. -/
theorem steps_single {p : Position} (hp : p.length? = some 1) :
    (∃ entry given, p = indices [entry] given ∧ p.steps = [indices [entry] none])
      ∨ p.steps = [p] := by
  cases p with
  | missing => cases hp
  | indices entries given =>
    obtain ⟨entry, rfl⟩ := List.length_eq_one_iff.mp (Option.some.inj hp)
    exact Or.inl ⟨entry, given, rfl, rfl⟩
  | mask flags =>
    obtain ⟨flag, rfl⟩ := List.length_eq_one_iff.mp (Option.some.inj hp)
    exact Or.inr rfl
  | names queries =>
    obtain ⟨query, rfl⟩ := List.length_eq_one_iff.mp (Option.some.inj hp)
    exact Or.inr rfl

end Position

namespace Value

/-- Names given to an index make no difference under `[[`. -/
theorem Stored.withoutNames {value : Value} {entry : Option Int} {given : Option Names}
    {before after : Store} {c d r : Value}
    (h : Stored value (.indices [entry] given) before after c d r) :
    Stored value (.indices [entry] none) before after c d r := by
  cases h with
  | vector x y o hContainer hSlot hOthers hRead hStore =>
    exact .vector x y o hContainer hSlot hOthers hRead hStore
  | environment e name hName => cases hName
  | s4 object e name hData hName => cases hName

theorem get_of_assign_single {x value y : Value} {p : Position} {world final : World}
    (hSingle : p.length? = some 1)
    (hLast : ∀ last, p.steps.getLast? = some last → last.isFindable)
    (hValue : value.isNull = false)
    (h : (x.assign [p] value .element).run world = (.ok y, final)) :
    ∃ last c d r, ChangedAlong last c d p.steps x y
      ∧ Stored value last world.store final.store c d r
      ∧ ∀ session, (y.get final.store [p] .element).run session = (.ok r, session) := by
  have hAssign : x.assign [p] value .element = x.assignDirect [p] value .element := by
    rw [assign, pathSteps?_single x hSingle]
  have hGet : y.get final.store [p] .element = y.getDirect final.store [p] .element := by
    rw [get, pathSteps?_single y hSingle]
  rw [hAssign] at h
  rw [hGet]
  rcases Position.steps_single hSingle with ⟨entry, given, rfl, hSteps⟩ | hSteps
  · obtain ⟨r, hStored, hRead⟩ := stored_of_assignDirect hSingle rfl hValue h
    exact ⟨.indices [entry] none, x, y, r, .here, hStored.withoutNames, hRead⟩
  · have hFindable : p.isFindable := hLast p (by rw [hSteps]; rfl)
    obtain ⟨r, hStored, hRead⟩ := stored_of_assignDirect hSingle hFindable hValue h
    rw [hSteps]
    exact ⟨p, x, y, r, .here, hStored, hRead⟩

theorem pathSteps?_list {p : Position} (hPath : 1 < p.length?.getD 0) (elements : List Value)
    (a : Attributes Value) : (list elements a).pathSteps? [p] .element = some p.steps := by
  simp [pathSteps?, hPath]

theorem get_of_assign_path {elements : List Value} {a : Attributes Value} {value y : Value}
    {p : Position} {world final : World} (hPath : 1 < p.length?.getD 0)
    (hLast : ∀ last, p.steps.getLast? = some last → last.isFindable)
    (hValue : value.isNull = false)
    (h : ((list elements a).assign [p] value .element).run world = (.ok y, final)) :
    ∃ last c d r, ChangedAlong last c d p.steps (list elements a) y
      ∧ Stored value last world.store final.store c d r
      ∧ ∀ session, (y.get final.store [p] .element).run session = (.ok r, session) := by
  have hSteps : p ≠ .missing ∧ 1 < p.steps.length := by
    cases p with
    | missing => cases hPath
    | indices _ _ | mask _ | names _ =>
      refine ⟨nofun, ?_⟩
      rw [Position.steps, List.length_map]
      exact hPath
  have hLastStep : ∀ last, p.steps.getLast? = some last →
      last.length? = some 1 ∧ last.isFindable := by
    intro last hGet
    exact ⟨Position.length?_of_mem_steps hSteps.1 (List.mem_of_getLast? hGet), hLast last hGet⟩
  rw [assign, pathSteps?_list hPath] at h
  obtain ⟨last, c, d, r, hChanged, hStored, hRead⟩ :=
    changedAlong_of_assignAlong hValue hLastStep h
  refine ⟨last, c, d, r, hChanged, hStored, ?_⟩
  intro session
  -- the result is a list again, so that the position is a path in it too
  obtain ⟨ys, b, rfl⟩ : ∃ ys b, y = list ys b := by
    have hLong := hSteps.2
    generalize p.steps = steps at hChanged hLong
    cases hChanged with
    | here => simp at hLong
    | child => exact ⟨_, _, rfl⟩
  rw [get, pathSteps?_list hPath]
  exact hRead session 0

/-- After a successful assignment of a value under `[[`, the same position reads what was
assigned, at whatever depth, and the lists on the way differ in the child of the path only. -/
theorem get_of_assign {x value y : Value} {p : Position} {world final : World}
    (hPosition : p.length? = some 1 ∨ x.kind = .list ∧ 1 < p.length?.getD 0)
    (hLast : ∀ last, p.steps.getLast? = some last → last.isFindable)
    (hValue : value.isNull = false)
    (h : (x.assign [p] value .element).run world = (.ok y, final)) :
    ∃ last c d r, ChangedAlong last c d p.steps x y
      ∧ Stored value last world.store final.store c d r
      ∧ ∀ session, (y.get final.store [p] .element).run session = (.ok r, session) := by
  rcases hPosition with hSingle | ⟨hList, hPath⟩
  · exact get_of_assign_single hSingle hLast hValue h
  · obtain ⟨elements, a, rfl⟩ : ∃ elements a, x = list elements a := by
      cases x <;> first | exact ⟨_, _, rfl⟩ | cases hList
    exact get_of_assign_path hPath hLast hValue h

/-- A list that holds two integers under the name `a`. -/
def integersInList : Value :=
  list [atomic .integer [some 7, some 8] {}] { names := some [some "a"] }

/-- The list after `stored` was assigned to the new name `z` in its element, which became a list
to receive it. -/
def boxedInList (stored : Value) : Value :=
  list [list [atomic .integer [some 7] {}, atomic .integer [some 8] {}, stored]
    { names := some [some "", some "", some "z"] }] { names := some [some "a"] }

theorem get_of_assign_boxing :
    let stored := list [null] { names := some [some "n"] }
    (integersInList.assign [.names [some "a", some "z"]] stored .element).run {}
        = (.ok (boxedInList stored), {})
      ∧ ∃ last c d r,
          ChangedAlong last c d [.names [some "a"], .names [some "z"]] integersInList
              (boxedInList stored)
            ∧ Stored stored last ∅ ∅ c d r
            ∧ ∀ session,
              ((boxedInList stored).get ∅ [.names [some "a", some "z"]] .element).run session
                = (.ok r, session) := by
  refine ⟨rfl, ?_⟩
  refine @get_of_assign integersInList _ _ (.names [some "a", some "z"]) {} {}
    (.inr ⟨rfl, by decide⟩) ?_ rfl rfl
  intro last hLast
  cases hLast
  rfl

end Value

end VectorIndexing
