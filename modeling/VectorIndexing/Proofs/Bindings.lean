import VectorIndexing.Proofs.Paths

/-!
# Bindings

Vectors and lists are values, environments are not: an assignment to an environment binds a name
in the store, and everyone who holds the environment sees it. An environment can be reached
directly, through the data slot of an S4 object, or as an element of lists at the end of a path.

* `Value.Addresses`: the positions of a call stand for a name in an environment.
* `Value.run_assign_of_addresses`, `Value.store_of_run_assign`: an assignment binds this name and
  returns what it was given, and any other assignment leaves the store alone.
* `World.bindings_after`: what is read through every holder of an environment after any number of
  assignments.
-/

namespace VectorIndexing

/-! ## Holders of environments -/

namespace Value

/-- The environment to which positions applied to the value go, if they do. -/
def environment? : Value → Option EnvRef
  | environment e => some e
  | s4 object => object.data
  | _ => none

/-- Each step selects an existing element of a list, and the last of these elements is `y`. -/
inductive LeadsInto : Value → List Position → Value → Prop
  | here (x : Value) : LeadsInto x [] x
  | child (elements : List Value) (a : Attributes Value) (step : Position) (rest : List Position)
      (o : Nat) (child y : Value)
      (hStep : step.selectOne elements.length a.names .read = .ok (.slot o))
      (hChild : elements[o]? = some child) (hRest : LeadsInto child rest y) :
      LeadsInto (list elements a) (step :: rest) y

/-- Under `[[` the positions stand for the name in the environment. The last component is the
name, and the components before it, if there are any, lead through lists to something that holds
the environment. -/
def Addresses (x : Value) (positions : List Position) (mode : Mode) (e : EnvRef) (name : String) :
    Prop :=
  mode = .element ∧ ∃ p path holder, positions = [p] ∧ p.steps = path ++ [.names [some name]]
    ∧ x.LeadsInto path holder ∧ holder.environment? = some e

end Value

namespace Position

/-- A position of several entries has several steps, and no other has. -/
theorem length_steps (p : Position) : p.steps.length = p.length?.getD 1 := by
  cases p <;> simp [steps, length?]

theorem eq_names_of_steps {p : Position} {name : String} (h : p.steps = [.names [some name]]) :
    p = .names [some name] := by
  cases p with
  | missing => cases h
  | indices entries given =>
    obtain ⟨entry, rfl, hEntry⟩ := List.map_eq_singleton_iff.mp h
    cases hEntry
  | mask flags =>
    obtain ⟨flag, rfl, hFlag⟩ := List.map_eq_singleton_iff.mp h
    cases hFlag
  | names queries =>
    obtain ⟨query, rfl, hQuery⟩ := List.map_eq_singleton_iff.mp h
    cases hQuery
    rfl

end Position

namespace Value

variable {x y holder value : Value} {path steps positions : List Position} {last : Position}
  {mode : Mode} {e : EnvRef} {name : String} {level : Nat}

/-! ## Binding directly -/

theorem run_assignDirect_environment (hHolder : holder.environment? = some e) (name : String)
    (value : Value) (world : World) :
    (holder.assignDirect [.names [some name]] value .element).run world
      = (.ok holder, { world with store := world.store.bind e name value }) := by
  cases holder with
  | environment _ =>
    cases hHolder
    rfl
  | s4 object =>
    simp only [environment?] at hHolder
    simp only [assignDirect, hHolder]
    rfl
  | null | atomic _ _ _ | list _ _ | closure _ => cases hHolder

/-- A call that does not give one name to a holder of an environment binds nothing. -/
theorem store_of_run_assignDirect
    (h : ∀ e name, x.environment? = some e → mode = .element → positions ≠ [.names [some name]])
    (value : Value) (world : World) :
    ((x.assignDirect positions value mode).run world).2.store = world.store := by
  have hBind : ∀ e, x.environment? = some e →
      ∃ e', (Action.bindName e positions value mode).run world = (.error e', world) := by
    intro e hEnvironment
    cases hName : boundName positions mode with
    | ok name =>
      obtain ⟨hMode, hPositions⟩ := boundName_eq_ok.mp hName
      exact absurd hPositions (h e name hEnvironment hMode)
    | error e' =>
      refine ⟨e', ?_⟩
      unfold Action.bindName
      rw [hName]
      rfl
  cases x with
  | closure _ => rfl
  | environment e =>
    obtain ⟨e', hRun⟩ := hBind e rfl
    simp only [assignDirect, Action.run_bind, hRun]
  | s4 object =>
    simp only [assignDirect]
    split
    · rfl
    · next e hData =>
      obtain ⟨e', hRun⟩ := hBind e hData
      simp only [Action.run_bind, hRun]
  | null | atomic _ _ _ | list _ _ =>
    simp only [assignDirect, Action.run_bind, Action.run_getThe]
    rfl

theorem run_getDirect_environment (hHolder : holder.environment? = some e) (store : Store)
    (name : String) (session : Session) :
    (holder.getDirect store [.names [some name]] .element).run session
      = (.ok ((store.binding? e name).getD .null), session) := by
  cases holder with
  | environment _ =>
    cases hHolder
    rfl
  | s4 object =>
    simp only [environment?] at hHolder
    simp only [getDirect, hHolder]
    rfl
  | null | atomic _ _ _ | list _ _ | closure _ => cases hHolder

/-! ## Binding at the end of a path -/

theorem LeadsInto.leadsTo (h : x.LeadsInto path y) (store : Store) (last : Position) (level : Nat) :
    x.LeadsTo store (path ++ [last]) level last y := by
  induction h generalizing level with
  | here x => exact .here store x last level
  | child elements a step rest o child y hStep hChild hRest ih =>
    exact .cons (by simp) (stepInto_list hChild hStep level) (ih (level + 1))

/-- A change along the path leaves the world as the change at its end does. -/
theorem LeadsTo.world_eq {store : Store} {x cur : Value} {path : List Position} {last : Position}
    {level : Nat} (h : x.LeadsTo store path level last cur)
    (change : Value → Position → Action Value) (world : World) :
    ((x.assignAlong change path level).run world).2 = ((change cur last).run world).2 := by
  rcases hRun : (change cur last).run world with ⟨e | d, after⟩
  · rw [h.change_error change world e after hRun]
  · obtain ⟨y, hDone, -⟩ := h.change_ok change world d after hRun
    rw [hDone]

/-- A path either gets to its last step or fails. -/
theorem leadsInto_or_failsAlong (store : Store) (x : Value) (hSteps : steps ≠ []) (level : Nat) :
    (∃ path last y, steps = path ++ [last] ∧ x.LeadsInto path y)
      ∨ ∃ e, x.FailsAlong store steps level e := by
  induction steps generalizing x level with
  | nil => exact absurd rfl hSteps
  | cons step rest ih =>
    by_cases hRest : rest = []
    · subst hRest
      exact Or.inl ⟨[], step, x, rfl, .here x⟩
    · cases hStep : x.stepInto step level with
      | error e => exact Or.inr ⟨e, .of_stepInto hRest hStep⟩
      | ok found =>
        obtain ⟨o, child⟩ := found
        obtain ⟨elements, a, rfl, hChild, hSelected⟩ := stepInto_eq_ok hStep
        rcases ih child hRest (level + 1) with ⟨path, last, y, rfl, hLeads⟩ | ⟨e, hFails⟩
        · exact Or.inl ⟨step :: path, last, y, rfl,
            .child elements a step path o child y hSelected hChild hLeads⟩
        · exact Or.inr ⟨e, hFails.cons hRest hStep⟩

/-- Where the end of a path stays the same, all of it does. -/
theorem ChangedAlong.eq_of_same (h : ChangedAlong last holder holder steps x y) : y = x := by
  induction h with
  | here => rfl
  | child elements a step next rest o before after hStep hChild hRest ih =>
    obtain ⟨hIn, rfl⟩ := List.getElem?_eq_some_iff.mp hChild
    rw [ih, List.set_getElem_self hIn]

/-- A list is indexed along a path by a single position of several steps. -/
theorem pathSteps?_eq_some (h : x.pathSteps? positions mode = some steps) :
    mode = .element ∧ ∃ p, positions = [p] ∧ p.steps = steps ∧ steps ≠ [] := by
  unfold pathSteps? at h
  split at h
  · next p =>
    split at h
    · next hLong =>
      cases h
      refine ⟨rfl, p, rfl, rfl, List.ne_nil_of_length_pos ?_⟩
      rw [p.length_steps]
      cases hLength : p.length? with
      | none => simp
      | some n =>
        rw [hLength, Option.getD_some] at hLong
        rw [Option.getD_some]
        omega
    · cases h
  · cases h

/-- A holder of the environment is given the name itself, and a list a path that ends with it. -/
theorem Addresses.direct_or_path (h : x.Addresses positions mode e name) :
    (x.environment? = some e ∧ mode = .element ∧ positions = [.names [some name]])
      ∨ ∃ path holder, x.pathSteps? positions mode = some (path ++ [.names [some name]])
        ∧ x.LeadsInto path holder ∧ holder.environment? = some e := by
  obtain ⟨rfl, p, path, holder, rfl, hSteps, hLeads, hHolder⟩ := h
  cases hLeads with
  | here => exact Or.inl ⟨hHolder, rfl, by rw [Position.eq_names_of_steps hSteps]⟩
  | child elements a step rest o child holder hStep hChild hRest =>
    refine Or.inr ⟨step :: rest, holder, ?_, .child elements a step rest o child holder hStep hChild
      hRest, hHolder⟩
    have hLong : 1 < p.length?.getD 0 := by
      have hLength := p.length_steps
      rw [hSteps] at hLength
      cases hEntries : p.length? with
      | none => simp [hEntries] at hLength
      | some n =>
        simp only [hEntries, Option.getD_some, List.length_append, List.length_cons,
          List.length_nil] at hLength ⊢
        omega
    rw [pathSteps?_list hLong, hSteps]

/-! ## Assigning and reading -/

/-- An assignment to a name in an environment binds it and returns what it was given. -/
theorem run_assign_of_addresses (h : x.Addresses positions mode e name) (value : Value)
    (world : World) :
    (x.assign positions value mode).run world
      = (.ok x, { world with store := world.store.bind e name value }) := by
  unfold assign
  rcases h.direct_or_path with ⟨hHolder, rfl, rfl⟩ | ⟨path, holder, hPath, hLeads, hHolder⟩
  · rw [pathSteps?_single x rfl]
    exact run_assignDirect_environment hHolder name value world
  · obtain ⟨y, hRun, hChanged⟩ := (hLeads.leadsTo world.store (.names [some name]) 0).change_ok
      (fun y p => y.assignDirect [p] value .element) world _ _
      (run_assignDirect_environment hHolder name value world)
    rw [hChanged.eq_of_same] at hRun
    rw [hPath]
    exact hRun

/-- An assignment to anything but a name in an environment leaves the store alone. -/
theorem store_of_run_assign (h : ∀ e name, ¬ x.Addresses positions mode e name) (value : Value)
    (world : World) : ((x.assign positions value mode).run world).2.store = world.store := by
  unfold assign
  split
  · next steps hPath =>
    obtain ⟨rfl, p, rfl, rfl, hSome⟩ := pathSteps?_eq_some hPath
    rcases leadsInto_or_failsAlong world.store x hSome 0 with
      ⟨path, last, y, hSteps, hLeads⟩ | ⟨e, hFails⟩
    · have hDirect : ((y.assignDirect [last] value .element).run world).2.store = world.store := by
        apply store_of_run_assignDirect
        intro e name hEnvironment _ hLast
        cases hLast
        exact h e name ⟨rfl, p, path, y, rfl, hSteps, hLeads, hEnvironment⟩
      rw [hSteps, (hLeads.leadsTo world.store last 0).world_eq]
      exact hDirect
    · -- the path breaks off before anything is bound
      rw [hFails.change]
  · apply store_of_run_assignDirect
    rintro e name hEnvironment rfl rfl
    exact h e name ⟨rfl, _, [], x, rfl, rfl, .here x, hEnvironment⟩

/-- Whoever holds the environment reads its bindings, and those that are absent as `NULL`. -/
theorem run_get_of_addresses (h : x.Addresses positions mode e name) (store : Store)
    (session : Session) :
    (x.get store positions mode).run session
      = (.ok ((store.binding? e name).getD .null), session) := by
  unfold get
  rcases h.direct_or_path with ⟨hHolder, rfl, rfl⟩ | ⟨path, holder, hPath, hLeads, hHolder⟩
  · rw [pathSteps?_single x rfl]
    exact run_getDirect_environment hHolder store name session
  · rw [hPath]
    exact ((hLeads.leadsTo store (.names [some name]) 0).read session).trans
      (run_getDirect_environment hHolder store name session)

end Value

/-! ## Sequences of assignments -/

/-- The assignment of an indexing call. -/
structure Assignment where
  target : Value
  positions : List Position
  value : Value
  mode : Mode

namespace Assignment

def perform (a : Assignment) : Action Value := a.target.assign a.positions a.value a.mode

/-- The assignment is one to the name in the environment, through whatever holds it. -/
def Addresses (a : Assignment) (e : EnvRef) (name : String) : Prop :=
  a.target.Addresses a.positions a.mode e name

end Assignment

/-- The world after one assignment after another. -/
def World.afterAll (world : World) (assignments : List Assignment) : World :=
  assignments.foldl (fun world a => (a.perform.run world).2) world

namespace Assignment

variable {a : Assignment} {e : EnvRef} {name : String}

theorem binding_of_addresses (h : a.Addresses e name) (world : World) :
    (a.perform.run world).2.store.binding? e name = some a.value := by
  rw [perform, Value.run_assign_of_addresses h]
  dsimp only
  rw [Store.binding_bind, if_pos ⟨rfl, rfl⟩]

/-- Other bindings stay, of this environment and of all others. -/
theorem binding_of_not_addresses (h : ¬ a.Addresses e name) (world : World) :
    (a.perform.run world).2.store.binding? e name = world.store.binding? e name := by
  by_cases hAny : ∃ e' name', a.Addresses e' name'
  · obtain ⟨e', name', hOther⟩ := hAny
    have hNe : ¬ (e' = e ∧ name' = name) := by
      rintro ⟨rfl, rfl⟩
      exact h hOther
    rw [perform, Value.run_assign_of_addresses hOther]
    dsimp only
    rw [Store.binding_bind, if_neg hNe]
  · have hNone : ∀ e' name', ¬ a.Addresses e' name' := fun e' name' h' => hAny ⟨e', name', h'⟩
    rw [perform, Value.store_of_run_assign hNone]

end Assignment

namespace World

variable {assignments before after : List Assignment} {a : Assignment} {e : EnvRef} {name : String}

/-- A binding stays through assignments that are not to its name. -/
theorem binding_afterAll_of_not_addresses (h : ∀ a ∈ assignments, ¬ a.Addresses e name)
    (world : World) :
    (world.afterAll assignments).store.binding? e name = world.store.binding? e name := by
  induction assignments generalizing world with
  | nil => rfl
  | cons a rest ih =>
    have hRest : ∀ b ∈ rest, ¬ b.Addresses e name := fun b hb => h b (List.mem_cons_of_mem _ hb)
    calc ((a.perform.run world).2.afterAll rest).store.binding? e name
      _ = (a.perform.run world).2.store.binding? e name := ih hRest _
      _ = world.store.binding? e name :=
        Assignment.binding_of_not_addresses (h a List.mem_cons_self) world

/-- The last assignment to a name decides what is bound to it. -/
theorem binding_afterAll_of_last (hLast : a.Addresses e name)
    (hAfter : ∀ b ∈ after, ¬ b.Addresses e name) (world : World) :
    (world.afterAll (before ++ a :: after)).store.binding? e name = some a.value := by
  have hSplit : world.afterAll (before ++ a :: after)
      = (a.perform.run (world.afterAll before)).2.afterAll after := by
    unfold afterAll
    rw [List.foldl_append, List.foldl_cons]
  rw [hSplit, binding_afterAll_of_not_addresses hAfter, Assignment.binding_of_addresses hLast]

/-- An assignment that fails changes no binding. One that succeeds binds a name exactly if it is
addressed to one, and then returns its target as it was; every other binding stays. So whoever
holds an environment reads from a name what was last assigned to it through any holder, and if
nothing was, the first binding. -/
theorem bindings_after (world : World) :
    (∀ a : Assignment,
      match a.perform.run world with
      | (.error _, final) => final.store = world.store
      | (.ok y, final) =>
        (∃ e name, a.Addresses e name ∧ y = a.target
          ∧ ∀ e' name', final.store.binding? e' name'
            = if e' = e ∧ name' = name then some a.value else world.store.binding? e' name')
        ∨ (∀ e name, ¬ a.Addresses e name) ∧ final.store = world.store)
    ∧ ∀ (assignments : List Assignment) (e : EnvRef) (name : String) (holder : Value)
        (positions : List Position), holder.Addresses positions .element e name → ∀ session,
      (∀ before a after, assignments = before ++ a :: after → a.Addresses e name →
        (∀ b ∈ after, ¬ b.Addresses e name) →
        (holder.get (world.afterAll assignments).store positions .element).run session
          = (.ok a.value, session))
      ∧ ((∀ a ∈ assignments, ¬ a.Addresses e name) →
        (holder.get (world.afterAll assignments).store positions .element).run session
          = (.ok ((world.store.binding? e name).getD .null), session)) := by
  refine ⟨?_, ?_⟩
  · intro a
    by_cases hAny : ∃ e name, a.Addresses e name
    · obtain ⟨e, name, hAddresses⟩ := hAny
      rw [Assignment.perform, Value.run_assign_of_addresses hAddresses]
      refine Or.inl ⟨e, name, hAddresses, rfl, fun e' name' => ?_⟩
      rw [Store.binding_bind]
      simp only [eq_comm]
    · have hNone : ∀ e name, ¬ a.Addresses e name := fun e name h => hAny ⟨e, name, h⟩
      have hStore : (a.perform.run world).2.store = world.store :=
        Value.store_of_run_assign hNone a.value world
      rcases hRun : a.perform.run world with ⟨e | y, final⟩
      · rwa [hRun] at hStore
      · rw [hRun] at hStore
        exact Or.inr ⟨hNone, hStore⟩
  · intro assignments e name holder positions hHolder session
    refine ⟨?_, ?_⟩
    · rintro before a after rfl hLast hAfter
      rw [Value.run_get_of_addresses hHolder, binding_afterAll_of_last hLast hAfter]
      rfl
    · intro hNone
      rw [Value.run_get_of_addresses hHolder, binding_afterAll_of_not_addresses hNone]

/-- The name is bound through a list and then through an S4 object, and another name through the
environment itself. The list shows what the object was given. -/
theorem bindings_after_aliases :
    let holders : Value := .list [.environment ⟨0⟩] { names := some [some "a"] }
    let first : Assignment :=
      ⟨holders, [.names [some "a", some "n"]], .atomic .integer [some 1] {}, .element⟩
    let second : Assignment :=
      ⟨.s4 ⟨0, "C", some ⟨0⟩⟩, [.names [some "n"]], .atomic .integer [some 2] {}, .element⟩
    let third : Assignment :=
      ⟨.environment ⟨0⟩, [.names [some "m"]], .atomic .integer [some 3] {}, .element⟩
    (holders.get (afterAll {} [first, second, third]).store
        [.names [some "a", some "n"]] .element).run {}
      = (.ok (.atomic .integer [some 2] {}), {}) := by
  intro holders first second third
  have hHolder : holders.Addresses [.names [some "a", some "n"]] .element ⟨0⟩ "n" :=
    ⟨rfl, _, [.names [some "a"]], .environment ⟨0⟩, rfl, rfl,
      .child _ _ _ [] 0 _ _ rfl rfl (.here _), rfl⟩
  have hSecond : second.Addresses ⟨0⟩ "n" := ⟨rfl, _, [], .s4 _, rfl, rfl, .here _, rfl⟩
  have hThird : ¬ third.Addresses ⟨0⟩ "n" := by
    rintro ⟨-, p, path, -, hPosition, hSteps, -, -⟩
    cases hPosition
    cases path with
    | nil => exact absurd hSteps (by decide)
    | cons step rest => simp [Position.steps] at hSteps
  exact ((bindings_after {}).2 _ ⟨0⟩ "n" holders _ hHolder {}).1 [first] second [third] rfl hSecond
    (by simpa using hThird)

end World

end VectorIndexing
