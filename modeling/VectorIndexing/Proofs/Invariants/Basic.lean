import VectorIndexing.Proofs.Plans
import VectorIndexing.Workspace

/-!
# Properties of values that operations keep

A property of values is an invariant if the primitive operations on vectors and attributes keep it,
and if the elements of a list have it whenever the list does. Operations on slots bring no elements
with them except the fill value and what is written, which is why many properties are of this kind.

* `Slots.mem_gather`, `mem_extend`, `mem_scatter`, …: where elements come from.
* `Value.Invariant`: what is asked of a property.
* `Checked.Returns`, `Action.Maintains`: properties of what computations return and leave behind.
-/

namespace VectorIndexing

/-! ## Where elements come from -/

namespace Slots

variable {α β : Type}

theorem fetch_eq_or_mem (fill : α) (xs : List α) (offset : Offset) :
    fetch fill xs offset = fill ∨ fetch fill xs offset ∈ xs := by
  unfold fetch
  cases h : offset.bind (xs[·]?) with
  | none => exact Or.inl rfl
  | some x =>
    obtain ⟨o, -, ho⟩ := Option.bind_eq_some_iff.mp h
    exact Or.inr (List.mem_of_getElem? ho)

theorem mem_gather {fill x : α} {xs : List α} {offsets : List Offset}
    (h : x ∈ gather fill xs offsets) : x = fill ∨ x ∈ xs := by
  rw [gather_eq_map] at h
  obtain ⟨offset, -, rfl⟩ := List.mem_map.mp h
  exact fetch_eq_or_mem fill xs offset

theorem mem_extend {fill x : α} {n : Nat} {xs : List α} (h : x ∈ extend fill n xs) :
    x = fill ∨ x ∈ xs := by
  rcases List.mem_append.mp h with hOld | hNew
  · exact Or.inr hOld
  · exact Or.inl (List.eq_of_mem_replicate hNew)

theorem mem_recycle {x : α} {xs : List α} {n : Nat} (h : x ∈ recycle xs n) : x ∈ xs := by
  obtain ⟨i, -, hi⟩ := List.mem_filterMap.mp h
  exact Array.mem_toList_iff.mpr (Array.mem_of_getElem? hi)

theorem mem_put {x value : α} {xs : List α} {offset : Offset} (h : x ∈ put xs offset value) :
    x ∈ xs ∨ x = value := by
  cases offset with
  | none => exact Or.inl h
  | some o => exact List.mem_or_eq_of_mem_set h

theorem mem_putAll {x : α} {xs : List α} {writes : List (Offset × α)}
    (h : x ∈ putAll xs writes) : x ∈ xs ∨ ∃ w ∈ writes, w.2 = x := by
  induction writes generalizing xs with
  | nil => exact Or.inl h
  | cons w rest ih =>
    rcases ih h with hPut | ⟨w', hw', hx⟩
    · rcases mem_put hPut with hOld | hNew
      · exact Or.inl hOld
      · exact Or.inr ⟨w, List.mem_cons_self, hNew.symm⟩
    · exact Or.inr ⟨w', List.mem_cons_of_mem _ hw', hx⟩

theorem mem_scatter {x : α} {xs values : List α} {offsets : List Offset}
    (h : x ∈ scatter xs offsets values) : x ∈ xs ∨ x ∈ values := by
  rcases mem_putAll h with hOld | ⟨w, hw, rfl⟩
  · exact Or.inl hOld
  · exact Or.inr (mem_recycle (List.of_mem_zip hw).2)

theorem dropMarked_sublist (flags : List Bool) (xs : List α) :
    List.Sublist (dropMarked flags xs) xs := by
  fun_induction dropMarked flags xs with
  | case1 flags => exact List.Sublist.refl _
  | case2 xs => exact List.Sublist.refl _
  | case3 flags x xs ih => exact ih.cons x
  | case4 flag flags x xs hKeep ih => exact ih.cons_cons x

end Slots

/-! ## Invariants -/

/-- Elements of lists are values, and have to have the property. -/
def VectorKind.ElemHas (P : Value → Prop) : (kind : VectorKind) → kind.Elem → Prop
  | .atomic _, _ => True
  | .list, x => P x

theorem VectorKind.elemHas_fill {P : Value → Prop} (hNull : P .null) (kind : VectorKind) :
    kind.ElemHas P kind.fill := by
  cases kind with
  | atomic k => trivial
  | list => exact hNull

/-- Every binding of every environment has the property. -/
def Store.Has (P : Value → Prop) (store : Store) : Prop :=
  ∀ e name x, store.binding? e name = some x → P x

/-- Every value made so far and every binding has the property. -/
structure Workspace.Has (P : Value → Prop) (w : Workspace) : Prop where
  store : w.world.store.Has P
  values : ∀ x ∈ w.values, P x

/-- A property that the primitive operations keep. -/
structure Value.Invariant (P : Value → Prop) : Prop where
  null : P .null
  environment : ∀ e, P (.environment e)
  elements : ∀ {kind : VectorKind} {v : TypedVector kind}, P v.toValue →
    ∀ e ∈ v.elements, kind.ElemHas P e
  scalar : ∀ k e, P (.scalar k e)
  coerce : ∀ {x : Value} {kind : VectorKind} {v : TypedVector kind}, P x → x.coerce kind = .ok v →
    P v.toValue
  part : ∀ {kind : VectorKind} {v : TypedVector kind} {plan : Plan}, P v.toValue →
    plan.DimsSized → P (v.part plan).toValue
  extend : ∀ {kind : VectorKind} {v : TypedVector kind} (length : Nat), P v.toValue →
    P (v.extend length).toValue
  scatter : ∀ {kind : VectorKind} {v : TypedVector kind} (offsets : List Offset)
    {values : List kind.Elem}, P v.toValue → (∀ e ∈ values, kind.ElemHas P e) →
      P (v.scatter offsets values).toValue
  scatterNames : ∀ {kind : VectorKind} {v : TypedVector kind} (offsets : List Offset)
    (names : Names), P v.toValue → P (v.scatterNames offsets names).toValue
  dropMarked : ∀ {kind : VectorKind} {v : TypedVector kind} (remove : List Bool), P v.toValue →
    P (v.dropMarked remove).toValue
  withoutShape : ∀ {kind : VectorKind} {v : TypedVector kind}, P v.toValue →
    P v.withoutShape.toValue
  ofPairs : ∀ {pairs : List (Option String × Value)}, (∀ p ∈ pairs, P p.2) →
    P (TypedVector.ofPairs pairs).toValue
  setAttribute : ∀ {x value y : Value} {key : String}, P x → P value →
    x.setAttribute key value = .ok y → P y
  getAttribute : ∀ {x y : Value} {key : String}, P x → x.getAttribute key = some y → P y

theorem Store.Has.bind {P : Value → Prop} {store : Store} (h : store.Has P) {x : Value} (hx : P x)
    (e : EnvRef) (name : String) : (store.bind e name x).Has P := by
  intro e' name' y hy
  rw [binding_bind] at hy
  split at hy
  · cases hy
    exact hx
  · exact h e' name' y hy

/-! ## Computations -/

/-- Whatever the computation returns has the property. -/
def Checked.Returns {α : Type} (P : α → Prop) (x : Checked α) : Prop :=
  ∀ session a final, x.run session = (.ok a, final) → P a

namespace Checked.Returns

variable {α β : Type} {P : α → Prop} {Q : β → Prop}

theorem pure {a : α} (h : P a) : Returns P (Pure.pure a) := by
  intro session b final hRun
  obtain ⟨rfl, -⟩ := run_pure_eq_ok.mp hRun
  exact h

theorem throw (e : Error) : Returns P (MonadExcept.throw e) := by
  intro session a final hRun
  cases hRun

theorem ofExcept {x : Except Error α} (h : ∀ a, x = .ok a → P a) :
    Returns P (Checked.ofExcept x) := by
  intro session a final hRun
  exact h a (run_ofExcept_eq_ok.mp hRun).1

theorem bind {x : Checked α} {f : α → Checked β} (hx : Returns P x)
    (hf : ∀ a, P a → Returns Q (f a)) : Returns Q (x >>= f) := by
  intro session b final hRun
  obtain ⟨a, middle, hFirst, hRest⟩ := run_bind_eq_ok.mp hRun
  exact hf a (hx session a middle hFirst) middle b final hRest

theorem trivial (x : Checked α) : Returns (fun _ => True) x := fun _ _ _ _ => True.intro

end Checked.Returns

theorem Layout.returns_plan (layout : Layout) (positions : List Position) (mode : Mode)
    (purpose : Purpose) : (layout.plan positions mode purpose).Returns Plan.DimsSized :=
  fun _ _ _ hRun => dimsSized_of_plan hRun

/-- An action that starts from a store with the property leaves such a store behind, whether or not
it succeeds, and whatever it returns has a property of its own. -/
def Action.Maintains {α : Type} (P : Value → Prop) (Q : α → Prop) (x : Action α) : Prop :=
  ∀ world, world.store.Has P →
    (x.run world).2.store.Has P ∧ ∀ a, (x.run world).1 = .ok a → Q a

namespace Action.Maintains

variable {α β : Type} {P : Value → Prop} {Q : α → Prop} {R : β → Prop}

theorem pure {a : α} (h : Q a) : Maintains P Q (Pure.pure a) := by
  intro world hStore
  refine ⟨hStore, ?_⟩
  intro b hb
  cases hb
  exact h

theorem throw (e : Error) : Maintains P Q (MonadExcept.throw e) :=
  fun _ hStore => ⟨hStore, nofun⟩

theorem ofChecked {x : Checked α} (h : x.Returns Q) : Maintains P Q (Action.ofChecked x) := by
  intro world hStore
  refine ⟨hStore, ?_⟩
  intro a ha
  exact h world.session a _ (Prod.ext ha rfl)

theorem ofExcept {x : Except Error α} (h : ∀ a, x = .ok a → Q a) :
    Maintains P Q (Action.ofExcept x) :=
  ofChecked (Checked.Returns.ofExcept h)

theorem bind {x : Action α} {f : α → Action β} (hx : Maintains P Q x)
    (hf : ∀ a, Q a → Maintains P R (f a)) : Maintains P R (x >>= f) := by
  intro world hStore
  obtain ⟨hMiddle, hReturned⟩ := hx world hStore
  rw [run_bind]
  rcases hRun : x.run world with ⟨_ | a, middle⟩
  · rw [hRun] at hMiddle
    exact ⟨hMiddle, nofun⟩
  · rw [hRun] at hMiddle hReturned
    exact hf a (hReturned a rfl) middle hMiddle

theorem getThe : Maintains P (fun world : World => world.store.Has P) (getThe World) := by
  intro world hStore
  refine ⟨hStore, ?_⟩
  intro w hw
  cases hw
  exact hStore

theorem bindName (e : EnvRef) (positions : List Position) {value : Value} (hValue : P value)
    (mode : Mode) : Maintains P (fun _ => True) (Action.bindName e positions value mode) := by
  refine Maintains.bind (Q := fun _ => True) (Maintains.ofExcept fun _ _ => trivial) ?_
  intro name _ world hStore
  exact ⟨hStore.bind hValue e name, fun _ _ => trivial⟩

end Action.Maintains

end VectorIndexing
