import VectorIndexing.Proofs.Invariants.Runs
import VectorIndexing.Proofs.WellFormed.Attributes

/-!
# Maps of attributes in ascending order

The attributes without rules of their own are kept in a map, whose entries always stand in ascending
order of the keys. So the map is known from what it holds, whatever the order was in which the
attributes were set.

* `OrderedMap.Ascending`: the order of the entries, which inserting and erasing keep.
* `OrderedMap.ofList_of_perm`: a map is made by inserting its entries in any order.
* `Value.Ordered`, `Value.invariant_ordered`: the order in all maps of a value.
-/

namespace VectorIndexing

/-! ## Maps -/

namespace OrderedMap

variable {α : Type}

/-- The entries stand in ascending order of their keys, no two of which are equal. -/
def Ascending (m : OrderedMap String α) : Prop := m.entries.Pairwise fun e e' => e.1 < e'.1

theorem ascending_empty : Ascending (∅ : OrderedMap String α) := List.Pairwise.nil

theorem pairwise_insertIn (key : String) (value : α) {entries : List (String × α)}
    (h : entries.Pairwise fun e e' => e.1 < e'.1) :
    (insertIn key value entries).Pairwise fun e e' => e.1 < e'.1 := by
  induction entries with
  | nil => exact List.pairwise_singleton _ _
  | cons first rest ih =>
    obtain ⟨k, v⟩ := first
    obtain ⟨hFirst, hRest⟩ := List.pairwise_cons.mp h
    unfold insertIn
    split
    · next hSame =>
      subst hSame
      exact List.pairwise_cons.mpr ⟨hFirst, hRest⟩
    · next hOther =>
      split
      · next hBefore =>
        refine List.pairwise_cons.mpr ⟨?_, h⟩
        intro e he
        rcases List.mem_cons.mp he with rfl | he
        · exact hBefore
        · exact String.lt_trans hBefore (hFirst e he)
      · next hBehind =>
        have hKey : k < key := by
          apply Decidable.byContradiction
          intro hNot
          exact hOther (String.le_antisymm (String.not_lt.mp hBehind) (String.not_lt.mp hNot))
        refine List.pairwise_cons.mpr ⟨?_, ih hRest⟩
        intro e he
        rcases mem_insertIn he with rfl | he
        · exact hKey
        · exact hFirst e he

theorem Ascending.insert {m : OrderedMap String α} (h : m.Ascending) (key : String) (value : α) :
    (m.insert key value).Ascending := pairwise_insertIn key value h

theorem Ascending.erase {m : OrderedMap String α} (h : m.Ascending) (key : String) :
    (m.erase key).Ascending := List.Pairwise.filter _ h

/-- A new key adds its entry. -/
theorem perm_insertIn {key : String} {value : α} {entries : List (String × α)}
    (h : key ∉ entries.map Prod.fst) :
    (insertIn key value entries).Perm ((key, value) :: entries) := by
  fun_induction insertIn key value entries with
  | case1 => exact .refl _
  | case2 v rest => exact absurd List.mem_cons_self h
  | case3 k v rest hOther hBefore => exact .refl _
  | case4 k v rest hOther hBehind ih =>
    have hRest := ih fun hMem => h (List.mem_cons_of_mem _ hMem)
    exact (hRest.cons _).trans (.swap _ _ _)

theorem foldl_insert_perm {m : OrderedMap String α} {added : List (String × α)}
    (h : ((m.entries ++ added).map Prod.fst).Nodup) :
    (added.foldl (fun m e => m.insert e.1 e.2) m).entries.Perm (m.entries ++ added) := by
  induction added generalizing m with
  | nil => simp
  | cons e rest ih =>
    have hMiddle : (e :: m.entries ++ rest).Perm (m.entries ++ e :: rest) :=
      List.perm_middle.symm
    have hNew : e.1 ∉ m.entries.map Prod.fst := by
      have hNodup := (hMiddle.map Prod.fst).nodup_iff.mpr h
      intro hMem
      refine (List.nodup_cons.mp hNodup).1 ?_
      simp only [List.append_eq, List.map_append, List.mem_append]
      exact Or.inl hMem
    have hInsert : (m.insert e.1 e.2).entries.Perm (e :: m.entries) := perm_insertIn hNew
    have hAll := (hInsert.append_right rest).trans hMiddle
    exact (ih ((hAll.map Prod.fst).nodup_iff.mpr h)).trans hAll

theorem Ascending.foldl_insert {m : OrderedMap String α} (h : m.Ascending)
    (added : List (String × α)) :
    (added.foldl (fun m e => m.insert e.1 e.2) m).Ascending := by
  induction added generalizing m with
  | nil => exact h
  | cons e rest ih => exact ih (h.insert e.1 e.2)

theorem Ascending.nodup_keys {m : OrderedMap String α} (h : m.Ascending) : m.keys.Nodup := by
  apply List.pairwise_map.mpr
  refine h.imp ?_
  intro e e' hBefore hSame
  rw [hSame] at hBefore
  exact String.lt_irrefl _ hBefore

theorem findIn_of_mem {entries : List (String × α)} (h : (entries.map Prod.fst).Nodup)
    {e : String × α} (he : e ∈ entries) : findIn e.1 entries = some e.2 := by
  induction entries with
  | nil => cases he
  | cons first rest ih =>
    obtain ⟨hFirst, hRest⟩ := List.nodup_cons.mp h
    rcases List.mem_cons.mp he with rfl | he
    · exact if_pos rfl
    · have hOther : ¬ first.1 = e.1 := by
        intro hSame
        exact hFirst (hSame ▸ List.mem_map_of_mem he)
      exact (if_neg hOther).trans (ih hRest he)

/-- Each entry is found under its key. -/
theorem Ascending.find?_of_mem {m : OrderedMap String α} (h : m.Ascending) {e : String × α}
    (he : e ∈ m.entries) : m.find? e.1 = some e.2 := findIn_of_mem h.nodup_keys he

/-- A map is made by inserting its entries in any order. -/
theorem ofList_of_perm {m : OrderedMap String α} (h : m.Ascending) {added : List (String × α)}
    (hAdded : added.Perm m.entries) : ofList added = m := by
  have hNodup : (added.map Prod.fst).Nodup := (hAdded.map Prod.fst).nodup_iff.mpr h.nodup_keys
  have hPerm : (ofList added).entries.Perm m.entries :=
    (foldl_insert_perm (m := ∅) hNodup).trans hAdded
  have hSame : (ofList added).entries = m.entries := by
    refine hPerm.eq_of_pairwise ?_ (ascending_empty.foldl_insert added) h
    intro e e' _ _ hBefore hAfter
    exact absurd hAfter (String.lt_asymm hBefore)
  exact congrArg OrderedMap.mk hSame

end OrderedMap

/-! ## Values -/

/-- The maps in the value have their entries in order, and so have those in the values inside it. -/
inductive Value.Ordered : Value → Prop
  | null : Ordered .null
  | atomic (k : AtomicKind) (elements : List k.Elem) (a : Attributes Value)
      (hMap : ∀ m, a.others = some m → m.Ascending)
      (hOthers : ∀ m, a.others = some m → ∀ e ∈ m.entries, Ordered e.2) :
      Ordered (.atomic k elements a)
  | list (elements : List Value) (a : Attributes Value)
      (hElements : ∀ x ∈ elements, Ordered x)
      (hMap : ∀ m, a.others = some m → m.Ascending)
      (hOthers : ∀ m, a.others = some m → ∀ e ∈ m.entries, Ordered e.2) :
      Ordered (.list elements a)
  | closure (f : Closure) : Ordered (.closure f)
  | environment (e : EnvRef) : Ordered (.environment e)
  | s4 (o : S4Object) : Ordered (.s4 o)

/-- The attributes without rules of their own stand in order, and so do those of their values. -/
structure Attributes.Ordered (a : Attributes Value) : Prop where
  map : ∀ m, a.others = some m → m.Ascending
  values : ∀ m, a.others = some m → ∀ e ∈ m.entries, e.2.Ordered

structure TypedVector.Ordered {kind : VectorKind} (x : TypedVector kind) : Prop where
  elements : ∀ e ∈ x.elements, kind.ElemHas Value.Ordered e
  attributes : x.attributes.Ordered

theorem TypedVector.ordered_toValue_iff {kind : VectorKind} {x : TypedVector kind} :
    x.toValue.Ordered ↔ x.Ordered := by
  cases kind with
  | atomic k =>
    constructor
    · intro h
      cases h with
      | atomic _ _ _ hMap hOthers => exact ⟨fun _ _ => trivial, hMap, hOthers⟩
    · intro h
      exact .atomic k _ _ h.attributes.map h.attributes.values
  | list =>
    constructor
    · intro h
      cases h with
      | list _ _ hElements hMap hOthers => exact ⟨hElements, hMap, hOthers⟩
    · intro h
      exact .list _ _ h.elements h.attributes.map h.attributes.values

namespace Attributes

variable {a b : Attributes Value}

theorem ordered_of_none (h : a.others = none) : a.Ordered := by
  constructor <;> simp [h]

/-- Attributes with rules of their own do not matter for the order. -/
theorem Ordered.of_others (ha : a.Ordered) (h : b.others = a.others) : b.Ordered := by
  refine ⟨?_, ?_⟩
  · rw [h]
    exact ha.map
  · rw [h]
    exact ha.values

theorem Ordered.other (ha : a.Ordered) : a.other.Ascending := by
  unfold Attributes.other
  cases hOthers : a.others with
  | none => exact OrderedMap.ascending_empty
  | some m => exact ha.map m hOthers

theorem Ordered.setOther (ha : a.Ordered) {value : Value} (hValue : value.Ordered)
    (key : String) : (a.setOther key value).Ordered where
  map := by
    intro m hm
    unfold Attributes.setOther at hm
    split at hm
    · obtain ⟨hMap, -⟩ := Option.filter_eq_some_iff.mp hm
      obtain ⟨m', hm', rfl⟩ := Option.map_eq_some_iff.mp hMap
      exact (ha.map m' hm').erase key
    · cases hm
      exact ha.other.insert key value
  values := by
    intro m hm e he
    rcases mem_of_setOther hm he with ⟨rfl, -⟩ | ⟨m', hm', hOld⟩
    · exact hValue
    · exact ha.values m' hm' e hOld

end Attributes

theorem Value.Plain.ordered {x : Value} (h : x.Plain) : x.Ordered := by
  induction h with
  | null => exact .null
  | atomic k elements => exact .atomic k elements {} nofun nofun
  | list elements _ ih => exact .list elements {} ih nofun nofun
  | closure f => exact .closure f
  | environment e => exact .environment e
  | s4 o => exact .s4 o

namespace TypedVector.Ordered

variable {kind : VectorKind} {x : TypedVector kind}

theorem coerce {y : Value} (hy : y.Ordered) (h : y.coerce kind = .ok x) : x.Ordered := by
  cases hy with
  | null =>
    cases h
    exact ⟨nofun, Attributes.ordered_of_none rfl⟩
  | atomic k elements a hMap hOthers =>
    cases kind with
    | atomic target =>
      simp only [Value.coerce] at h
      split at h
      · cases h
        exact ⟨fun _ _ => trivial, hMap, hOthers⟩
      · cases h
    | list =>
      cases h
      refine ⟨?_, hMap, hOthers⟩
      intro e he
      obtain ⟨z, -, rfl⟩ := List.mem_map.mp he
      exact (Value.Plain.atomic k [z]).ordered
  | list elements a hElements hMap hOthers =>
    cases kind with
    | atomic target => cases h
    | list =>
      cases h
      exact ⟨hElements, hMap, hOthers⟩
  | closure | environment | s4 => cases kind <;> cases h

theorem part (hx : x.Ordered) (plan : Plan) : (x.part plan).Ordered := by
  have hElements : ∀ e ∈ Slots.gather kind.fill x.elements plan.offsets,
      kind.ElemHas Value.Ordered e := by
    intro e he
    rcases Slots.mem_gather he with rfl | hOld
    · exact VectorKind.elemHas_fill .null kind
    · exact hx.elements e hOld
  unfold TypedVector.part
  split
  · exact ⟨hElements, Attributes.ordered_of_none rfl⟩
  · refine ⟨hElements, Attributes.ordered_of_none ?_⟩
    unfold Attributes.ofPart
    split <;> rfl

theorem extend (hx : x.Ordered) (n : Nat) : (x.extend n).Ordered := by
  unfold TypedVector.extend
  split
  · exact hx
  · refine ⟨?_, hx.attributes.of_others rfl⟩
    intro e he
    rcases Slots.mem_extend he with rfl | hOld
    · exact VectorKind.elemHas_fill .null kind
    · exact hx.elements e hOld

theorem scatter (hx : x.Ordered) {values : List kind.Elem}
    (hValues : ∀ e ∈ values, kind.ElemHas Value.Ordered e) (offsets : List Offset) :
    (x.scatter offsets values).Ordered where
  elements := by
    intro e he
    rcases Slots.mem_scatter he with hOld | hNew
    · exact hx.elements e hOld
    · exact hValues e hNew
  attributes := hx.attributes

theorem dropMarked (hx : x.Ordered) (remove : List Bool) : (x.dropMarked remove).Ordered where
  elements := fun e he => hx.elements e ((Slots.dropMarked_sublist remove _).subset he)
  attributes := hx.attributes.of_others rfl

theorem ofPairs {pairs : List (Option String × Value)} (h : ∀ p ∈ pairs, p.2.Ordered) :
    (TypedVector.ofPairs pairs).Ordered where
  elements := by
    intro e he
    obtain ⟨p, hp, rfl⟩ := List.mem_map.mp he
    exact h p hp
  attributes := Attributes.ordered_of_none rfl

end TypedVector.Ordered

namespace Value

theorem Ordered.setAttribute {x y value : Value} (hx : x.Ordered) (hValue : value.Ordered)
    {key : String} (h : x.setAttribute key value = .ok y) : y.Ordered := by
  obtain ⟨kind, v, a, rfl, rfl, hChanged⟩ := exists_of_setAttribute h
  have hv : v.Ordered := TypedVector.ordered_toValue_iff.mp hx
  have ha : a.Ordered := by
    rcases hChanged with ⟨hOthers, -⟩ | ⟨key', -, rfl⟩
    · exact hv.attributes.of_others hOthers
    · exact hv.attributes.setOther hValue key'
  have hChangedValue : v.toValue.withAttributes a = TypedVector.toValue ⟨v.elements, a⟩ := by
    cases kind <;> rfl
  rw [hChangedValue]
  exact TypedVector.ordered_toValue_iff.mpr ⟨hv.elements, ha⟩

theorem Ordered.attributes {x : Value} (hx : x.Ordered) {a : Attributes Value}
    (ha : x.attributes? = some a) : a.Ordered := by
  cases hx with
  | atomic _ _ _ hMap hOthers | list _ _ _ hMap hOthers =>
    cases ha
    exact ⟨hMap, hOthers⟩
  | null | closure | environment | s4 => cases ha

theorem Ordered.getAttribute {x y : Value} (hx : x.Ordered) {key : String}
    (h : x.getAttribute key = some y) : y.Ordered := by
  rcases plain_or_mem_of_getAttribute h with hPlain | ⟨a, m, ha, hm, e, he, rfl⟩
  · exact hPlain.ordered
  · exact (hx.attributes ha).values m hm e he

/-- The primitive operations keep the order. -/
theorem invariant_ordered : Invariant Ordered where
  null := .null
  environment := .environment
  elements := fun hv => (TypedVector.ordered_toValue_iff.mp hv).elements
  scalar := fun k e => (Plain.atomic k [e]).ordered
  coerce := fun hx h => TypedVector.ordered_toValue_iff.mpr (.coerce hx h)
  part := fun hv _ =>
    TypedVector.ordered_toValue_iff.mpr ((TypedVector.ordered_toValue_iff.mp hv).part _)
  extend := fun length hv =>
    TypedVector.ordered_toValue_iff.mpr ((TypedVector.ordered_toValue_iff.mp hv).extend length)
  scatter := fun offsets _ hv hValues =>
    TypedVector.ordered_toValue_iff.mpr
      ((TypedVector.ordered_toValue_iff.mp hv).scatter hValues offsets)
  scatterNames := fun _ _ hv =>
    have hOrdered := TypedVector.ordered_toValue_iff.mp hv
    TypedVector.ordered_toValue_iff.mpr
      ⟨hOrdered.elements, hOrdered.attributes.of_others rfl⟩
  dropMarked := fun remove hv =>
    TypedVector.ordered_toValue_iff.mpr ((TypedVector.ordered_toValue_iff.mp hv).dropMarked remove)
  withoutShape := fun hv =>
    have hOrdered := TypedVector.ordered_toValue_iff.mp hv
    TypedVector.ordered_toValue_iff.mpr
      ⟨hOrdered.elements, hOrdered.attributes.of_others rfl⟩
  ofPairs := fun hPairs => TypedVector.ordered_toValue_iff.mpr (.ofPairs hPairs)
  setAttribute := fun hx hValue h => hx.setAttribute hValue h
  getAttribute := fun hx h => hx.getAttribute h

end Value

end VectorIndexing
