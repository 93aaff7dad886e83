import VectorIndexing.Proofs.Names.Lookup
import VectorIndexing.Proofs.Overwriting.Outcome

/-!
# The slot of a position

A position of one entry that selects a slot for writing selects the same slot for reading once
something was written there, although the vector may have grown and got a name in between.

* `TypedVector.firstNamed_assign`: a name that was new is found at the slot it was stored at.
* `TypedVector.selectOne_assign`: the slot is selected again.
* `TypedVector.run_getDirect_assign`: the read of the slot after the write.
-/

namespace VectorIndexing

/-! ## Names -/

namespace TypedVector

variable {kind : VectorKind} {x : TypedVector kind} {o : Nat} {e : kind.Elem}

/-- The names that one new name is stored among. -/
theorem names_assign_single {name : String} (e : kind.Elem) :
    (x.assign { offsets := [some o], names := some [some name] } [e]).attributes.names
      = some ((x.extend (o + 1)).namesOrEmpty.set o (some name)) := by
  have hReach : Plan.reach { offsets := [some o], names := some [some name] } = o + 1 :=
    Slots.reach_singleton o
  rw [attributes_assign rfl (by simp), hReach]
  rfl

theorem firstNamed_assign {name : String} (hName : name.isEmpty = false) (hNew : x.length ≤ o)
    (hFirst : ∀ j, j < o → (x.attributes.names.getD [])[j]? ≠ some (some name)) :
    firstNamed ((x.assign { offsets := [some o], names := some [some name] }
      [e]).attributes.names.getD []) name = some o := by
  rw [names_assign_single, Option.getD_some, firstNamed, hName]
  have hGrown : ¬ o + 1 ≤ x.length := by omega
  have hNe : name ≠ "" := by
    rintro rfl
    cases hName
  -- the slot lies among the names, and no name before it was the new one
  have hSlots : o < (x.extend (o + 1)).namesOrEmpty.length ∧
      ∀ j, j < o → (x.extend (o + 1)).namesOrEmpty[j]? ≠ some (some name) := by
    unfold namesOrEmpty
    rw [attributes_extend, if_neg hGrown, length_extend]
    cases hNames : x.attributes.names with
    | none =>
      simp only [Option.map_none, Option.getD_none, List.length_replicate]
      refine ⟨by omega, ?_⟩
      intro j _ hSame
      obtain ⟨_, hEmpty⟩ := List.getElem?_eq_some_iff.mp hSame
      rw [List.getElem_replicate] at hEmpty
      exact hNe (Option.some.inj hEmpty).symm
    | some names =>
      simp only [Option.map_some, Option.getD_some, Slots.length_extend, Slots.getElem?_extend]
      refine ⟨by omega, ?_⟩
      intro j hj
      split
      · rw [hNames] at hFirst
        exact hFirst j hj
      · split
        · intro hSame
          exact hNe (Option.some.inj (Option.some.inj hSame)).symm
        · exact nofun
  apply idxOf?_eq_some_of_first
  · rw [List.getElem?_set_self hSlots.1]
  · intro j hj
    rw [List.getElem?_set_ne (by omega)]
    exact hSlots.2 j hj

end TypedVector

/-! ## Selecting again -/

namespace Pick

theorem lt_of_mem_maskOffsets {flags : List (Option Bool)} {length o : Nat}
    (h : some o ∈ Selection.maskOffsets flags length) : o < max length flags.length := by
  obtain ⟨⟨flag, j⟩, hMem, hFlag⟩ := List.mem_filterMap.mp h
  have hj : j = o := by
    rcases flag with _ | _ | _
    · cases hFlag
    · cases hFlag
    · exact Option.some.inj (Option.some.inj hFlag)
  subst hj
  have hIn : j < (Slots.recycle flags (max length flags.length)).length :=
    List.snd_lt_of_mem_zipIdx hMem
  have hLength : (Slots.recycle flags (max length flags.length)).length
      ≤ (List.range (max length flags.length)).length := List.length_filterMap_le _ _
  rw [List.length_range] at hLength
  omega

theorem ofOffset_read {o length : Nat} (h : o < length) :
    ofOffset o length .read = .ok (.slot o) := by
  rw [ofOffset, if_pos h]

/-- An index selects its slot again in a vector that has grown as far as the slot. -/
theorem ofIndex_read {entry : Option Int} {length o : Nat}
    (h : ofIndex entry length .write = .ok (.slot o)) :
    ofIndex entry (max length (o + 1)) .read = .ok (.slot o) := by
  cases entry with
  | none => cases h
  | some i =>
    by_cases hZero : i = 0
    · simp [ofIndex, hZero] at h
    · by_cases hNegative : i < 0
      · simp only [ofIndex, hZero, hNegative, if_true, if_false] at h ⊢
        -- a negative index selects what exists, so that the vector has not grown
        have hIn : o < length := lt_of_filter_eq_singleton (sole_eq_ok.mp h)
        rwa [Nat.max_eq_left hIn]
      · simp only [ofIndex, hZero, hNegative, if_false] at h ⊢
        have hOffset := eq_of_ofOffset h
        rw [hOffset]
        exact ofOffset_read (by omega)

theorem ofMask_read {flag : Option Bool} {length o : Nat}
    (h : ofMask [flag] length .write = .ok (.slot o)) :
    ofMask [flag] (max length (o + 1)) .read = .ok (.slot o) := by
  rw [ofMask, flaggedOffsets_eq_maskOffsets] at h
  split at h
  · next o' hOffsets =>
    have hOffset := eq_of_ofOffset h
    subst hOffset
    have hMem : some o' ∈ Selection.maskOffsets [flag] length := by
      rw [hOffsets]
      exact List.mem_singleton.mpr rfl
    have hIn : o' < max length 1 := lt_of_mem_maskOffsets hMem
    -- the mask is repeated as often as before
    have hSame : Selection.maskOffsets [flag] (max length (o' + 1))
        = Selection.maskOffsets [flag] length := by
      have hMax : max (max length (o' + 1)) 1 = max length 1 := by omega
      simp only [Selection.maskOffsets, List.length_singleton, hMax]
    rw [ofMask, flaggedOffsets_eq_maskOffsets, hSame, hOffsets]
    exact ofOffset_read (by omega)
  · cases h
  · cases h
  · cases h

end Pick

/-- An element of a vector as a value. -/
def VectorKind.valueOf : (kind : VectorKind) → kind.Elem → Value
  | .atomic k, e => .scalar k e
  | .list, e => e

/-- A position that can find again what it wrote: neither a missing nor an empty name. -/
def Position.isFindable : Position → Bool
  | names [some name] => !name.isEmpty
  | names _ => false
  | _ => true

namespace TypedVector

variable {kind : VectorKind} {x : TypedVector kind} {layout : Layout} {p : Position} {o : Nat}
  {e : kind.Elem}

theorem written_assign_pick (layout : Layout) (x : TypedVector kind) (p : Position) (o : Nat)
    (e : kind.Elem) :
    Slots.Written kind.fill x.elements [some o] (fun j => [e][j % 1]?)
      (x.assign (layout.planOfPick p (.slot o)) [e]).elements := by
  have hPlan : (layout.planOfPick p (.slot o)).isEmpty = false := rfl
  exact written_assign hPlan (List.cons_ne_nil e [])

theorem length_assign_pick (layout : Layout) (x : TypedVector kind) (p : Position) (o : Nat)
    (e : kind.Elem) :
    (x.assign (layout.planOfPick p (.slot o)) [e]).length = max x.length (o + 1) := by
  have hLength := (written_assign_pick layout x p o e).length_eq
  rw [Slots.reach_singleton] at hLength
  exact hLength

/-- A name that selected a slot for writing is found there afterwards. -/
theorem firstNamed_assign_pick {name : String} (hName : name.isEmpty = false)
    (hLength : layout.length = x.length)
    (h : Pick.ofQuery (some name) x.length x.attributes.names .write = .ok (.slot o)) :
    firstNamed ((x.assign (layout.planOfPick (.names [some name]) (.slot o))
      [e]).attributes.names.getD []) name = some o := by
  have hNew : x.length ≤ o → layout.planOfPick (.names [some name]) (.slot o)
      = { offsets := [some o], names := some [some name] } := by
    intro hBeyond
    simp [Layout.planOfPick, Position.nameForNew?, hLength, hBeyond]
  have hKnown : firstNamed (x.attributes.names.getD []) name
      = (x.attributes.names.getD []).idxOf? (some name) := by
    rw [firstNamed, hName]
    rfl
  rw [Pick.ofQuery, NameTable.find?_ofNames, hKnown] at h
  split at h
  · next o' hFound =>
    cases h
    by_cases hIn : o < x.length
    · -- the name is there already, and the vector does not grow
      have hOld : layout.planOfPick (.names [some name]) (.slot o) = { offsets := [some o] } := by
        simp [Layout.planOfPick, hLength, Nat.not_le.mpr hIn]
      have hReach : Plan.reach { offsets := [some o] } = o + 1 := Slots.reach_singleton o
      have hGrown : (x.assign { offsets := [some o] } [e]).attributes
          = (x.extend (Plan.reach { offsets := [some o] })).attributes :=
        attributes_assign rfl (by simp)
      have hStays : o + 1 ≤ x.length := hIn
      rw [hReach, attributes_extend, if_pos hStays] at hGrown
      rw [hOld, hGrown, hKnown, hFound]
    · rw [hNew (by omega)]
      exact firstNamed_assign hName (by omega) fun j hj => ne_of_idxOf?_eq_some hFound hj
  · next hAbsent =>
    cases h
    rw [hNew (Nat.le_refl _)]
    exact firstNamed_assign hName (Nat.le_refl _) fun j _ => ne_of_idxOf?_eq_none hAbsent j

/-- Once something was written to the slot of a position, the position selects it for reading. -/
theorem selectOne_assign (hp : p.length? = some 1) (hFindable : p.isFindable)
    (hLength : layout.length = x.length) (hNames : layout.names = x.attributes.names)
    (h : p.selectOne layout.length layout.names .write = .ok (.slot o)) :
    p.selectOne (x.assign (layout.planOfPick p (.slot o)) [e]).length
        (x.assign (layout.planOfPick p (.slot o)) [e]).attributes.names .read
      = .ok (.slot o) := by
  rw [length_assign_pick]
  rw [hLength] at h
  cases p with
  | missing => cases hp
  | indices entries given =>
    obtain ⟨entry, rfl⟩ := List.length_eq_one_iff.mp (Option.some.inj hp)
    exact Pick.ofIndex_read h
  | mask flags =>
    obtain ⟨flag, rfl⟩ := List.length_eq_one_iff.mp (Option.some.inj hp)
    exact Pick.ofMask_read h
  | names queries =>
    obtain ⟨query, rfl⟩ := List.length_eq_one_iff.mp (Option.some.inj hp)
    cases query with
    | none => cases hFindable
    | some name =>
      have hName : name.isEmpty = false := by simpa [Position.isFindable] using hFindable
      rw [hNames] at h
      have hFirst := firstNamed_assign_pick (e := e) hName hLength h
      simp only [Position.selectOne, Pick.ofQuery, NameTable.find?_ofNames, hFirst]

/-- The read of a slot that a position selects. -/
theorem run_getDirect_slot (store : Store)
    (hSelected : p.selectOne x.length x.attributes.names .read = .ok (.slot o))
    (hIn : o < x.length) (session : Session) :
    (x.toValue.getDirect store [p] .element).run session = (.ok (x.element o), session) := by
  have hPlan : ((x.toValue.layout store).plan [p] .element .read).run session
      = (.ok ((x.toValue.layout store).planOfPick p (.slot o)), session) := by
    refine Layout.run_planStorage_element_eq_ok.mpr ⟨.slot o, ?_, rfl, rfl⟩
    rw [layout_toValue]
    exact hSelected
  rw [run_getDirect_of_plan hPlan, Value.extract_element x _ rfl hIn]

theorem element_eq_valueOf (h : x.elements[o]? = some e) : x.element o = kind.valueOf e := by
  cases kind <;> simp [element, VectorKind.valueOf, Slots.fetch, h]

/-- The slot that was written to reads as the element that was written. -/
theorem run_getDirect_assign (store : Store) (hp : p.length? = some 1)
    (hFindable : p.isFindable) (hLength : layout.length = x.length)
    (hNames : layout.names = x.attributes.names)
    (h : p.selectOne layout.length layout.names .write = .ok (.slot o)) (session : Session) :
    ((x.assign (layout.planOfPick p (.slot o)) [e]).toValue.getDirect store [p] .element).run
        session
      = (.ok (kind.valueOf e), session) := by
  have hIn : o < (x.assign (layout.planOfPick p (.slot o)) [e]).length := by
    rw [length_assign_pick]
    omega
  have hElement : (x.assign (layout.planOfPick p (.slot o)) [e]).element o = kind.valueOf e :=
    element_eq_valueOf ((written_assign_pick layout x p o e).last o 0 (Slots.LastAt.singleton o))
  rw [← hElement]
  exact run_getDirect_slot store (selectOne_assign hp hFindable hLength hNames h) hIn session

end TypedVector

end VectorIndexing
