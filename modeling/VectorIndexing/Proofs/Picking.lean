import VectorIndexing.Proofs.Names.Lookup
import VectorIndexing.Proofs.Plans

/-!
# One element out of a selection

`[[` takes the element that `[` selects if it is the only one. The two brackets select by rules of
their own, but each form of position comes to the same under both.

* `Position.pickFrom`: what `[[` makes of a selection.
* `Position.selectOne_eq_pickFrom`: it makes this of what `[` selects.
-/

namespace VectorIndexing

/-- What `[[` picks where `[` selects the given offsets: the only one of them, provided that it
exists or may be created. A missing index stays missing, whereas a missing name is one that was not
found. -/
def Position.pickFrom (p : Position) (length : Nat) (purpose : Purpose) :
    List Offset → Except Error Pick
  | [] => .error .selectLessThanOne
  | [some o] =>
    if o < length then .ok (.slot o)
    else
      match purpose with
      | .read => .error .subscriptOutOfBounds
      | .write => .ok (.slot o)
  | [none] =>
    match p with
    | .names _ => .error .subscriptOutOfBounds
    | _ => .ok .missing
  | _ :: _ :: _ => .error .selectMoreThanOne

namespace Position

variable {p : Position} {length : Nat} {purpose : Purpose}

theorem pickFrom_some (p : Position) (o length : Nat) (purpose : Purpose) :
    p.pickFrom length purpose [some o] = Pick.ofOffset o length purpose := by
  simp only [pickFrom, Pick.ofOffset]
  cases purpose <;> rfl

theorem pickFrom_of_several {offsets : List Offset} (h : 2 ≤ offsets.length) :
    p.pickFrom length purpose offsets = .error .selectMoreThanOne := by
  match offsets, h with
  | first :: _ :: _, _ => cases first <;> rfl

end Position

/-! ## Indices -/

/-- The only one of several elements is picked from all of them. -/
theorem Pick.sole_eq_pickFrom {offsets : List Nat} {length : Nat} (h : ∀ o ∈ offsets, o < length)
    (p : Position) (purpose : Purpose) :
    sole offsets = p.pickFrom length purpose (offsets.map some) := by
  match offsets with
  | [] => rfl
  | [o] =>
    rw [List.map_singleton, Position.pickFrom_some, ofOffset, if_pos (h o List.mem_cons_self)]
    rfl
  | _ :: _ :: _ => rfl

/-- A negative index under `[[` picks from the complement that it selects under `[`. -/
theorem Pick.ofIndex_negative {i : Int} (hi : i < 0) (p : Position) (length : Nat)
    (purpose : Purpose) :
    ofIndex (some i) length purpose
      = p.pickFrom length purpose (Selection.complement [some i] length) := by
  have hZero : i ≠ 0 := by omega
  simp only [ofIndex, hZero, hi, if_true, if_false]
  rw [← map_some_filter_ne hi]
  exact sole_eq_pickFrom (fun o ho => List.mem_range.mp (List.mem_filter.mp ho).1) p purpose

theorem Selection.exists_ofIndices_single (entry : Option Int) (given : Option Names)
    (length : Nat) (purpose : Purpose) :
    ∃ s, ofIndices [entry] given length = .ok s
      ∧ Pick.ofIndex entry length purpose
          = (Position.indices [entry] given).pickFrom length purpose s.offsets := by
  cases entry with
  | none => exact ⟨_, ofIndices_positive (by simp) given length, rfl⟩
  | some i =>
    rcases Int.lt_trichotomy i 0 with hNegative | rfl | hPositive
    · refine ⟨_, ofIndices_negative (List.cons_ne_nil i []) (by simpa using hNegative) given length,
        Pick.ofIndex_negative hNegative _ length purpose⟩
    · exact ⟨_, rfl, rfl⟩
    · refine ⟨_, ofIndices_positive (by simpa using hPositive) given length, ?_⟩
      have hZero : i ≠ 0 := by omega
      have hNegative : ¬ i < 0 := by omega
      simp only [Pick.ofIndex, hZero, hNegative, if_false]
      exact (Position.pickFrom_some _ _ _ _).symm

/-! ## Masks -/

/-- Without its warning, a mask selects where it is true. -/
theorem Selection.run_ofMask_ignore {flags : List (Option Bool)} (hFlags : flags ≠ [])
    (length : Nat) {session : Session} (hLevel : session.level = .ignore) :
    (ofMask flags length).run session = (.ok { offsets := maskOffsets flags length }, session) := by
  have hEmpty : flags.isEmpty = false := by simpa using hFlags
  unfold ofMask
  rw [hEmpty]
  cases maskMisfits flags length with
  | false => rfl
  | true =>
    simp only [Bool.false_eq_true, if_false, if_true]
    rw [Checked.run_bind, run_warn, hLevel]
    rfl

theorem Pick.ofMask_eq_pickFrom (flags : List (Option Bool)) (length : Nat) (purpose : Purpose) :
    ofMask flags length purpose
      = (Position.mask flags).pickFrom length purpose (Selection.maskOffsets flags length) := by
  rw [ofMask, flaggedOffsets_eq_maskOffsets]
  match Selection.maskOffsets flags length with
  | [] => rfl
  | [some o] => exact (Position.pickFrom_some _ _ _ _).symm
  | [none] => rfl
  | first :: _ :: _ => cases first <;> rfl

/-! ## Names -/

/-- A single name picks its element, or the slot behind the last element if there is none. -/
theorem Pick.ofQuery_eq_pickFrom {names : Option Names} {length : Nat}
    (hNames : ∀ given, names = some given → given.length = length) (query : Option String)
    (purpose : Purpose) :
    ofQuery query length names purpose
      = (Position.names [query]).pickFrom length purpose
          (Selection.ofQueries [query] length names purpose).offsets := by
  unfold ofQuery
  cases hFound : (NameTable.ofNames names 1).find? query with
  | some o =>
    have hOffsets : (Selection.ofQueries [query] length names purpose).offsets = [some o] := by
      cases purpose <;> simp [Selection.ofQueries, Selection.slotOffsets, hFound]
    have hIn : o < length := NameTable.lt_of_find?_ofNames hNames hFound
    rw [hOffsets, Position.pickFrom_some, ofOffset, if_pos hIn]
  | none =>
    cases purpose with
    | read => simp [Selection.ofQueries, hFound, Position.pickFrom, beyond]
    | write =>
      have hOffsets : (Selection.ofQueries [query] length names .write).offsets
          = [some length] := by
        simp only [Selection.ofQueries, Selection.slotOffsets, List.length_singleton, hFound]
        cases query with
        | none => rfl
        | some name => simp
      rw [hOffsets, Position.pickFrom_some, ofOffset, if_neg (Nat.lt_irrefl length)]

/-- Each name selects an offset, found or not. -/
theorem Selection.length_offsets_ofQueries (queries : Names) (length : Nat)
    (names : Option Names) (purpose : Purpose) :
    (ofQueries queries length names purpose).offsets.length = queries.length := by
  cases purpose <;> simp [ofQueries]

/-! ## All forms -/

/-- A position other than a list of several indices selects something under `[`, and under `[[` it
picks from that. -/
theorem Position.selectOne_eq_pickFrom {p : Position} {length : Nat} {names : Option Names}
    (hGiven : p ≠ .missing)
    (hSingle : ∀ entries given, p = .indices entries given → entries.length ≤ 1)
    (hNames : ∀ given, names = some given → given.length = length) (purpose : Purpose)
    {session : Session} (hLevel : session.level = .ignore) :
    ∃ s, (p.select length names purpose).run session = (.ok s, session)
      ∧ p.selectOne length names purpose = p.pickFrom length purpose s.offsets := by
  cases p with
  | missing => exact absurd rfl hGiven
  | indices entries given =>
    match entries, hSingle _ _ rfl with
    | [], _ => exact ⟨_, rfl, rfl⟩
    | [entry], _ =>
      obtain ⟨s, hs, hPick⟩ := Selection.exists_ofIndices_single entry given length purpose
      exact ⟨s, Checked.run_ofExcept_eq_ok.mpr ⟨hs, rfl⟩, hPick⟩
  | mask flags =>
    cases flags with
    | nil => exact ⟨_, rfl, rfl⟩
    | cons flag rest =>
      exact ⟨_, Selection.run_ofMask_ignore (List.cons_ne_nil flag rest) length hLevel,
        Pick.ofMask_eq_pickFrom _ length purpose⟩
  | names queries =>
    refine ⟨_, rfl, ?_⟩
    match queries with
    | [] => cases purpose <;> rfl
    | [query] => exact Pick.ofQuery_eq_pickFrom hNames query purpose
    | first :: second :: rest =>
      rw [pickFrom_of_several]
      · rfl
      · simp [Selection.length_offsets_ofQueries]

/-- A mask that is longer than the vector selects behind its end, where nothing can be read but an
element can be created. -/
theorem Position.selectOne_eq_pickFrom_mask :
    let p := Position.mask [some false, some false, some true]
    ∃ s, (p.select 2 (some [some "a", none]) .write).run { level := .ignore }
        = (.ok s, { level := .ignore })
      ∧ p.selectOne 2 (some [some "a", none]) .write = p.pickFrom 2 .write s.offsets := by
  intro p
  refine selectOne_eq_pickFrom ?_ ?_ ?_ .write rfl
  · exact nofun
  · exact nofun
  · rintro _ ⟨⟩
    rfl

end VectorIndexing
