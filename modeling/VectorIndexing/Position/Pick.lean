import VectorIndexing.Position.Selection

/-!
# Single elements

The one element that a position selects under `[[`.
-/

namespace VectorIndexing

/-- A single selected element: its offset, or a missing one. -/
inductive Pick where
  | slot (offset : Nat)
  | missing
  deriving DecidableEq, Repr

namespace Pick

/-- An offset past the end: absent for reading, a new slot for writing. -/
def beyond (offset : Nat) : Purpose → Except Error Pick
  | .read => .error .subscriptOutOfBounds
  | .write => .ok (slot offset)

/-- An offset that may or may not exist. -/
def ofOffset (offset length : Nat) (purpose : Purpose) : Except Error Pick :=
  if offset < length then .ok (slot offset) else beyond offset purpose

/-- The only one of several offsets that exist. -/
def sole : List Nat → Except Error Pick
  | [o] => .ok (slot o)
  | [] => .error .selectLessThanOne
  | _ => .error .selectMoreThanOne

/-- An index counts from one; a negative index selects the one element it leaves. -/
def ofIndex (entry : Option Int) (length : Nat) (purpose : Purpose) : Except Error Pick :=
  match entry with
  | none => .ok missing
  | some i =>
    if i = 0 then .error .selectLessThanOne
    else if i < 0 then sole ((List.range length).filter fun o => o != (-i - 1).toNat)
    else ofOffset (i - 1).toNat length purpose

/-- A name that is not found selects the slot behind the last element. -/
def ofQuery (query : Option String) (length : Nat) (names : Option Names)
    (purpose : Purpose) : Except Error Pick :=
  match (NameTable.ofNames names 1).find? query with
  | some o => .ok (slot o)
  | none => beyond length purpose

/-- The offsets at which a mask, repeated up to the length, is true or missing. -/
def flaggedOffsets (flags : List (Option Bool)) (length : Nat) : List Offset :=
  let flags := flags.toArray
  (List.range (max length flags.size)).filterMap fun o =>
    match flags[o % flags.size]? with
    | some (some true) => some (some o)
    | some none => some none
    | some (some false) | none => none

/-- A mask must be true, or missing, at one place. -/
def ofMask (flags : List (Option Bool)) (length : Nat) (purpose : Purpose) :
    Except Error Pick :=
  match flaggedOffsets flags length with
  | [some o] => ofOffset o length purpose
  | [none] => .ok missing
  | [] => .error .selectLessThanOne
  | _ => .error .selectMoreThanOne

end Pick

/-- The one element that a position selects from `length` elements with the given names. -/
def Position.selectOne (p : Position) (length : Nat) (names : Option Names)
    (purpose : Purpose) : Except Error Pick :=
  match p with
  | missing => .error (.invalidSubscriptType .symbol)
  | indices [] _ | mask [] | .names [] => .error .selectLessThanOne
  | indices [entry] _ => Pick.ofIndex entry length purpose
  | .names [query] => Pick.ofQuery query length names purpose
  | mask flags => Pick.ofMask flags length purpose
  | _ => .error .selectMoreThanOne

theorem Pick.sole_eq_ok {offsets : List Nat} {o : Nat} :
    sole offsets = .ok (.slot o) ↔ offsets = [o] := by
  match offsets with
  | [] => simp [sole]
  | [_] => simp [sole]
  | _ :: _ :: _ => simp [sole]

/-- What is left of the elements is one of them. -/
theorem Pick.lt_of_filter_eq_singleton {p : Nat → Bool} {length o : Nat}
    (h : (List.range length).filter p = [o]) : o < length := by
  have hMem : o ∈ (List.range length).filter p := by simp [h]
  exact List.mem_range.mp (List.mem_filter.mp hMem).1

/-- What a negative index leaves is what it selects under the other brackets. -/
theorem Pick.map_some_filter_ne {i : Int} (hi : i < 0) (length : Nat) :
    ((List.range length).filter fun o => o != (-i - 1).toNat).map some
      = Selection.complement [some i] length := by
  rw [Selection.complement_eq_filter]
  refine congrArg (List.map some) (List.filter_congr fun o _ => ?_)
  have hSame : (o == (-i - 1).toNat) = (Selection.excluder o == some i) := by
    rw [Bool.eq_iff_iff, beq_iff_eq, beq_iff_eq, Selection.excluder, Option.some.injEq]
    omega
  rw [bne, hSame, List.contains_cons, List.contains_nil, Bool.or_false]

/-- A mask is true under both brackets at the same places. -/
theorem Pick.flaggedOffsets_eq_maskOffsets (flags : List (Option Bool)) (length : Nat) :
    flaggedOffsets flags length = Selection.maskOffsets flags length := by
  unfold flaggedOffsets Selection.maskOffsets
  cases flags with
  | nil =>
    have hEmpty (n : Nat) : Slots.recycle ([] : List (Option Bool)) n = [] :=
      List.filterMap_eq_nil_iff.mpr fun _ _ => rfl
    rw [hEmpty]
    exact List.filterMap_eq_nil_iff.mpr fun _ _ => rfl
  | cons flag rest =>
    have hPositive : 0 < (flag :: rest).length := Nat.zero_lt_succ _
    rw [Slots.zipIdx_recycle _ _ hPositive, List.filterMap_map]
    refine congrArg (List.filterMap · _) (funext fun o => ?_)
    have hTaken : (flag :: rest)[o % (flag :: rest).length]?
        = some ((flag :: rest).get ⟨o % (flag :: rest).length, Nat.mod_lt o hPositive⟩) :=
      List.getElem?_eq_getElem _
    dsimp only [Function.comp]
    rw [List.getElem?_toArray, List.size_toArray, hTaken]
    generalize (flag :: rest).get ⟨o % (flag :: rest).length, Nat.mod_lt o hPositive⟩ = flagged
    rcases flagged with _ | _ | _ <;> rfl

/-- An offset selects itself or nothing. -/
theorem Pick.eq_of_ofOffset {offset length o : Nat} {purpose : Purpose}
    (h : ofOffset offset length purpose = .ok (.slot o)) : offset = o := by
  unfold ofOffset at h
  split at h
  · cases h
    rfl
  · cases purpose with
    | read => cases h
    | write =>
      cases h
      rfl

end VectorIndexing
