import VectorIndexing.Slots

/-!
# What a sequence of writes leaves behind

Writes go to offsets in order, so a slot ends up with the value of the last write to it. The
predicate `Written` says this for every slot at once, without reference to an order of
evaluation: it fixes the length, the slots that were written to, the slots that were kept and
the slots that were filled.

* `written_scatter`, `written_putAll`: extending a sequence and writing to it leaves what
  `Written` says.
* `Written.snoc`: one more write, with an extension of its own.
* `Written.unique`: `Written` leaves no choice.
* `Written.again`, `Written.comm`: writes to the same slots, and to different ones.
-/

namespace VectorIndexing.Slots

variable {α : Type}

/-! ## Last occurrences -/

/-- The offset `o` occurs at index `j` and at no later index. -/
def LastAt (offsets : List Offset) (o j : Nat) : Prop :=
  offsets[j]? = some (some o) ∧ ∀ k, j < k → offsets[k]? ≠ some (some o)

namespace LastAt

theorem mem {offsets : List Offset} {o j : Nat} (h : LastAt offsets o j) : some o ∈ offsets :=
  List.mem_of_getElem? h.1

theorem lt_length {offsets : List Offset} {o j : Nat} (h : LastAt offsets o j) :
    j < offsets.length := by
  obtain ⟨hj, -⟩ := List.getElem?_eq_some_iff.mp h.1
  exact hj

theorem singleton (o : Nat) : LastAt [some o] o 0 := by
  refine ⟨rfl, ?_⟩
  intro k hk hLater
  rw [List.getElem?_eq_none (by rw [List.length_singleton]; omega)] at hLater
  cases hLater

theorem cons_zero {first : Offset} {rest : List Offset} {o : Nat}
    (h : LastAt (first :: rest) o 0) : first = some o ∧ some o ∉ rest := by
  refine ⟨by simpa using h.1, ?_⟩
  intro hMem
  obtain ⟨k, hk⟩ := List.mem_iff_getElem?.mp hMem
  exact h.2 (k + 1) (by omega) (by simpa using hk)

theorem of_cons_succ {first : Offset} {rest : List Offset} {o j : Nat}
    (h : LastAt (first :: rest) o (j + 1)) : LastAt rest o j := by
  refine ⟨by simpa using h.1, ?_⟩
  intro k hk hLater
  exact h.2 (k + 1) (by omega) (by simpa using hLater)

theorem succ_cons {first : Offset} {rest : List Offset} {o j : Nat} (h : LastAt rest o j) :
    LastAt (first :: rest) o (j + 1) := by
  refine ⟨by simpa using h.1, ?_⟩
  intro k hk hLater
  cases k with
  | zero => omega
  | succ k => exact h.2 k (by omega) (by simpa using hLater)

end LastAt

theorem exists_lastAt {offsets : List Offset} {o : Nat} (h : some o ∈ offsets) :
    ∃ j, LastAt offsets o j := by
  induction offsets with
  | nil => cases h
  | cons first rest ih =>
    by_cases hRest : some o ∈ rest
    · obtain ⟨j, hj⟩ := ih hRest
      exact ⟨j + 1, hj.succ_cons⟩
    · have hFirst : first = some o := ((List.mem_cons.mp h).resolve_right hRest).symm
      refine ⟨0, by simp [hFirst], ?_⟩
      intro k hk hLater
      cases k with
      | zero => omega
      | succ k => exact hRest (List.mem_of_getElem? (by simpa using hLater))

/-! ## The reach of offsets -/

theorem reach_cons (offset : Offset) (rest : List Offset) :
    reach (offset :: rest) = max ((offset.map (· + 1)).getD 0) (reach rest) := rfl

theorem reach_append (first second : List Offset) :
    reach (first ++ second) = max (reach first) (reach second) := by
  induction first with
  | nil => simp [reach]
  | cons offset rest ih => rw [List.cons_append, reach_cons, reach_cons, ih, Nat.max_assoc]

@[simp] theorem reach_nil : reach [] = 0 := rfl

@[simp] theorem reach_singleton (o : Nat) : reach [some o] = o + 1 := by
  simp [reach]

theorem lt_reach {offsets : List Offset} {o : Nat} (h : some o ∈ offsets) : o < reach offsets := by
  obtain ⟨before, after, rfl⟩ := List.append_of_mem h
  have hSplit : reach (before ++ some o :: after) = max (reach before) (reach (some o :: after)) :=
    reach_append ..
  have hHead : reach (some o :: after) = max (o + 1) (reach after) := rfl
  omega

/-- The offsets that are not missing lie below the length. -/
def Below (length : Nat) (offsets : List Offset) : Prop := ∀ o, some o ∈ offsets → o < length

theorem below_iff_reach_le {length : Nat} {offsets : List Offset} :
    Below length offsets ↔ reach offsets ≤ length := by
  constructor
  · intro h
    induction offsets with
    | nil => exact Nat.zero_le _
    | cons offset rest ih =>
      have hRest := ih fun o ho => h o (List.mem_cons_of_mem _ ho)
      rw [reach_cons]
      cases offset with
      | none => simpa using hRest
      | some o =>
        have hFirst : o < length := h o List.mem_cons_self
        exact Nat.max_le.mpr ⟨hFirst, hRest⟩
  · intro h o ho
    have := lt_reach ho
    omega

/-! ## Extension -/

theorem extend_of_le (fill : α) {n : Nat} {xs : List α} (h : n ≤ xs.length) :
    extend fill n xs = xs := by
  simp [extend, Nat.sub_eq_zero_of_le h]

theorem extend_extend (fill : α) (m n : Nat) (xs : List α) :
    extend fill n (extend fill m xs) = extend fill (max m n) xs := by
  apply List.ext_getElem?
  intro i
  simp only [getElem?_extend, length_extend]
  grind

/-! ## Writes and their result -/

/-- `ys` is `xs` after the write of `value j` at the `j`-th offset, for each `j` in order. The
sequence was extended with `fill` as far as the offsets reach. -/
structure Written (fill : α) (xs : List α) (offsets : List Offset) (value : Nat → Option α)
    (ys : List α) : Prop where
  length_eq : ys.length = max xs.length (reach offsets)
  last : ∀ o j, LastAt offsets o j → ys[o]? = value j
  kept : ∀ o, o < xs.length → some o ∉ offsets → ys[o]? = xs[o]?
  filled : ∀ o, xs.length ≤ o → o < ys.length → some o ∉ offsets → ys[o]? = some fill

namespace Written

variable {fill : α} {xs ys : List α} {offsets : List Offset} {value : Nat → Option α}

theorem nil (fill : α) (xs : List α) (value : Nat → Option α) : Written fill xs [] value xs where
  length_eq := by simp
  last := by
    intro o j h
    simpa using h.lt_length
  kept := fun _ _ _ => rfl
  filled := by
    intro o h hlt
    omega

/-- Only the values at indices of offsets matter. -/
theorem congr {value' : Nat → Option α} (h : Written fill xs offsets value ys)
    (hValue : ∀ j, j < offsets.length → value j = value' j) :
    Written fill xs offsets value' ys where
  length_eq := h.length_eq
  last := fun o j hLast => (h.last o j hLast).trans (hValue j hLast.lt_length)
  kept := h.kept
  filled := h.filled

theorem unique {zs : List α} (h : Written fill xs offsets value ys)
    (h' : Written fill xs offsets value zs) : ys = zs := by
  have hLength : ys.length = zs.length := h.length_eq.trans h'.length_eq.symm
  apply List.ext_getElem?
  intro o
  by_cases hMem : some o ∈ offsets
  · obtain ⟨j, hj⟩ := exists_lastAt hMem
    rw [h.last o j hj, h'.last o j hj]
  · by_cases hOld : o < xs.length
    · rw [h.kept o hOld hMem, h'.kept o hOld hMem]
    · by_cases hNew : o < ys.length
      · rw [h.filled o (by omega) hNew hMem, h'.filled o (by omega) (by omega) hMem]
      · rw [List.getElem?_eq_none (by omega), List.getElem?_eq_none (by omega)]

/-- A slot that was not written to is one of the sequence, extended as far as was needed. -/
theorem getElem?_of_notMem (h : Written fill xs offsets value ys) {o : Nat}
    (hMem : some o ∉ offsets) :
    ys[o]? = if o < xs.length then xs[o]? else if o < ys.length then some fill else none := by
  split
  · next hOld => exact h.kept o hOld hMem
  · next hNew =>
    split
    · next hIn => exact h.filled o (by omega) hIn hMem
    · next hOut => exact List.getElem?_eq_none (by omega)

theorem length_le (h : Written fill xs offsets value ys) : xs.length ≤ ys.length := by
  rw [h.length_eq]
  exact Nat.le_max_left ..

theorem lt_length_of_mem (h : Written fill xs offsets value ys) {o : Nat}
    (hMem : some o ∈ offsets) : o < ys.length := by
  have := lt_reach hMem
  have := h.length_eq
  omega

/-- Writing to the same slots again leaves nothing of the first values. -/
theorem again {value' : Nat → Option α} {zs : List α} (h : Written fill xs offsets value ys)
    (h' : Written fill ys offsets value' zs) : Written fill xs offsets value' zs where
  length_eq := by
    rw [h'.length_eq, h.length_eq, Nat.max_assoc, Nat.max_self]
  last := h'.last
  kept := by
    intro o hOld hMem
    have hIn : o < ys.length := Nat.lt_of_lt_of_le hOld h.length_le
    rw [h'.kept o hIn hMem, h.kept o hOld hMem]
  filled := by
    intro o hNew hIn hMem
    have hLength : zs.length = ys.length := by
      rw [h'.length_eq, h.length_eq, Nat.max_assoc, Nat.max_self]
    have hBefore : o < ys.length := hLength ▸ hIn
    rw [h'.kept o hBefore hMem, h.filled o hNew hBefore hMem]

/-- The order of writes to different slots makes no difference. -/
theorem comm {offsets' : List Offset} {value' : Nat → Option α} {ys' zs zs' : List α}
    (hDisjoint : ∀ o, some o ∈ offsets → some o ∉ offsets')
    (hFirst : Written fill xs offsets value ys) (hThen : Written fill ys offsets' value' zs)
    (hFirst' : Written fill xs offsets' value' ys') (hThen' : Written fill ys' offsets value zs') :
    zs = zs' := by
  have hLength : zs.length = zs'.length := by
    rw [hThen.length_eq, hFirst.length_eq, hThen'.length_eq, hFirst'.length_eq, Nat.max_assoc,
      Nat.max_assoc, Nat.max_comm (reach offsets)]
  apply List.ext_getElem?
  intro o
  by_cases hMem : some o ∈ offsets
  · -- written to by the first writes, which come last in the other order
    obtain ⟨j, hLast⟩ := exists_lastAt hMem
    have hIn : o < ys.length := hFirst.lt_length_of_mem hMem
    rw [hThen.kept o hIn (hDisjoint o hMem), hFirst.last o j hLast, hThen'.last o j hLast]
  · by_cases hMem' : some o ∈ offsets'
    · obtain ⟨j, hLast⟩ := exists_lastAt hMem'
      have hIn : o < ys'.length := hFirst'.lt_length_of_mem hMem'
      rw [hThen.last o j hLast, hThen'.kept o hIn hMem, hFirst'.last o j hLast]
    · have := hFirst.length_le
      have := hFirst'.length_le
      have := hThen.length_le
      have := hThen'.length_le
      rw [hThen.getElem?_of_notMem hMem', hFirst.getElem?_of_notMem hMem,
        hThen'.getElem?_of_notMem hMem, hFirst'.getElem?_of_notMem hMem']
      grind

end Written

/-! ## Writes carried out -/

theorem find?_reverse_zip_of_notMem {offsets : List Offset} {values : List α} {o : Nat}
    (h : some o ∉ offsets) :
    (offsets.zip values).reverse.find? (fun w => w.1 = some o) = none := by
  rw [List.find?_eq_none]
  intro w hw hSame
  have hw' : w ∈ offsets.zip values := List.mem_reverse.mp hw
  exact h ((of_decide_eq_true hSame) ▸ (List.of_mem_zip hw').1)

/-- Seen from the back, the first write to a slot is the one at the last occurrence of its
offset. -/
theorem find?_reverse_zip {offsets : List Offset} {values : List α} {o j : Nat}
    (hLength : values.length = offsets.length) (h : LastAt offsets o j) :
    ((offsets.zip values).reverse.find? fun w => w.1 = some o).map Prod.snd = values[j]? := by
  induction offsets generalizing values j with
  | nil => cases h.mem
  | cons first rest ih =>
    cases values with
    | nil => simp at hLength
    | cons v vs =>
      have hRestLength : vs.length = rest.length := by simpa using hLength
      rw [List.zip_cons_cons, List.reverse_cons, List.find?_append]
      cases j with
      | zero =>
        obtain ⟨rfl, hAbsent⟩ := h.cons_zero
        simp [find?_reverse_zip_of_notMem hAbsent]
      | succ j =>
        have hLast := h.of_cons_succ
        have hFound := ih hRestLength hLast
        have hIn : j < vs.length := hRestLength ▸ hLast.lt_length
        rw [List.getElem?_eq_getElem hIn] at hFound
        obtain ⟨w, hw, hSnd⟩ := Option.map_eq_some_iff.mp hFound
        rw [hw, List.getElem?_cons_succ, List.getElem?_eq_getElem hIn]
        exact congrArg some hSnd

theorem written_putAll (fill : α) (xs : List α) {offsets : List Offset} {values : List α}
    (hLength : values.length = offsets.length) :
    Written fill xs offsets (values[·]?)
      (putAll (extend fill (reach offsets) xs) (offsets.zip values)) := by
  refine ⟨by rw [length_putAll, length_extend], ?_, ?_, ?_⟩
  · intro o j hLast
    have hIn : o < (extend fill (reach offsets) xs).length := by
      have := lt_reach hLast.mem
      rw [length_extend]
      omega
    have hj : j < values.length := hLength ▸ hLast.lt_length
    rw [getElem?_putAll, if_pos hIn, find?_reverse_zip hLength hLast,
      List.getElem?_eq_getElem hj, Option.some_or]
  · intro o hOld hMem
    have hIn : o < (extend fill (reach offsets) xs).length := by rw [length_extend]; omega
    rw [getElem?_putAll, if_pos hIn, find?_reverse_zip_of_notMem hMem, getElem?_extend,
      if_pos hOld]
    rfl
  · intro o hNew hIn hMem
    rw [length_putAll] at hIn
    rw [getElem?_putAll, if_pos hIn, find?_reverse_zip_of_notMem hMem, getElem?_extend,
      if_neg (by omega)]
    rw [length_extend] at hIn
    simp only [Option.map_none, Option.none_or]
    rw [if_pos (by omega)]

theorem written_scatter (fill : α) (xs : List α) (offsets : List Offset) {values : List α}
    (hValues : values ≠ []) :
    Written fill xs offsets (fun j => values[j % values.length]?)
      (scatter (extend fill (reach offsets) xs) offsets values) := by
  refine (written_putAll fill xs (length_recycle values offsets.length hValues)).congr ?_
  intro j hj
  rw [getElem?_recycle values _ _ hValues, if_pos hj]

end VectorIndexing.Slots
