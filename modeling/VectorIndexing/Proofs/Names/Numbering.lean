import VectorIndexing.Proofs.Names.NewSlots
import VectorIndexing.Proofs.Written

/-!
# The numbering of new slots

Writing by names creates a slot for every name that is not found, and a name that occurs again has
the slot that was created for it. Missing and empty names have a slot of their own each time. The
new slots are numbered from the length on, in the order in which they are created.

* `Selection.slotOffsets_eq_iff`: which queries share a slot.
* `Selection.numbered_slotOffsets`: the new slots are consecutive.
* `Selection.Slotted`, `Position.select_names_write`: what the slots of names are.
-/

namespace VectorIndexing

namespace Selection

variable {table : NameTable} {created : List (String × Nat)} {next o : Nat}
  {query other : Option String} {queries rest : Names}

/-- All known slots lie below the next one. -/
def KnownBelow (table : NameTable) (created : List (String × Nat)) (next : Nat) : Prop :=
  ∀ query o, slotOf? table created query = some o → o < next

theorem KnownBelow.remember (hBelow : KnownBelow table created next)
    (h : slotOf? table created query = none) :
    KnownBelow table (remember created query next) (next + 1) := by
  intro other o hKnown
  rw [slotOf?_remember h] at hKnown
  split at hKnown
  · have hNext : next = o := Option.some.inj hKnown
    omega
  · have hOld := hBelow other o hKnown
    omega

/-! ## Queries with the same slot -/

/-- Behind a new slot, a query that had none either has that one or a later one. -/
theorem slotOffsets_after_new {first : Option String} {i : Nat}
    (hFirst : slotOf? table created first = none) (hQuery : rest[i]? = some query)
    (h : slotOf? table created query = none)
    (hSlot : (slotOffsets table (remember created first next) (next + 1) rest)[i]? = some o) :
    ((query = first ∧ isName first) ∧ o = next)
      ∨ (¬ (query = first ∧ isName first) ∧ next < o
          ∧ slotOf? table (remember created first next) query = none) := by
  have hKnown : slotOf? table (remember created first next) query
      = if query = first ∧ isName first then some next else slotOf? table created query :=
    slotOf?_remember hFirst
  by_cases hSame : query = first ∧ isName first
  · rw [if_pos hSame] at hKnown
    rw [getElem?_slotOffsets_of_slotOf? hQuery hKnown] at hSlot
    exact Or.inl ⟨hSame, (Option.some.inj hSlot).symm⟩
  · rw [if_neg hSame, h] at hKnown
    exact Or.inr ⟨hSame, le_of_getElem?_slotOffsets hQuery hKnown hSlot, hKnown⟩

/-- Queries without a slot get the same one exactly if they are the same name. -/
theorem slotOffsets_eq_iff {o' i j : Nat} (hij : i < j) (hQuery : queries[i]? = some query)
    (hOther : queries[j]? = some other) (h : slotOf? table created query = none)
    (h' : slotOf? table created other = none)
    (hSlot : (slotOffsets table created next queries)[i]? = some o)
    (hSlot' : (slotOffsets table created next queries)[j]? = some o') :
    o = o' ↔ query = other ∧ isName query := by
  induction queries generalizing created next i j with
  | nil => cases hQuery
  | cons first rest ih =>
    obtain ⟨j, rfl⟩ : ∃ k, j = k + 1 := ⟨j - 1, by omega⟩
    rw [List.getElem?_cons_succ] at hOther
    cases i with
    | zero =>
      obtain rfl : first = query := Option.some.inj hQuery
      rw [slotOffsets_cons_of_slotOf?_eq_none h] at hSlot hSlot'
      have hFirst : next = o := Option.some.inj hSlot
      rw [List.getElem?_cons_succ] at hSlot'
      rcases slotOffsets_after_new h hOther h' hSlot' with ⟨hSame, hAgain⟩ | ⟨hNew, hLater, -⟩
      · exact ⟨fun _ => ⟨hSame.1.symm, hSame.2⟩, fun _ => by omega⟩
      · exact ⟨fun _ => by omega, fun hSame => absurd ⟨hSame.1.symm, hSame.2⟩ hNew⟩
    | succ i =>
      rw [List.getElem?_cons_succ] at hQuery
      cases hFirst : slotOf? table created first with
      | some known =>
        rw [slotOffsets_cons_of_slotOf? hFirst, List.getElem?_cons_succ] at hSlot hSlot'
        exact ih (by omega) hQuery hOther h h' hSlot hSlot'
      | none =>
        rw [slotOffsets_cons_of_slotOf?_eq_none hFirst, List.getElem?_cons_succ] at hSlot hSlot'
        rcases slotOffsets_after_new hFirst hQuery h hSlot with
          ⟨⟨rfl, hName⟩, rfl⟩ | ⟨hNew, hLater, hStill⟩ <;>
        rcases slotOffsets_after_new hFirst hOther h' hSlot' with
          ⟨hSame', hAgain'⟩ | ⟨hNew', hLater', hStill'⟩
        · exact ⟨fun _ => ⟨hSame'.1.symm, hName⟩, fun _ => hAgain'.symm⟩
        · exact ⟨fun _ => by omega, fun hSame => absurd ⟨hSame.1.symm, hSame.2⟩ hNew'⟩
        · exact ⟨fun _ => by omega,
            fun hSame => absurd ⟨hSame.1.trans hSame'.1, hSame'.2⟩ hNew⟩
        · exact ih (by omega) hQuery hOther hStill hStill' hSlot hSlot'

theorem getElem?_slotOffsets_eq_iff {i j : Nat} (hij : i ≠ j) (hQuery : queries[i]? = some query)
    (hOther : queries[j]? = some other) (h : slotOf? table created query = none)
    (h' : slotOf? table created other = none) :
    (slotOffsets table created next queries)[i]? = (slotOffsets table created next queries)[j]?
      ↔ query = other ∧ isName query := by
  obtain ⟨o, hSlot⟩ := exists_getElem?_slotOffsets hQuery
  obtain ⟨o', hSlot'⟩ := exists_getElem?_slotOffsets hOther
  rw [hSlot, hSlot', Option.some.injEq]
  rcases Nat.lt_or_gt_of_ne hij with hBefore | hAfter
  · exact slotOffsets_eq_iff hBefore hQuery hOther h h' hSlot hSlot'
  · have hSwapped := slotOffsets_eq_iff hAfter hOther hQuery h' h hSlot' hSlot
    constructor
    · intro hSame
      obtain ⟨rfl, hName⟩ := hSwapped.mp hSame.symm
      exact ⟨rfl, hName⟩
    · rintro ⟨rfl, hName⟩
      exact (hSwapped.mpr ⟨rfl, hName⟩).symm

/-- A query that is no name shares its slot with no other query. -/
theorem getElem?_slotOffsets_ne {i j : Nat} (hBelow : KnownBelow table created next) (hij : i ≠ j)
    (hQuery : queries[i]? = some query) (hName : isName query = false) :
    (slotOffsets table created next queries)[i]?
      ≠ (slotOffsets table created next queries)[j]? := by
  intro hSame
  have hNone : slotOf? table created query = none := slotOf?_of_unnamed hName
  obtain ⟨o, hSlot⟩ := exists_getElem?_slotOffsets hQuery
  have hNew : next ≤ o := le_of_getElem?_slotOffsets hQuery hNone hSlot
  have hIn : j < queries.length := by
    rw [← length_slotOffsets table created next queries]
    exact (List.getElem?_eq_some_iff.mp (hSame.symm.trans hSlot)).1
  have hOther := List.getElem?_eq_getElem hIn
  cases hKnown : slotOf? table created queries[j] with
  | some o' =>
    have hOld : o' < next := hBelow _ o' hKnown
    rw [hSlot, getElem?_slotOffsets_of_slotOf? hOther hKnown] at hSame
    have hEqual : o = o' := Option.some.inj hSame
    omega
  | none =>
    have hBoth := (getElem?_slotOffsets_eq_iff hij hQuery hOther hNone hKnown).mp hSame
    rw [hName] at hBoth
    cases hBoth.2

/-! ## The new slots -/

/-- One slot is created for each of the names that are not known, and one for each query that is
no name. -/
def newSlots (known : Option String → Bool) (queries : Names) : Nat :=
  (queries.filter fun query => isName query && !known query).eraseDups.length
    + queries.countP (!isName ·)

theorem newSlots_congr {known known' : Option String → Bool}
    (h : ∀ query, isName query = true → known query = known' query) :
    newSlots known queries = newSlots known' queries := by
  have hFilter : (queries.filter fun query => isName query && !known query)
      = queries.filter fun query => isName query && !known' query := by
    refine List.filter_congr ?_
    intro query _
    cases hName : isName query with
    | true => rw [h query hName]
    | false => rfl
  rw [newSlots, hFilter, newSlots]

theorem newSlots_cons_of_known {known : Option String → Bool} (hName : isName query = true)
    (h : known query = true) : newSlots known (query :: rest) = newSlots known rest := by
  simp [newSlots, hName, h]

theorem newSlots_cons_of_unnamed {known : Option String → Bool} (hName : isName query = false) :
    newSlots known (query :: rest) = newSlots known rest + 1 := by
  rw [newSlots, List.filter_cons_of_neg (by simp [hName]),
    List.countP_cons_of_pos (by simp [hName]), newSlots]
  rfl

/-- Once a slot was created for a name it is known. -/
theorem newSlots_cons_of_new {known : Option String → Bool} (hName : isName query = true)
    (h : known query = false) :
    newSlots known (query :: rest)
      = newSlots (fun other => other == query || known other) rest + 1 := by
  have hRest : (rest.filter fun other => isName other && !known other).filter
        (fun other => !other == query)
      = rest.filter fun other => isName other && !(other == query || known other) := by
    rw [List.filter_filter]
    refine List.filter_congr ?_
    intro other _
    cases other == query <;> simp
  rw [newSlots, List.filter_cons_of_pos (by simp [hName, h]), List.eraseDups_cons, hRest,
    List.countP_cons_of_neg (by simp [hName]), newSlots, List.length_cons]
  omega

/-- The queries that have a slot. -/
def isSlotted (table : NameTable) (created : List (String × Nat)) (query : Option String) : Bool :=
  (slotOf? table created query).isSome

theorem newSlots_cons_of_slotOf? (h : slotOf? table created query = some o) :
    newSlots (isSlotted table created) (query :: rest)
      = newSlots (isSlotted table created) rest := by
  have hName : isName query = true := by
    by_contra hUnnamed
    rw [slotOf?_of_unnamed (by simpa using hUnnamed)] at h
    cases h
  exact newSlots_cons_of_known hName (by rw [isSlotted, h]; rfl)

theorem newSlots_cons_of_slotOf?_eq_none (h : slotOf? table created query = none) :
    newSlots (isSlotted table created) (query :: rest)
      = newSlots (isSlotted table (remember created query next)) rest + 1 := by
  cases hName : isName query with
  | true =>
    rw [newSlots_cons_of_new hName (by rw [isSlotted, h]; rfl)]
    congr 1
    refine newSlots_congr ?_
    intro other _
    rw [isSlotted, isSlotted, slotOf?_remember h]
    by_cases hSame : other = query <;> simp [hSame, hName]
  | false =>
    rw [newSlots_cons_of_unnamed hName]
    congr 1
    refine newSlots_congr ?_
    intro other _
    rw [isSlotted, isSlotted, slotOf?_remember h, if_neg (by simp [hName])]

/-- The slots from `first` on are consecutive in the order in which they first occur. -/
def Numbered (first count : Nat) (slots : List Nat) : Prop :=
  (slots.filter (first ≤ ·)).eraseDups = List.range' first count

/-- The new slots are consecutive from the next one on. -/
theorem numbered_slotOffsets (hBelow : KnownBelow table created next) :
    Numbered next (newSlots (isSlotted table created) queries)
      (slotOffsets table created next queries) := by
  unfold Numbered
  induction queries generalizing created next with
  | nil => rfl
  | cons first rest ih =>
    cases hFirst : slotOf? table created first with
    | some o =>
      have hOld : o < next := hBelow first o hFirst
      rw [slotOffsets_cons_of_slotOf? hFirst, newSlots_cons_of_slotOf? hFirst,
        List.filter_cons_of_neg (by simpa using hOld)]
      exact ih hBelow
    | none =>
      have hLater : ((slotOffsets table (remember created first next) (next + 1) rest).filter
            (next ≤ ·)).filter (fun o => !o == next)
          = (slotOffsets table (remember created first next) (next + 1) rest).filter
              (next + 1 ≤ ·) := by
        rw [List.filter_filter]
        refine List.filter_congr ?_
        intro o _
        grind
      have hCount : newSlots (isSlotted table created) (first :: rest)
          = newSlots (isSlotted table (remember created first next)) rest + 1 :=
        newSlots_cons_of_slotOf?_eq_none hFirst
      rw [slotOffsets_cons_of_slotOf?_eq_none hFirst, hCount, List.filter_cons_of_pos (by simp),
        List.eraseDups_cons, hLater, ih (hBelow.remember hFirst), List.range'_succ]

namespace Numbered

variable {slots : List Nat} {first count o : Nat}

theorem mem_iff (h : Numbered first count slots) (ho : first ≤ o) :
    o ∈ slots ↔ o < first + count := by
  have hMem : o ∈ (slots.filter (first ≤ ·)).eraseDups ↔ o ∈ slots := by simp [ho]
  rw [← hMem, h, List.mem_range'_1]
  exact and_iff_right ho

theorem reach_le (h : Numbered first count slots) :
    Slots.reach (slots.map some) ≤ first + count := by
  refine Slots.below_iff_reach_le.mp ?_
  intro o ho
  obtain ⟨o', hSlot, hSame⟩ := List.mem_map.mp ho
  obtain rfl : o' = o := Option.some.inj hSame
  by_cases hOld : first ≤ o'
  · exact (h.mem_iff hOld).mp hSlot
  · omega

theorem reach_eq (h : Numbered first count slots) (hCount : 0 < count) :
    Slots.reach (slots.map some) = first + count := by
  have hLast : first + count - 1 ∈ slots := (h.mem_iff (by omega)).mpr (by omega)
  have hReached := Slots.lt_reach (List.mem_map_of_mem hLast)
  have hUpTo := h.reach_le
  omega

theorem mem_of_lt_reach (h : Numbered first count slots) (ho : first ≤ o)
    (hReach : o < Slots.reach (slots.map some)) : some o ∈ slots.map some := by
  have hUpTo := h.reach_le
  exact List.mem_map_of_mem ((h.mem_iff ho).mpr (by omega))

end Numbered

/-! ## Slots and names -/

/-- Whether the names have an element for the query. -/
def isFound (names : Names) (query : Option String) : Bool :=
  isName query && names.contains query

theorem slotOf?_ofNames (names : Option Names) (count : Nat) (query : Option String) :
    slotOf? (.ofNames names count) [] query
      = if isFound (names.getD []) query then some ((names.getD []).idxOf query) else none := by
  cases hName : isName query with
  | false => rw [slotOf?_of_unnamed hName, isFound, hName, Bool.false_and, if_neg (by simp)]
  | true =>
    cases query with
    | none => cases hName
    | some name =>
      have hEmpty : name.isEmpty = false := by simpa [isName] using hName
      have hFind : slotOf? (.ofNames names count) [] (some name)
          = (names.getD []).idxOf? (some name) := by
        simp [slotOf?, NameTable.find?_ofNames, firstNamed, hEmpty]
      rw [hFind]
      by_cases hMem : some name ∈ names.getD []
      · rw [idxOf?_of_mem hMem, if_pos (by simp [isFound, hName, hMem])]
      · rw [List.idxOf?_eq_none_iff.mpr hMem, if_neg (by simp [isFound, hMem])]

/-- The slots of queries among `length` elements with the given names, of which there may be
none. -/
structure Slotted (names : Names) (length : Nat) (queries : Names) (slots : List Nat) : Prop where
  length_eq : slots.length = queries.length
  /-- A name that elements have is that of the first of them. -/
  found : ∀ (i : Nat) query, queries[i]? = some query → isFound names query = true →
    slots[i]? = some (names.idxOf query)
  /-- Any other query has a slot behind the elements. -/
  fresh : ∀ (i : Nat) query, queries[i]? = some query → isFound names query = false →
    ∃ o, slots[i]? = some o ∧ length ≤ o
  /-- Two of them have the same slot only if they are the same name. -/
  shared : ∀ (i j : Nat) query other, i ≠ j → queries[i]? = some query → queries[j]? = some other →
    isFound names query = false → isFound names other = false →
    (slots[i]? = slots[j]? ↔ query = other ∧ isName query = true)
  /-- A missing or an empty name shares its slot with no query. -/
  alone : ∀ (i j : Nat) query, i ≠ j → queries[i]? = some query → isName query = false →
    slots[i]? ≠ slots[j]?
  /-- The new slots are those behind the elements, as many as there are. -/
  mem_iff : ∀ o, length ≤ o →
    (o ∈ slots ↔ o < length + newSlots names.contains queries)
  /-- They are numbered in the order in which they first occur. -/
  numbered : Numbered length (newSlots names.contains queries) slots
  /-- If there is a new slot, the elements extend as far as the new slots do. -/
  reach_eq : 0 < newSlots names.contains queries →
    Slots.reach (slots.map some) = length + newSlots names.contains queries
  /-- Every element that the extension adds is written to. -/
  gapless : ∀ o, length ≤ o → o < Slots.reach (slots.map some) → some o ∈ slots.map some

variable {names : Option Names} {length count : Nat}

theorem knownBelow_ofNames (hNames : ∀ given, names = some given → given.length = length) :
    KnownBelow (.ofNames names count) [] length := by
  intro query o hKnown
  have hFind : (NameTable.ofNames names count).find? query = some o := by
    simpa [slotOf?] using hKnown
  exact NameTable.lt_of_find?_ofNames hNames hFind

theorem slotOf?_of_not_isFound (h : isFound (names.getD []) query = false) :
    slotOf? (.ofNames names count) [] query = none := by
  rw [slotOf?_ofNames, if_neg (by simp [h])]

theorem newSlots_isSlotted_ofNames :
    newSlots (isSlotted (.ofNames names count) []) queries
      = newSlots (names.getD []).contains queries := by
  refine newSlots_congr ?_
  intro query hName
  rw [isSlotted, slotOf?_ofNames, isFound, hName, Bool.true_and]
  cases (names.getD []).contains query <;> rfl

theorem slotted_slotOffsets (hNames : ∀ given, names = some given → given.length = length) :
    Slotted (names.getD []) length queries
      (slotOffsets (.ofNames names count) [] length queries) := by
  have hBelow : KnownBelow (.ofNames names count) [] length := knownBelow_ofNames hNames
  have hNumbered : Numbered length (newSlots (names.getD []).contains queries)
      (slotOffsets (.ofNames names count) [] length queries) := by
    rw [← newSlots_isSlotted_ofNames]
    exact numbered_slotOffsets hBelow
  refine
    { length_eq := length_slotOffsets ..
      found := ?_
      fresh := ?_
      shared := ?_
      alone := fun i j query hij hQuery hName => getElem?_slotOffsets_ne hBelow hij hQuery hName
      mem_iff := fun o ho => hNumbered.mem_iff ho
      numbered := hNumbered
      reach_eq := hNumbered.reach_eq
      gapless := fun o ho hReach => hNumbered.mem_of_lt_reach ho hReach }
  · intro i query hQuery hFound
    refine getElem?_slotOffsets_of_slotOf? hQuery ?_
    rw [slotOf?_ofNames, if_pos hFound]
  · intro i query hQuery hAbsent
    obtain ⟨o, hSlot⟩ := exists_getElem?_slotOffsets hQuery
    exact ⟨o, hSlot,
      le_of_getElem?_slotOffsets hQuery (slotOf?_of_not_isFound hAbsent) hSlot⟩
  · intro i j query other hij hQuery hOther hAbsent hAbsent'
    exact getElem?_slotOffsets_eq_iff hij hQuery hOther (slotOf?_of_not_isFound hAbsent)
      (slotOf?_of_not_isFound hAbsent')

end Selection

/-- Writing by names selects one slot for each query, and the queries are stored as the names. A
query that is found selects its first element, and the others select new slots. -/
theorem Position.select_names_write (queries : Names) (length : Nat) (names : Option Names)
    (h : ∀ given, names = some given → given.length = length) :
    ∃ slots : List Nat,
      (Position.names queries).select length names .write
          = pure { offsets := slots.map some, names := some queries }
        ∧ Selection.Slotted (names.getD []) length queries slots :=
  ⟨_, rfl, Selection.slotted_slotOffsets h⟩

example : Selection.slotOffsets (.ofNames (some [some "a", some "", some "a"]) 7) [] 3
    [some "x", some "a", none, some "x", some "", none, some "y"] = [3, 0, 4, 3, 5, 6, 7] := rfl

/-- Absent names, the missing one and the empty one among the names of three elements. -/
theorem Position.select_names_write_absent :
    (∀ given, some [some "a", some "", some "a"] = some given → given.length = 3)
      ∧ ∃ slots : List Nat,
          (Position.names [some "x", some "a", none, some "x", some "", none, some "y"]).select 3
              (some [some "a", some "", some "a"]) .write
            = pure
                { offsets := slots.map some
                  names := some [some "x", some "a", none, some "x", some "", none, some "y"] }
          ∧ Selection.Slotted [some "a", some "", some "a"] 3
              [some "x", some "a", none, some "x", some "", none, some "y"] slots :=
  have hLength : ∀ given, some [some "a", some "", some "a"] = some given → given.length = 3 := by
    rintro given ⟨⟩
    rfl
  ⟨hLength, Position.select_names_write _ 3 (some [some "a", some "", some "a"]) hLength⟩

end VectorIndexing
