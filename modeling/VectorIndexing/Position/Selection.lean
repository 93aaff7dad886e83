import VectorIndexing.Position
import VectorIndexing.Position.NameTable
import VectorIndexing.Checked

/-!
# Selections

The elements that a position selects under `[`, as offsets from zero, given the length and the
names of what is indexed.

* `Selection.ofIndices`, `Selection.maskOffsets`, `Selection.slotOffsets`: the rule of each
  form of position.
* `Position.select`: all forms.
-/

namespace VectorIndexing

/-- Selected offsets, and the names to be stored there, one for each offset. -/
structure Selection where
  offsets : List Offset
  names : Option Names := none
  deriving DecidableEq, Repr

namespace Selection

def length (s : Selection) : Nat := s.offsets.length

/-- All elements, in order. -/
def all (length : Nat) : Selection where
  offsets := (List.range length).map some

/-! ## Indices -/

def isNegativeEntry : Option Int → Bool
  | some i => i < 0
  | none => false

def isPositiveEntry : Option Int → Bool
  | some i => 0 < i
  | none => false

/-- Flags that tell which elements are excluded, after one more index. Zero excludes nothing, and
neither does an index that goes beyond the end. -/
def exclude (excluded : Array Bool) : Option Int → Array Bool
  | some i => if 0 ≤ -i - 1 then excluded.setIfInBounds (-i - 1).toNat true else excluded
  | none => excluded

/-- The elements that no negative index excludes. -/
def complement (entries : List (Option Int)) (length : Nat) : List Offset :=
  let excluded := entries.foldl exclude (Array.replicate length false)
  ((List.range length).filter fun o => !excluded.getD o false).map some

/-- What excludes an element, as an index. -/
def excluder (o : Nat) : Option Int := some (-(o + 1 : Int))

@[simp] theorem size_exclude (excluded : Array Bool) (entry : Option Int) :
    (exclude excluded entry).size = excluded.size := by
  unfold exclude
  split
  · split <;> simp
  · rfl

theorem getD_exclude {excluded : Array Bool} {o : Nat} (h : o < excluded.size)
    (entry : Option Int) :
    (exclude excluded entry).getD o false = (excluded.getD o false || excluder o == entry) := by
  have hOther (hNe : excluder o ≠ entry) :
      (excluded.getD o false || excluder o == entry) = excluded.getD o false := by
    rw [beq_false_of_ne hNe, Bool.or_false]
  cases entry with
  | none => exact (hOther nofun).symm
  | some i =>
    by_cases hIn : -i - 1 = o
    · have hSame : excluder o = some i := congrArg some (by omega)
      have hPlace : (-i - 1).toNat = o := by omega
      rw [exclude, if_pos (by omega), hPlace, hSame, Array.getD_eq_getD_getElem?,
        Array.getElem?_setIfInBounds_self_of_lt h]
      simp
    · have hNe : excluder o ≠ some i := fun hSome => hIn (by cases hSome; omega)
      rw [hOther hNe, exclude]
      by_cases hSign : 0 ≤ -i - 1
      · have hPlace : (-i - 1).toNat ≠ o := by omega
        simp only [if_pos hSign, Array.getD_eq_getD_getElem?,
          Array.getElem?_setIfInBounds_ne hPlace]
      · rw [if_neg hSign]

/-- In the end those elements are flagged that some index excludes. -/
theorem getD_foldl_exclude {excluded : Array Bool} {o : Nat} (h : o < excluded.size)
    (entries : List (Option Int)) :
    (entries.foldl exclude excluded).getD o false
      = (excluded.getD o false || entries.contains (excluder o)) := by
  induction entries generalizing excluded with
  | nil => simp
  | cons entry entries ih =>
    rw [List.foldl_cons, ih (by simpa using h), getD_exclude h, List.contains_cons, Bool.or_assoc]

theorem complement_eq_filter (entries : List (Option Int)) (length : Nat) :
    complement entries length
      = ((List.range length).filter fun o => !entries.contains (excluder o)).map some := by
  refine congrArg (List.map some) (List.filter_congr fun o ho => ?_)
  have hIn : o < (Array.replicate length false).size := by simpa using ho
  have hStart : (Array.replicate length false).getD o false = false := by
    rw [Array.getD_eq_getD_getElem?, Array.getElem?_replicate]
    split <;> rfl
  rw [getD_foldl_exclude hIn, hStart, Bool.false_or]

theorem mem_complement (entries : List (Option Int)) (length : Nat) (offset : Offset) :
    offset ∈ complement entries length
      ↔ ∃ o, offset = some o ∧ o < length ∧ some (-(o + 1 : Int)) ∉ entries := by
  rw [complement_eq_filter]
  simp only [excluder, List.mem_map, List.mem_filter, List.mem_range]
  grind

/-- Offset of a positive index; a missing index stays missing. -/
def offsetOfEntry (entry : Option Int) : Offset := entry.map fun i => (i - 1).toNat

/-- Whether an index selects anything. -/
def isKept (entry : Option Int) : Bool := entry != some 0

/-- Indices without a negative one: zeros are dropped, together with their names. Indices
behind the last name have missing names. -/
def ofEntries (entries : List (Option Int)) (names : Option Names) : Selection where
  offsets := (entries.filter isKept).map offsetOfEntry
  names := names.map fun names =>
    ((entries.zip (Slots.extend none entries.length names)).filter fun e => isKept e.1).map
      Prod.snd

/-- Negative indices exclude, and mix with zeros only. -/
def ofIndices (entries : List (Option Int)) (names : Option Names) (length : Nat) :
    Except Error Selection :=
  if entries.any isNegativeEntry then
    if entries.any fun entry => isPositiveEntry entry || entry.isNone then
      .error .invalidNegativeIndex
    else .ok { offsets := complement entries length }
  else .ok (ofEntries entries names)

/-! ## Masks -/

/-- What one flag of a mask selects at an offset. -/
def flagOffset : Option Bool × Nat → Option Offset
  | (some true, o) => some (some o)
  | (none, _) => some none
  | (some false, _) => none

/-- The offsets at which the mask, repeated up to the length, is true; a missing flag selects
a missing element. A mask that is longer than the vector reaches beyond its end. -/
def maskOffsets (flags : List (Option Bool)) (length : Nat) : List Offset :=
  (Slots.recycle flags (max length flags.length)).zipIdx.filterMap flagOffset

/-- Whether the length is not made up of whole repetitions of the mask. -/
def maskMisfits (flags : List (Option Bool)) (length : Nat) : Bool :=
  flags.length < length && length % flags.length != 0

/-- The selection of a mask; an empty mask selects nothing. -/
def ofMask (flags : List (Option Bool)) (length : Nat) : Checked Selection := do
  if flags.isEmpty then return { offsets := [] }
  if maskMisfits flags length then warn .lengthMismatch
  return { offsets := maskOffsets flags length }

/-! ## Names -/

/-- Offsets for writing: a name that is found selects its element. Any other name selects a
new slot, numbered from `next` on: the same slot each time it occurs, as recorded in `created`,
while each empty or missing name has a slot of its own. -/
def slotOffsets (table : NameTable) (created : List (String × Nat)) (next : Nat) :
    Names → List Nat
  | [] => []
  | query :: rest =>
    match table.find? query with
    | some o => o :: slotOffsets table created next rest
    | none =>
      match query with
      | none => next :: slotOffsets table created (next + 1) rest
      | some name =>
        if name.isEmpty then next :: slotOffsets table created (next + 1) rest
        else
          match created.lookup name with
          | some o => o :: slotOffsets table created next rest
          | none => next :: slotOffsets table ((name, next) :: created) (next + 1) rest

/-- One slot for each query. -/
@[simp] theorem length_slotOffsets (table : NameTable) (created : List (String × Nat))
    (next : Nat) (queries : Names) :
    (slotOffsets table created next queries).length = queries.length := by
  induction queries generalizing created next with
  | nil => rfl
  | cons query rest ih =>
    unfold slotOffsets
    repeat' split
    all_goals simp [ih]

/-- The selection of a list of names. Only when writing do absent names select new slots, and
then the names are stored along. -/
def ofQueries (queries : Names) (length : Nat) (names : Option Names) :
    Purpose → Selection
  | .read => { offsets := queries.map (NameTable.ofNames names queries.length).find? }
  | .write =>
    { offsets := (slotOffsets (.ofNames names queries.length) [] length queries).map some
      names := some queries }

end Selection

/-- The elements that a position selects from `length` elements with the given names. -/
def Position.select (p : Position) (length : Nat) (names : Option Names)
    (purpose : Purpose) : Checked Selection :=
  match p with
  | missing => pure (.all length)
  | indices entries given => .ofExcept (Selection.ofIndices entries given length)
  | mask flags => Selection.ofMask flags length
  | .names queries => pure (.ofQueries queries length names purpose)

end VectorIndexing
