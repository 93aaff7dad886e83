/-!
# Maps with ascending keys

A finite map is the list of its entries in ascending order of the keys, so that two maps with
the same entries are equal. A look-up takes the first entry of a key.
-/

namespace VectorIndexing

/-- A finite map from `κ` to `α`. -/
structure OrderedMap (κ α : Type) where
  entries : List (κ × α) := []
  deriving DecidableEq, Repr

namespace OrderedMap

variable {κ α : Type}

instance : Inhabited (OrderedMap κ α) := ⟨⟨[]⟩⟩

instance : EmptyCollection (OrderedMap κ α) := ⟨⟨[]⟩⟩

def keys (m : OrderedMap κ α) : List κ := m.entries.map Prod.fst

def size (m : OrderedMap κ α) : Nat := m.entries.length

def isEmpty (m : OrderedMap κ α) : Bool := m.entries.isEmpty

section Find

variable [DecidableEq κ]

/-- The value of the first entry with this key. -/
def findIn (key : κ) : List (κ × α) → Option α
  | [] => none
  | (k, v) :: rest => if k = key then some v else findIn key rest

def find? (m : OrderedMap κ α) (key : κ) : Option α := findIn key m.entries

/-- Remove a key. -/
def erase (m : OrderedMap κ α) (key : κ) : OrderedMap κ α :=
  ⟨m.entries.filter fun e => e.1 ≠ key⟩

end Find

section Insert

variable [DecidableEq κ] [LT κ] [DecidableLT κ]

/-- Replace the value of a key, or put the entry before the first greater key. -/
def insertIn (key : κ) (value : α) : List (κ × α) → List (κ × α)
  | [] => [(key, value)]
  | (k, v) :: rest =>
    if k = key then (key, value) :: rest
    else if key < k then (key, value) :: (k, v) :: rest
    else (k, v) :: insertIn key value rest

def insert (m : OrderedMap κ α) (key : κ) (value : α) : OrderedMap κ α :=
  ⟨insertIn key value m.entries⟩

/-- Insert the entries one after another. -/
def ofList (entries : List (κ × α)) : OrderedMap κ α :=
  entries.foldl (fun m e => m.insert e.1 e.2) ∅

end Insert

/-! ## Small laws -/

@[simp] theorem find?_empty [DecidableEq κ] (key : κ) :
    (∅ : OrderedMap κ α).find? key = none := rfl

theorem findIn_insertIn [DecidableEq κ] [LT κ] [DecidableLT κ] (key key' : κ) (value : α)
    (entries : List (κ × α)) :
    findIn key' (insertIn key value entries)
      = if key = key' then some value else findIn key' entries := by
  induction entries with
  | nil => simp [insertIn, findIn]
  | cons e rest ih => grind [insertIn, findIn]

/-- A look-up after an insertion. -/
@[simp] theorem find?_insert [DecidableEq κ] [LT κ] [DecidableLT κ] (m : OrderedMap κ α)
    (key key' : κ) (value : α) :
    (m.insert key value).find? key' = if key = key' then some value else m.find? key' :=
  findIn_insertIn key key' value m.entries

theorem findIn_filter_ne [DecidableEq κ] (key key' : κ) (entries : List (κ × α)) :
    findIn key' (entries.filter fun e => e.1 ≠ key)
      = if key = key' then none else findIn key' entries := by
  induction entries with
  | nil => simp [findIn]
  | cons e rest ih => grind [findIn]

/-- A look-up after a removal. -/
@[simp] theorem find?_erase [DecidableEq κ] (m : OrderedMap κ α) (key key' : κ) :
    (m.erase key).find? key' = if key = key' then none else m.find? key' :=
  findIn_filter_ne key key' m.entries

end OrderedMap

end VectorIndexing
