/-!
# Machine words

Lengths, extents and offsets are machine words. Of a sum or a product of them that does not fit a
word, only the remainder is kept.

* `Word.wrap`: what is kept of a number.
* `Word.add`, `Word.mul`, `Word.product`: sums and products of words.
* `Word.count`: how many combinations there are of so many choices each.
-/

namespace VectorIndexing

namespace Word

/-- How many machine words there are, `2 ^ 64`. -/
def size : Nat := 0x10000000000000000

/-- What a machine word keeps of a number. -/
def wrap (n : Nat) : Nat := n % size

def add (m n : Nat) : Nat := wrap (m + n)

def mul (m n : Nat) : Nat := wrap (m * n)

/-- The product of several words, multiplied one after another. -/
def product (words : List Nat) : Nat := words.foldl mul 1

/-- How many combinations there are of one out of each of these numbers of choices, multiplied as
words. Numbers that are no words, which no sequence in memory has, are multiplied as they are. -/
def count (choices : List Nat) : Nat :=
  if choices.all (· < size) then product choices else choices.foldr (· * ·) 1

/-! ## Small laws -/

theorem wrap_of_lt {n : Nat} (h : n < size) : wrap n = n := Nat.mod_eq_of_lt h

theorem wrap_le (n : Nat) : wrap n ≤ n := Nat.mod_le ..

/-- It makes no difference whether the factors are wrapped before they are multiplied. -/
@[simp] theorem mul_wrap (m n : Nat) : mul (wrap m) n = wrap (m * n) := Nat.mod_mul_mod ..

/-- It makes no difference either when all is wrapped in the end only. -/
theorem product_eq_wrap (words : List Nat) : product words = wrap (words.foldr (· * ·) 1) := by
  have hFrom (n : Nat) : words.foldl mul (wrap n) = wrap (n * words.foldr (· * ·) 1) := by
    induction words generalizing n with
    | nil => rw [List.foldl_nil, List.foldr_nil, Nat.mul_one]
    | cons word words ih => rw [List.foldl_cons, mul_wrap, ih, List.foldr_cons, Nat.mul_assoc]
  exact (hFrom 1).trans (by rw [Nat.one_mul])

theorem count_eq (choices : List Nat) :
    count choices
      = if choices.all (· < size) then wrap (choices.foldr (· * ·) 1)
        else choices.foldr (· * ·) 1 := by
  rw [count, product_eq_wrap]

/-- As long as the product fits a word, it is the count. -/
theorem count_of_lt {choices : List Nat} (h : choices.foldr (· * ·) 1 < size) :
    count choices = choices.foldr (· * ·) 1 := by
  rw [count_eq, wrap_of_lt h, ite_self]

end Word

end VectorIndexing
