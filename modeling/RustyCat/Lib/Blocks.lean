import Mathlib.Data.List.Basic

/-!
# Cutting a list into blocks

The blocks of a list, all of one size but the last one, and slices put together
from them.
-/

namespace Blocks

universe u

variable {α : Type u} {size : Nat} {l : List α}

/-- The entries from `start` up to `stop`. -/
def slice (l : List α) (start stop : Nat) : List α :=
  (l.drop start).take (stop - start)

def block (size : Nat) (l : List α) (index : Nat) : List α :=
  (l.drop (index * size)).take size

def count (size length : Nat) : Nat :=
  (length + size - 1) / size

variable {start stop index : Nat}

theorem length_slice (inside : stop ≤ l.length) :
    (slice l start stop).length = stop - start := by
  rw [slice, List.length_take, List.length_drop]
  omega

theorem slice_append {middle : Nat} (first : start ≤ middle) (second : middle ≤ stop) :
    slice l start middle ++ slice l middle stop = slice l start stop := by
  have split : stop - start = (middle - start) + (stop - middle) := by omega
  rw [slice, slice, slice, split, List.take_add, List.drop_drop]
  congr 3
  omega

theorem slice_self (start : Nat) : slice l start start = [] := by
  rw [slice, Nat.sub_self, List.take_zero]

theorem slice_slice {first last : Nat} (inside : start + last ≤ stop) :
    slice (slice l start stop) first last = slice l (start + first) (start + last) := by
  simp only [slice, List.drop_take, List.take_take, List.drop_drop]
  congr 1
  omega

theorem block_eq_slice (index : Nat) :
    block size l index = slice l (index * size) (index * size + size) := by
  rw [block, slice, Nat.add_sub_cancel_left]

theorem block_append (inside : index * size + size ≤ l.length) (more : List α) :
    block size (l ++ more) index = block size l index := by
  rw [block, block, List.drop_append_of_le_length (by omega),
    List.take_append_of_le_length (by rw [List.length_drop]; omega)]

theorem block_last (short : l.length < (l.length / size + 1) * size) :
    block size l (l.length / size) = l.drop (l.length / size * size) := by
  rw [block, List.take_of_length_le]
  rw [List.length_drop]
  have product : (l.length / size + 1) * size = l.length / size * size + size := by
    rw [Nat.add_mul, Nat.one_mul]
  omega

theorem lt_count {length : Nat} (positive : 0 < size)
    (begins : index * size < length) : index < count size length := by
  rw [count, Nat.lt_iff_add_one_le, Nat.le_div_iff_mul_le positive, Nat.add_mul, Nat.one_mul]
  omega

theorem lt_of_lt_count {length : Nat} (positive : 0 < size)
    (counted : index < count size length) : index * size < length := by
  rw [count, Nat.lt_iff_add_one_le, Nat.le_div_iff_mul_le positive, Nat.add_mul,
    Nat.one_mul] at counted
  omega

theorem count_of_dvd {blocks : Nat} (positive : 0 < size) :
    count size (blocks * size) = blocks := by
  rw [count, Nat.div_eq_of_lt_le]
  · omega
  · rw [Nat.add_mul, Nat.one_mul]
    omega

theorem count_of_rest {blocks rest : Nat} (positive : 0 < rest) (short : rest < size) :
    count size (blocks * size + rest) = blocks + 1 := by
  rw [count, Nat.div_eq_of_lt_le]
  · rw [Nat.add_mul, Nat.one_mul]
    omega
  · rw [Nat.add_mul, Nat.add_mul, Nat.one_mul]
    omega

end Blocks
