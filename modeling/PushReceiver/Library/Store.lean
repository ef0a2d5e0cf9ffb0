import Mathlib.Data.List.Basic

set_option autoImplicit false

namespace Store

variable {A : Type}

-- An array of fixed length that a function writes through a pointer. A write that would leave
-- the array is refused here: the program that makes it has no defined behaviour.
def write (array : List A) (offset : Nat) (items : List A) : Option (List A) :=
  if array.length < offset + items.length then none
  else some (array.take offset ++ items ++ array.drop (offset + items.length))

theorem write_refused (array : List A) (offset : Nat) (items : List A) :
    write array offset items = none ↔ array.length < offset + items.length := by
  unfold write
  split
  · rename_i outside
    exact ⟨fun _ => outside, fun _ => rfl⟩
  · rename_i inside
    exact ⟨fun refused => (by cases refused), fun outside => absurd outside inside⟩

theorem write_inside (array : List A) (offset : Nat) (items : List A) (inside : offset + items.length ≤ array.length) :
    write array offset items = some (array.take offset ++ items ++ array.drop (offset + items.length)) := by
  rw [write, if_neg (Nat.not_lt.mpr inside)]

theorem write_some (array next : List A) (offset : Nat) (items : List A) (written : write array offset items = some next) :
    offset + items.length ≤ array.length ∧ next = array.take offset ++ items ++ array.drop (offset + items.length) := by
  unfold write at written
  split at written
  · cases written
  · rename_i inside
    exact ⟨Nat.le_of_not_lt inside, (Option.some.inj written).symm⟩

theorem write_length (array next : List A) (offset : Nat) (items : List A) (written : write array offset items = some next) :
    next.length = array.length := by
  obtain ⟨inside, rfl⟩ := write_some array next offset items written
  simp only [List.length_append, List.length_take, List.length_drop]
  omega

-- What stands in front of a write stays.
theorem write_before (array next : List A) (offset count : Nat) (items : List A) (before : count ≤ offset)
    (written : write array offset items = some next) : next.take count = array.take count := by
  obtain ⟨inside, rfl⟩ := write_some array next offset items written
  have reached : (array.take offset).length = offset := List.length_take_of_le (by omega)
  rw [List.append_assoc, List.take_append_of_le_length (by omega), List.take_take, Nat.min_eq_left before]

theorem write_through (array next : List A) (offset : Nat) (items : List A) (written : write array offset items = some next) :
    next.take (offset + items.length) = array.take offset ++ items := by
  obtain ⟨inside, rfl⟩ := write_some array next offset items written
  have reached : (array.take offset).length = offset := List.length_take_of_le (by omega)
  rw [List.take_left' (by rw [List.length_append, reached])]

theorem write_after (array next : List A) (offset count : Nat) (items : List A) (after : offset + items.length ≤ count)
    (written : write array offset items = some next) : next.drop count = array.drop count := by
  obtain ⟨inside, rfl⟩ := write_some array next offset items written
  have reached : (array.take offset ++ items).length = offset + items.length := by
    rw [List.length_append, List.length_take_of_le (by omega)]
  rw [List.drop_append, reached, List.drop_eq_nil_of_le (by omega), List.nil_append, List.drop_drop, Nat.add_sub_of_le after]

-- Two writes, one behind the other, are one.
theorem write_joined (array next : List A) (offset : Nat) (items more : List A)
    (written : write array offset items = some next) :
    write next (offset + items.length) more = write array offset (items ++ more) := by
  have size := write_length array next offset items written
  rw [write, write, size, List.length_append, ← Nat.add_assoc, write_through array next offset items written,
    write_after array next offset _ items (Nat.le_add_right _ _) written, List.append_assoc (array.take offset)]

end Store
