import Mathlib.Data.List.Basic

set_option autoImplicit false

namespace Records

variable {A B : Type}

-- A text sealed in records: every record but the last has exactly `size` items, the last one
-- has at least `lower` and fewer than `size`, and each opens under its sequence number.
inductive Sealed (openRecord : Nat → List A → Option (List B)) (lower size : Nat) : Nat → List A → List B → Prop where
  | last (counter : Nat) (record : List A) (text : List B) (atLeast : lower ≤ record.length) (short : record.length < size)
      (opens : openRecord counter record = some text) : Sealed openRecord lower size counter record text
  | full (counter : Nat) (record rest : List A) (text others : List B) (whole : record.length = size)
      (opens : openRecord counter record = some text) (later : Sealed openRecord lower size (counter + 1) rest others) :
      Sealed openRecord lower size counter (record ++ rest) (text ++ others)

variable {openRecord : Nat → List A → Option (List B)} {lower size : Nat}

theorem sealed_length (counter : Nat) (stream : List A) (text : List B)
    (isSealed : Sealed openRecord lower size counter stream text) :
    ∃ records last, stream.length = records * size + last ∧ lower ≤ last ∧ last < size := by
  induction isSealed with
  | last counter record text atLeast short opens => exact ⟨0, record.length, by simp, atLeast, short⟩
  | full counter record rest text others whole opens later ih =>
      obtain ⟨records, last, length, atLeast, short⟩ := ih
      refine ⟨records + 1, last, ?_, atLeast, short⟩
      rw [List.length_append, whole, length, Nat.succ_mul]
      omega

-- The stream never ends on a record boundary, so a cut behind a whole record is noticed.
theorem sealed_mod (counter : Nat) (stream : List A) (text : List B)
    (isSealed : Sealed openRecord lower size counter stream text) :
    lower ≤ stream.length % size ∧ stream.length / size * size + lower ≤ stream.length := by
  obtain ⟨records, last, length, atLeast, short⟩ := sealed_length counter stream text isSealed
  have positive : 0 < size := Nat.zero_lt_of_lt short
  have mod : stream.length % size = last := by
    rw [length, Nat.mul_comm, Nat.mul_add_mod, Nat.mod_eq_of_lt short]
  have div := Nat.div_add_mod stream.length size
  rw [Nat.mul_comm] at div
  rw [mod] at div ⊢
  exact ⟨atLeast, by omega⟩

end Records
