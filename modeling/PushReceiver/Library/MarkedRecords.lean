import Mathlib.Data.List.Basic

set_option autoImplicit false

namespace Records

variable {A B E : Type}

-- A reader of records that are told whether they are the last: it cuts the stream into records
-- of `size` items, the last one shorter or as long, and stops at the first that does not open.
def read (openRecord : Bool → Nat → List A → Except E (List B)) (size : Nat) : Nat → Nat → List A → Except E (List B)
  | 0, _, _ => .ok []
  | fuel + 1, counter, stream =>
      if stream.length = 0 then .ok []
      else do
        let text ← openRecord (decide (stream.length ≤ size)) counter (stream.take size)
        let others ← read openRecord size fuel (counter + 1) (stream.drop size)
        return text ++ others

-- A text sealed in records that tell the last one from the others.
inductive Marked (openRecord : Bool → Nat → List A → Except E (List B)) (size : Nat) : Nat → List A → List B → Prop where
  | last (counter : Nat) (record : List A) (text : List B) (some_ : record ≠ []) (short : record.length ≤ size)
      (opens : openRecord true counter record = .ok text) : Marked openRecord size counter record text
  | full (counter : Nat) (record rest : List A) (text others : List B) (whole : record.length = size)
      (opens : openRecord false counter record = .ok text) (later : Marked openRecord size (counter + 1) rest others) :
      Marked openRecord size counter (record ++ rest) (text ++ others)

variable {openRecord : Bool → Nat → List A → Except E (List B)} {size : Nat}

theorem marked_some (counter : Nat) (stream : List A) (text : List B) (marked : Marked openRecord size counter stream text)
    (positive : 0 < size) : 0 < stream.length := by
  cases marked with
  | last _ _ _ some_ short opens => exact List.length_pos_of_ne_nil some_
  | full _ record rest text others whole opens later =>
      rw [List.length_append, whole]
      exact Nat.add_pos_left positive _

theorem read_last (counter fuel : Nat) (record : List A) (some_ : record ≠ []) (short : record.length ≤ size) :
    read openRecord size (fuel + 1) counter record = openRecord true counter record := by
  have nothing : record.drop size = [] := List.drop_eq_nil_of_le short
  have stops : read openRecord size fuel (counter + 1) [] = .ok [] := by
    cases fuel <;> rfl
  have nonempty : ¬ record.length = 0 := fun empty => some_ (List.eq_nil_of_length_eq_zero empty)
  rw [read, if_neg nonempty, List.take_of_length_le short, nothing, stops, decide_eq_true short]
  cases openRecord true counter record with
  | error error => rfl
  | ok text => exact congrArg Except.ok (List.append_nil text)

theorem read_full (counter fuel : Nat) (record rest : List A) (whole : record.length = size) (positive : 0 < size)
    (more : 0 < rest.length) :
    read openRecord size (fuel + 1) counter (record ++ rest) = (do
      let text ← openRecord false counter record
      let others ← read openRecord size fuel (counter + 1) rest
      return text ++ others) := by
  have length : (record ++ rest).length = size + rest.length := by rw [List.length_append, whole]
  have longer : ¬ (record ++ rest).length ≤ size := by omega
  rw [read, if_neg (by omega), decide_eq_false longer, List.take_left' whole, List.drop_left' whole]

theorem read_marked (counter : Nat) (stream : List A) (text : List B) (marked : Marked openRecord size counter stream text)
    (positive : 0 < size) (fuel : Nat) (enough : stream.length ≤ fuel) :
    read openRecord size fuel counter stream = .ok text := by
  induction marked generalizing fuel with
  | last counter record text some_ short opens =>
      obtain ⟨turns, rfl⟩ : ∃ turns, fuel = turns + 1 :=
        ⟨fuel - 1, by have := List.length_pos_of_ne_nil some_; omega⟩
      rw [read_last counter turns record some_ short, opens]
  | full counter record rest text others whole opens later ih =>
      rw [List.length_append] at enough
      obtain ⟨turns, rfl⟩ : ∃ turns, fuel = turns + 1 := ⟨fuel - 1, by omega⟩
      rw [read_full counter turns record rest whole positive (marked_some _ _ _ later positive), opens,
        ih turns (by omega)]
      rfl

-- A stream that is read to its end is sealed as what is read.
theorem marked_read (fuel counter : Nat) (stream : List A) (text : List B) (positive : 0 < size) (some_ : stream ≠ [])
    (enough : stream.length ≤ fuel) (reads : read openRecord size fuel counter stream = .ok text) :
    Marked openRecord size counter stream text := by
  induction fuel generalizing counter stream text with
  | zero => exact absurd (List.eq_nil_of_length_eq_zero (Nat.le_zero.mp enough)) some_
  | succ fuel ih =>
      by_cases short : stream.length ≤ size
      · rw [read_last counter fuel stream some_ short] at reads
        exact .last counter stream text some_ short reads
      · have whole : (stream.take size).length = size := List.length_take_of_le (by omega)
        have more : 0 < (stream.drop size).length := by
          rw [List.length_drop]
          omega
        rw [← List.take_append_drop size stream, read_full counter fuel _ _ whole positive more] at reads
        cases opens : openRecord false counter (stream.take size) with
        | error error =>
            rw [opens] at reads
            cases reads
        | ok first =>
            cases later : read openRecord size fuel (counter + 1) (stream.drop size) with
            | error error =>
                rw [opens, later] at reads
                cases reads
            | ok others =>
                rw [opens, later] at reads
                obtain rfl := Except.ok.inj reads
                rw [← List.take_append_drop size stream]
                refine .full counter _ _ first others whole opens
                  (ih (counter + 1) _ others (List.ne_nil_of_length_pos more) ?_ later)
                rw [List.length_drop]
                omega

-- A stream cut behind a full record ends in a record that was not sealed as the last one.
theorem read_truncated (counter : Nat) (stream : List A) (text : List B) (marked : Marked openRecord size counter stream text)
    (positive : 0 < size) (error : E)
    (tells : ∀ counter record text, openRecord false counter record = .ok text → openRecord true counter record = .error error)
    (records : Nat) (some_ : 0 < records) (cut : records * size < stream.length) (fuel : Nat) (enough : records * size ≤ fuel) :
    read openRecord size fuel counter (stream.take (records * size)) = .error error := by
  induction marked generalizing records fuel with
  | last counter record text someRecord short opens =>
      have one : size ≤ records * size := Nat.le_mul_of_pos_left size some_
      omega
  | full counter record rest text others whole opens later ih =>
      obtain ⟨before, rfl⟩ : ∃ before, records = before + 1 := ⟨records - 1, by omega⟩
      rw [Nat.succ_mul] at cut enough ⊢
      rw [List.length_append] at cut
      obtain ⟨turns, rfl⟩ : ∃ turns, fuel = turns + 1 := ⟨fuel - 1, by omega⟩
      have kept : (record ++ rest).take (before * size + size) = record ++ rest.take (before * size) := by
        rw [List.take_append, whole, Nat.add_sub_cancel, List.take_of_length_le (by omega)]
      rw [kept]
      cases before with
      | zero =>
          have nonempty : record ≠ [] := List.ne_nil_of_length_pos (by omega)
          rw [Nat.zero_mul, List.take_zero, List.append_nil, read_last counter turns record nonempty (by omega)]
          exact tells counter record text opens
      | succ before =>
          have remaining : (rest.take ((before + 1) * size)).length = (before + 1) * size :=
            List.length_take_of_le (by omega)
          have positiveRest : 0 < (before + 1) * size := Nat.mul_pos (Nat.succ_pos before) positive
          rw [read_full counter turns record _ whole positive (by omega), opens,
            ih (before + 1) (Nat.succ_pos before) (by omega) turns (by omega)]
          rfl

end Records
