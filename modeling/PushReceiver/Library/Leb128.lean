import Mathlib.Data.List.Basic
import Mathlib.Order.Bounds.Defs
import Mathlib.Tactic.Ring

set_option autoImplicit false

namespace Leb128

-- Base 128, least significant group first. Every byte but the last of a group
-- sequence carries the continuation bit.
def value : List UInt8 → Nat
  | [] => 0
  | byte :: rest => byte.toNat % 128 + 128 * value rest

def Terminated : List UInt8 → Prop
  | [] => False
  | byte :: rest => if byte.toNat < 128 then rest = [] else Terminated rest

def Open (bytes : List UInt8) : Prop := ∀ byte ∈ bytes, 128 ≤ byte.toNat

instance decidableTerminated : (bytes : List UInt8) → Decidable (Terminated bytes)
  | [] => inferInstanceAs (Decidable False)
  | byte :: rest =>
      have := decidableTerminated rest
      inferInstanceAs (Decidable (if byte.toNat < 128 then rest = [] else Terminated rest))

instance (bytes : List UInt8) : Decidable (Open bytes) :=
  inferInstanceAs (Decidable (∀ byte ∈ bytes, 128 ≤ byte.toNat))

def encode (n : Nat) : List UInt8 :=
  if n < 128 then [UInt8.ofNat n] else UInt8.ofNat (n % 128 + 128) :: encode (n / 128)
termination_by n
decreasing_by omega

theorem terminated_last (byte : UInt8) (last : byte.toNat < 128) : Terminated [byte] := by
  simp [Terminated, last]

theorem terminated_cons (byte : UInt8) (rest : List UInt8) (more : 128 ≤ byte.toNat) :
    Terminated (byte :: rest) ↔ Terminated rest := by
  simp [Terminated, Nat.not_lt.mpr more]

theorem terminated_nonempty (bytes : List UInt8) (terminated : Terminated bytes) : 0 < bytes.length := by
  cases bytes with
  | nil => exact terminated.elim
  | cons byte rest => simp

theorem open_nil : Open [] := by simp [Open]

theorem open_cons (byte : UInt8) (rest : List UInt8) : Open (byte :: rest) ↔ 128 ≤ byte.toNat ∧ Open rest := by
  simp [Open]

theorem open_take (bytes : List UInt8) (opened : Open bytes) (count : Nat) : Open (bytes.take count) :=
  fun byte member => opened byte (List.mem_of_mem_take member)

-- A byte string either never leaves the continuation bit or starts with exactly one terminated group.
theorem open_or_terminated (bytes : List UInt8) :
    Open bytes ∨ ∃ pfx suffix, bytes = pfx ++ suffix ∧ Terminated pfx := by
  induction bytes with
  | nil => exact .inl open_nil
  | cons byte rest ih =>
      by_cases last : byte.toNat < 128
      · exact .inr ⟨[byte], rest, rfl, terminated_last byte last⟩
      · have more : 128 ≤ byte.toNat := by omega
        rcases ih with opened | ⟨pfx, suffix, split, terminated⟩
        · exact .inl ((open_cons byte rest).mpr ⟨more, opened⟩)
        · exact .inr ⟨byte :: pfx, suffix, by simp [split], (terminated_cons byte pfx more).mpr terminated⟩

theorem terminated_not_open (pfx suffix : List UInt8) (terminated : Terminated pfx) : ¬ Open (pfx ++ suffix) := by
  induction pfx with
  | nil => exact terminated.elim
  | cons byte rest ih =>
      rw [List.cons_append, open_cons]
      rintro ⟨more, opened⟩
      exact ih ((terminated_cons byte rest more).mp terminated) opened

theorem terminated_proper_prefix_open (bytes : List UInt8) (terminated : Terminated bytes) (count : Nat)
    (short : count < bytes.length) : Open (bytes.take count) := by
  induction bytes generalizing count with
  | nil => exact terminated.elim
  | cons byte rest ih =>
      cases count with
      | zero => exact open_nil
      | succ count =>
          have longer : count < rest.length := by simpa using short
          have more : 128 ≤ byte.toNat := by
            by_contra last
            have single : rest = [] := by simpa [Terminated, Nat.lt_of_not_le last] using terminated
            simp [single] at longer
          rw [List.take_succ_cons, open_cons]
          exact ⟨more, ih ((terminated_cons byte rest more).mp terminated) count longer⟩

theorem terminated_end (front : List UInt8) (byte : UInt8) (terminated : Terminated (front ++ [byte])) : byte.toNat < 128 := by
  by_contra more
  have frontOpen : Open front := by
    have opened := terminated_proper_prefix_open (front ++ [byte]) terminated front.length (by simp)
    rwa [List.take_left] at opened
  have opened : Open (front ++ [byte]) := by
    intro other member
    rcases List.mem_append.mp member with before | last
    · exact frontOpen other before
    · rw [List.mem_singleton.mp last]
      exact Nat.le_of_not_lt more
  exact terminated_not_open (front ++ [byte]) [] terminated (by rwa [List.append_nil])

theorem terminated_encode (n : Nat) : Terminated (encode n) := by
  induction n using Nat.strongRecOn with
  | ind n ih =>
      rw [encode]
      split
      · rename_i small
        exact terminated_last _ (by rw [UInt8.toNat_ofNat']; omega)
      · rename_i large
        have more : 128 ≤ (UInt8.ofNat (n % 128 + 128)).toNat := by rw [UInt8.toNat_ofNat']; omega
        exact (terminated_cons _ _ more).mpr (ih (n / 128) (by omega))

theorem value_encode (n : Nat) : value (encode n) = n := by
  induction n using Nat.strongRecOn with
  | ind n ih =>
      rw [encode]
      split
      · simp only [value, UInt8.toNat_ofNat']
        omega
      · simp only [value, UInt8.toNat_ofNat', ih (n / 128) (by omega)]
        omega

theorem value_bound (bytes : List UInt8) : value bytes < 128 ^ bytes.length := by
  induction bytes with
  | nil => simp [value]
  | cons byte rest ih =>
      have group : byte.toNat % 128 < 128 := Nat.mod_lt _ (by decide)
      simp only [value, List.length_cons, Nat.pow_succ]
      omega

-- The shortest form: a group beyond the first is written only when the value needs it.
theorem encode_length_lower (n : Nat) (long : 1 < (encode n).length) : 128 ^ ((encode n).length - 1) ≤ n := by
  induction n using Nat.strongRecOn with
  | ind n ih =>
      rw [encode] at long ⊢
      split at long
      · simp at long
      · rename_i large
        simp only [if_neg large, List.length_cons, Nat.add_sub_cancel]
        by_cases more : 1 < (encode (n / 128)).length
        · have below := ih (n / 128) (by omega) more
          have split : (encode (n / 128)).length = (encode (n / 128)).length - 1 + 1 := by omega
          rw [split, Nat.pow_succ]
          omega
        · have single : (encode (n / 128)).length = 1 := by
            have positive := terminated_nonempty _ (terminated_encode (n / 128))
            omega
          rw [single]
          omega

theorem encode_length_upper (n groups : Nat) (bound : n < 128 ^ (groups + 1)) : (encode n).length ≤ groups + 1 := by
  induction groups generalizing n with
  | zero =>
      rw [encode, if_pos (by simpa using bound)]
      simp
  | succ groups ih =>
      rw [encode]
      split
      · simp
      · rename_i large
        have below : n / 128 < 128 ^ (groups + 1) := by
          rw [Nat.div_lt_iff_lt_mul (by decide), ← Nat.pow_succ]
          exact bound
        simpa using ih (n / 128) below

theorem encode_length_least (n : Nat) : IsLeast {groups | 1 ≤ groups ∧ n < 128 ^ groups} (encode n).length := by
  constructor
  · refine ⟨terminated_nonempty _ (terminated_encode n), ?_⟩
    have bound := value_bound (encode n)
    rwa [value_encode] at bound
  · rintro groups ⟨positive, bound⟩
    obtain ⟨less, rfl⟩ := Nat.exists_eq_add_of_le' positive
    exact encode_length_upper n less bound

theorem value_append (front back : List UInt8) : value (front ++ back) = value front + 128 ^ front.length * value back := by
  induction front with
  | nil => simp [value]
  | cons byte rest ih =>
      simp only [List.cons_append, value, ih, List.length_cons, Nat.pow_succ]
      ring

-- How many bytes a reader looks at that stops behind the first byte without continuation bit.
def scanned : List UInt8 → Nat
  | [] => 0
  | byte :: rest => if byte.toNat < 128 then 1 else scanned rest + 1

theorem scanned_open (bytes : List UInt8) (opened : Open bytes) : scanned bytes = bytes.length := by
  induction bytes with
  | nil => rfl
  | cons byte rest ih =>
      obtain ⟨more, restOpened⟩ := (open_cons byte rest).mp opened
      rw [scanned, if_neg (Nat.not_lt.mpr more), ih restOpened, List.length_cons]

theorem scanned_terminated (pfx suffix : List UInt8) (terminated : Terminated pfx) :
    scanned (pfx ++ suffix) = pfx.length := by
  induction pfx with
  | nil => exact terminated.elim
  | cons byte rest ih =>
      rw [List.cons_append, scanned]
      by_cases last : byte.toNat < 128
      · have single : rest = [] := by simpa [Terminated, last] using terminated
        rw [if_pos last, single]
        rfl
      · rw [if_neg last, ih ((terminated_cons byte rest (Nat.le_of_not_lt last)).mp terminated), List.length_cons]

theorem scanned_within (bytes : List UInt8) : scanned bytes ≤ bytes.length := by
  rcases open_or_terminated bytes with opened | ⟨pfx, suffix, rfl, terminated⟩
  · exact Nat.le_of_eq (scanned_open bytes opened)
  · rw [scanned_terminated pfx suffix terminated, List.length_append]
    exact Nat.le_add_right _ _

-- A text starts with one terminated group sequence at most.
theorem terminated_unique (pfx suffix other rest : List UInt8) (same : pfx ++ suffix = other ++ rest)
    (terminated : Terminated pfx) (otherTerminated : Terminated other) : pfx = other := by
  have length : pfx.length = other.length := by
    rw [← scanned_terminated pfx suffix terminated, same, scanned_terminated other rest otherTerminated]
  exact (List.append_inj same length).1

end Leb128
