import Mathlib.Data.List.TakeWhile
import PushReceiver.Cpp

set_option autoImplicit false

namespace PushReceiver

-- What std::to_string and printf print, and the digits a scan of a number starts with.
def decimal (n : Nat) : Bytes := (Nat.toDigits 10 n).map fun c => UInt8.ofNat c.toNat

def isDecimalDigit (c : UInt8) : Bool := 48 ≤ c ∧ c ≤ 57

def decimalDigits (text : Bytes) : Bytes := text.takeWhile isDecimalDigit

def decimalValue (digits : Bytes) : Nat := digits.foldl (fun value c => value * 10 + (c.toNat - 48)) 0

-- isspace in the "C" locale.
def isWhiteSpace (c : UInt8) : Bool := c = 32 ∨ (9 ≤ c ∧ c ≤ 13)

-- std::stoull, which reads as far as the number goes and ignores the rest.
def stoull (text : Bytes) : Except Exception Nat :=
  let text := text.dropWhile isWhiteSpace
  let negative := text.head? = some 45
  let digits := decimalDigits (if negative ∨ text.head? = some 43 then text.drop 1 else text)
  if digits = [] then .error .invalidArgument
  else if 18446744073709551616 ≤ decimalValue digits then .error .outOfRange
  else if negative then .ok ((18446744073709551616 - decimalValue digits) % 18446744073709551616)
  else .ok (decimalValue digits)

theorem digit_byte (c : Char) (digit : c.isDigit = true) :
    isDecimalDigit (UInt8.ofNat c.toNat) = true ∧ (UInt8.ofNat c.toNat).toNat = c.toNat := by
  have range : 48 ≤ c.toNat ∧ c.toNat ≤ 57 := by
    simp only [Char.isDigit, ge_iff_le, Bool.and_eq_true, decide_eq_true_eq] at digit
    exact digit
  have same : (UInt8.ofNat c.toNat).toNat = c.toNat := UInt8.toNat_ofNat_of_lt' (Nat.lt_of_le_of_lt range.2 (by decide))
  refine ⟨?_, same⟩
  simp only [isDecimalDigit, UInt8.le_iff_toNat_le, same, decide_eq_true_eq]
  exact range

theorem decimal_is_digits (n : Nat) : ∀ c ∈ decimal n, isDecimalDigit c = true := by
  intro c member
  obtain ⟨digit, inside, rfl⟩ := List.mem_map.mp member
  exact (digit_byte digit (Nat.isDigit_of_mem_toDigits (by decide) (by decide) inside)).1

theorem decimal_nonempty (n : Nat) : decimal n ≠ [] := by
  rw [decimal, Ne, List.map_eq_nil_iff]
  exact Nat.toDigits_ne_nil

theorem decimal_digits_decimal (n : Nat) : decimalDigits (decimal n) = decimal n :=
  List.takeWhile_eq_self_iff.mpr (decimal_is_digits n)

theorem decimal_value_digits (digits : List Char) (areDigits : ∀ c ∈ digits, c.isDigit = true) (value : Nat) :
    (digits.map fun c => UInt8.ofNat c.toNat).foldl (fun value c => value * 10 + (c.toNat - 48)) value =
      Nat.ofDigitChars 10 digits value := by
  induction digits generalizing value with
  | nil => simp
  | cons c rest ih =>
      obtain ⟨_, same⟩ := digit_byte c (areDigits c List.mem_cons_self)
      rw [List.map_cons, List.foldl_cons, ih (fun d member => areDigits d (List.mem_cons_of_mem c member)), same,
        Nat.ofDigitChars_cons, Nat.mul_comm value 10]
      rfl

theorem decimal_value_decimal (n : Nat) : decimalValue (decimal n) = n := by
  rw [decimalValue, decimal, decimal_value_digits _ fun c member => Nat.isDigit_of_mem_toDigits (by decide) (by decide) member]
  exact Nat.ofDigitChars_ten_toDigits

theorem digit_plain (c : UInt8) (digit : isDecimalDigit c = true) : isWhiteSpace c = false ∧ c ≠ 45 ∧ c ≠ 43 := by
  simp only [isDecimalDigit, UInt8.le_iff_toNat_le, decide_eq_true_eq] at digit
  have low : 48 ≤ c.toNat := digit.1
  simp only [isWhiteSpace, UInt8.le_iff_toNat_le, ne_eq, ← UInt8.toNat_inj, decide_eq_false_iff_not]
  simp only [UInt8.reduceToNat]
  omega

theorem stoull_decimal (n : Nat) (bound : n < 18446744073709551616) : stoull (decimal n) = .ok n := by
  cases printed : decimal n with
  | nil => exact absurd printed (decimal_nonempty n)
  | cons first rest =>
      obtain ⟨noSpace, noMinus, noPlus⟩ := digit_plain first (decimal_is_digits n first (by rw [printed]; exact List.mem_cons_self))
      have trimmed : (first :: rest).dropWhile isWhiteSpace = first :: rest := by rw [List.dropWhile_cons, noSpace, if_neg (by decide)]
      have digits : decimalDigits (first :: rest) = first :: rest := by rw [← printed, decimal_digits_decimal]
      have value : decimalValue (first :: rest) = n := by rw [← printed, decimal_value_decimal]
      simp only [stoull, trimmed, List.head?_cons, Option.some.injEq, noMinus, noPlus, or_self, if_false, digits, value]
      rw [if_neg (List.cons_ne_nil first rest), if_neg (Nat.not_le.mpr bound)]

end PushReceiver
