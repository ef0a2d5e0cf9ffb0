import Mathlib.Algebra.Group.Nat.Defs
import Mathlib.Data.List.Basic

set_option autoImplicit false

namespace PushReceiver

abbrev Bytes := List UInt8

def ascii (text : String) : Bytes := text.toList.map fun c => UInt8.ofNat c.toNat

-- int is 32 bits wide on every target; a conversion keeps the low 32 bits.
def toInt (n : Int) : Int := (n + 2147483648) % 4294967296 - 2147483648

-- What the two configurations of the project disagree on, or C++ leaves open: the width
-- of size_t, and the result of a 32-bit shift by 32 or more.
structure Target where
  sizeBits : Nat
  width : sizeBits = 32 ∨ sizeBits = 64
  shl : UInt32 → UInt32 → UInt32
  shl_defined : ∀ x shift, shift < 32 → shl x shift = x <<< shift

def Target.toSize (target : Target) (n : Int) : Nat := (n % (2 ^ target.sizeBits : Nat)).toNat

-- max_size() of a std::vector<uint8_t>.
def Target.maxSize (target : Target) : Nat := 2 ^ (target.sizeBits - 1) - 1

def Target.win32 : Target := ⟨32, .inl rfl, fun x shift => x <<< shift, fun _ _ _ => rfl⟩

def Target.x64 : Target := ⟨64, .inr rfl, fun x shift => x <<< shift, fun _ _ _ => rfl⟩

-- std::invalid_argument and nlohmann::json::type_error, with its id, among others.
inductive Exception where
  | runtimeError (what : String)
  | outOfRange
  | lengthError
  | invalidArgument
  | typeError (id : Nat)
deriving DecidableEq, Repr

-- A member function leaves the object in some state whether it returns or throws.
inductive Outcome (α : Type) where
  | returns (state : α)
  | throws (exception : Exception) (state : α)
deriving DecidableEq, Repr

def Outcome.state {α : Type} : Outcome α → α
  | .returns state => state
  | .throws _ state => state

theorem each_differs (str : Bytes) (chr : UInt8) (absent : chr ∉ str) : ∀ other ∈ str, decide (other ≠ chr) = true := by
  intro other inside
  have differs : other ≠ chr := fun same => absent (same ▸ inside)
  simpa using differs

theorem bind_ok {α β : Type} (result : Except Exception α) (next : α → Except Exception β) (value : β)
    (ok : result >>= next = .ok value) : ∃ middle, result = .ok middle ∧ next middle = .ok value := by
  cases result with
  | error exception => cases ok
  | ok middle => exact ⟨middle, rfl, ok⟩

theorem to_int_small (n : Int) (low : -2147483648 ≤ n) (high : n < 2147483648) : toInt n = n := by
  unfold toInt
  omega

theorem to_int_large (n : Int) (low : 2147483648 ≤ n) (high : n < 4294967296) : toInt n = n - 4294967296 := by
  unfold toInt
  omega

theorem to_size_small (target : Target) (n : Int) (low : 0 ≤ n) (high : n < 4294967296) :
    target.toSize n = n.toNat := by
  rcases target.width with narrow | wide
  · simp only [Target.toSize, narrow]
    omega
  · simp only [Target.toSize, wide]
    omega

theorem to_size_negative (target : Target) (n : Int) (low : -2147483648 ≤ n) (high : n < 0) :
    (target.toSize n : Int) = n + (2 ^ target.sizeBits : Nat) := by
  rcases target.width with narrow | wide
  · simp only [Target.toSize, narrow]
    omega
  · simp only [Target.toSize, wide]
    omega

theorem max_size_narrow (target : Target) (narrow : target.sizeBits = 32) : target.maxSize = 2147483647 := by
  simp [Target.maxSize, narrow]

theorem max_size_wide (target : Target) (wide : target.sizeBits = 64) : target.maxSize = 9223372036854775807 := by
  simp [Target.maxSize, wide]

theorem max_size_lower (target : Target) : 2147483647 ≤ target.maxSize := by
  rcases target.width with narrow | wide
  · exact Nat.le_of_eq (max_size_narrow target narrow).symm
  · rw [max_size_wide target wide]
    decide

end PushReceiver
