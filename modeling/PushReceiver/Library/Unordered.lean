import Mathlib.Data.List.Perm.Basic
import Mathlib.Order.Defs.LinearOrder

set_option autoImplicit false

namespace Unordered

variable {α : Type}

-- Loops over a collection without an order of its own, seen as lists that permute each other.
theorem first_match_found (list : List α) (wanted : α → Bool) (found : α) (member : found ∈ list) (fits : wanted found)
    (unique : ∀ a ∈ list, ∀ b ∈ list, wanted a → wanted b → a = b) : list.find? wanted = some found := by
  cases first : list.find? wanted with
  | none => exact absurd fits (List.find?_eq_none.mp first found member)
  | some other =>
      have same := unique other (List.mem_of_find?_eq_some first) found member (List.find?_some first) fits
      rw [same]

theorem first_match_perm (list order : List α) (wanted : α → Bool) (perm : order.Perm list)
    (unique : ∀ a ∈ list, ∀ b ∈ list, wanted a → wanted b → a = b) : order.find? wanted = list.find? wanted := by
  cases first : order.find? wanted with
  | none =>
      symm
      rw [List.find?_eq_none] at first ⊢
      intro a member
      exact first a (perm.mem_iff.mpr member)
  | some found =>
      have member := perm.mem_iff.mp (List.mem_of_find?_eq_some first)
      exact (first_match_found list wanted found member (List.find?_some first) unique).symm

theorem sorted_perm (le : α → α → Bool) (transitive : ∀ a b c, le a b → le b c → le a c) (total : ∀ a b, le a b || le b a)
    (antisymmetric : ∀ a b, le a b → le b a → a = b) (list order : List α) (perm : order.Perm list) :
    order.mergeSort le = list.mergeSort le := by
  have sorted := fun elements : List α => List.pairwise_mergeSort transitive total elements
  apply List.Perm.eq_of_pairwise _ (sorted order) (sorted list)
  · exact (List.mergeSort_perm order le).trans (perm.trans (List.mergeSort_perm list le).symm)
  · intro a b _ _ below above
    exact antisymmetric a b below above

theorem widest_perm (list order : List Int) (perm : order.Perm list) (start : Int) :
    order.foldl (fun widest size => if widest < size then size else widest) start =
      list.foldl (fun widest size => if widest < size then size else widest) start := by
  have larger : ∀ widest size : Int, (if widest < size then size else widest) = max widest size := by
    intro widest size
    omega
  apply perm.foldl_eq'
  intro a _ b _ widest
  simp only [larger]
  omega

end Unordered
