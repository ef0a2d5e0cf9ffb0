import PushReceiver.Cpp
import Mathlib.Data.List.TakeWhile

set_option autoImplicit false

namespace PushReceiver

-- StringUtil::split and the target of StringUtil::replace_all, for the one-character strings
-- they are called with.
def split (str : Bytes) (delim : UInt8) : List Bytes := str.splitOn delim

def join (tokens : List Bytes) (delim : Bytes) : Bytes := delim.intercalate tokens

def replaceAll (str : Bytes) (target : UInt8) (replacement : Bytes) : Bytes :=
  str.flatMap fun chr => if chr = target then replacement else [chr]

theorem take_while_whole (str : Bytes) (chr : UInt8) : str.takeWhile (fun other => decide (other ≠ chr)) = str ↔ chr ∉ str := by
  rw [List.takeWhile_eq_self_iff]
  constructor
  · intro differ inside
    simpa using differ chr inside
  · exact each_differs str chr

theorem split_first (before after : Bytes) (delim : UInt8) (first : delim ∉ before) :
    split (before ++ delim :: after) delim = before :: split after delim :=
  List.splitOn_append_cons_self_of_not_mem first after

theorem split_alone (str : Bytes) (delim : UInt8) (absent : delim ∉ str) : split str delim = [str] :=
  List.splitOn_eq_singleton absent

theorem first_delimiter (str : Bytes) (delim : UInt8) (member : delim ∈ str) :
    ∃ before after, str = before ++ delim :: after ∧ delim ∉ before := by
  induction str with
  | nil => cases member
  | cons chr rest ih =>
      by_cases same : chr = delim
      · exact ⟨[], rest, by rw [same]; rfl, List.not_mem_nil⟩
      · obtain ⟨before, after, rfl, absent⟩ := ih (List.mem_of_ne_of_mem (Ne.symm same) member)
        refine ⟨chr :: before, after, rfl, ?_⟩
        rintro (_ | ⟨_, inside⟩)
        · exact same rfl
        · exact absent inside

-- The parts of a text: one in front of each delimiter, and the last.
theorem delimited_induction {motive : Bytes → Prop} (delim : UInt8) (alone : ∀ str, delim ∉ str → motive str)
    (first : ∀ before after, delim ∉ before → motive after → motive (before ++ delim :: after)) (str : Bytes) : motive str := by
  induction size : str.length using Nat.strongRecOn generalizing str with
  | ind length ih =>
      by_cases member : delim ∈ str
      · obtain ⟨before, after, rfl, absent⟩ := first_delimiter str delim member
        have shorter : after.length < length := by
          rw [← size, List.length_append, List.length_cons]
          omega
        exact first before after absent (ih after.length shorter after rfl)
      · exact alone str member

theorem split_head (str : Bytes) (delim : UInt8) : (split str delim).head? = some (str.takeWhile (· ≠ delim)) := by
  by_cases member : delim ∈ str
  · obtain ⟨before, after, rfl, absent⟩ := first_delimiter str delim member
    rw [split_first before after delim absent, List.head?_cons,
      List.takeWhile_append_of_pos (each_differs before delim absent)]
    simp
  · rw [split_alone str delim member, List.head?_cons, List.takeWhile_eq_self_iff.mpr (each_differs str delim member)]

-- The second token runs from the first delimiter to the next one or to the end.
theorem split_second (before after : Bytes) (delim : UInt8) (first : delim ∉ before) :
    (split (before ++ delim :: after) delim)[1]? = some (after.takeWhile (· ≠ delim)) := by
  rw [split_first before after delim first, List.getElem?_cons_succ, ← List.head?_eq_getElem?, split_head]

theorem split_second_none (str : Bytes) (delim : UInt8) (absent : delim ∉ str) : (split str delim)[1]? = none := by
  rw [split_alone str delim absent]
  rfl

theorem replace_all_append (left right : Bytes) (target : UInt8) (replacement : Bytes) :
    replaceAll (left ++ right) target replacement = replaceAll left target replacement ++ replaceAll right target replacement :=
  List.flatMap_append

theorem replace_all_absent (str : Bytes) (target : UInt8) (replacement : Bytes) (absent : target ∉ str) :
    replaceAll str target replacement = str := by
  induction str with
  | nil => rfl
  | cons chr rest ih =>
      obtain ⟨differs, later⟩ := not_or.mp (mt List.mem_cons.mpr absent)
      rw [replaceAll, List.flatMap_cons, if_neg (Ne.symm differs), ← replaceAll, ih later]
      rfl

theorem replace_all_repeated (target : UInt8) (count : Nat) : replaceAll (List.replicate count target) target [] = [] := by
  induction count with
  | zero => rfl
  | succ count ih =>
      rw [List.replicate_succ, replaceAll, List.flatMap_cons, if_pos rfl, ← replaceAll, ih]
      rfl

end PushReceiver
