import Mathlib.Data.Finset.Sort
import Mathlib.Order.Defs.LinearOrder

set_option autoImplicit false

namespace PushReceiver.Arguments

-- wchar_t of the Windows targets.
abbrev WChar := UInt16

abbrev WString := List WChar

def wide (text : String) : WString := text.toList.map fun c => UInt16.ofNat c.toNat

def minusSign : WChar := 45

def equalSign : WChar := 61

inductive ArgumentOptionType where
  | normalOption
  | inputOption
  | helpOption
  | versionOption
deriving DecidableEq, Repr

-- CArgumentOption. A std::set is the set of its elements, read in ascending order.
structure ArgumentOption where
  type : ArgumentOptionType
  wasSet : Nat
  value : WString
  shortCommands : Finset WChar
  longCommands : Finset WString
  description : WString
deriving DecidableEq

def ascendingShorts (shortCommands : Finset WChar) : List WChar := shortCommands.sort (· ≤ ·)

def ascendingLongs (longCommands : Finset WString) : List WString := longCommands.sort (· ≤ ·)

def constructOption (type : ArgumentOptionType) (shortCommands : Finset WChar) (longCommands : Finset WString)
    (description : WString) : ArgumentOption :=
  { type, wasSet := 0, value := [], shortCommands, longCommands, description }

def validShortCommand (shortCommand : WChar) : Bool := !(shortCommand < 33 || shortCommand = minusSign || shortCommand = 127)

-- front() of an empty string is the terminator.
def validLongCommand (longCommand : WString) : Bool := !(longCommand.headD 0 = minusSign || longCommand.contains equalSign)

def ArgumentOption.addShortCommand (option : ArgumentOption) (shortCommand : WChar) : Bool × ArgumentOption :=
  if validShortCommand shortCommand then
    (decide (shortCommand ∉ option.shortCommands), { option with shortCommands := insert shortCommand option.shortCommands })
  else (false, option)

def ArgumentOption.addShortCommands (option : ArgumentOption) (shortCommands : Finset WChar) : Bool × ArgumentOption :=
  if (ascendingShorts shortCommands).all validShortCommand then
    (true, { option with shortCommands := option.shortCommands ∪ shortCommands })
  else (false, option)

def ArgumentOption.clearShortCommands (option : ArgumentOption) : ArgumentOption := { option with shortCommands := ∅ }

def ArgumentOption.addLongCommand (option : ArgumentOption) (longCommand : WString) : Bool × ArgumentOption :=
  if validLongCommand longCommand then
    (decide (longCommand ∉ option.longCommands), { option with longCommands := insert longCommand option.longCommands })
  else (false, option)

def ArgumentOption.addLongCommands (option : ArgumentOption) (longCommands : Finset WString) : Bool × ArgumentOption :=
  if (ascendingLongs longCommands).all validLongCommand then
    (true, { option with longCommands := option.longCommands ∪ longCommands })
  else (false, option)

def ArgumentOption.clearLongCommands (option : ArgumentOption) : ArgumentOption := { option with longCommands := ∅ }

-- What two options must not have in common for a command to name one of them.
def ArgumentOption.Disjoint (option other : ArgumentOption) : Prop :=
  (∀ shortCommand ∈ option.shortCommands, shortCommand ∉ other.shortCommands) ∧
    ∀ longCommand ∈ option.longCommands, longCommand ∉ other.longCommands

instance (option other : ArgumentOption) : Decidable (option.Disjoint other) :=
  decidable_of_iff (Disjoint option.shortCommands other.shortCommands ∧ Disjoint option.longCommands other.longCommands)
    (and_congr Finset.disjoint_left Finset.disjoint_left)

theorem disjoint_symm (option other : ArgumentOption) (disjoint : option.Disjoint other) : other.Disjoint option :=
  ⟨fun c member inside => disjoint.1 c inside member, fun n member inside => disjoint.2 n inside member⟩

theorem add_short_disjoint (option other : ArgumentOption) (shortCommand : WChar) (disjoint : option.Disjoint other)
    (fresh : validShortCommand shortCommand → shortCommand ∉ other.shortCommands) :
    (option.addShortCommand shortCommand).2.Disjoint other := by
  unfold ArgumentOption.addShortCommand
  split
  · rename_i valid
    refine ⟨?_, disjoint.2⟩
    intro command inside
    rcases Finset.mem_insert.mp inside with same | before
    · rw [same]
      exact fresh valid
    · exact disjoint.1 command before
  · exact disjoint

theorem add_shorts_disjoint (option other : ArgumentOption) (shortCommands : Finset WChar) (disjoint : option.Disjoint other)
    (fresh : (∀ shortCommand ∈ shortCommands, validShortCommand shortCommand) →
      ∀ shortCommand ∈ shortCommands, shortCommand ∉ other.shortCommands) :
    (option.addShortCommands shortCommands).2.Disjoint other := by
  unfold ArgumentOption.addShortCommands
  split
  · rename_i valid
    rw [List.all_eq_true] at valid
    refine ⟨?_, disjoint.2⟩
    intro command inside
    rcases Finset.mem_union.mp inside with before | added
    · exact disjoint.1 command before
    · exact fresh (fun each member => valid each ((Finset.mem_sort _).mpr member)) command added
  · exact disjoint

theorem add_long_disjoint (option other : ArgumentOption) (longCommand : WString) (disjoint : option.Disjoint other)
    (fresh : validLongCommand longCommand → longCommand ∉ other.longCommands) :
    (option.addLongCommand longCommand).2.Disjoint other := by
  unfold ArgumentOption.addLongCommand
  split
  · rename_i valid
    refine ⟨disjoint.1, ?_⟩
    intro command inside
    rcases Finset.mem_insert.mp inside with same | before
    · rw [same]
      exact fresh valid
    · exact disjoint.2 command before
  · exact disjoint

theorem add_longs_disjoint (option other : ArgumentOption) (longCommands : Finset WString) (disjoint : option.Disjoint other)
    (fresh : (∀ longCommand ∈ longCommands, validLongCommand longCommand) →
      ∀ longCommand ∈ longCommands, longCommand ∉ other.longCommands) :
    (option.addLongCommands longCommands).2.Disjoint other := by
  unfold ArgumentOption.addLongCommands
  split
  · rename_i valid
    rw [List.all_eq_true] at valid
    refine ⟨disjoint.1, ?_⟩
    intro command inside
    rcases Finset.mem_union.mp inside with before | added
    · exact disjoint.2 command before
    · exact fresh (fun each member => valid each ((Finset.mem_sort _).mpr member)) command added
  · exact disjoint

theorem clear_shorts_disjoint (option other : ArgumentOption) (disjoint : option.Disjoint other) :
    option.clearShortCommands.Disjoint other :=
  ⟨fun _ inside => absurd inside (Finset.notMem_empty _), disjoint.2⟩

theorem clear_longs_disjoint (option other : ArgumentOption) (disjoint : option.Disjoint other) :
    option.clearLongCommands.Disjoint other :=
  ⟨disjoint.1, fun _ inside => absurd inside (Finset.notMem_empty _)⟩

end PushReceiver.Arguments
