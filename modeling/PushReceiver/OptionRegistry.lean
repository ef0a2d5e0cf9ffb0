import PushReceiver.ArgumentParser
import PushReceiver.Library.Transition

set_option autoImplicit false

namespace PushReceiver.Arguments

def checkIfArgumentIsUnique (state : Parsing) (ref : OptionRef) : Bool :=
  if ref ∈ state.parser.argumentOptions then false
  else if (state.options ref).shortCommands = ∅ ∧ (state.options ref).longCommands = ∅ then false
  else state.parser.argumentOptions.all fun argument => decide ((state.options ref).Disjoint (state.options argument))

-- The outer loop leaves by a break at the last element.
def checkIfAllArgumentsInListAreUnique (state : Parsing) : List OptionRef → Bool
  | [] => true
  | upper :: lower =>
      if !checkIfArgumentIsUnique state upper then false
      else if lower = [] then true
      else if !(lower.all fun ref => decide ((state.options upper).Disjoint (state.options ref))) then false
      else checkIfAllArgumentsInListAreUnique state lower

def Parsing.insertOption (state : Parsing) (ref : OptionRef) : Parsing :=
  if ref ∈ state.parser.argumentOptions then state else state.reorder (state.parser.argumentOptions ++ [ref])

def addArgumentOption (state : Parsing) (ref : OptionRef) : Bool × Parsing :=
  if !checkIfArgumentIsUnique state ref then (false, state)
  else (decide (ref ∉ state.parser.argumentOptions), state.insertOption ref)

def addArgumentOptions (state : Parsing) (args : List OptionRef) : Bool × Parsing :=
  if !checkIfAllArgumentsInListAreUnique state args then (false, state) else (true, args.foldl Parsing.insertOption state)

def removeArgumentOption (state : Parsing) (ref : OptionRef) : Bool × Parsing :=
  (decide (ref ∈ state.parser.argumentOptions), state.reorder (state.parser.argumentOptions.filter (· ≠ ref)))

def clearArgumentOptions (state : Parsing) : Parsing := state.reorder []

-- The public operations that change the registered options or their commands.
inductive Operation where
  | addArgumentOption (ref : OptionRef)
  | addArgumentOptions (args : List OptionRef)
  | removeArgumentOption (ref : OptionRef)
  | clearArgumentOptions
  | addShortCommand (ref : OptionRef) (shortCommand : WChar)
  | addShortCommands (ref : OptionRef) (shortCommands : Finset WChar)
  | clearShortCommands (ref : OptionRef)
  | addLongCommand (ref : OptionRef) (longCommand : WString)
  | addLongCommands (ref : OptionRef) (longCommands : Finset WString)
  | clearLongCommands (ref : OptionRef)
deriving DecidableEq

-- The result of a void function is given as true.
def Operation.perform (state : Parsing) : Operation → Bool × Parsing
  | .addArgumentOption ref => Arguments.addArgumentOption state ref
  | .addArgumentOptions args => Arguments.addArgumentOptions state args
  | .removeArgumentOption ref => Arguments.removeArgumentOption state ref
  | .clearArgumentOptions => (true, Arguments.clearArgumentOptions state)
  | .addShortCommand ref shortCommand =>
      let (added, option) := (state.options ref).addShortCommand shortCommand
      (added, state.update ref option)
  | .addShortCommands ref shortCommands =>
      let (added, option) := (state.options ref).addShortCommands shortCommands
      (added, state.update ref option)
  | .clearShortCommands ref => (true, state.update ref (state.options ref).clearShortCommands)
  | .addLongCommand ref longCommand =>
      let (added, option) := (state.options ref).addLongCommand longCommand
      (added, state.update ref option)
  | .addLongCommands ref longCommands =>
      let (added, option) := (state.options ref).addLongCommands longCommands
      (added, state.update ref option)
  | .clearLongCommands ref => (true, state.update ref (state.options ref).clearLongCommands)

-- An operation may leave the unordered_set in any order.
inductive RegistryStep : Parsing → Operation → Parsing → Prop where
  | performs (state : Parsing) (operation : Operation) (order : List OptionRef)
      (perm : order.Perm (operation.perform state).2.parser.argumentOptions) :
      RegistryStep state operation ((operation.perform state).2.reorder order)

def registry : Transition.System Parsing Operation where
  initial state := state.parser.argumentOptions = []
  step := RegistryStep

def Operation.IsAddArgumentOption : Operation → Prop
  | .addArgumentOption _ => True
  | .addArgumentOptions _ => True
  | _ => False

-- A registered option is given no command that another registered option has.
def AddsFresh (state : Parsing) : Operation → Prop
  | .addShortCommand ref shortCommand => validShortCommand shortCommand → ref ∈ state.parser.argumentOptions →
      ∀ other ∈ state.parser.argumentOptions, other ≠ ref → shortCommand ∉ (state.options other).shortCommands
  | .addShortCommands ref shortCommands => (∀ shortCommand ∈ shortCommands, validShortCommand shortCommand) →
      ref ∈ state.parser.argumentOptions → ∀ other ∈ state.parser.argumentOptions, other ≠ ref →
        ∀ shortCommand ∈ shortCommands, shortCommand ∉ (state.options other).shortCommands
  | .addLongCommand ref longCommand => validLongCommand longCommand → ref ∈ state.parser.argumentOptions →
      ∀ other ∈ state.parser.argumentOptions, other ≠ ref → longCommand ∉ (state.options other).longCommands
  | .addLongCommands ref longCommands => (∀ longCommand ∈ longCommands, validLongCommand longCommand) →
      ref ∈ state.parser.argumentOptions → ∀ other ∈ state.parser.argumentOptions, other ≠ ref →
        ∀ longCommand ∈ longCommands, longCommand ∉ (state.options other).longCommands
  | _ => True

theorem checked_unique (state : Parsing) (ref : OptionRef) (checked : checkIfArgumentIsUnique state ref = true) :
    ref ∉ state.parser.argumentOptions ∧
      ∀ argument ∈ state.parser.argumentOptions, (state.options ref).Disjoint (state.options argument) := by
  unfold checkIfArgumentIsUnique at checked
  split at checked
  · cases checked
  · rename_i absent
    split at checked
    · cases checked
    · refine ⟨absent, ?_⟩
      intro argument member
      exact of_decide_eq_true (List.all_eq_true.mp checked argument member)

theorem checked_list (state : Parsing) (args : List OptionRef) (checked : checkIfAllArgumentsInListAreUnique state args = true) :
    (∀ ref ∈ args, checkIfArgumentIsUnique state ref = true) ∧
      args.Pairwise fun upper lower => (state.options upper).Disjoint (state.options lower) := by
  induction args with
  | nil => exact ⟨by simp, List.Pairwise.nil⟩
  | cons upper lower ih =>
      rw [checkIfAllArgumentsInListAreUnique] at checked
      split at checked
      · cases checked
      · rename_i unique
        rw [Bool.not_eq_true, Bool.not_eq_false'] at unique
        split at checked
        · rename_i last
          rw [last]
          exact ⟨by simpa using unique, List.pairwise_singleton _ _⟩
        · split at checked
          · cases checked
          · rename_i apart
            rw [Bool.not_eq_true, Bool.not_eq_false', List.all_eq_true] at apart
            obtain ⟨others, pairwise⟩ := ih checked
            refine ⟨?_, List.pairwise_cons.mpr ⟨fun ref member => of_decide_eq_true (apart ref member), pairwise⟩⟩
            intro ref member
            rcases List.mem_cons.mp member with same | later
            · rw [same]
              exact unique
            · exact others ref later

theorem insert_options (state : Parsing) (ref : OptionRef) :
    (state.insertOption ref).options = state.options ∧
      ∀ other, other ∈ (state.insertOption ref).parser.argumentOptions ↔
        other ∈ state.parser.argumentOptions ∨ other = ref := by
  unfold Parsing.insertOption
  split
  · rename_i present
    refine ⟨rfl, fun other => ⟨.inl, ?_⟩⟩
    rintro (before | same)
    · exact before
    · rw [same]
      exact present
  · refine ⟨rfl, fun other => ?_⟩
    simp [Parsing.reorder]

theorem insert_all_options (args : List OptionRef) (state : Parsing) :
    (args.foldl Parsing.insertOption state).options = state.options ∧
      ∀ other, other ∈ (args.foldl Parsing.insertOption state).parser.argumentOptions ↔
        other ∈ state.parser.argumentOptions ∨ other ∈ args := by
  induction args generalizing state with
  | nil => simp
  | cons ref rest ih =>
      obtain ⟨options, registered⟩ := ih (state.insertOption ref)
      obtain ⟨inserted, members⟩ := insert_options state ref
      refine ⟨options.trans inserted, fun other => ?_⟩
      rw [List.foldl_cons, registered, members, List.mem_cons, or_assoc]

theorem unambiguous_subset (options : OptionRef → ArgumentOption) (registered fewer : List OptionRef)
    (subset : ∀ ref ∈ fewer, ref ∈ registered) (unambiguous : Unambiguous options registered) : Unambiguous options fewer :=
  fun first firstMember second secondMember => unambiguous first (subset first firstMember) second (subset second secondMember)

theorem unambiguous_union (options : OptionRef → ArgumentOption) (registered args more : List OptionRef)
    (members : ∀ ref ∈ more, ref ∈ registered ∨ ref ∈ args) (unambiguous : Unambiguous options registered)
    (apart : args.Pairwise fun upper lower => (options upper).Disjoint (options lower))
    (across : ∀ ref ∈ args, ∀ other ∈ registered, (options ref).Disjoint (options other)) : Unambiguous options more := by
  have symmetric : Std.Symm fun upper lower => (options upper).Disjoint (options lower) :=
    ⟨fun upper lower disjoint => disjoint_symm (options upper) (options lower) disjoint⟩
  intro first firstMember second secondMember differ
  rcases members first firstMember with firstOld | firstNew
  · rcases members second secondMember with secondOld | secondNew
    · exact unambiguous first firstOld second secondOld differ
    · exact disjoint_symm _ _ (across second secondNew first firstOld)
  · rcases members second secondMember with secondOld | secondNew
    · exact across first firstNew second secondOld
    · exact apart.forall firstNew secondNew differ

-- Changing one option is safe when it stays apart from the other registered ones.
theorem unambiguous_update (state : Parsing) (ref : OptionRef) (option : ArgumentOption)
    (unambiguous : Unambiguous state.options state.parser.argumentOptions)
    (apart : ref ∈ state.parser.argumentOptions → ∀ other ∈ state.parser.argumentOptions, other ≠ ref →
      option.Disjoint (state.options other)) :
    Unambiguous (state.update ref option).options (state.update ref option).parser.argumentOptions := by
  intro first firstMember second secondMember differ
  rw [update_option, update_option]
  by_cases isFirst : first = ref
  · have other : second ≠ ref := fun same => differ (isFirst.trans same.symm)
    rw [if_pos isFirst, if_neg other]
    exact apart (isFirst ▸ firstMember) second secondMember other
  · rw [if_neg isFirst]
    by_cases isSecond : second = ref
    · rw [if_pos isSecond]
      exact disjoint_symm _ _ (apart (isSecond ▸ secondMember) first firstMember isFirst)
    · rw [if_neg isSecond]
      exact unambiguous first firstMember second secondMember differ

theorem add_option_keeps (state : Parsing) (ref : OptionRef) (unambiguous : Unambiguous state.options state.parser.argumentOptions) :
    Unambiguous (addArgumentOption state ref).2.options (addArgumentOption state ref).2.parser.argumentOptions := by
  unfold addArgumentOption
  split
  · exact unambiguous
  · rename_i checked
    rw [Bool.not_eq_true, Bool.not_eq_false'] at checked
    obtain ⟨_, apart⟩ := checked_unique state ref checked
    obtain ⟨options, members⟩ := insert_options state ref
    dsimp only
    rw [options]
    apply unambiguous_union state.options state.parser.argumentOptions [ref] _ _ unambiguous (List.pairwise_singleton _ ref)
    · intro other member
      rw [List.mem_singleton.mp member]
      exact apart
    · intro other member
      simpa using (members other).mp member

theorem add_options_keep (state : Parsing) (args : List OptionRef)
    (unambiguous : Unambiguous state.options state.parser.argumentOptions) :
    Unambiguous (addArgumentOptions state args).2.options (addArgumentOptions state args).2.parser.argumentOptions := by
  unfold addArgumentOptions
  split
  · exact unambiguous
  · rename_i checked
    rw [Bool.not_eq_true, Bool.not_eq_false'] at checked
    obtain ⟨each, apart⟩ := checked_list state args checked
    obtain ⟨options, members⟩ := insert_all_options args state
    dsimp only
    rw [options]
    apply unambiguous_union state.options state.parser.argumentOptions args _ _ unambiguous apart
    · intro ref member
      exact (checked_unique state ref (each ref member)).2
    · intro other member
      exact (members other).mp member

theorem unambiguous_apart (state : Parsing) (unambiguous : Unambiguous state.options state.parser.argumentOptions) (ref : OptionRef)
    (registered : ref ∈ state.parser.argumentOptions) (other : OptionRef) (member : other ∈ state.parser.argumentOptions)
    (differ : other ≠ ref) : (state.options ref).Disjoint (state.options other) :=
  unambiguous ref registered other member (Ne.symm differ)

theorem operation_keeps (state : Parsing) (operation : Operation) (fresh : AddsFresh state operation)
    (unambiguous : Unambiguous state.options state.parser.argumentOptions) :
    Unambiguous (operation.perform state).2.options (operation.perform state).2.parser.argumentOptions := by
  have apart := unambiguous_apart state unambiguous
  cases operation with
  | addArgumentOption ref => exact add_option_keeps state ref unambiguous
  | addArgumentOptions args => exact add_options_keep state args unambiguous
  | removeArgumentOption ref =>
      exact unambiguous_subset _ state.parser.argumentOptions _ (fun other member => List.mem_of_mem_filter member) unambiguous
  | clearArgumentOptions => exact unambiguous_subset _ state.parser.argumentOptions [] (by simp) unambiguous
  | addShortCommand ref shortCommand =>
      apply unambiguous_update state ref _ unambiguous
      intro registered other member differ
      exact add_short_disjoint _ _ shortCommand (apart ref registered other member differ)
        (fun valid => fresh valid registered other member differ)
  | addShortCommands ref shortCommands =>
      apply unambiguous_update state ref _ unambiguous
      intro registered other member differ
      exact add_shorts_disjoint _ _ shortCommands (apart ref registered other member differ)
        (fun valid => fresh valid registered other member differ)
  | clearShortCommands ref =>
      apply unambiguous_update state ref _ unambiguous
      intro registered other member differ
      exact clear_shorts_disjoint _ _ (apart ref registered other member differ)
  | addLongCommand ref longCommand =>
      apply unambiguous_update state ref _ unambiguous
      intro registered other member differ
      exact add_long_disjoint _ _ longCommand (apart ref registered other member differ)
        (fun valid => fresh valid registered other member differ)
  | addLongCommands ref longCommands =>
      apply unambiguous_update state ref _ unambiguous
      intro registered other member differ
      exact add_longs_disjoint _ _ longCommands (apart ref registered other member differ)
        (fun valid => fresh valid registered other member differ)
  | clearLongCommands ref =>
      apply unambiguous_update state ref _ unambiguous
      intro registered other member differ
      exact clear_longs_disjoint _ _ (apart ref registered other member differ)

theorem refused_unchanged (state : Parsing) (operation : Operation) (adds : operation.IsAddArgumentOption)
    (refused : (operation.perform state).1 = false) : (operation.perform state).2 = state := by
  cases operation with
  | addArgumentOption ref =>
      simp only [Operation.perform, addArgumentOption] at refused ⊢
      split
      · rfl
      · rename_i checked
        have unique := checked
        rw [Bool.not_eq_true, Bool.not_eq_false'] at unique
        obtain ⟨absent, _⟩ := checked_unique state ref unique
        rw [if_neg checked] at refused
        exact absurd absent (of_decide_eq_false refused)
  | addArgumentOptions args =>
      simp only [Operation.perform, addArgumentOptions] at refused ⊢
      split
      · rfl
      · rename_i checked
        rw [if_neg checked] at refused
        cases refused
  | _ => cases adds

theorem registry_unambiguous (trace : List (Parsing × Operation)) (state : Parsing)
    (run : Transition.Run registry trace state) :
    ((∀ taken ∈ trace, AddsFresh taken.1 taken.2) → Unambiguous state.options state.parser.argumentOptions) ∧
      ∀ taken ∈ trace, taken.2.IsAddArgumentOption → (taken.2.perform taken.1).1 = false → (taken.2.perform taken.1).2 = taken.1 := by
  constructor
  · intro fresh
    apply Transition.run_keeps_while registry (fun state => Unambiguous state.options state.parser.argumentOptions) AddsFresh _ _
      trace state run fresh
    · intro state empty first member
      rw [show state.parser.argumentOptions = [] from empty] at member
      cases member
    · intro state operation next unambiguous fresh step
      cases step with
      | performs order perm =>
          exact unambiguous_subset _ _ order (fun ref member => perm.mem_iff.mp member)
            (operation_keeps state operation fresh unambiguous)
  · intro taken _ adds refused
    exact refused_unchanged taken.1 taken.2 adds refused

def emptyRegistry : Parsing where
  parser := constructParser (wide "FCMReceiverCpp") [] [] [] []
  options ref := constructOption .normalOption {if ref = 0 then 97 else 98} ∅ []

def firstAdded : Parsing := ((Operation.addArgumentOption 0).perform emptyRegistry).2

def bothAdded : Parsing := ((Operation.addArgumentOption 1).perform firstAdded).2

theorem both_added_run : Transition.Run registry
    [(emptyRegistry, .addArgumentOption 0), (firstAdded, .addArgumentOption 1)] bothAdded := by
  have first : Transition.Run registry _ firstAdded :=
    .step [] emptyRegistry _ firstAdded (.start emptyRegistry rfl) (.performs emptyRegistry (.addArgumentOption 0) _ (.refl _))
  exact .step _ firstAdded _ bothAdded first (.performs firstAdded (.addArgumentOption 1) _ (.refl _))

theorem registry_unambiguous_added :
    bothAdded.parser.argumentOptions = [0, 1] ∧ Unambiguous bothAdded.options bothAdded.parser.argumentOptions := by
  refine ⟨by decide +kernel, (registry_unambiguous _ bothAdded both_added_run).1 ?_⟩
  simp [AddsFresh]

-- AddShortCommand knows nothing of the parser the option is registered with.
theorem registered_commands_clash :
    ∃ trace state, Transition.Run registry trace state ∧ ∃ first ∈ state.parser.argumentOptions,
      ∃ second ∈ state.parser.argumentOptions, first ≠ second ∧
        ∃ command ∈ (state.options first).shortCommands, command ∈ (state.options second).shortCommands :=
  ⟨_, _, .step _ bothAdded _ _ both_added_run (.performs bothAdded (.addShortCommand 1 97) _ (.refl _)),
    0, by decide +kernel, 1, by decide +kernel, by decide, 97, by decide +kernel, by decide +kernel⟩

end PushReceiver.Arguments
