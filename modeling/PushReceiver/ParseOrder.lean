import PushReceiver.HelpText

set_option autoImplicit false

namespace PushReceiver.Arguments

def Parsed.reorder (parsed : Parsed) (order : List OptionRef) : Parsed := { parsed with state := parsed.state.reorder order }

def reorderOutcome (outcome : ParseResult × Parsing) (order : List OptionRef) : ParseResult × Parsing :=
  (outcome.1, outcome.2.reorder order)

structure Reorders (state : Parsing) (order : List OptionRef) : Prop where
  perm : order.Perm state.parser.argumentOptions
  unambiguous : Unambiguous state.options state.parser.argumentOptions

-- All a caller can read after Parse.
structure SameOutcome (first second : ParseResult × Parsing) : Prop where
  result : first.1 = second.1
  errorText : first.2.parser.errorText = second.2.parser.errorText
  positionalArguments : first.2.parser.positionalArgsValues = second.2.parser.positionalArgsValues
  wasSet : ∀ ref, (first.2.options ref).wasSet = (second.2.options ref).wasSet
  getValue : ∀ ref, (first.2.options ref).value = (second.2.options ref).value
  helpText : helpText first.2 = helpText second.2

theorem fail_long_reorder (state : Parsing) (order : List OptionRef) (error : ParseResult) (command : WString) (currentIndex : Nat) :
    failLong (state.reorder order) error command currentIndex = (failLong state error command currentIndex).reorder order := rfl

theorem fail_short_reorder (state : Parsing) (order : List OptionRef) (error : ParseResult) (command : WChar) (currentIndex : Nat) :
    failShort (state.reorder order) error command currentIndex = (failShort state error command currentIndex).reorder order := rfl

theorem reorder_ite (condition : Prop) [Decidable condition] (first second : Parsed) (order : List OptionRef) :
    (if condition then first else second).reorder order = if condition then first.reorder order else second.reorder order :=
  apply_ite (fun parsed : Parsed => parsed.reorder order) condition first second

theorem outcome_ite (condition : Prop) [Decidable condition] (first second : ParseResult × Parsing) (order : List OptionRef) :
    reorderOutcome (if condition then first else second) order =
      if condition then reorderOutcome first order else reorderOutcome second order :=
  apply_ite (fun outcome => reorderOutcome outcome order) condition first second

theorem reorders_kept (state next : Parsing) (order : List OptionRef) (keeps : Keeps state next) (reorders : Reorders state order) :
    Reorders next order :=
  ⟨keeps.argumentOptions.symm ▸ reorders.perm, unambiguous_kept state next keeps reorders.unambiguous⟩

theorem find_long_reorder (state : Parsing) (order : List OptionRef) (reorders : Reorders state order) (command : WString) :
    (state.reorder order).findLong command = state.findLong command := by
  apply Unordered.first_match_perm _ _ _ reorders.perm
  simp only [decide_eq_true_eq]
  exact long_unique state.options state.parser.argumentOptions reorders.unambiguous command

theorem find_short_reorder (state : Parsing) (order : List OptionRef) (reorders : Reorders state order) (command : WChar) :
    (state.reorder order).findShort command = state.findShort command := by
  apply Unordered.first_match_perm _ _ _ reorders.perm
  simp only [decide_eq_true_eq]
  exact short_unique state.options state.parser.argumentOptions reorders.unambiguous command

theorem parse_long_reorder (state : Parsing) (order : List OptionRef) (reorders : Reorders state order) (argument : WString)
    (currentIndex : Nat) :
    parseLongCommand (state.reorder order) argument currentIndex = (parseLongCommand state argument currentIndex).reorder order := by
  unfold parseLongCommand
  dsimp only
  rw [find_long_reorder state order reorders]
  cases state.findLong (longCommandOf argument) with
  | none => exact fail_long_reorder state order _ _ currentIndex
  | some arg =>
      cases findEqualSign argument with
      | none =>
          simp only [reorder_ite]
          rfl
      | some pos =>
          simp only [reorder_ite]
          rfl

theorem parse_shorts_reorder (argument : WString) (commands : List WChar) (state : Parsing) (order : List OptionRef)
    (reorders : Reorders state order) (currentIndex : Nat) :
    parseShortCommands argument commands (state.reorder order) currentIndex =
      (parseShortCommands argument commands state currentIndex).reorder order := by
  induction commands generalizing state currentIndex with
  | nil => rfl
  | cons command rest ih =>
      rw [parseShortCommands, parseShortCommands, find_short_reorder state order reorders]
      cases state.findShort command with
      | none => exact fail_short_reorder state order _ command currentIndex
      | some arg =>
          have counted := ih (state.countSet arg) (reorders_kept state _ order (keeps_count state arg) reorders)
          have assigned := fun value => ih ((state.assign arg value).countSet arg)
            (reorders_kept state _ order (keeps_assign_count state arg value) reorders)
          simp only [reorder_ite, ← counted, ← assigned]
          rfl

theorem parse_arguments_reorder (rounds index : Nat) (state : Parsing) (order : List OptionRef) (reorders : Reorders state order) :
    parseArguments rounds index (state.reorder order) = reorderOutcome (parseArguments rounds index state) order := by
  induction rounds generalizing index state with
  | zero => rfl
  | succ rounds ih =>
      have long := fun argument => parse_long_reorder state order reorders argument index
      have short := fun argument : WString => parse_shorts_reorder argument (argument.drop 1) state order reorders index
      have afterLong := fun argument => ih ((parseLongCommand state argument index).currentIndex + 1) _
        (reorders_kept state _ order (parse_long_keeps state argument index) reorders)
      have afterShort := fun argument : WString => ih ((parseShortCommand state argument index).currentIndex + 1) _
        (reorders_kept state _ order (parse_shorts_keep argument (argument.drop 1) state index) reorders)
      have positional := fun argument => ih (index + 1) (state.addPositional argument) ⟨reorders.perm, reorders.unambiguous⟩
      rw [parseArguments, parseArguments]
      dsimp only [parseShortCommand] at afterShort ⊢
      rw [long, short]
      simp only [outcome_ite, ← afterLong, ← afterShort, ← positional]
      rfl

theorem reset_reorder (state : Parsing) (order : List OptionRef) (perm : order.Perm state.parser.argumentOptions) :
    resetParsedValues (state.reorder order) = (resetParsedValues state).reorder order := by
  apply Parsing.ext
  · dsimp only [Parsing.reorder]
    rw [reset_values_members, reset_values_members]
  · funext ref
    dsimp only [Parsing.reorder]
    rw [reset_values_option, reset_values_option]
    simp only [perm.mem_iff]

theorem parse_reorder (state : Parsing) (order : List OptionRef) (reorders : Reorders state order) :
    parse (state.reorder order) = reorderOutcome (parse state) order := by
  have reset := reorders_kept state _ order (reset_keeps state) reorders
  unfold parse
  dsimp only
  rw [reset_reorder state order reorders.perm, outcome_ite, ← parse_arguments_reorder _ _ _ order reset]
  rfl

theorem same_outcome_reorder (outcome : ParseResult × Parsing) (order : List OptionRef)
    (perm : order.Perm outcome.2.parser.argumentOptions) : SameOutcome outcome (reorderOutcome outcome order) :=
  ⟨rfl, rfl, rfl, fun _ => rfl, fun _ => rfl, (help_text_perm outcome.2 order perm).symm⟩

theorem parse_order_independent (state : Parsing) (first second : List OptionRef) (perm : first.Perm second)
    (unambiguous : Unambiguous state.options first) :
    SameOutcome (parse (state.reorder first)) (parse (state.reorder second)) ∧
      helpText (state.reorder first) = helpText (state.reorder second) := by
  have reorders : Reorders (state.reorder first) second := ⟨perm.symm, unambiguous⟩
  have parsed : parse (state.reorder second) = reorderOutcome (parse (state.reorder first)) second :=
    parse_reorder (state.reorder first) second reorders
  have kept : (parse (state.reorder first)).2.parser.argumentOptions = first := (parse_keeps (state.reorder first)).argumentOptions
  constructor
  · rw [parsed]
    apply same_outcome_reorder
    rw [kept]
    exact perm.symm
  · exact (help_text_perm (state.reorder first) second perm.symm).symm

theorem parse_order_independent_register :
    SameOutcome (parse (registerLine.reorder [0, 1])) (parse (registerLine.reorder [1, 0])) ∧
      helpText (registerLine.reorder [0, 1]) = helpText (registerLine.reorder [1, 0]) :=
  parse_order_independent registerLine [0, 1] [1, 0] (by decide) (by decide +kernel)

end PushReceiver.Arguments
