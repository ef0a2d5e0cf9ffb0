import Mathlib.Logic.Function.Basic
import PushReceiver.ArgumentOption

set_option autoImplicit false

namespace PushReceiver.Arguments

inductive ParseResult where
  | parseSuccessful
  | invalidOption
  | valuePassedToOptionThatDoesNotTakeValue
  | noValueWasPassedToOption
  | optionsThatTakesValueNeedsToBeSetSeparately
deriving DecidableEq, Repr

structure PositionalArgument where
  name : WString
  description : WString
  syntaxText : WString
deriving DecidableEq, Repr

-- The address of a CArgumentOption.
abbrev OptionRef := Nat

-- CArgumentParser. argumentOptions lists the unordered_set in the order an iteration meets it;
-- argumentCount is the length of argumentValues.
structure ArgumentParser where
  argumentValues : List WString
  executableName : WString
  appName : WString
  appVersion : WString
  appDescription : WString
  argumentOptions : List OptionRef
  positionalArgs : List PositionalArgument
  positionalArgsValues : List WString
  errorText : WString
deriving DecidableEq, Repr

-- The parser and the options it only holds pointers to.
@[ext]
structure Parsing where
  parser : ArgumentParser
  options : OptionRef → ArgumentOption

def getExecutableName (execCall : WString) : WString := (execCall.reverse.takeWhile (· ≠ 47)).reverse

def constructParser (execCall : WString) (arguments : List WString) (appName appVersion appDescription : WString) :
    ArgumentParser :=
  { argumentValues := execCall :: arguments, executableName := getExecutableName execCall, appName, appVersion,
    appDescription, argumentOptions := [], positionalArgs := [], positionalArgsValues := [], errorText := [] }

def ArgumentParser.argumentCount (parser : ArgumentParser) : Nat := parser.argumentValues.length

def isLongCommand (argument : WString) : Bool :=
  2 < argument.length && argument[0]? = some minusSign && argument[1]? = some minusSign

def isShortCommand (argument : WString) : Bool :=
  1 < argument.length && argument[0]? = some minusSign && argument[1]? ≠ some minusSign

def longErrorText (error : ParseResult) (command previous : WString) : WString :=
  match error with
  | .invalidOption => wide "Option --" ++ command ++ wide " is invalid"
  | .valuePassedToOptionThatDoesNotTakeValue =>
      wide "Option --" ++ command ++ wide " received a value but it doesn't take any"
  | .noValueWasPassedToOption => wide "Option --" ++ command ++ wide " takes a value but none was passed."
  | _ => previous

def shortErrorText (error : ParseResult) (command : WChar) (previous : WString) : WString :=
  match error with
  | .invalidOption => wide "Option -" ++ [command] ++ wide " is invalid"
  | .valuePassedToOptionThatDoesNotTakeValue =>
      wide "Option -" ++ [command] ++ wide " received a value but it doesn't take any"
  | .noValueWasPassedToOption => wide "Option -" ++ [command] ++ wide " takes a value but none was passed."
  | .optionsThatTakesValueNeedsToBeSetSeparately =>
      wide "Options that takes a value needs to be set separately. Error with option: -" ++ [command]
  | .parseSuccessful => previous

-- The same parser with its unordered_set iterated in another order.
def Parsing.reorder (state : Parsing) (order : List OptionRef) : Parsing :=
  { state with parser := { state.parser with argumentOptions := order } }

def Parsing.withErrorText (state : Parsing) (errorText : WString) : Parsing :=
  { state with parser := { state.parser with errorText } }

def Parsing.update (state : Parsing) (ref : OptionRef) (option : ArgumentOption) : Parsing :=
  { state with options := Function.update state.options ref option }

def Parsing.resetOption (state : Parsing) (ref : OptionRef) : Parsing :=
  state.update ref { state.options ref with wasSet := 0, value := [] }

def Parsing.assign (state : Parsing) (ref : OptionRef) (value : WString) : Parsing :=
  state.update ref { state.options ref with value }

def Parsing.countSet (state : Parsing) (ref : OptionRef) : Parsing :=
  state.update ref { state.options ref with wasSet := (state.options ref).wasSet + 1 }

def Parsing.addPositional (state : Parsing) (argument : WString) : Parsing :=
  { state with parser := { state.parser with positionalArgsValues := state.parser.positionalArgsValues ++ [argument] } }

def resetParsedValues (state : Parsing) : Parsing :=
  state.parser.argumentOptions.foldl Parsing.resetOption
    { state with parser := { state.parser with positionalArgsValues := [], errorText := [] } }

-- What a command parser gives back: its result, the state, and currentIndex, which it is passed by reference.
structure Parsed where
  result : ParseResult
  state : Parsing
  currentIndex : Nat

-- The loops over argumentOptions stop at the first option that has the command.
def Parsing.findLong (state : Parsing) (command : WString) : Option OptionRef :=
  state.parser.argumentOptions.find? fun ref => decide (command ∈ (state.options ref).longCommands)

def Parsing.findShort (state : Parsing) (command : WChar) : Option OptionRef :=
  state.parser.argumentOptions.find? fun ref => decide (command ∈ (state.options ref).shortCommands)

def failLong (state : Parsing) (error : ParseResult) (command : WString) (currentIndex : Nat) : Parsed :=
  ⟨error, state.withErrorText (longErrorText error command state.parser.errorText), currentIndex⟩

def failShort (state : Parsing) (error : ParseResult) (command : WChar) (currentIndex : Nat) : Parsed :=
  ⟨error, state.withErrorText (shortErrorText error command state.parser.errorText), currentIndex⟩

-- find_first_of counts from the start of the argument, whose first two characters are minus signs.
def findEqualSign (argument : WString) : Option Nat := ((argument.drop 2).findIdx? (· = equalSign)).map (· + 2)

def longCommandOf (argument : WString) : WString :=
  match findEqualSign argument with
  | none => argument.drop 2
  | some posOfEqualSign => (argument.drop 2).take (posOfEqualSign - 2)

-- The value is stored before its form is looked at.
def parseLongCommand (state : Parsing) (argument : WString) (currentIndex : Nat) : Parsed :=
  let posOfEqualSign := findEqualSign argument
  let command := longCommandOf argument
  match state.findLong command with
  | none => failLong state .invalidOption command currentIndex
  | some arg =>
      if (state.options arg).type ≠ .inputOption then
        match posOfEqualSign with
        | some _ => failLong state .valuePassedToOptionThatDoesNotTakeValue command currentIndex
        | none => ⟨.parseSuccessful, state.countSet arg, currentIndex⟩
      else
        match posOfEqualSign with
        | none =>
            if currentIndex + 1 = state.parser.argumentCount then
              failLong state .noValueWasPassedToOption command (currentIndex + 1)
            else
              let value := state.parser.argumentValues.getD (currentIndex + 1) []
              if isLongCommand value || isShortCommand value then
                failLong (state.assign arg value) .noValueWasPassedToOption command (currentIndex + 1)
              else ⟨.parseSuccessful, (state.assign arg value).countSet arg, currentIndex + 1⟩
        | some pos =>
            if argument[pos]? = argument[argument.length - 1]? then
              failLong state .noValueWasPassedToOption command currentIndex
            else ⟨.parseSuccessful, (state.assign arg (argument.drop (pos + 1))).countSet arg, currentIndex⟩

-- The loop over the characters behind the minus sign.
def parseShortCommands (argument : WString) : List WChar → Parsing → Nat → Parsed
  | [], state, currentIndex => ⟨.parseSuccessful, state, currentIndex⟩
  | command :: rest, state, currentIndex =>
      match state.findShort command with
      | none => failShort state .invalidOption command currentIndex
      | some arg =>
          if (state.options arg).type ≠ .inputOption then
            parseShortCommands argument rest (state.countSet arg) currentIndex
          else if 2 < argument.length then
            failShort state .optionsThatTakesValueNeedsToBeSetSeparately command currentIndex
          else if currentIndex + 1 = state.parser.argumentCount then
            failShort state .noValueWasPassedToOption command (currentIndex + 1)
          else
            let value := state.parser.argumentValues.getD (currentIndex + 1) []
            if isLongCommand value || isShortCommand value then
              failShort (state.assign arg value) .noValueWasPassedToOption command (currentIndex + 1)
            else parseShortCommands argument rest ((state.assign arg value).countSet arg) (currentIndex + 1)

def parseShortCommand (state : Parsing) (argument : WString) (currentIndex : Nat) : Parsed :=
  parseShortCommands argument (argument.drop 1) state currentIndex

-- The for loop of Parse. Every round makes index larger, so argumentCount rounds are enough.
def parseArguments : Nat → Nat → Parsing → ParseResult × Parsing
  | 0, _, state => (.parseSuccessful, state)
  | rounds + 1, index, state =>
      if index < state.parser.argumentCount then
        let currArg := state.parser.argumentValues.getD index []
        if isLongCommand currArg then
          let parsed := parseLongCommand state currArg index
          if parsed.result ≠ .parseSuccessful then (parsed.result, parsed.state)
          else parseArguments rounds (parsed.currentIndex + 1) parsed.state
        else if isShortCommand currArg then
          let parsed := parseShortCommand state currArg index
          if parsed.result ≠ .parseSuccessful then (parsed.result, parsed.state)
          else parseArguments rounds (parsed.currentIndex + 1) parsed.state
        else parseArguments rounds (index + 1) (state.addPositional currArg)
      else (.parseSuccessful, state)

def parse (state : Parsing) : ParseResult × Parsing :=
  let state := resetParsedValues state
  if state.parser.argumentCount < 2 then (.parseSuccessful, state)
  else parseArguments state.parser.argumentCount 1 state

-- For every command there is one option at most.
def Unambiguous (options : OptionRef → ArgumentOption) (registered : List OptionRef) : Prop :=
  ∀ first ∈ registered, ∀ second ∈ registered, first ≠ second → (options first).Disjoint (options second)

instance (options : OptionRef → ArgumentOption) (registered : List OptionRef) : Decidable (Unambiguous options registered) :=
  inferInstanceAs (Decidable (∀ first ∈ registered, ∀ second ∈ registered, _))

theorem long_unique (options : OptionRef → ArgumentOption) (registered : List OptionRef) (unambiguous : Unambiguous options registered)
    (command : WString) (first : OptionRef) (firstMember : first ∈ registered) (second : OptionRef) (secondMember : second ∈ registered)
    (firstHas : command ∈ (options first).longCommands) (secondHas : command ∈ (options second).longCommands) : first = second := by
  by_contra differ
  exact (unambiguous first firstMember second secondMember differ).2 command firstHas secondHas

theorem short_unique (options : OptionRef → ArgumentOption) (registered : List OptionRef) (unambiguous : Unambiguous options registered)
    (command : WChar) (first : OptionRef) (firstMember : first ∈ registered) (second : OptionRef) (secondMember : second ∈ registered)
    (firstHas : command ∈ (options first).shortCommands) (secondHas : command ∈ (options second).shortCommands) : first = second := by
  by_contra differ
  exact (unambiguous first firstMember second secondMember differ).1 command firstHas secondHas

-- What Parse never changes.
structure Keeps (state next : Parsing) : Prop where
  argumentValues : next.parser.argumentValues = state.parser.argumentValues
  argumentOptions : next.parser.argumentOptions = state.parser.argumentOptions
  type : ∀ ref, (next.options ref).type = (state.options ref).type
  shortCommands : ∀ ref, (next.options ref).shortCommands = (state.options ref).shortCommands
  longCommands : ∀ ref, (next.options ref).longCommands = (state.options ref).longCommands

theorem keeps_refl (state : Parsing) : Keeps state state := ⟨rfl, rfl, fun _ => rfl, fun _ => rfl, fun _ => rfl⟩

theorem keeps_trans (state middle next : Parsing) (before : Keeps state middle) (after : Keeps middle next) : Keeps state next where
  argumentValues := after.argumentValues.trans before.argumentValues
  argumentOptions := after.argumentOptions.trans before.argumentOptions
  type ref := (after.type ref).trans (before.type ref)
  shortCommands ref := (after.shortCommands ref).trans (before.shortCommands ref)
  longCommands ref := (after.longCommands ref).trans (before.longCommands ref)

theorem update_option (state : Parsing) (ref other : OptionRef) (option : ArgumentOption) :
    (state.update ref option).options other = if other = ref then option else state.options other :=
  Function.update_apply state.options ref option other

theorem update_field {β : Type} (field : ArgumentOption → β) (state : Parsing) (ref : OptionRef) (option : ArgumentOption)
    (same : field option = field (state.options ref)) (other : OptionRef) :
    field ((state.update ref option).options other) = field (state.options other) := by
  rw [update_option]
  by_cases isRef : other = ref
  · rw [if_pos isRef, isRef, same]
  · rw [if_neg isRef]

theorem keeps_update (state : Parsing) (ref : OptionRef) (option : ArgumentOption) (type : option.type = (state.options ref).type)
    (shortCommands : option.shortCommands = (state.options ref).shortCommands)
    (longCommands : option.longCommands = (state.options ref).longCommands) : Keeps state (state.update ref option) where
  argumentValues := rfl
  argumentOptions := rfl
  type := update_field (·.type) state ref option type
  shortCommands := update_field (·.shortCommands) state ref option shortCommands
  longCommands := update_field (·.longCommands) state ref option longCommands

theorem keeps_assign (state : Parsing) (ref : OptionRef) (value : WString) : Keeps state (state.assign ref value) :=
  keeps_update state ref _ rfl rfl rfl

theorem keeps_count (state : Parsing) (ref : OptionRef) : Keeps state (state.countSet ref) := keeps_update state ref _ rfl rfl rfl

theorem keeps_assign_count (state : Parsing) (ref : OptionRef) (value : WString) :
    Keeps state ((state.assign ref value).countSet ref) :=
  keeps_trans state _ _ (keeps_assign state ref value) (keeps_count _ ref)

theorem keeps_error (state next : Parsing) (errorText : WString) (keeps : Keeps state next) :
    Keeps state (next.withErrorText errorText) :=
  ⟨keeps.argumentValues, keeps.argumentOptions, keeps.type, keeps.shortCommands, keeps.longCommands⟩

theorem unambiguous_kept (state next : Parsing) (keeps : Keeps state next)
    (unambiguous : Unambiguous state.options state.parser.argumentOptions) :
    Unambiguous next.options next.parser.argumentOptions := by
  intro first firstMember second secondMember differ
  rw [keeps.argumentOptions] at firstMember secondMember
  have disjoint := unambiguous first firstMember second secondMember differ
  unfold ArgumentOption.Disjoint at disjoint ⊢
  rwa [keeps.shortCommands, keeps.shortCommands, keeps.longCommands, keeps.longCommands]

theorem parse_long_keeps (state : Parsing) (argument : WString) (currentIndex : Nat) :
    Keeps state (parseLongCommand state argument currentIndex).state := by
  unfold parseLongCommand
  dsimp only
  cases state.findLong (longCommandOf argument) with
  | none => exact keeps_error state state _ (keeps_refl state)
  | some arg =>
      dsimp only
      by_cases takesNone : (state.options arg).type ≠ .inputOption
      · rw [if_pos takesNone]
        cases findEqualSign argument with
        | none => exact keeps_count state arg
        | some pos => exact keeps_error state state _ (keeps_refl state)
      · rw [if_neg takesNone]
        cases findEqualSign argument with
        | none =>
            dsimp only
            split
            · exact keeps_error state state _ (keeps_refl state)
            · split
              · exact keeps_error state _ _ (keeps_assign state arg _)
              · exact keeps_assign_count state arg _
        | some pos =>
            dsimp only
            split
            · exact keeps_error state state _ (keeps_refl state)
            · exact keeps_assign_count state arg _

theorem parse_shorts_keep (argument : WString) (commands : List WChar) (state : Parsing) (currentIndex : Nat) :
    Keeps state (parseShortCommands argument commands state currentIndex).state := by
  induction commands generalizing state currentIndex with
  | nil => exact keeps_refl state
  | cons command rest ih =>
      rw [parseShortCommands]
      cases state.findShort command with
      | none => exact keeps_error state state _ (keeps_refl state)
      | some arg =>
          dsimp only
          split
          · exact keeps_trans state _ _ (keeps_count state arg) (ih _ currentIndex)
          · split
            · exact keeps_error state state _ (keeps_refl state)
            · split
              · exact keeps_error state state _ (keeps_refl state)
              · split
                · exact keeps_error state _ _ (keeps_assign state arg _)
                · exact keeps_trans state _ _ (keeps_assign_count state arg _) (ih _ (currentIndex + 1))

theorem keeps_reset (state : Parsing) (ref : OptionRef) : Keeps state (state.resetOption ref) := keeps_update state ref _ rfl rfl rfl

theorem reset_all_keeps (registered : List OptionRef) (state : Parsing) :
    Keeps state (registered.foldl Parsing.resetOption state) := by
  induction registered generalizing state with
  | nil => exact keeps_refl state
  | cons ref rest ih => exact keeps_trans state _ _ (keeps_reset state ref) (ih (state.resetOption ref))

theorem reset_members (registered : List OptionRef) (state : Parsing) :
    (registered.foldl Parsing.resetOption state).parser = state.parser := by
  induction registered generalizing state with
  | nil => rfl
  | cons ref rest ih => exact ih (state.resetOption ref)

theorem reset_option (registered : List OptionRef) (state : Parsing) (ref : OptionRef) :
    (registered.foldl Parsing.resetOption state).options ref =
      if ref ∈ registered then { state.options ref with wasSet := 0, value := [] } else state.options ref := by
  induction registered generalizing state with
  | nil => rfl
  | cons head rest ih =>
      rw [List.foldl_cons, ih (state.resetOption head), Parsing.resetOption, update_option]
      by_cases same : ref = head
      · simp [same]
      · simp [same]

theorem reset_values_members (state : Parsing) :
    (resetParsedValues state).parser = { state.parser with positionalArgsValues := [], errorText := [] } :=
  reset_members _ _

theorem reset_values_option (state : Parsing) (ref : OptionRef) :
    (resetParsedValues state).options ref =
      if ref ∈ state.parser.argumentOptions then { state.options ref with wasSet := 0, value := [] } else state.options ref :=
  reset_option _ _ ref

theorem reset_keeps (state : Parsing) : Keeps state (resetParsedValues state) := by
  obtain ⟨values, options, type, shorts, longs⟩ := reset_all_keeps state.parser.argumentOptions
    { state with parser := { state.parser with positionalArgsValues := [], errorText := [] } }
  exact ⟨values, options, type, shorts, longs⟩

theorem parse_arguments_keep (rounds index : Nat) (state : Parsing) : Keeps state (parseArguments rounds index state).2 := by
  induction rounds generalizing index state with
  | zero => exact keeps_refl state
  | succ rounds ih =>
      rw [parseArguments]
      dsimp only
      split
      · split
        · have long := parse_long_keeps state (state.parser.argumentValues.getD index []) index
          split
          · exact long
          · exact keeps_trans state _ _ long (ih _ _)
        · split
          · have short := parse_shorts_keep (state.parser.argumentValues.getD index [])
              ((state.parser.argumentValues.getD index []).drop 1) state index
            split
            · exact short
            · exact keeps_trans state _ _ short (ih _ _)
          · have positional := ih (index + 1) (state.addPositional (state.parser.argumentValues.getD index []))
            exact ⟨positional.argumentValues, positional.argumentOptions, positional.type, positional.shortCommands,
              positional.longCommands⟩
      · exact keeps_refl state

theorem parse_keeps (state : Parsing) : Keeps state (parse state).2 := by
  unfold parse
  dsimp only
  split
  · exact reset_keeps state
  · exact keeps_trans state _ _ (reset_keeps state) (parse_arguments_keep _ _ _)

-- Two of the options and a command line of the program.
def registerOptions : OptionRef → ArgumentOption
  | 0 => constructOption .normalOption {114} {wide "register"} (wide "Register to fcm server")
  | _ => constructOption .inputOption ∅ {wide "register_input"} []

def registerLine : Parsing where
  parser :=
    { constructParser (wide "FCMReceiverCpp") [wide "-r", wide "file", wide "--register_input=data.json"] [] [] [] with
      argumentOptions := [0, 1] }
  options := registerOptions

end PushReceiver.Arguments
