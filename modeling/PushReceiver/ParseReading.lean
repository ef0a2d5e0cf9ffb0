import Mathlib.Data.List.Forall2
import PushReceiver.ArgumentParser

set_option autoImplicit false

namespace PushReceiver.Arguments

-- The pieces a successful Parse makes of argv.
inductive Segment where
  | positional (argument : WString)
  | longFlag (command : WString)
  | longAssigned (command value : WString)
  | longSeparate (command value : WString)
  | shortSeparate (command : WChar) (value : WString)
  | cluster (commands : List WChar)
deriving DecidableEq, Repr

def Segment.tokens : Segment → List WString
  | .positional argument => [argument]
  | .longFlag command => [minusSign :: minusSign :: command]
  | .longAssigned command value => [minusSign :: minusSign :: (command ++ equalSign :: value)]
  | .longSeparate command value => [minusSign :: minusSign :: command, value]
  | .shortSeparate command value => [[minusSign, command], value]
  | .cluster commands => [minusSign :: commands]

def OptionForm (argument : WString) : Prop := isLongCommand argument ∨ isShortCommand argument

-- What reading a segment does: an argument is kept, an option is counted, or it is given a value and counted.
inductive Use where
  | positional (argument : WString)
  | flag (ref : OptionRef)
  | value (ref : OptionRef) (given : WString)
deriving DecidableEq, Repr

def Parsing.use (state : Parsing) : Use → Parsing
  | .positional argument => state.addPositional argument
  | .flag ref => state.countSet ref
  | .value ref given => (state.assign ref given).countSet ref

def Parsing.useAll (state : Parsing) (uses : List Use) : Parsing := uses.foldl Parsing.use state

def Use.names (ref : OptionRef) : Use → Bool
  | .positional _ => false
  | .flag used => used = ref
  | .value used _ => used = ref

def Use.givenTo (ref : OptionRef) : Use → List WString
  | .value used given => if used = ref then [given] else []
  | _ => []

def Use.positionals : Use → List WString
  | .positional argument => [argument]
  | _ => []

def FlagOf (base : Parsing) (command : WChar) (ref : OptionRef) : Prop :=
  base.findShort command = some ref ∧ (base.options ref).type ≠ .inputOption

-- The segments Parse accepts, and what each of them does. A value behind '=' must not end in '='.
inductive Reads (base : Parsing) : Segment → List Use → Prop where
  | positional (argument : WString) (plain : ¬ OptionForm argument) : Reads base (.positional argument) [.positional argument]
  | longFlag (command : WString) (ref : OptionRef) (nonempty : command ≠ []) (absent : equalSign ∉ command)
      (found : base.findLong command = some ref) (type : (base.options ref).type ≠ .inputOption) :
      Reads base (.longFlag command) [.flag ref]
  | longAssigned (command value : WString) (ref : OptionRef) (absent : equalSign ∉ command) (nonempty : value ≠ [])
      (last : value.getLast? ≠ some equalSign) (found : base.findLong command = some ref)
      (type : (base.options ref).type = .inputOption) : Reads base (.longAssigned command value) [.value ref value]
  | longSeparate (command value : WString) (ref : OptionRef) (nonempty : command ≠ []) (absent : equalSign ∉ command)
      (plain : ¬ OptionForm value) (found : base.findLong command = some ref)
      (type : (base.options ref).type = .inputOption) : Reads base (.longSeparate command value) [.value ref value]
  | shortSeparate (command : WChar) (value : WString) (ref : OptionRef) (differs : command ≠ minusSign)
      (plain : ¬ OptionForm value) (found : base.findShort command = some ref)
      (type : (base.options ref).type = .inputOption) : Reads base (.shortSeparate command value) [.value ref value]
  | cluster (first : WChar) (rest : List WChar) (refs : List OptionRef) (differs : first ≠ minusSign)
      (flags : List.Forall₂ (FlagOf base) (first :: rest) refs) : Reads base (.cluster (first :: rest)) (refs.map Use.flag)

inductive ReadsAll (base : Parsing) : List Segment → List Use → Prop where
  | nil : ReadsAll base [] []
  | cons (segment : Segment) (segments : List Segment) (used later : List Use) (reads : Reads base segment used)
      (readsLater : ReadsAll base segments later) : ReadsAll base (segment :: segments) (used ++ later)

-- Two states in which every command means the same.
structure Agrees (base state : Parsing) : Prop where
  long : ∀ command, state.findLong command = base.findLong command
  short : ∀ command, state.findShort command = base.findShort command
  type : ∀ ref, (state.options ref).type = (base.options ref).type

theorem agrees_refl (base : Parsing) : Agrees base base := ⟨fun _ => rfl, fun _ => rfl, fun _ => rfl⟩

theorem agrees_kept (base state next : Parsing) (agrees : Agrees base state) (keeps : Keeps state next) : Agrees base next where
  long command := by
    rw [← agrees.long command, Parsing.findLong, Parsing.findLong, keeps.argumentOptions]
    simp only [keeps.longCommands]
  short command := by
    rw [← agrees.short command, Parsing.findShort, Parsing.findShort, keeps.argumentOptions]
    simp only [keeps.shortCommands]
  type ref := (keeps.type ref).trans (agrees.type ref)

theorem keeps_use (state : Parsing) (use : Use) : Keeps state (state.use use) := by
  cases use with
  | positional argument => exact ⟨rfl, rfl, fun _ => rfl, fun _ => rfl, fun _ => rfl⟩
  | flag ref => exact keeps_count state ref
  | value ref given => exact keeps_assign_count state ref given

theorem keeps_use_all (state : Parsing) (uses : List Use) : Keeps state (state.useAll uses) := by
  induction uses generalizing state with
  | nil => exact keeps_refl state
  | cons use rest ih => exact keeps_trans state _ _ (keeps_use state use) (ih (state.use use))

theorem use_all_append (state : Parsing) (before after : List Use) :
    state.useAll (before ++ after) = (state.useAll before).useAll after := List.foldl_append

def ArgumentOption.record (option : ArgumentOption) (occurrences : Nat) (values : List WString) : ArgumentOption :=
  { option with wasSet := option.wasSet + occurrences, value := values.getLast?.getD option.value }

theorem record_record (option : ArgumentOption) (first second : Nat) (before after : List WString) :
    (option.record first before).record second after = option.record (first + second) (before ++ after) := by
  cases last : after.getLast? with
  | none => simp [ArgumentOption.record, List.getLast?_append, last, Nat.add_assoc]
  | some value => simp [ArgumentOption.record, List.getLast?_append, last, Nat.add_assoc]

theorem count_record (state : Parsing) (ref : OptionRef) :
    state.countSet ref = state.update ref ((state.options ref).record 1 []) := rfl

theorem assign_record (state : Parsing) (ref : OptionRef) (value : WString) :
    (state.assign ref value).countSet ref = state.update ref ((state.options ref).record 1 [value]) := by
  rw [Parsing.countSet, Parsing.assign, update_option, if_pos rfl, Parsing.update, Parsing.update, Parsing.update,
    Function.update_idem]
  rfl

theorem long_form (argument : WString) (form : isLongCommand argument) :
    ∃ body, argument = minusSign :: minusSign :: body ∧ body ≠ [] := by
  cases argument with
  | nil => cases form
  | cons first rest =>
      cases rest with
      | nil => simp [isLongCommand] at form
      | cons second body =>
          simp only [isLongCommand, Bool.and_eq_true, decide_eq_true_eq, List.getElem?_cons_zero, List.getElem?_cons_succ,
            Option.some.injEq, List.length_cons] at form
          obtain ⟨⟨size, isFirst⟩, isSecond⟩ := form
          refine ⟨body, by rw [isFirst, isSecond], ?_⟩
          intro empty
          rw [empty] at size
          exact absurd size (by decide)

theorem short_form (argument : WString) (form : isShortCommand argument) :
    ∃ first rest, argument = minusSign :: first :: rest ∧ first ≠ minusSign := by
  cases argument with
  | nil => cases form
  | cons head tail =>
      cases tail with
      | nil => simp [isShortCommand] at form
      | cons first rest =>
          simp only [isShortCommand, Bool.and_eq_true, decide_eq_true_eq, List.getElem?_cons_zero, List.getElem?_cons_succ,
            Option.some.injEq, ne_eq] at form
          obtain ⟨⟨_, isHead⟩, other⟩ := form
          exact ⟨first, rest, by rw [isHead], other⟩

theorem command_whole (body : WString) (absent : equalSign ∉ body) :
    findEqualSign (minusSign :: minusSign :: body) = none ∧ longCommandOf (minusSign :: minusSign :: body) = body := by
  have none : findEqualSign (minusSign :: minusSign :: body) = none := by
    simp only [findEqualSign, List.drop_succ_cons, List.drop_zero, Option.map_eq_none_iff, List.findIdx?_eq_none_iff,
      decide_eq_false_iff_not]
    intro c member same
    exact absent (same ▸ member)
  refine ⟨none, ?_⟩
  rw [longCommandOf, none]
  rfl

theorem command_assigned (command value : WString) (absent : equalSign ∉ command) :
    findEqualSign (minusSign :: minusSign :: (command ++ equalSign :: value)) = some (command.length + 2) ∧
      longCommandOf (minusSign :: minusSign :: (command ++ equalSign :: value)) = command := by
  have before : command.findIdx? (fun c => decide (c = equalSign)) = none := by
    rw [List.findIdx?_eq_none_iff]
    intro c member
    rw [decide_eq_false_iff_not]
    intro same
    exact absent (same ▸ member)
  have found : findEqualSign (minusSign :: minusSign :: (command ++ equalSign :: value)) = some (command.length + 2) := by
    simp [findEqualSign, List.findIdx?_append, before, List.findIdx?_cons]
  refine ⟨found, ?_⟩
  rw [longCommandOf, found]
  simp

theorem assigned_command (body : WString) (pos : Nat) (position : findEqualSign (minusSign :: minusSign :: body) = some pos) :
    equalSign ∈ body := by
  by_contra absent
  rw [(command_whole body absent).1] at position
  cases position

theorem whole_command (body : WString) (whole : findEqualSign (minusSign :: minusSign :: body) = none) :
    equalSign ∉ body ∧ longCommandOf (minusSign :: minusSign :: body) = body := by
  have absent : equalSign ∉ body := by
    intro member
    obtain ⟨command, value, rfl, first⟩ := List.eq_append_cons_of_mem member
    rw [(command_assigned command value first).1] at whole
    cases whole
  exact ⟨absent, (command_whole body absent).2⟩

-- All that parseLongCommand can do: the value it stores before it refuses it is the only one to stay behind.
inductive LongCase (state : Parsing) (argument : WString) (index : Nat) (parsed : Parsed) : Prop where
  | refused (failed : parsed.result ≠ .parseSuccessful) (options : parsed.state.options = state.options)
  | flag (ref : OptionRef) (found : state.findLong (longCommandOf argument) = some ref)
      (type : (state.options ref).type ≠ .inputOption) (whole : findEqualSign argument = none)
      (successful : parsed.result = .parseSuccessful)
  | separate (ref : OptionRef) (found : state.findLong (longCommandOf argument) = some ref)
      (type : (state.options ref).type = .inputOption) (whole : findEqualSign argument = none)
      (more : index + 1 ≠ state.parser.argumentCount) (plain : ¬ OptionForm (state.parser.argumentValues.getD (index + 1) []))
      (successful : parsed.result = .parseSuccessful)
  | stray (ref : OptionRef) (found : state.findLong (longCommandOf argument) = some ref)
      (type : (state.options ref).type = .inputOption) (whole : findEqualSign argument = none)
      (more : index + 1 ≠ state.parser.argumentCount) (form : OptionForm (state.parser.argumentValues.getD (index + 1) []))
      (failed : parsed.result ≠ .parseSuccessful)
      (options : parsed.state.options = (state.assign ref (state.parser.argumentValues.getD (index + 1) [])).options)
  | assigned (ref : OptionRef) (found : state.findLong (longCommandOf argument) = some ref)
      (type : (state.options ref).type = .inputOption) (pos : Nat) (position : findEqualSign argument = some pos)
      (differs : argument[pos]? ≠ argument[argument.length - 1]?) (successful : parsed.result = .parseSuccessful)

theorem parse_long_case (state : Parsing) (argument : WString) (index : Nat) :
    LongCase state argument index (parseLongCommand state argument index) := by
  unfold parseLongCommand
  dsimp only
  cases found : state.findLong (longCommandOf argument) with
  | none => exact .refused (by simp [failLong]) rfl
  | some ref =>
      dsimp only
      by_cases takesNone : (state.options ref).type ≠ .inputOption
      · rw [if_pos takesNone]
        cases position : findEqualSign argument with
        | none => exact .flag ref found takesNone position rfl
        | some pos => exact .refused (by simp [failLong]) rfl
      · have type := not_not.mp takesNone
        rw [if_neg takesNone]
        cases position : findEqualSign argument with
        | none =>
            dsimp only
            by_cases last : index + 1 = state.parser.argumentCount
            · rw [if_pos last]
              exact .refused (by simp [failLong]) rfl
            · rw [if_neg last]
              by_cases form : OptionForm (state.parser.argumentValues.getD (index + 1) [])
              · rw [if_pos (by simpa [OptionForm] using form)]
                exact .stray ref found type position last form (by simp [failLong]) rfl
              · rw [if_neg (by simpa [OptionForm] using form)]
                exact .separate ref found type position last form rfl
        | some pos =>
            dsimp only
            by_cases same : argument[pos]? = argument[argument.length - 1]?
            · rw [if_pos same]
              exact .refused (by simp [failLong]) rfl
            · rw [if_neg same]
              exact .assigned ref found type pos position same rfl

-- All that one round of parseShortCommand can do before the next character.
inductive ShortCase (state : Parsing) (argument : WString) (command : WChar) (rest : List WChar) (index : Nat) (parsed : Parsed) :
    Prop where
  | refused (failed : parsed.result ≠ .parseSuccessful) (options : parsed.state.options = state.options)
  | flag (ref : OptionRef) (found : state.findShort command = some ref) (type : (state.options ref).type ≠ .inputOption)
      (continues : parsed = parseShortCommands argument rest (state.countSet ref) index)
  | separate (ref : OptionRef) (found : state.findShort command = some ref) (type : (state.options ref).type = .inputOption)
      (alone : ¬ 2 < argument.length) (more : index + 1 ≠ state.parser.argumentCount)
      (plain : ¬ OptionForm (state.parser.argumentValues.getD (index + 1) []))
      (continues : parsed = parseShortCommands argument rest
        ((state.assign ref (state.parser.argumentValues.getD (index + 1) [])).countSet ref) (index + 1))
  | stray (ref : OptionRef) (found : state.findShort command = some ref) (type : (state.options ref).type = .inputOption)
      (alone : ¬ 2 < argument.length) (more : index + 1 ≠ state.parser.argumentCount)
      (form : OptionForm (state.parser.argumentValues.getD (index + 1) [])) (failed : parsed.result ≠ .parseSuccessful)
      (options : parsed.state.options = (state.assign ref (state.parser.argumentValues.getD (index + 1) [])).options)

theorem parse_short_case (state : Parsing) (argument : WString) (command : WChar) (rest : List WChar) (index : Nat) :
    ShortCase state argument command rest index (parseShortCommands argument (command :: rest) state index) := by
  rw [parseShortCommands]
  cases found : state.findShort command with
  | none => exact .refused (by simp [failShort]) rfl
  | some ref =>
      dsimp only
      by_cases takesNone : (state.options ref).type ≠ .inputOption
      · rw [if_pos takesNone]
        exact .flag ref found takesNone rfl
      · have type := not_not.mp takesNone
        rw [if_neg takesNone]
        by_cases together : 2 < argument.length
        · rw [if_pos together]
          exact .refused (by simp [failShort]) rfl
        · rw [if_neg together]
          by_cases last : index + 1 = state.parser.argumentCount
          · rw [if_pos last]
            exact .refused (by simp [failShort]) rfl
          · rw [if_neg last]
            by_cases form : OptionForm (state.parser.argumentValues.getD (index + 1) [])
            · rw [if_pos (by simpa [OptionForm] using form)]
              exact .stray ref found type together last form (by simp [failShort]) rfl
            · rw [if_neg (by simpa [OptionForm] using form)]
              exact .separate ref found type together last form rfl

theorem drop_token (values : List WString) (index : Nat) (bound : index < values.length) :
    values.drop index = values.getD index [] :: values.drop (index + 1) := by
  rw [List.drop_eq_getElem_cons bound, List.getD_eq_getElem?_getD, List.getElem?_eq_getElem bound]
  rfl

theorem use_option (state : Parsing) (use : Use) (ref : OptionRef) :
    (state.use use).options ref = (state.options ref).record (if use.names ref then 1 else 0) (use.givenTo ref) := by
  cases use with
  | positional argument => rfl
  | flag used =>
      rw [Parsing.use, count_record, update_option]
      by_cases same : ref = used
      · simp [Use.names, Use.givenTo, same]
      · simp [Use.names, Use.givenTo, same, Ne.symm same, ArgumentOption.record]
  | value used given =>
      rw [Parsing.use, assign_record, update_option]
      by_cases same : ref = used
      · simp [Use.names, Use.givenTo, same]
      · simp [Use.names, Use.givenTo, same, Ne.symm same, ArgumentOption.record]

theorem use_members (state : Parsing) (use : Use) :
    (state.use use).parser =
      { state.parser with positionalArgsValues := state.parser.positionalArgsValues ++ use.positionals } := by
  cases use with
  | positional argument => rfl
  | flag ref => simp [Parsing.use, Parsing.countSet, Parsing.update, Use.positionals]
  | value ref given => simp [Parsing.use, Parsing.assign, Parsing.countSet, Parsing.update, Use.positionals]

theorem use_all_option (state : Parsing) (uses : List Use) (ref : OptionRef) :
    (state.useAll uses).options ref =
      (state.options ref).record (uses.countP (Use.names ref)) (uses.flatMap (Use.givenTo ref)) := by
  induction uses generalizing state with
  | nil => rfl
  | cons use rest ih =>
      have later := ih (state.use use)
      rw [use_option, record_record] at later
      rw [List.countP_cons, List.flatMap_cons, Nat.add_comm]
      exact later

theorem use_all_members (state : Parsing) (uses : List Use) :
    (state.useAll uses).parser =
      { state.parser with positionalArgsValues := state.parser.positionalArgsValues ++ uses.flatMap Use.positionals } := by
  induction uses generalizing state with
  | nil => simp [Parsing.useAll]
  | cons use rest ih =>
      have later := ih (state.use use)
      rw [use_members, List.append_assoc] at later
      exact later

-- One round of the loop of Parse.
def parseArgument (state : Parsing) (index : Nat) : Parsed :=
  let currArg := state.parser.argumentValues.getD index []
  if isLongCommand currArg then parseLongCommand state currArg index
  else if isShortCommand currArg then parseShortCommand state currArg index
  else ⟨.parseSuccessful, state.addPositional currArg, index⟩

theorem parse_arguments_round (rounds index : Nat) (state : Parsing) (bound : index < state.parser.argumentCount) :
    parseArguments (rounds + 1) index state =
      if (parseArgument state index).result ≠ .parseSuccessful then
        ((parseArgument state index).result, (parseArgument state index).state)
      else parseArguments rounds ((parseArgument state index).currentIndex + 1) (parseArgument state index).state := by
  rw [parseArguments, if_pos bound]
  unfold parseArgument
  dsimp only
  by_cases long : isLongCommand (state.parser.argumentValues.getD index [])
  · rw [if_pos long, if_pos long]
  · rw [if_neg long, if_neg long]
    by_cases short : isShortCommand (state.parser.argumentValues.getD index [])
    · rw [if_pos short, if_pos short]
    · rw [if_neg short, if_neg short, if_neg (not_not.mpr rfl)]

theorem parse_arguments_end (rounds index : Nat) (state : Parsing) (reached : state.parser.argumentCount ≤ index) :
    parseArguments rounds index state = (.parseSuccessful, state) := by
  cases rounds with
  | zero => rfl
  | succ rounds => rw [parseArguments, if_neg (Nat.not_lt_of_le reached)]

theorem parse_shorts_flags (base : Parsing) (argument : WString) (commands : List WChar) (refs : List OptionRef)
    (flags : List.Forall₂ (FlagOf base) commands refs) (state : Parsing) (agrees : Agrees base state) (index : Nat) :
    parseShortCommands argument commands state index = ⟨.parseSuccessful, state.useAll (refs.map Use.flag), index⟩ := by
  induction flags generalizing state with
  | nil => rfl
  | @cons command ref rest laterRefs flag later ih =>
      rw [parseShortCommands, agrees.short, flag.1]
      dsimp only
      rw [if_pos (agrees.type ref ▸ flag.2), ih _ (agrees_kept base state _ agrees (keeps_count state ref))]
      rfl

theorem long_command (body : WString) (nonempty : body ≠ []) : isLongCommand (minusSign :: minusSign :: body) := by
  cases body with
  | nil => exact absurd rfl nonempty
  | cons c rest => simp [isLongCommand]

theorem short_command (first : WChar) (rest : WString) (differs : first ≠ minusSign) :
    ¬ isLongCommand (minusSign :: first :: rest) ∧ isShortCommand (minusSign :: first :: rest) := by
  simp [isLongCommand, isShortCommand, differs]

theorem next_token (values rest : List WString) (index : Nat) (first : WString) (tokens : values.drop index = first :: rest) :
    index < values.length ∧ values.getD index [] = first ∧ values.drop (index + 1) = rest := by
  have bound : index < values.length := by
    rw [← List.drop_eq_nil_iff.not.trans Nat.not_le, tokens]
    exact List.cons_ne_nil first rest
  rw [drop_token values index bound] at tokens
  exact ⟨bound, List.head_eq_of_cons_eq tokens, List.tail_eq_of_cons_eq tokens⟩

theorem following_token (parser : ArgumentParser) (rest : List WString) (index : Nat) (first second : WString)
    (tokens : parser.argumentValues.drop index = first :: second :: rest) :
    index + 1 ≠ parser.argumentCount ∧ parser.argumentValues.getD (index + 1) [] = second := by
  obtain ⟨_, _, behind⟩ := next_token _ _ index first tokens
  obtain ⟨more, isSecond, _⟩ := next_token _ rest (index + 1) second behind
  exact ⟨Nat.ne_of_lt more, isSecond⟩

theorem token_long (state : Parsing) (index : Nat) (body : WString) (rest : List WString)
    (tokens : state.parser.argumentValues.drop index = (minusSign :: minusSign :: body) :: rest) (nonempty : body ≠ []) :
    parseArgument state index = parseLongCommand state (minusSign :: minusSign :: body) index := by
  obtain ⟨_, isFirst, _⟩ := next_token _ _ index _ tokens
  unfold parseArgument
  dsimp only
  rw [isFirst, if_pos (long_command body nonempty)]

theorem token_short (state : Parsing) (index : Nat) (first : WChar) (body : WString) (rest : List WString)
    (tokens : state.parser.argumentValues.drop index = (minusSign :: first :: body) :: rest) (differs : first ≠ minusSign) :
    parseArgument state index = parseShortCommand state (minusSign :: first :: body) index := by
  obtain ⟨_, isFirst, _⟩ := next_token _ _ index _ tokens
  obtain ⟨noLong, short⟩ := short_command first body differs
  unfold parseArgument
  dsimp only
  rw [isFirst, if_neg noLong, if_pos short]

theorem token_plain (state : Parsing) (index : Nat) (argument : WString) (rest : List WString)
    (tokens : state.parser.argumentValues.drop index = argument :: rest) (plain : ¬ OptionForm argument) :
    parseArgument state index = ⟨.parseSuccessful, state.addPositional argument, index⟩ := by
  obtain ⟨_, isFirst, _⟩ := next_token _ _ index _ tokens
  rw [OptionForm, not_or] at plain
  unfold parseArgument
  dsimp only
  rw [isFirst, if_neg plain.1, if_neg plain.2]

-- What a round reads, and which of the two parsers it hands that to.
inductive TokenCase (state : Parsing) (index : Nat) : Prop where
  | long (body : WString) (rest : List WString) (nonempty : body ≠ [])
      (tokens : state.parser.argumentValues.drop index = (minusSign :: minusSign :: body) :: rest)
      (round : parseArgument state index = parseLongCommand state (minusSign :: minusSign :: body) index) : TokenCase state index
  | short (first : WChar) (body : WString) (rest : List WString) (differs : first ≠ minusSign)
      (tokens : state.parser.argumentValues.drop index = (minusSign :: first :: body) :: rest)
      (round : parseArgument state index = parseShortCommand state (minusSign :: first :: body) index) : TokenCase state index
  | plain (argument : WString) (rest : List WString) (plain : ¬ OptionForm argument)
      (tokens : state.parser.argumentValues.drop index = argument :: rest)
      (round : parseArgument state index = ⟨.parseSuccessful, state.addPositional argument, index⟩) : TokenCase state index

theorem token_case (state : Parsing) (index : Nat) (bound : index < state.parser.argumentCount) : TokenCase state index := by
  have tokens := drop_token state.parser.argumentValues index bound
  by_cases form : OptionForm (state.parser.argumentValues.getD index [])
  · rcases form with long | short
    · obtain ⟨body, shape, nonempty⟩ := long_form _ long
      rw [shape] at tokens
      exact .long body _ nonempty tokens (token_long state index body _ tokens nonempty)
    · obtain ⟨first, body, shape, differs⟩ := short_form _ short
      rw [shape] at tokens
      exact .short first body _ differs tokens (token_short state index first body _ tokens differs)
  · exact .plain _ _ form tokens (token_plain state index _ _ tokens form)

theorem assigned_parts (command value : WString) :
    let argument := minusSign :: minusSign :: (command ++ equalSign :: value)
    argument.drop (command.length + 3) = value ∧ argument[command.length + 2]? = some equalSign ∧
      argument[argument.length - 1]? = (equalSign :: value).getLast? := by
  refine ⟨by simp, by simp, ?_⟩
  rw [← List.getLast?_eq_getElem?]
  exact List.getLast?_append_cons (minusSign :: minusSign :: command) equalSign value

theorem last_differs (value : WString) :
    some equalSign ≠ (equalSign :: value).getLast? ↔ value ≠ [] ∧ value.getLast? ≠ some equalSign := by
  cases value with
  | nil => simp
  | cons c rest => simp [List.getLast?_cons_cons, eq_comm]

theorem reads_round (base : Parsing) (segment : Segment) (used : List Use) (reads : Reads base segment used) (state : Parsing)
    (agrees : Agrees base state) (index : Nat) (rest : List WString)
    (tokens : state.parser.argumentValues.drop index = segment.tokens ++ rest) :
    parseArgument state index = ⟨.parseSuccessful, state.useAll used, index + segment.tokens.length - 1⟩ := by
  cases reads with
  | positional argument plain => exact token_plain state index argument rest tokens plain
  | longFlag command ref nonempty absent found type =>
      obtain ⟨position, isCommand⟩ := command_whole command absent
      rw [token_long state index command rest tokens nonempty, parseLongCommand, isCommand, agrees.long, found]
      dsimp only
      rw [if_pos (agrees.type ref ▸ type), position]
      rfl
  | longAssigned command value ref absent nonempty last found type =>
      obtain ⟨position, isCommand⟩ := command_assigned command value absent
      obtain ⟨isValue, isEqual, isLast⟩ := assigned_parts command value
      rw [token_long state index _ rest tokens (by simp), parseLongCommand, isCommand, agrees.long, found]
      dsimp only
      rw [if_neg (not_not.mpr (agrees.type ref ▸ type)), position]
      dsimp only
      rw [isEqual, isLast, isValue, if_neg ((last_differs value).mpr ⟨nonempty, last⟩)]
      rfl
  | longSeparate command value ref nonempty absent plain found type =>
      obtain ⟨position, isCommand⟩ := command_whole command absent
      obtain ⟨follows, isValue⟩ := following_token _ rest index _ value tokens
      rw [token_long state index command _ tokens nonempty, parseLongCommand, isCommand, agrees.long, found]
      dsimp only
      rw [if_neg (not_not.mpr (agrees.type ref ▸ type)), position]
      dsimp only
      rw [if_neg follows, isValue, if_neg (by simpa [OptionForm] using plain)]
      rfl
  | shortSeparate command value ref differs plain found type =>
      obtain ⟨follows, isValue⟩ := following_token _ rest index _ value tokens
      rw [token_short state index command [] _ tokens differs, parseShortCommand, List.drop_succ_cons, List.drop_zero,
        parseShortCommands, agrees.short, found]
      dsimp only
      rw [if_neg (not_not.mpr (agrees.type ref ▸ type)), if_neg (by simp), if_neg follows, isValue,
        if_neg (by simpa [OptionForm] using plain), parseShortCommands]
      rfl
  | cluster head tail refs differs flags =>
      rw [token_short state index head tail rest tokens differs]
      exact parse_shorts_flags base _ _ refs flags state agrees index

-- Commands that stand together take no value.
theorem shorts_flags (base : Parsing) (argument : WString) (together : 2 < argument.length) (commands : List WChar) (state : Parsing)
    (agrees : Agrees base state) (index : Nat)
    (successful : (parseShortCommands argument commands state index).result = .parseSuccessful) :
    ∃ refs, List.Forall₂ (FlagOf base) commands refs := by
  induction commands generalizing state with
  | nil => exact ⟨[], .nil⟩
  | cons command rest ih =>
      cases parse_short_case state argument command rest index with
      | refused failed => exact absurd successful failed
      | flag ref found type continues =>
          rw [continues] at successful
          obtain ⟨refs, flags⟩ := ih _ (agrees_kept base state _ agrees (keeps_count state ref)) successful
          exact ⟨ref :: refs, .cons ⟨agrees.short command ▸ found, agrees.type ref ▸ type⟩ flags⟩
      | separate ref _ _ alone => exact absurd together alone
      | stray ref _ _ alone => exact absurd together alone

theorem value_token (values rest : List WString) (index : Nat) (first : WString) (tokens : values.drop index = first :: rest)
    (more : index + 1 ≠ values.length) : values.drop index = first :: values.getD (index + 1) [] :: values.drop (index + 2) := by
  obtain ⟨bound, _, behind⟩ := next_token values rest index first tokens
  rw [tokens, ← behind, drop_token values (index + 1) (Nat.lt_of_le_of_ne bound more)]

theorem long_reads (base state : Parsing) (agrees : Agrees base state) (index : Nat) (body : WString) (nonempty : body ≠ [])
    (rest : List WString) (tokens : state.parser.argumentValues.drop index = (minusSign :: minusSign :: body) :: rest)
    (successful : (parseLongCommand state (minusSign :: minusSign :: body) index).result = .parseSuccessful) :
    ∃ segment used later, Reads base segment used ∧ state.parser.argumentValues.drop index = segment.tokens ++ later := by
  cases parse_long_case state (minusSign :: minusSign :: body) index with
  | refused failed => exact absurd successful failed
  | stray ref _ _ _ _ _ failed => exact absurd successful failed
  | flag ref found type whole =>
      obtain ⟨absent, isCommand⟩ := whole_command body whole
      rw [isCommand, agrees.long] at found
      exact ⟨_, _, rest, .longFlag body ref nonempty absent found (agrees.type ref ▸ type), tokens⟩
  | separate ref found type whole more plain =>
      obtain ⟨absent, isCommand⟩ := whole_command body whole
      rw [isCommand, agrees.long] at found
      exact ⟨_, _, state.parser.argumentValues.drop (index + 2),
        .longSeparate body _ ref nonempty absent plain found (agrees.type ref ▸ type), value_token _ rest index _ tokens more⟩
  | assigned ref found type pos position differs =>
      obtain ⟨command, value, rfl, absent⟩ := List.eq_append_cons_of_mem (assigned_command body pos position)
      obtain ⟨isPos, isCommand⟩ := command_assigned command value absent
      obtain ⟨_, isEqual, isLast⟩ := assigned_parts command value
      rw [isPos, Option.some.injEq] at position
      rw [isCommand, agrees.long] at found
      rw [← position, isEqual, isLast, last_differs] at differs
      exact ⟨_, _, rest, .longAssigned command value ref absent differs.1 differs.2 found (agrees.type ref ▸ type), tokens⟩

theorem short_reads (base state : Parsing) (agrees : Agrees base state) (index : Nat) (first : WChar) (body : WString)
    (differs : first ≠ minusSign) (rest : List WString)
    (tokens : state.parser.argumentValues.drop index = (minusSign :: first :: body) :: rest)
    (successful : (parseShortCommand state (minusSign :: first :: body) index).result = .parseSuccessful) :
    ∃ segment used later, Reads base segment used ∧ state.parser.argumentValues.drop index = segment.tokens ++ later := by
  cases body with
  | nil =>
      cases parse_short_case state [minusSign, first] first [] index with
      | refused failed => exact absurd successful failed
      | stray ref _ _ _ _ _ failed => exact absurd successful failed
      | flag ref found type _ =>
          have flag : FlagOf base first ref := ⟨agrees.short first ▸ found, agrees.type ref ▸ type⟩
          exact ⟨_, _, rest, .cluster first [] [ref] differs (.cons flag .nil), tokens⟩
      | separate ref found type _ more plain =>
          exact ⟨_, _, state.parser.argumentValues.drop (index + 2),
            .shortSeparate first _ ref differs plain (agrees.short first ▸ found) (agrees.type ref ▸ type),
            value_token _ rest index _ tokens more⟩
  | cons second body =>
      obtain ⟨refs, flags⟩ := shorts_flags base _ (by simp) _ state agrees index successful
      exact ⟨_, _, rest, .cluster first (second :: body) refs differs flags, tokens⟩

theorem round_reads (base state : Parsing) (agrees : Agrees base state) (index : Nat) (bound : index < state.parser.argumentCount)
    (successful : (parseArgument state index).result = .parseSuccessful) :
    ∃ segment used rest, Reads base segment used ∧ state.parser.argumentValues.drop index = segment.tokens ++ rest := by
  cases token_case state index bound with
  | long body rest nonempty tokens round =>
      rw [round] at successful
      exact long_reads base state agrees index body nonempty rest tokens successful
  | short first body rest differs tokens round =>
      rw [round] at successful
      exact short_reads base state agrees index first body differs rest tokens successful
  | plain argument rest plain tokens => exact ⟨_, _, rest, .positional argument plain, tokens⟩

theorem reads_agree (base state : Parsing) (agrees : Agrees base state) (segment : Segment) (used : List Use)
    (reads : Reads base segment used) : Reads state segment used := by
  cases reads with
  | positional argument plain => exact .positional argument plain
  | longFlag command ref nonempty absent found type =>
      exact .longFlag command ref nonempty absent (agrees.long command ▸ found) (agrees.type ref ▸ type)
  | longAssigned command value ref absent nonempty last found type =>
      exact .longAssigned command value ref absent nonempty last (agrees.long command ▸ found) (agrees.type ref ▸ type)
  | longSeparate command value ref nonempty absent plain found type =>
      exact .longSeparate command value ref nonempty absent plain (agrees.long command ▸ found) (agrees.type ref ▸ type)
  | shortSeparate command value ref differs plain found type =>
      exact .shortSeparate command value ref differs plain (agrees.short command ▸ found) (agrees.type ref ▸ type)
  | cluster first rest refs differs flags =>
      refine .cluster first rest refs differs (flags.imp ?_)
      rintro command ref ⟨found, type⟩
      exact ⟨agrees.short command ▸ found, agrees.type ref ▸ type⟩

theorem reads_all_agree (base state : Parsing) (agrees : Agrees base state) (segments : List Segment) (uses : List Use)
    (reads : ReadsAll base segments uses) : ReadsAll state segments uses := by
  induction reads with
  | nil => exact .nil
  | cons segment segments used later reads _ ih =>
      exact .cons segment segments used later (reads_agree base state agrees segment used reads) ih

theorem reads_all_append (base : Parsing) (first second : List Segment) (before after : List Use) (reads : ReadsAll base first before)
    (readsAfter : ReadsAll base second after) : ReadsAll base (first ++ second) (before ++ after) := by
  induction reads with
  | nil => exact readsAfter
  | cons segment segments used later reads _ ih =>
      rw [List.append_assoc]
      exact .cons segment _ used _ reads ih

theorem flags_of_input (base : Parsing) (ref : OptionRef) (commands : List WChar) (refs : List OptionRef)
    (flags : List.Forall₂ (FlagOf base) commands refs) (type : (base.options ref).type = .inputOption) :
    (refs.map Use.flag).countP (Use.names ref) = 0 := by
  induction flags with
  | nil => rfl
  | @cons command used rest refs flag _ ih =>
      have differs : used ≠ ref := fun same => flag.2 (same ▸ type)
      rw [List.map_cons, List.countP_cons, ih]
      simp [Use.names, differs]

-- An InputOption has as many values as uses, and no other option has a value.
theorem reads_values (base : Parsing) (ref : OptionRef) (segment : Segment) (used : List Use) (reads : Reads base segment used) :
    (used.flatMap (Use.givenTo ref)).length = if (base.options ref).type = .inputOption then used.countP (Use.names ref) else 0 := by
  cases reads with
  | positional argument _ => simp [Use.givenTo, Use.names]
  | longFlag command used _ _ _ type =>
      by_cases same : used = ref
      · simp [Use.givenTo, ← same, type]
      · simp [Use.givenTo, Use.names, same]
  | longAssigned command value used _ _ _ _ type =>
      by_cases same : used = ref
      · simp [Use.givenTo, Use.names, ← same, type]
      · simp [Use.givenTo, Use.names, same]
  | longSeparate command value used _ _ _ _ type =>
      by_cases same : used = ref
      · simp [Use.givenTo, Use.names, ← same, type]
      · simp [Use.givenTo, Use.names, same]
  | shortSeparate command value used _ _ _ type =>
      by_cases same : used = ref
      · simp [Use.givenTo, Use.names, ← same, type]
      · simp [Use.givenTo, Use.names, same]
  | cluster first rest refs _ flags =>
      have none : (refs.map Use.flag).flatMap (Use.givenTo ref) = [] := by simp [Use.givenTo]
      rw [none]
      by_cases input : (base.options ref).type = .inputOption
      · rw [if_pos input, flags_of_input base ref _ refs flags input]
        rfl
      · rw [if_neg input]
        rfl

theorem reads_all_values (base : Parsing) (ref : OptionRef) (segments : List Segment) (uses : List Use)
    (reads : ReadsAll base segments uses) :
    (uses.flatMap (Use.givenTo ref)).length = if (base.options ref).type = .inputOption then uses.countP (Use.names ref) else 0 := by
  induction reads with
  | nil => simp
  | cons segment segments used later reads _ ih =>
      rw [List.flatMap_append, List.length_append, List.countP_append, ih, reads_values base ref segment used reads]
      split
      · rfl
      · rfl

def tokensOf (segments : List Segment) : List WString := segments.flatMap Segment.tokens

theorem tokens_positive (segment : Segment) : 0 < segment.tokens.length := by
  cases segment <;> simp [Segment.tokens]

theorem segments_le_tokens (segments : List Segment) : segments.length ≤ (tokensOf segments).length := by
  induction segments with
  | nil => rfl
  | cons segment rest ih =>
      have positive := tokens_positive segment
      rw [tokensOf, List.flatMap_cons, List.length_append, List.length_cons]
      change rest.length + 1 ≤ segment.tokens.length + (tokensOf rest).length
      omega

theorem drop_beyond (values first rest : List WString) (index : Nat) (tokens : values.drop index = first ++ rest) :
    values.drop (index + first.length) = rest := by
  rw [← List.drop_drop, tokens, List.drop_left]

-- The loop gets past segments it can read; the induction is on the segments.
theorem parse_arguments_reads (base : Parsing) (segments : List Segment) (uses : List Use) (reads : ReadsAll base segments uses)
    (rounds index : Nat) (state : Parsing) (agrees : Agrees base state) (rest : List WString)
    (tokens : state.parser.argumentValues.drop index = tokensOf segments ++ rest) :
    parseArguments (rounds + segments.length) index state =
      parseArguments rounds (index + (tokensOf segments).length) (state.useAll uses) := by
  induction reads generalizing index state with
  | nil => rfl
  | cons segment segments used later reads _ ih =>
      rw [tokensOf, List.flatMap_cons, List.append_assoc] at tokens
      have round := reads_round base segment used reads state agrees index _ tokens
      have positive := tokens_positive segment
      have beyond := drop_beyond _ _ _ index tokens
      have bound : index < state.parser.argumentCount := by
        have size := congrArg List.length tokens
        rw [List.length_drop, List.length_append] at size
        rw [ArgumentParser.argumentCount]
        omega
      have next : index + segment.tokens.length - 1 + 1 = index + segment.tokens.length := by omega
      rw [List.length_cons, ← Nat.add_assoc, parse_arguments_round _ index state bound, round]
      dsimp only
      rw [if_neg (not_not.mpr rfl), next, ih _ _ (agrees_kept base state _ agrees (keeps_use_all state used)) (by
        rw [(keeps_use_all state used).argumentValues]
        exact beyond)]
      rw [tokensOf, tokensOf, List.flatMap_cons, List.length_append, Nat.add_assoc, use_all_append]

-- The loop reads segments until none is left or one is refused.
theorem parse_arguments_stops (base : Parsing) (rounds index : Nat) (state : Parsing) (agrees : Agrees base state)
    (enough : state.parser.argumentCount ≤ index + rounds) :
    ∃ segments uses rest, ReadsAll base segments uses ∧ state.parser.argumentValues.drop index = tokensOf segments ++ rest ∧
      ((rest = [] ∧ parseArguments rounds index state = (.parseSuccessful, state.useAll uses)) ∨
        (rest ≠ [] ∧ ∃ failed, parseArgument (state.useAll uses) (index + (tokensOf segments).length) = failed ∧
          failed.result ≠ .parseSuccessful ∧ parseArguments rounds index state = (failed.result, failed.state))) := by
  induction rounds generalizing index state with
  | zero => exact ⟨[], [], [], .nil, List.drop_eq_nil_of_le enough, .inl ⟨rfl, rfl⟩⟩
  | succ rounds ih =>
      by_cases bound : index < state.parser.argumentCount
      · by_cases successful : (parseArgument state index).result = .parseSuccessful
        · obtain ⟨segment, used, rest, reads, tokens⟩ := round_reads base state agrees index bound successful
          have positive := tokens_positive segment
          have keeps := keeps_use_all state used
          have round := reads_round base segment used reads state agrees index rest tokens
          have next : index + segment.tokens.length - 1 + 1 = index + segment.tokens.length := by omega
          obtain ⟨segments, later, beyond, readsLater, tokensLater, outcome⟩ :=
            ih (index + segment.tokens.length) (state.useAll used) (agrees_kept base state _ agrees keeps) (by
              rw [ArgumentParser.argumentCount, keeps.argumentValues]
              exact Nat.le_trans enough (by omega))
          rw [keeps.argumentValues, drop_beyond _ _ _ index tokens] at tokensLater
          refine ⟨segment :: segments, used ++ later, beyond, .cons segment segments used later reads readsLater, ?_, ?_⟩
          · rw [tokens, tokensLater, tokensOf, tokensOf, List.flatMap_cons, List.append_assoc]
          · rw [parse_arguments_round rounds index state bound, round]
            dsimp only
            rw [if_neg (not_not.mpr rfl), next, use_all_append, tokensOf, List.flatMap_cons, List.length_append, ← Nat.add_assoc]
            exact outcome
        · refine ⟨[], [], _, .nil, rfl, .inr ⟨?_, _, rfl, successful, ?_⟩⟩
          · rw [ne_eq, List.drop_eq_nil_iff]
            exact Nat.not_le_of_lt bound
          · rw [parse_arguments_round rounds index state bound, if_pos successful]
            rfl
      · have reached := Nat.le_of_not_lt bound
        exact ⟨[], [], [], .nil, List.drop_eq_nil_of_le reached, .inl ⟨rfl, parse_arguments_end _ index state reached⟩⟩

theorem parse_loop (state : Parsing) :
    parse state = parseArguments state.parser.argumentCount 1 (resetParsedValues state) := by
  have count : (resetParsedValues state).parser.argumentCount = state.parser.argumentCount := by
    rw [reset_values_members]
    rfl
  unfold parse
  dsimp only
  rw [count]
  by_cases few : state.parser.argumentCount < 2
  · rw [if_pos few, parse_arguments_end]
    rw [count]
    exact Nat.le_of_lt_succ few
  · rw [if_neg few]

theorem reset_agrees (state : Parsing) : Agrees state (resetParsedValues state) :=
  agrees_kept state state _ (agrees_refl state) (reset_keeps state)

-- The state in which the loop stands behind segments it has read.
theorem reached_agrees (state : Parsing) (uses : List Use) : Agrees state ((resetParsedValues state).useAll uses) :=
  agrees_kept state _ _ (reset_agrees state) (keeps_use_all _ uses)

theorem reached_values (state : Parsing) (uses : List Use) :
    ((resetParsedValues state).useAll uses).parser.argumentValues = state.parser.argumentValues :=
  (keeps_use_all _ uses).argumentValues.trans (reset_keeps state).argumentValues

theorem reached_tokens (state : Parsing) (uses : List Use) (segments : List Segment) (rest : List WString)
    (tokens : state.parser.argumentValues.drop 1 = tokensOf segments ++ rest) :
    ((resetParsedValues state).useAll uses).parser.argumentValues.drop (1 + (tokensOf segments).length) = rest := by
  rw [reached_values]
  exact drop_beyond _ _ rest 1 tokens

theorem parse_stops (state : Parsing) :
    ∃ segments uses rest, ReadsAll state segments uses ∧ state.parser.argumentValues.drop 1 = tokensOf segments ++ rest ∧
      ((rest = [] ∧ parse state = (.parseSuccessful, (resetParsedValues state).useAll uses)) ∨
        (rest ≠ [] ∧ ∃ failed, parseArgument ((resetParsedValues state).useAll uses) (1 + (tokensOf segments).length) = failed ∧
          failed.result ≠ .parseSuccessful ∧ parse state = (failed.result, failed.state))) := by
  have values := (reset_keeps state).argumentValues
  rw [parse_loop, ← values]
  exact parse_arguments_stops state _ 1 _ (reset_agrees state) (by
    rw [ArgumentParser.argumentCount, values]
    exact Nat.le_add_left _ _)

theorem parse_arrives (state : Parsing) (segments : List Segment) (uses : List Use) (reads : ReadsAll state segments uses)
    (rest : List WString) (tokens : state.parser.argumentValues.drop 1 = tokensOf segments ++ rest) :
    parse state = parseArguments (state.parser.argumentCount - segments.length) (1 + (tokensOf segments).length)
      ((resetParsedValues state).useAll uses) := by
  have values := (reset_keeps state).argumentValues
  have size := congrArg List.length tokens
  have small := segments_le_tokens segments
  rw [List.length_drop, List.length_append] at size
  have rounds : state.parser.argumentCount = state.parser.argumentCount - segments.length + segments.length := by
    rw [ArgumentParser.argumentCount]
    omega
  rw [parse_loop, rounds, Nat.add_sub_cancel]
  exact parse_arguments_reads state segments uses reads _ 1 _ (reset_agrees state) rest (values ▸ tokens)

theorem parse_reads (state : Parsing) (segments : List Segment) (uses : List Use) (reads : ReadsAll state segments uses)
    (tokens : state.parser.argumentValues.drop 1 = tokensOf segments) :
    parse state = (.parseSuccessful, (resetParsedValues state).useAll uses) := by
  have count : ((resetParsedValues state).useAll uses).parser.argumentCount = state.parser.argumentCount :=
    congrArg List.length (reached_values state uses)
  have size := congrArg List.length tokens
  rw [parse_arrives state segments uses reads [] (by rw [tokens, List.append_nil]), parse_arguments_end]
  rw [count, ArgumentParser.argumentCount]
  rw [List.length_drop] at size
  omega

theorem parse_refuses (state : Parsing) (segments : List Segment) (uses : List Use) (reads : ReadsAll state segments uses)
    (token : WString) (rest : List WString) (tokens : state.parser.argumentValues.drop 1 = tokensOf segments ++ token :: rest)
    (failed : Parsed) (round : parseArgument ((resetParsedValues state).useAll uses) (1 + (tokensOf segments).length) = failed)
    (refused : failed.result ≠ .parseSuccessful) : parse state = (failed.result, failed.state) := by
  have count : ((resetParsedValues state).useAll uses).parser.argumentCount = state.parser.argumentCount :=
    congrArg List.length (reached_values state uses)
  have size := congrArg List.length tokens
  have small := segments_le_tokens segments
  rw [List.length_drop, List.length_append, List.length_cons] at size
  have left : state.parser.argumentCount - segments.length = state.parser.argumentCount - segments.length - 1 + 1 := by
    rw [ArgumentParser.argumentCount]
    omega
  rw [parse_arrives state segments uses reads _ tokens, left, parse_arguments_round, round, if_pos refused]
  rw [count, ArgumentParser.argumentCount]
  omega

theorem reads_of_successful (state : Parsing) (successful : (parse state).1 = .parseSuccessful) :
    ∃ segments uses, ReadsAll state segments uses ∧ state.parser.argumentValues.drop 1 = tokensOf segments ∧
      parse state = (.parseSuccessful, (resetParsedValues state).useAll uses) := by
  obtain ⟨segments, uses, rest, reads, tokens, outcome⟩ := parse_stops state
  rcases outcome with ⟨empty, parsed⟩ | ⟨_, failed, _, refused, parsed⟩
  · rw [empty, List.append_nil] at tokens
    exact ⟨segments, uses, reads, tokens, parsed⟩
  · rw [parsed] at successful
    exact absurd successful refused

end PushReceiver.Arguments
