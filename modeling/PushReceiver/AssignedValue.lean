import PushReceiver.ParseOrder
import PushReceiver.ParseReading

set_option autoImplicit false

namespace PushReceiver.Arguments

-- The same parser and options with another command line.
def Parsing.withArguments (state : Parsing) (execCall : WString) (arguments : List WString) : Parsing :=
  { state with parser := { state.parser with argumentValues := execCall :: arguments } }

-- --name=value
def assigned (command value : WString) : WString := minusSign :: minusSign :: (command ++ equalSign :: value)

-- --name value
def separate (command value : WString) : List WString := [minusSign :: minusSign :: command, value]

def Parsing.wasSetBy (state : Parsing) (execCall : WString) (arguments : List WString) (ref : OptionRef) : Nat :=
  ((parse (state.withArguments execCall arguments)).2.options ref).wasSet

def Parsing.valueBy (state : Parsing) (execCall : WString) (arguments : List WString) (ref : OptionRef) : WString :=
  ((parse (state.withArguments execCall arguments)).2.options ref).value

-- A later occurrence of the option replaces the value.
structure SetsValue (state : Parsing) (execCall : WString) (before after : List WString) (ref : OptionRef) (command value : WString) :
    Prop where
  accepted : (parse (state.withArguments execCall (before ++ assigned command value :: after))).1 = .parseSuccessful
  counted : state.wasSetBy execCall (before ++ assigned command value :: after) ref =
    state.wasSetBy execCall before ref + 1 + state.wasSetBy execCall after ref
  stored : state.valueBy execCall (before ++ assigned command value :: after) ref =
    if state.wasSetBy execCall after ref = 0 then value else state.valueBy execCall after ref
  likeSeparate : ¬ OptionForm value →
    SameOutcome (parse (state.withArguments execCall (before ++ assigned command value :: after)))
      (parse (state.withArguments execCall (before ++ (separate command value ++ after))))

theorem agrees_arguments (state : Parsing) (execCall : WString) (arguments : List WString) :
    Agrees state (state.withArguments execCall arguments) ∧ Agrees (state.withArguments execCall arguments) state :=
  ⟨⟨fun _ => rfl, fun _ => rfl, fun _ => rfl⟩, ⟨fun _ => rfl, fun _ => rfl, fun _ => rfl⟩⟩

theorem use_all_arguments (state : Parsing) (execCall : WString) (arguments : List WString) (uses : List Use) :
    (resetParsedValues (state.withArguments execCall arguments)).useAll uses =
      ((resetParsedValues state).useAll uses).withArguments execCall arguments := by
  apply Parsing.ext
  · dsimp only [Parsing.withArguments]
    rw [use_all_members, use_all_members, reset_values_members, reset_values_members]
  · funext ref
    dsimp only [Parsing.withArguments]
    rw [use_all_option, use_all_option, reset_values_option, reset_values_option]

theorem parse_line (state : Parsing) (execCall : WString) (segments : List Segment) (uses : List Use) (reads : ReadsAll state segments uses) :
    parse (state.withArguments execCall (tokensOf segments)) =
      (.parseSuccessful, ((resetParsedValues state).useAll uses).withArguments execCall (tokensOf segments)) := by
  have agrees := (agrees_arguments state execCall (tokensOf segments)).1
  rw [parse_reads _ segments uses (reads_all_agree state _ agrees segments uses reads) rfl, use_all_arguments]

theorem reads_line (state : Parsing) (execCall : WString) (arguments : List WString)
    (successful : (parse (state.withArguments execCall arguments)).1 = .parseSuccessful) :
    ∃ segments uses, ReadsAll state segments uses ∧ arguments = tokensOf segments := by
  obtain ⟨segments, uses, reads, tokens, _⟩ := reads_of_successful _ successful
  exact ⟨segments, uses, reads_all_agree _ state (agrees_arguments state execCall arguments).2 segments uses reads, tokens⟩

theorem same_outcome_arguments (result : ParseResult) (state : Parsing) (execCall : WString) (first second : List WString) :
    SameOutcome (result, state.withArguments execCall first) (result, state.withArguments execCall second) :=
  ⟨rfl, rfl, rfl, fun _ => rfl, fun _ => rfl, rfl⟩

theorem was_set_line (state : Parsing) (execCall : WString) (segments : List Segment) (uses : List Use) (reads : ReadsAll state segments uses)
    (ref : OptionRef) (member : ref ∈ state.parser.argumentOptions) :
    state.wasSetBy execCall (tokensOf segments) ref = uses.countP (Use.names ref) := by
  rw [Parsing.wasSetBy, parse_line state execCall segments uses reads, Parsing.withArguments]
  dsimp only
  rw [use_all_option, reset_values_option, if_pos member]
  exact Nat.zero_add _

theorem value_line (state : Parsing) (execCall : WString) (segments : List Segment) (uses : List Use) (reads : ReadsAll state segments uses)
    (ref : OptionRef) (member : ref ∈ state.parser.argumentOptions) :
    state.valueBy execCall (tokensOf segments) ref = (uses.flatMap (Use.givenTo ref)).getLast?.getD [] := by
  rw [Parsing.valueBy, parse_line state execCall segments uses reads, Parsing.withArguments]
  dsimp only
  rw [use_all_option, reset_values_option, if_pos member]
  rfl

theorem tokens_append (first second : List Segment) : tokensOf (first ++ second) = tokensOf first ++ tokensOf second :=
  List.flatMap_append

-- The characters behind '=' are taken for missing when the last of them is '='.
theorem assigned_refused (base state : Parsing) (agrees : Agrees base state) (command value : WString) (ref : OptionRef)
    (absent : equalSign ∉ command) (last : value.getLast? = some equalSign) (found : base.findLong command = some ref)
    (type : (base.options ref).type = .inputOption) (index : Nat) (rest : List WString)
    (tokens : state.parser.argumentValues.drop index = assigned command value :: rest) :
    parseArgument state index = failLong state .noValueWasPassedToOption command index := by
  obtain ⟨position, isCommand⟩ := command_assigned command value absent
  obtain ⟨_, isEqual, isLast⟩ := assigned_parts command value
  have same : some equalSign = (equalSign :: value).getLast? := by
    by_contra differs
    exact ((last_differs value).mp differs).2 last
  rw [token_long state index _ rest tokens (by simp), parseLongCommand, isCommand, agrees.long, found]
  dsimp only
  rw [if_neg (not_not.mpr (agrees.type ref ▸ type)), position]
  dsimp only
  rw [isEqual, isLast, if_pos same]

theorem assigned_not_accepted (state : Parsing) (segments : List Segment) (uses : List Use) (reads : ReadsAll state segments uses)
    (command value : WString) (ref : OptionRef) (absent : equalSign ∉ command) (last : value.getLast? = some equalSign)
    (found : state.findLong command = some ref) (type : (state.options ref).type = .inputOption) (rest : List WString)
    (tokens : state.parser.argumentValues.drop 1 = tokensOf segments ++ assigned command value :: rest) :
    (parse state).1 ≠ .parseSuccessful := by
  have refused := assigned_refused state _ (reached_agrees state uses) command value ref absent last found type _ rest
    (reached_tokens state uses segments _ tokens)
  rw [parse_refuses state segments uses reads _ rest tokens _ refused (by simp [failLong])]
  simp [failLong]

theorem parse_separate (state : Parsing) (execCall : WString) (first second : List Segment) (before after : List Use)
    (reads : ReadsAll state first before) (readsAfter : ReadsAll state second after) (command value : WString) (ref : OptionRef)
    (nonempty : command ≠ []) (absent : equalSign ∉ command) (plain : ¬ OptionForm value) (found : state.findLong command = some ref)
    (type : (state.options ref).type = .inputOption) :
    parse (state.withArguments execCall (tokensOf first ++ (separate command value ++ tokensOf second))) =
      (.parseSuccessful, ((resetParsedValues state).useAll (before ++ .value ref value :: after)).withArguments execCall
        (tokensOf first ++ (separate command value ++ tokensOf second))) := by
  have line := parse_line state execCall _ _ (reads_all_append state first _ before _ reads
    (.cons _ _ _ _ (.longSeparate command value ref nonempty absent plain found type) readsAfter))
  rw [tokens_append] at line
  exact line

theorem assigned_value_iff (state : Parsing) (unambiguous : Unambiguous state.options state.parser.argumentOptions) (ref : OptionRef)
    (member : ref ∈ state.parser.argumentOptions) (type : (state.options ref).type = .inputOption) (command : WString)
    (has : command ∈ (state.options ref).longCommands) (nonempty : command ≠ []) (absent : equalSign ∉ command) (value : WString)
    (given : value ≠ []) (execCall : WString) (before after : List WString)
    (validBefore : (parse (state.withArguments execCall before)).1 = .parseSuccessful)
    (validAfter : (parse (state.withArguments execCall after)).1 = .parseSuccessful) :
    SetsValue state execCall before after ref command value ↔ value.getLast? ≠ some equalSign := by
  have found : state.findLong command = some ref := by
    apply Unordered.first_match_found _ _ ref member (decide_eq_true has)
    simp only [decide_eq_true_eq]
    exact long_unique state.options _ unambiguous command
  obtain ⟨first, usesBefore, reads, rfl⟩ := reads_line state execCall before validBefore
  obtain ⟨second, usesAfter, readsAfter, rfl⟩ := reads_line state execCall after validAfter
  constructor
  · intro sets last
    have agrees := (agrees_arguments state execCall (tokensOf first ++ assigned command value :: tokensOf second)).1
    exact assigned_not_accepted _ first usesBefore (reads_all_agree state _ agrees first usesBefore reads) command value ref absent last
      found type _ rfl sets.accepted
  · intro last
    have readsWhole := reads_all_append state first _ usesBefore _ reads
      (.cons _ _ _ _ (.longAssigned command value ref absent given last found type) readsAfter)
    have tokens : tokensOf first ++ assigned command value :: tokensOf second =
        tokensOf (first ++ .longAssigned command value :: second) := by
      rw [tokens_append]
      rfl
    have line := parse_line state execCall _ _ readsWhole
    have wasSetAfter := was_set_line state execCall second usesAfter readsAfter ref member
    have values := reads_all_values state ref second usesAfter readsAfter
    rw [if_pos type] at values
    refine ⟨?_, ?_, ?_, ?_⟩
    · rw [tokens, line]
    · rw [tokens, was_set_line state execCall _ _ readsWhole ref member, was_set_line state execCall first usesBefore reads ref member,
        wasSetAfter, List.countP_append, List.countP_append, Nat.add_assoc]
      simp [Use.names]
    · rw [tokens, value_line state execCall _ _ readsWhole ref member, value_line state execCall second usesAfter readsAfter ref member,
        wasSetAfter, ← values, List.flatMap_append, List.flatMap_append]
      cases inside : usesAfter.flatMap (Use.givenTo ref) with
      | nil => simp [Use.givenTo]
      | cons head tail => simp [Use.givenTo, List.getLast?_append, List.getLast?_cons]
    · intro plain
      rw [parse_separate state execCall first second usesBefore usesAfter reads readsAfter command value ref nonempty absent plain
        found type, tokens, line]
      exact same_outcome_arguments _ _ execCall _ _

theorem assigned_value_register :
    SetsValue registerLine (wide "FCMReceiverCpp") [wide "-r"] [wide "file"] 1 (wide "register_input") (wide "data.json") ↔
      (wide "data.json").getLast? ≠ some equalSign :=
  assigned_value_iff registerLine (by decide +kernel) 1 (by decide) rfl (wide "register_input") (by decide) (by decide) (by decide)
    (wide "data.json") (by decide) _ _ _ (by decide +kernel) (by decide +kernel)

theorem equal_sign_refused :
    ¬ SetsValue registerLine (wide "FCMReceiverCpp") [] [] 1 (wide "register_input") (wide "a=") := by
  intro sets
  exact absurd sets.accepted (by decide +kernel)

end PushReceiver.Arguments
