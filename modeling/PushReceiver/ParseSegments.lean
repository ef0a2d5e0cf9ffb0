import PushReceiver.ParseReading

set_option autoImplicit false

namespace PushReceiver.Arguments

def Segment.positionals : Segment → List WString
  | .positional argument => [argument]
  | _ => []

def Segment.occurrences (option : ArgumentOption) : Segment → Nat
  | .positional _ => 0
  | .longFlag command => if command ∈ option.longCommands then 1 else 0
  | .longAssigned command _ => if command ∈ option.longCommands then 1 else 0
  | .longSeparate command _ => if command ∈ option.longCommands then 1 else 0
  | .shortSeparate command _ => if command ∈ option.shortCommands then 1 else 0
  | .cluster commands => commands.countP fun command => decide (command ∈ option.shortCommands)

def Segment.values (option : ArgumentOption) : Segment → List WString
  | .longAssigned command value => if command ∈ option.longCommands then [value] else []
  | .longSeparate command value => if command ∈ option.longCommands then [value] else []
  | .shortSeparate command value => if command ∈ option.shortCommands then [value] else []
  | _ => []

def LongOf (state : Parsing) (command : WString) (type : ArgumentOptionType → Prop) : Prop :=
  ∃ ref ∈ state.parser.argumentOptions, command ∈ (state.options ref).longCommands ∧ type (state.options ref).type

def ShortOf (state : Parsing) (command : WChar) (type : ArgumentOptionType → Prop) : Prop :=
  ∃ ref ∈ state.parser.argumentOptions, command ∈ (state.options ref).shortCommands ∧ type (state.options ref).type

def Segment.Fits (state : Parsing) : Segment → Prop
  | .positional argument => ¬ OptionForm argument
  | .longFlag command => command ≠ [] ∧ equalSign ∉ command ∧ LongOf state command (· ≠ .inputOption)
  | .longAssigned command value => equalSign ∉ command ∧ value ≠ [] ∧ LongOf state command (· = .inputOption)
  | .longSeparate command value =>
      command ≠ [] ∧ equalSign ∉ command ∧ ¬ OptionForm value ∧ LongOf state command (· = .inputOption)
  | .shortSeparate command value => command ≠ minusSign ∧ ¬ OptionForm value ∧ ShortOf state command (· = .inputOption)
  | .cluster commands => commands ≠ [] ∧ commands.head? ≠ some minusSign ∧
      ∀ command ∈ commands, ShortOf state command (· ≠ .inputOption)

def occurrencesOf : List Segment → ArgumentOption → Nat
  | [], _ => 0
  | segment :: rest, option => segment.occurrences option + occurrencesOf rest option

def valuesOf (segments : List Segment) (option : ArgumentOption) : List WString :=
  segments.flatMap (Segment.values option)

-- The segments account for the arguments of `state` and for what Parse has left in `next`.
structure Accounted (state next : Parsing) (segments : List Segment) : Prop where
  fits : ∀ segment ∈ segments, segment.Fits state
  tokens : segments.flatMap Segment.tokens = state.parser.argumentValues.drop 1
  positionals : next.parser.positionalArgsValues = segments.flatMap Segment.positionals
  wasSet : ∀ ref ∈ state.parser.argumentOptions, (next.options ref).wasSet = occurrencesOf segments (state.options ref)
  getValue : ∀ ref ∈ state.parser.argumentOptions,
    (next.options ref).value = (valuesOf segments (state.options ref)).getLast?.getD []

theorem long_member (base : Parsing) (command : WString) (ref : OptionRef) (found : base.findLong command = some ref) :
    ref ∈ base.parser.argumentOptions ∧ command ∈ (base.options ref).longCommands := by
  have has := List.find?_some found
  rw [decide_eq_true_eq] at has
  exact ⟨List.mem_of_find?_eq_some found, has⟩

theorem short_member (base : Parsing) (command : WChar) (ref : OptionRef) (found : base.findShort command = some ref) :
    ref ∈ base.parser.argumentOptions ∧ command ∈ (base.options ref).shortCommands := by
  have has := List.find?_some found
  rw [decide_eq_true_eq] at has
  exact ⟨List.mem_of_find?_eq_some found, has⟩

theorem long_names (base : Parsing) (unambiguous : Unambiguous base.options base.parser.argumentOptions) (command : WString)
    (arg : OptionRef) (found : base.findLong command = some arg) (ref : OptionRef) (member : ref ∈ base.parser.argumentOptions) :
    command ∈ (base.options ref).longCommands ↔ arg = ref := by
  obtain ⟨registered, has⟩ := long_member base command arg found
  constructor
  · intro also
    exact long_unique base.options _ unambiguous command arg registered ref member has also
  · intro same
    exact same ▸ has

theorem short_names (base : Parsing) (unambiguous : Unambiguous base.options base.parser.argumentOptions) (command : WChar)
    (arg : OptionRef) (found : base.findShort command = some arg) (ref : OptionRef) (member : ref ∈ base.parser.argumentOptions) :
    command ∈ (base.options ref).shortCommands ↔ arg = ref := by
  obtain ⟨registered, has⟩ := short_member base command arg found
  constructor
  · intro also
    exact short_unique base.options _ unambiguous command arg registered ref member has also
  · intro same
    exact same ▸ has

theorem long_of_found (base : Parsing) (command : WString) (ref : OptionRef) (found : base.findLong command = some ref)
    (type : ArgumentOptionType → Prop) (isType : type (base.options ref).type) : LongOf base command type := by
  obtain ⟨registered, has⟩ := long_member base command ref found
  exact ⟨ref, registered, has, isType⟩

theorem short_of_found (base : Parsing) (command : WChar) (ref : OptionRef) (found : base.findShort command = some ref)
    (type : ArgumentOptionType → Prop) (isType : type (base.options ref).type) : ShortOf base command type := by
  obtain ⟨registered, has⟩ := short_member base command ref found
  exact ⟨ref, registered, has, isType⟩

theorem flags_fit (base : Parsing) (commands : List WChar) (refs : List OptionRef) (flags : List.Forall₂ (FlagOf base) commands refs) :
    ∀ command ∈ commands, ShortOf base command (· ≠ .inputOption) := by
  induction flags with
  | nil => simp
  | cons flag _ ih => exact List.forall_mem_cons.mpr ⟨short_of_found base _ _ flag.1 _ flag.2, ih⟩

theorem reads_fits (base : Parsing) (segment : Segment) (used : List Use) (reads : Reads base segment used) : segment.Fits base := by
  cases reads with
  | positional argument plain => exact plain
  | longFlag command ref nonempty absent found type => exact ⟨nonempty, absent, long_of_found base command ref found _ type⟩
  | longAssigned command value ref absent nonempty _ found type =>
      exact ⟨absent, nonempty, long_of_found base command ref found (· = .inputOption) type⟩
  | longSeparate command value ref nonempty absent plain found type =>
      exact ⟨nonempty, absent, plain, long_of_found base command ref found (· = .inputOption) type⟩
  | shortSeparate command value ref differs plain found type =>
      exact ⟨differs, plain, short_of_found base command ref found (· = .inputOption) type⟩
  | cluster first rest refs differs flags =>
      exact ⟨List.cons_ne_nil first rest, by simpa using differs, flags_fit base _ refs flags⟩

theorem flags_tally (base : Parsing) (unambiguous : Unambiguous base.options base.parser.argumentOptions) (ref : OptionRef)
    (member : ref ∈ base.parser.argumentOptions) (commands : List WChar) (refs : List OptionRef)
    (flags : List.Forall₂ (FlagOf base) commands refs) :
    (refs.map Use.flag).countP (Use.names ref) =
      commands.countP fun command => decide (command ∈ (base.options ref).shortCommands) := by
  induction flags with
  | nil => rfl
  | cons flag _ ih =>
      rw [List.map_cons, List.countP_cons, List.countP_cons, ih]
      simp [Use.names, short_names base unambiguous _ _ flag.1 ref member]

theorem flags_give_nothing (refs : List OptionRef) (ref : OptionRef) :
    (refs.map Use.flag).flatMap (Use.givenTo ref) = [] ∧ (refs.map Use.flag).flatMap Use.positionals = [] := by
  simp [Use.givenTo, Use.positionals]

-- The uses of an option are the occurrences of its commands, since no other option has them.
theorem reads_tally (base : Parsing) (unambiguous : Unambiguous base.options base.parser.argumentOptions) (ref : OptionRef)
    (member : ref ∈ base.parser.argumentOptions) (segment : Segment) (used : List Use) (reads : Reads base segment used) :
    used.countP (Use.names ref) = segment.occurrences (base.options ref) ∧
      used.flatMap (Use.givenTo ref) = segment.values (base.options ref) := by
  cases reads with
  | positional argument _ => exact ⟨rfl, rfl⟩
  | longFlag command arg _ _ found _ =>
      have names := long_names base unambiguous command arg found ref member
      simp [Use.names, Use.givenTo, Segment.occurrences, Segment.values, names, List.countP_cons]
  | longAssigned command value arg _ _ _ found _ =>
      have names := long_names base unambiguous command arg found ref member
      simp [Use.names, Use.givenTo, Segment.occurrences, Segment.values, names, List.countP_cons]
  | longSeparate command value arg _ _ _ found _ =>
      have names := long_names base unambiguous command arg found ref member
      simp [Use.names, Use.givenTo, Segment.occurrences, Segment.values, names, List.countP_cons]
  | shortSeparate command value arg _ _ found _ =>
      have names := short_names base unambiguous command arg found ref member
      simp [Use.names, Use.givenTo, Segment.occurrences, Segment.values, names, List.countP_cons]
  | cluster first rest refs _ flags =>
      exact ⟨flags_tally base unambiguous ref member _ refs flags, (flags_give_nothing refs ref).1⟩

theorem reads_positionals (base : Parsing) (segment : Segment) (used : List Use) (reads : Reads base segment used) :
    used.flatMap Use.positionals = segment.positionals := by
  cases reads with
  | cluster first rest refs _ _ => exact (flags_give_nothing refs 0).2
  | _ => rfl

theorem reads_all_fit (base : Parsing) (segments : List Segment) (uses : List Use) (reads : ReadsAll base segments uses) :
    ∀ segment ∈ segments, segment.Fits base := by
  induction reads with
  | nil => simp
  | cons segment segments used later reads _ ih => exact List.forall_mem_cons.mpr ⟨reads_fits base segment used reads, ih⟩

theorem reads_all_tally (base : Parsing) (unambiguous : Unambiguous base.options base.parser.argumentOptions) (ref : OptionRef)
    (member : ref ∈ base.parser.argumentOptions) (segments : List Segment) (uses : List Use) (reads : ReadsAll base segments uses) :
    uses.countP (Use.names ref) = occurrencesOf segments (base.options ref) ∧
      uses.flatMap (Use.givenTo ref) = valuesOf segments (base.options ref) := by
  induction reads with
  | nil => exact ⟨rfl, rfl⟩
  | cons segment segments used later reads _ ih =>
      obtain ⟨occurrences, values⟩ := reads_tally base unambiguous ref member segment used reads
      rw [List.countP_append, List.flatMap_append, occurrences, values, ih.1, ih.2]
      exact ⟨rfl, rfl⟩

theorem reads_all_positionals (base : Parsing) (segments : List Segment) (uses : List Use) (reads : ReadsAll base segments uses) :
    uses.flatMap Use.positionals = segments.flatMap Segment.positionals := by
  induction reads with
  | nil => rfl
  | cons segment segments used later reads _ ih =>
      rw [List.flatMap_append, List.flatMap_cons, reads_positionals base segment used reads, ih]

-- The values start empty and the counts at zero, so what the segments do is all there is.
theorem parse_accounts (state : Parsing) (unambiguous : Unambiguous state.options state.parser.argumentOptions)
    (successful : (parse state).1 = .parseSuccessful) : ∃ segments, Accounted state (parse state).2 segments := by
  obtain ⟨segments, uses, reads, tokens, parsed⟩ := reads_of_successful state successful
  refine ⟨segments, reads_all_fit state segments uses reads, tokens.symm, ?_, ?_, ?_⟩
  · rw [parsed, use_all_members, reset_values_members, reads_all_positionals state segments uses reads]
    rfl
  · intro ref member
    rw [parsed, use_all_option, reset_values_option, if_pos member, (reads_all_tally state unambiguous ref member segments uses reads).1]
    exact Nat.zero_add _
  · intro ref member
    rw [parsed, use_all_option, reset_values_option, if_pos member, (reads_all_tally state unambiguous ref member segments uses reads).2]
    rfl

theorem parse_accounts_register : ∃ segments, Accounted registerLine (parse registerLine).2 segments :=
  parse_accounts registerLine (by decide +kernel) (by decide +kernel)

end PushReceiver.Arguments
