import PushReceiver.ParseReading

set_option autoImplicit false

namespace PushReceiver.Arguments

-- What WasSet and GetValue say of an option fits together.
def Consistent (state : Parsing) : Prop :=
  ∀ ref ∈ state.parser.argumentOptions,
    ((state.options ref).wasSet = 0 → (state.options ref).value = []) ∧
      ((state.options ref).type ≠ .inputOption → (state.options ref).value = [])

-- A command of an InputOption without '=' takes the next argument for its value.
structure TakesNext (base : Parsing) (token : WString) (ref : OptionRef) : Prop where
  type : (base.options ref).type = .inputOption
  command :
    (∃ command, token = minusSign :: minusSign :: command ∧ command ≠ [] ∧ equalSign ∉ command ∧ base.findLong command = some ref) ∨
      ∃ command, token = [minusSign, command] ∧ command ≠ minusSign ∧ base.findShort command = some ref

-- The first argument that is refused is the option-like value of an option that was not used before.
def StrayValue (state : Parsing) : Prop :=
  ∃ segments uses token value rest ref, ReadsAll state segments uses ∧
    state.parser.argumentValues.drop 1 = tokensOf segments ++ token :: value :: rest ∧ TakesNext state token ref ∧ OptionForm value ∧
    uses.countP (Use.names ref) = 0

def Matched (base : Parsing) (uses : List Use) : Prop :=
  ∀ ref, (uses.flatMap (Use.givenTo ref)).length = if (base.options ref).type = .inputOption then uses.countP (Use.names ref) else 0

-- What a round that fails leaves in the options.
inductive Leaves (base state : Parsing) (index : Nat) (next : Parsing) : Prop where
  | flags (refs : List OptionRef) (none : ∀ ref ∈ refs, (base.options ref).type ≠ .inputOption)
      (options : next.options = (state.useAll (refs.map Use.flag)).options) : Leaves base state index next
  | stray (token value : WString) (rest : List WString) (ref : OptionRef)
      (tokens : state.parser.argumentValues.drop index = token :: value :: rest) (takes : TakesNext base token ref)
      (form : OptionForm value) (options : next.options = (state.assign ref value).options) : Leaves base state index next

theorem leaves_unchanged (base state next : Parsing) (index : Nat) (options : next.options = state.options) :
    Leaves base state index next := .flags [] (by simp) options

theorem long_leaves (base state : Parsing) (agrees : Agrees base state) (index : Nat) (body : WString) (nonempty : body ≠ [])
    (rest : List WString) (tokens : state.parser.argumentValues.drop index = (minusSign :: minusSign :: body) :: rest)
    (failed : (parseLongCommand state (minusSign :: minusSign :: body) index).result ≠ .parseSuccessful) :
    Leaves base state index (parseLongCommand state (minusSign :: minusSign :: body) index).state := by
  cases parse_long_case state (minusSign :: minusSign :: body) index with
  | refused _ options => exact leaves_unchanged base state _ index options
  | stray ref found type whole more form _ options =>
      obtain ⟨absent, isCommand⟩ := whole_command body whole
      rw [isCommand, agrees.long] at found
      exact .stray _ _ _ ref (value_token _ rest index _ tokens more)
        ⟨agrees.type ref ▸ type, .inl ⟨body, rfl, nonempty, absent, found⟩⟩ form options
  | flag _ _ _ _ successful => exact absurd successful failed
  | separate _ _ _ _ _ _ successful => exact absurd successful failed
  | assigned _ _ _ _ _ _ successful => exact absurd successful failed

-- Commands that stand together are counted one by one until one of them fails.
theorem together_leaves (base : Parsing) (argument : WString) (together : 2 < argument.length) (commands : List WChar) (state : Parsing)
    (agrees : Agrees base state) (index : Nat)
    (failed : (parseShortCommands argument commands state index).result ≠ .parseSuccessful) :
    ∃ refs : List OptionRef, (∀ ref ∈ refs, (base.options ref).type ≠ .inputOption) ∧
      (parseShortCommands argument commands state index).state.options = (state.useAll (refs.map Use.flag)).options := by
  induction commands generalizing state with
  | nil => exact absurd rfl failed
  | cons command rest ih =>
      cases parse_short_case state argument command rest index with
      | refused _ options => exact ⟨[], by simp, options⟩
      | flag ref found type continues =>
          rw [continues] at failed ⊢
          obtain ⟨refs, none, options⟩ := ih _ (agrees_kept base state _ agrees (keeps_count state ref)) failed
          exact ⟨ref :: refs, List.forall_mem_cons.mpr ⟨agrees.type ref ▸ type, none⟩, options⟩
      | separate ref _ _ alone => exact absurd together alone
      | stray ref _ _ alone => exact absurd together alone

theorem short_leaves (base state : Parsing) (agrees : Agrees base state) (index : Nat) (first : WChar) (body : WString)
    (differs : first ≠ minusSign) (rest : List WString)
    (tokens : state.parser.argumentValues.drop index = (minusSign :: first :: body) :: rest)
    (failed : (parseShortCommand state (minusSign :: first :: body) index).result ≠ .parseSuccessful) :
    Leaves base state index (parseShortCommand state (minusSign :: first :: body) index).state := by
  cases body with
  | nil =>
      cases parse_short_case state [minusSign, first] first [] index with
      | refused _ options => exact leaves_unchanged base state _ index options
      | stray ref found type _ more form _ options =>
          exact .stray _ _ _ ref (value_token _ rest index _ tokens more)
            ⟨agrees.type ref ▸ type, .inr ⟨first, rfl, differs, agrees.short first ▸ found⟩⟩ form options
      | flag ref _ _ continues => exact absurd (congrArg Parsed.result continues) failed
      | separate ref _ _ _ _ _ continues => exact absurd (congrArg Parsed.result continues) failed
  | cons second body =>
      obtain ⟨refs, none, options⟩ := together_leaves base _ (by simp) _ state agrees index failed
      exact .flags refs none options

theorem round_leaves (base state : Parsing) (agrees : Agrees base state) (index : Nat) (bound : index < state.parser.argumentCount)
    (failed : (parseArgument state index).result ≠ .parseSuccessful) : Leaves base state index (parseArgument state index).state := by
  cases token_case state index bound with
  | long body rest nonempty tokens round =>
      rw [round] at failed ⊢
      exact long_leaves base state agrees index body nonempty rest tokens failed
  | short first body rest differs tokens round =>
      rw [round] at failed ⊢
      exact short_leaves base state agrees index first body differs rest tokens failed
  | plain argument rest _ _ round => exact absurd (congrArg Parsed.result round) failed

-- The value is in the option when it is refused.
theorem stray_round (base state : Parsing) (agrees : Agrees base state) (index : Nat) (token value : WString) (rest : List WString)
    (ref : OptionRef) (tokens : state.parser.argumentValues.drop index = token :: value :: rest) (takes : TakesNext base token ref)
    (form : OptionForm value) :
    (parseArgument state index).result = .noValueWasPassedToOption ∧
      (parseArgument state index).state.options = (state.assign ref value).options := by
  obtain ⟨follows, isValue⟩ := following_token _ rest index token value tokens
  have isForm : (isLongCommand value || isShortCommand value) = true := by simpa [OptionForm] using form
  rcases takes.command with ⟨command, rfl, nonempty, absent, found⟩ | ⟨command, rfl, differs, found⟩
  · obtain ⟨position, isCommand⟩ := command_whole command absent
    rw [token_long state index command _ tokens nonempty, parseLongCommand, isCommand, agrees.long, found]
    dsimp only
    rw [if_neg (not_not.mpr (agrees.type ref ▸ takes.type)), position]
    dsimp only
    rw [if_neg follows, isValue, if_pos isForm]
    exact ⟨rfl, rfl⟩
  · rw [token_short state index command [] _ tokens differs, parseShortCommand, List.drop_succ_cons, List.drop_zero,
      parseShortCommands, agrees.short, found]
    dsimp only
    rw [if_neg (not_not.mpr (agrees.type ref ▸ takes.type)), if_neg (by simp), if_neg follows, isValue, if_pos isForm]
    exact ⟨rfl, rfl⟩

theorem matched_flags (base : Parsing) (refs : List OptionRef) (none : ∀ ref ∈ refs, (base.options ref).type ≠ .inputOption) :
    Matched base (refs.map Use.flag) := by
  intro ref
  have nothing : (refs.map Use.flag).flatMap (Use.givenTo ref) = [] := by simp [Use.givenTo]
  rw [nothing]
  split
  · rename_i input
    symm
    rw [List.length_nil, List.countP_eq_zero, List.forall_mem_map]
    intro used member
    rw [Use.names, decide_eq_true_eq]
    intro same
    exact none used member (same ▸ input)
  · rfl

theorem matched_append (base : Parsing) (before after : List Use) (first : Matched base before) (second : Matched base after) :
    Matched base (before ++ after) := by
  intro ref
  rw [List.flatMap_append, List.length_append, List.countP_append, first ref, second ref]
  split
  · rfl
  · rfl

theorem reset_record (state : Parsing) (uses : List Use) (ref : OptionRef) (member : ref ∈ state.parser.argumentOptions) :
    ((resetParsedValues state).useAll uses).options ref =
      { state.options ref with
        wasSet := uses.countP (Use.names ref)
        value := (uses.flatMap (Use.givenTo ref)).getLast?.getD [] } := by
  rw [use_all_option, reset_values_option, if_pos member, ArgumentOption.record]
  simp

theorem matched_unset (base : Parsing) (uses : List Use) (matched : Matched base uses) (ref : OptionRef)
    (none : uses.countP (Use.names ref) = 0 ∨ (base.options ref).type ≠ .inputOption) : uses.flatMap (Use.givenTo ref) = [] := by
  have size := matched ref
  rcases none with unused | other
  · rw [unused, ite_self] at size
    exact List.length_eq_zero_iff.mp size
  · rw [if_neg other] at size
    exact List.length_eq_zero_iff.mp size

theorem consistent_matched (state next : Parsing) (uses : List Use) (matched : Matched state uses)
    (options : next.options = ((resetParsedValues state).useAll uses).options)
    (registered : next.parser.argumentOptions = state.parser.argumentOptions) : Consistent next := by
  intro ref member
  rw [registered] at member
  rw [options, reset_record state uses ref member]
  constructor
  · intro unused
    rw [matched_unset state uses matched ref (.inl unused)]
    rfl
  · intro other
    rw [matched_unset state uses matched ref (.inr other)]
    rfl

theorem option_form_nonempty (value : WString) (form : OptionForm value) : value ≠ [] := by
  rintro rfl
  rcases form with long | short
  · cases long
  · cases short

theorem takes_next_registered (base : Parsing) (token : WString) (ref : OptionRef) (takes : TakesNext base token ref) :
    ref ∈ base.parser.argumentOptions := by
  rcases takes.command with ⟨_, _, _, _, found⟩ | ⟨_, _, _, found⟩
  · exact List.mem_of_find?_eq_some found
  · exact List.mem_of_find?_eq_some found

-- The value that is refused does no harm when the option has been used before.
theorem consistent_stray (state next : Parsing) (uses : List Use) (matched : Matched state uses) (token value : WString) (ref : OptionRef)
    (takes : TakesNext state token ref) (form : OptionForm value)
    (options : next.options = (((resetParsedValues state).useAll uses).assign ref value).options)
    (registered : next.parser.argumentOptions = state.parser.argumentOptions) :
    Consistent next ↔ uses.countP (Use.names ref) ≠ 0 := by
  have member := takes_next_registered state token ref takes
  have record := reset_record state uses ref member
  constructor
  · intro consistent unused
    obtain ⟨empty, _⟩ := consistent ref (registered ▸ member)
    rw [options, Parsing.assign, update_option, if_pos rfl, record] at empty
    exact option_form_nonempty value form (empty unused)
  · intro used other inside
    rw [registered] at inside
    rw [options, Parsing.assign, update_option]
    by_cases same : other = ref
    · rw [if_pos same, record]
      exact ⟨fun unused => absurd unused used, fun noInput => absurd takes.type noInput⟩
    · rw [if_neg same]
      exact consistent_matched state _ uses matched rfl ((keeps_use_all _ uses).argumentOptions.trans (reset_keeps state).argumentOptions)
        other (by
          rw [(keeps_use_all _ uses).argumentOptions, (reset_keeps state).argumentOptions]
          exact inside)

theorem parse_consistent_iff (state : Parsing) : Consistent (parse state).2 ↔ ¬ StrayValue state := by
  have registered := (parse_keeps state).argumentOptions
  constructor
  · rintro consistent ⟨segments, uses, token, value, rest, ref, reads, tokens, takes, form, unused⟩
    obtain ⟨refused, options⟩ := stray_round state _ (reached_agrees state uses) _ token value rest ref
      (reached_tokens state uses segments _ tokens) takes form
    rw [parse_refuses state segments uses reads token _ tokens _ rfl (by rw [refused]; decide)] at consistent registered
    have matched : Matched state uses := fun other => reads_all_values state other segments uses reads
    exact (consistent_stray state _ uses matched token value ref takes form options registered).mp consistent unused
  · intro noStray
    obtain ⟨segments, uses, rest, reads, tokens, outcome⟩ := parse_stops state
    have matched : Matched state uses := fun other => reads_all_values state other segments uses reads
    rcases outcome with ⟨_, parsed⟩ | ⟨more, failed, rfl, refused, parsed⟩
    · rw [parsed] at registered ⊢
      exact consistent_matched state _ uses matched rfl registered
    · rw [parsed] at registered ⊢
      have behind := reached_tokens state uses segments rest tokens
      have bound : 1 + (tokensOf segments).length < ((resetParsedValues state).useAll uses).parser.argumentCount := by
        rw [ArgumentParser.argumentCount, ← Nat.not_le, ← List.drop_eq_nil_iff, behind]
        exact more
      cases round_leaves state _ (reached_agrees state uses) _ bound refused with
      | flags refs none options =>
          have both := matched_append state uses _ matched (matched_flags state refs none)
          exact consistent_matched state _ _ both (by rw [use_all_append]; exact options) registered
      | stray token value later ref left takes form options =>
          rw [consistent_stray state _ uses matched token value ref takes form options registered]
          intro unused
          rw [behind] at left
          exact noStray ⟨segments, uses, token, value, later, ref, reads, left ▸ tokens, takes, form, unused⟩

theorem refused_value_stays :
    ¬ Consistent (parse { registerLine with parser :=
        { registerLine.parser with argumentValues := [wide "FCMReceiverCpp", wide "--register_input", wide "-r"] } }).2 := by
  intro consistent
  exact absurd ((consistent 1 (by decide +kernel)).1 (by decide +kernel)) (by decide +kernel)

end PushReceiver.Arguments
