import PushReceiver.Listen
import PushReceiver.OptionRegistry
import PushReceiver.ParseOrder
import PushReceiver.PersistentIdFile
import PushReceiver.RegisterFile

set_option autoImplicit false

namespace PushReceiver

open Arguments (WString OptionRef ArgumentOption Parsing ParseResult wide newline constructOption)

-- The options of wmain, numbered as they are declared.
abbrev cRegisterOption : OptionRef := 0
abbrev cRegisterInputFileOption : OptionRef := 1
abbrev cRegisterOutputFileOption : OptionRef := 2
abbrev cListenOption : OptionRef := 3
abbrev cListenInputFileOption : OptionRef := 4
abbrev cLogPathOption : OptionRef := 5
abbrev helpOption : OptionRef := 6
abbrev versionOption : OptionRef := 7

def wmainOptions : OptionRef → ArgumentOption
  | 0 => constructOption .normalOption {114} {wide "register"} (wide "Register to fcm server")
  | 1 => constructOption .inputOption ∅ {wide "register_input"} (wide ("If set, the register info will be taken from this path. Otherwise, the system will " ++
      "attempt to find 'init_fcm_data.json' in the same directory as this executable being called."))
  | 2 => constructOption .inputOption ∅ {wide "register_output"} (wide ("If set, the register info file will be placed in this path. Otherwise, it will be placed in the " ++
      "same directory as this executable being called."))
  | 3 => constructOption .normalOption {108} {wide "listen"} (wide "Listen to fcm server")
  | 4 => constructOption .inputOption ∅ {wide "listen_input"} (wide ("If set, the register info will be taken from this path. Otherwise, the system will " ++
      "attempt to find 'fcm_register_data.json' in the same directory as this executable being called."))
  | 5 => constructOption .inputOption ∅ {wide "log_folder"} (wide ("If set, log file 'FCMReceiver.log' will be placed in this folder. Otherwise, it will be placed in the " ++
      "same folder as this executable being called."))
  | 6 => constructOption .helpOption {104} {wide "help"} (wide "Prints out this message.")
  | 7 => constructOption .versionOption {118} {wide "version"} (wide "Prints out the version.")
  | _ => constructOption .normalOption ∅ ∅ []

def wmainRefs : List OptionRef :=
  [cListenInputFileOption, cListenOption, cRegisterInputFileOption, cRegisterOutputFileOption, cRegisterOption, cLogPathOption,
    helpOption, versionOption]

-- The parser of wmain; `order` is the one an unordered_set of the options is iterated in.
def wmainParser (order : List OptionRef) (execCall : WString) (arguments : List WString) : Parsing :=
  (Arguments.addArgumentOptions
    ⟨Arguments.constructParser execCall arguments (wide "FCMReceiverCpp") (wide "v1.0.0") (wide "FCM Push notification receiver by UyBH"),
      wmainOptions⟩ order).2

def versionText (state : Parsing) : WString := state.parser.appName ++ Arguments.space :: state.parser.appVersion ++ [newline]

-- What the command line asks for. The paths have their defaults filled in.
inductive Command where
  | stops (code : ExitCode) (printed : WString)
  | registers (input output : WString)
  | listens (input : WString)
deriving DecidableEq

def optionOr (option : ArgumentOption) (default : WString) : WString := if option.wasSet ≠ 0 then option.value else default

-- The command, and the folder for the log where it is looked at.
structure Chosen where
  command : Command
  logFolder : Option WString
deriving DecidableEq

def chooseCommand (outcome : ParseResult × Parsing) : Chosen :=
  let (parseResult, state) := outcome
  let wasSet := fun ref => (state.options ref).wasSet
  let logFolder := if wasSet cLogPathOption ≠ 0 then some (state.options cLogPathOption).value else none
  if parseResult ≠ .parseSuccessful then ⟨.stops .parseError state.parser.errorText, none⟩
  else if wasSet cRegisterOption > 1 ∨ wasSet cRegisterInputFileOption > 1 ∨ wasSet cRegisterOutputFileOption > 1 ∨
      wasSet cLogPathOption > 1 ∨ wasSet cListenOption > 1 ∨ wasSet cListenInputFileOption > 1 then
    ⟨.stops .argumentError (wide "Error: Option was set more than once."), none⟩
  else if wasSet helpOption ≠ 0 ∧ wasSet versionOption ≠ 0 then
    ⟨.stops .success (versionText state ++ Arguments.helpText state), none⟩
  else if wasSet helpOption ≠ 0 then ⟨.stops .success (Arguments.helpText state), none⟩
  else if wasSet versionOption ≠ 0 then ⟨.stops .success (versionText state), none⟩
  else if wasSet cRegisterOption ≠ 0 then
    ⟨.registers (optionOr (state.options cRegisterInputFileOption) (wide "init_fcm_data.json"))
      (optionOr (state.options cRegisterOutputFileOption) (wide "fcm_register_data.json")), logFolder⟩
  else if wasSet cListenOption ≠ 0 then
    ⟨.listens (optionOr (state.options cListenInputFileOption) (wide "fcm_register_data.json")), logFolder⟩
  else ⟨.stops .success (Arguments.helpText state), logFolder⟩

def commandOf (order : List OptionRef) (execCall : WString) (arguments : List WString) : Chosen :=
  chooseCommand (Arguments.parse (wmainParser order execCall arguments))

-- What wmain finds around it. A file is what stands in it, none where it cannot be opened.
structure Machine where
  files : WString → Option Bytes
  opensForWriting : WString → Bool
  isFolderExist : WString → Bool
  parse : Bytes → Parsed
  dump : Json → Bytes
  generated : Except EceError RawKeys
  http : Http
  connection : Connection

-- What wmain itself prints, and the files of the command line: MyLogPrinter's lines and its
-- FCMReceiver.log are left out, and so is all that happens inside StartReceiver.
structure MainOutcome where
  ends : ListenEnd
  printed : WString
  files : WString → Option Bytes

def isJsonPath (path : WString) : Bool := !(path.length < 5 || path.drop (path.length - 5) ≠ wide ".json")

def isInitFCMDataValid (data : Json) : Bool :=
  data.contains (ascii "appid") && data.contains (ascii "projectid") && data.contains (ascii "apikey") &&
    data.contains (ascii "vapidkey")

def fcmParams (fcmInitData : Json) (keys : EcdhKeys) : Except Exception FcmParams := do
  let appId ← (← fcmInitData.index (ascii "appid")).toStdString
  let projectId ← (← fcmInitData.index (ascii "projectid")).toStdString
  let apiKey ← (← fcmInitData.index (ascii "apikey")).toStdString
  let vapidKey ← (← fcmInitData.index (ascii "vapidkey")).toStdString
  return { keys, firebase := ⟨apiKey, appId, projectId⟩, vapidKey }

-- From a valid init file on: the keys, the registration and the output file.
def registerWith (machine : Machine) (fcmInitData : Json) (output : WString) : MainOutcome :=
  match generateECDHKeys machine.generated with
  | .error _ => ⟨.exits .cantGenerateKeys, wide "Unable to generate ECDH keys.\n", machine.files⟩
  | .ok keys =>
      match fcmParams fcmInitData keys with
      | .error exception => ⟨.uncaught exception, [], machine.files⟩
      | .ok params =>
          match registerToFCM machine.http params with
          | .error exception => ⟨.uncaught exception, [], machine.files⟩
          | .ok data =>
              if data.token = [] ∨ data.acg.id = [] ∨ data.acg.securityToken = [] then
                ⟨.exits .registerFailed, [], machine.files⟩
              else
                let written := writeRegisterDataToFile machine.dump data (machine.opensForWriting output) (machine.files output)
                if written.1 = false then
                  ⟨.exits .cantWriteRegisterData, wide "Unable to write to file: " ++ output ++ [newline], machine.files⟩
                else
                  ⟨.exits .success, wide "FCM registration data has been saved to " ++ output ++ [newline],
                    Function.update machine.files output written.2⟩

def registerCommand (machine : Machine) (input output : WString) : MainOutcome :=
  if isJsonPath input = false then
    ⟨.exits .registerInputFileTypeInvalid, wide "Register input file must be a json file.\n", machine.files⟩
  else
    match loadListenInput machine.parse (machine.files input) with
    | .error exception => ⟨.uncaught exception, [], machine.files⟩
    | .ok none =>
        ⟨.exits .cantReadRegisterInputFile, wide "Unable to read from file: " ++ input ++ [newline], machine.files⟩
    | .ok (some fcmInitData) =>
        if isInitFCMDataValid fcmInitData = false then
          ⟨.exits .registerInputDataInvalid, wide "Register input init data is invalid.\n", machine.files⟩
        else if isJsonPath output = false then
          ⟨.exits .registerOutputFileTypeInvalid, wide "Register output file must be a json file.\n", machine.files⟩
        else registerWith machine fcmInitData output

def listenPrinted (input : WString) : ListenEnd → WString
  | .exits .cantReadListenInputFile => wide "Unable to read from file: " ++ input ++ [newline]
  | .exits .listenInputDataInvalid => wide "Listen input register data is invalid.\n"
  | _ => []

-- Up to the try block around StartReceiver.
def listenCommand (machine : Machine) (input : WString) : MainOutcome :=
  if isJsonPath input = false then
    ⟨.exits .listenInputFileTypeInvalid, wide "Listen input file must be a json file.\n", machine.files⟩
  else
    let ends := listen machine.parse machine.connection (machine.files input)
      (loadPersistentId (machine.files (wide "persistent_id.txt")) []).2
    ⟨ends, listenPrinted input ends, machine.files⟩

def runCommand (machine : Machine) : Command → MainOutcome
  | .stops code printed => ⟨.exits code, printed, machine.files⟩
  | .registers input output => registerCommand machine input output
  | .listens input => listenCommand machine input

def logNotice (machine : Machine) (logFolder : Option WString) : WString :=
  match logFolder with
  | none => []
  | some folder => if machine.isFolderExist folder then [] else wide "Log folder does not exist. use default folder path.\n"

def wmain (machine : Machine) (order : List OptionRef) (execCall : WString) (arguments : List WString) : MainOutcome :=
  let chosen := commandOf order execCall arguments
  let outcome := runCommand machine chosen.command
  { outcome with printed := logNotice machine chosen.logFolder ++ outcome.printed }

theorem all_checked (state : Parsing) (args : List OptionRef) (empty : state.parser.argumentOptions = [])
    (named : ∀ ref ∈ args, ¬ ((state.options ref).shortCommands = ∅ ∧ (state.options ref).longCommands = ∅))
    (distinct : args.Nodup) (unambiguous : Arguments.Unambiguous state.options args) :
    Arguments.checkIfAllArgumentsInListAreUnique state args = true := by
  induction args with
  | nil => rfl
  | cons upper lower ih =>
      obtain ⟨here, others⟩ := List.forall_mem_cons.mp named
      obtain ⟨absent, rest⟩ := List.nodup_cons.mp distinct
      have unique : Arguments.checkIfArgumentIsUnique state upper = true := by
        simp [Arguments.checkIfArgumentIsUnique, empty, here]
      have apart : (lower.all fun ref => decide ((state.options upper).Disjoint (state.options ref))) = true := by
        refine List.all_eq_true.mpr fun ref member => decide_eq_true ?_
        exact unambiguous upper List.mem_cons_self ref (List.mem_cons_of_mem upper member) fun same => absent (same ▸ member)
      have later := ih others rest fun first firstMember second secondMember =>
        unambiguous first (List.mem_cons_of_mem upper firstMember) second (List.mem_cons_of_mem upper secondMember)
      simp [Arguments.checkIfAllArgumentsInListAreUnique, unique, apart, later]

theorem all_inserted (args : List OptionRef) (state : Parsing) (distinct : (state.parser.argumentOptions ++ args).Nodup) :
    args.foldl Parsing.insertOption state = state.reorder (state.parser.argumentOptions ++ args) := by
  induction args generalizing state with
  | nil =>
      rw [List.append_nil]
      rfl
  | cons ref rest ih =>
      have absent : ref ∉ state.parser.argumentOptions := fun member =>
        (List.nodup_append.mp distinct).2.2 ref member ref List.mem_cons_self rfl
      have inserted : state.insertOption ref = state.reorder (state.parser.argumentOptions ++ [ref]) := if_neg absent
      have assembled : state.parser.argumentOptions ++ [ref] ++ rest = state.parser.argumentOptions ++ ref :: rest := by simp
      rw [List.foldl_cons, inserted, ih _ (by simpa [Parsing.reorder] using distinct)]
      simp only [Parsing.reorder, assembled]

theorem wmain_options : Arguments.Unambiguous wmainOptions wmainRefs ∧
    ∀ ref ∈ wmainRefs, ¬ ((wmainOptions ref).shortCommands = ∅ ∧ (wmainOptions ref).longCommands = ∅) := by
  constructor <;> decide +kernel

theorem wmain_parser_order (order : List OptionRef) (perm : order.Perm wmainRefs) (execCall : WString) (arguments : List WString) :
    wmainParser order execCall arguments =
      Parsing.reorder ⟨Arguments.constructParser execCall arguments (wide "FCMReceiverCpp") (wide "v1.0.0")
        (wide "FCM Push notification receiver by UyBH"), wmainOptions⟩ order := by
  obtain ⟨unambiguous, named⟩ := wmain_options
  have distinct : order.Nodup := perm.nodup_iff.mpr (by decide)
  have checked := all_checked ⟨Arguments.constructParser execCall arguments (wide "FCMReceiverCpp") (wide "v1.0.0")
    (wide "FCM Push notification receiver by UyBH"), wmainOptions⟩ order rfl (fun ref member => named ref (perm.mem_iff.mp member))
    distinct (Arguments.unambiguous_subset wmainOptions wmainRefs order (fun ref member => perm.mem_iff.mp member) unambiguous)
  rw [wmainParser, Arguments.addArgumentOptions, checked]
  exact all_inserted order _ (by simpa [Arguments.constructParser] using distinct)

theorem choose_reorder (outcome : ParseResult × Parsing) (order : List OptionRef)
    (help : Arguments.helpText (outcome.2.reorder order) = Arguments.helpText outcome.2) :
    chooseCommand (Arguments.reorderOutcome outcome order) = chooseCommand outcome := by
  obtain ⟨result, state⟩ := outcome
  have version : versionText (state.reorder order) = versionText state := rfl
  have options : (state.reorder order).options = state.options := rfl
  have errorText : (state.reorder order).parser.errorText = state.parser.errorText := rfl
  simp only [chooseCommand, Arguments.reorderOutcome, help, version, options, errorText]

theorem command_reorder (first second : List OptionRef) (isFirst : first.Perm wmainRefs) (isSecond : second.Perm wmainRefs)
    (execCall : WString) (arguments : List WString) : commandOf second execCall arguments = commandOf first execCall arguments := by
  have perm : second.Perm first := isSecond.trans isFirst.symm
  have unambiguous := Arguments.unambiguous_subset wmainOptions wmainRefs first (fun ref member => isFirst.mem_iff.mp member)
    wmain_options.1
  rw [commandOf, commandOf, wmain_parser_order first isFirst, wmain_parser_order second isSecond]
  generalize Arguments.constructParser execCall arguments (wide "FCMReceiverCpp") (wide "v1.0.0")
    (wide "FCM Push notification receiver by UyBH") = parser
  have reorders : Arguments.Reorders (Parsing.reorder ⟨parser, wmainOptions⟩ first) second := ⟨perm, unambiguous⟩
  have parsed := Arguments.parse_reorder _ second reorders
  have kept := (Arguments.parse_keeps (Parsing.reorder ⟨parser, wmainOptions⟩ first)).argumentOptions
  have help := Arguments.help_text_perm (Arguments.parse (Parsing.reorder ⟨parser, wmainOptions⟩ first)).2 second (by
    rw [kept]
    exact perm)
  exact (congrArg chooseCommand parsed).trans (choose_reorder _ second help)

-- The options are held by address, and the order of an unordered_set depends on it: what wmain
-- does and prints does not.
theorem wmain_order_independent (machine : Machine) (first second : List OptionRef) (isFirst : first.Perm wmainRefs)
    (isSecond : second.Perm wmainRefs) (execCall : WString) (arguments : List WString) :
    wmain machine first execCall arguments = wmain machine second execCall arguments := by
  simp only [wmain, command_reorder first second isFirst isSecond]

-- The outcome of a registration that has been told a token, and has saved it.
structure Saved (machine : Machine) (output : WString) (data : FcmRegisterData) (outcome : MainOutcome) : Prop where
  registered : ∃ params, generateECDHKeys machine.generated = .ok params.keys ∧ registerToFCM machine.http params = .ok data
  token : data.token ≠ []
  path : isJsonPath output = true
  ends : outcome.ends = .exits .success
  files : outcome.files = Function.update machine.files output (some (machine.dump (registerDataJson data)))

structure Unsaved (machine : Machine) (outcome : MainOutcome) : Prop where
  ends : outcome.ends ≠ .exits .success
  files : outcome.files = machine.files

theorem register_with_outcome (machine : Machine) (fcmInitData : Json) (output : WString) (path : isJsonPath output = true) :
    (∃ data, Saved machine output data (registerWith machine fcmInitData output)) ∨
      Unsaved machine (registerWith machine fcmInitData output) := by
  unfold registerWith
  split
  · exact .inr ⟨(fun same => by cases same), rfl⟩
  · rename_i keys generated
    split
    · exact .inr ⟨(fun same => by cases same), rfl⟩
    · rename_i params taken
      split
      · exact .inr ⟨(fun same => by cases same), rfl⟩
      · rename_i data registered
        split
        · exact .inr ⟨(fun same => by cases same), rfl⟩
        · rename_i complete
          have isKeys : params.keys = keys := by
            obtain ⟨_, _, taken⟩ := bind_ok _ _ _ taken
            obtain ⟨_, _, taken⟩ := bind_ok _ _ _ taken
            obtain ⟨_, _, taken⟩ := bind_ok _ _ _ taken
            obtain ⟨_, _, taken⟩ := bind_ok _ _ _ taken
            obtain ⟨_, _, taken⟩ := bind_ok _ _ _ taken
            obtain ⟨_, _, taken⟩ := bind_ok _ _ _ taken
            obtain ⟨_, _, taken⟩ := bind_ok _ _ _ taken
            obtain ⟨_, _, taken⟩ := bind_ok _ _ _ taken
            rw [← Except.ok.inj taken]
          dsimp only
          cases opened : machine.opensForWriting output with
          | false => exact .inr ⟨(fun same => by cases same), rfl⟩
          | true => exact .inl ⟨data, ⟨params, isKeys ▸ generated, registered⟩, fun none => complete (.inl none), path, rfl, rfl⟩

theorem register_outcome (machine : Machine) (input output : WString) :
    (∃ data, Saved machine output data (registerCommand machine input output)) ∨
      Unsaved machine (registerCommand machine input output) := by
  unfold registerCommand
  split
  · exact .inr ⟨(fun same => by cases same), rfl⟩
  · split
    · exact .inr ⟨(fun same => by cases same), rfl⟩
    · exact .inr ⟨(fun same => by cases same), rfl⟩
    · rename_i fcmInitData loaded
      split
      · exact .inr ⟨(fun same => by cases same), rfl⟩
      · split
        · exact .inr ⟨(fun same => by cases same), rfl⟩
        · rename_i path
          exact register_with_outcome machine fcmInitData output (Bool.not_eq_false _ ▸ path)

-- The client that a process makes out of what the registration has saved.
theorem saved_client (machine : Machine) (output : WString) (data : FcmRegisterData) (outcome : MainOutcome)
    (saved : Saved machine output data outcome) (persistentIds : List Bytes) :
    ∃ keys client, machine.generated = .ok keys ∧
      listeningClient (registerDataJson data) persistentIds = .ok client ∧ client.rawSubPrivKey = keys.recvPrivKey ∧
      client.authSecret = keys.authSecret ∧ client.receiver = .fresh (.loaded persistentIds) ∧
      client.loginIds = some ((checkIn machine.http 0 0).androidId.toNat, (checkIn machine.http 0 0).securityToken.toNat) := by
  obtain ⟨params, generates, registered⟩ := saved.registered
  cases generated : machine.generated with
  | error error =>
      rw [generated] at generates
      cases generates
  | ok keys =>
      rw [generated] at generates
      rcases register_cases machine.http params data registered with rfl | parts
      · exact absurd rfl saved.token
      · obtain ⟨privDecoded, authDecoded⟩ := generated_decoded keys params.keys generates
        have constructed := construct_client data.acg.id data.acg.securityToken data.ece.privateKey data.ece.authSecret
          persistentIds keys.recvPrivKey keys.authSecret (by rw [parts.ece, privDecoded]) (by rw [parts.ece, authDecoded])
          keys.privLength keys.authLength
        exact ⟨keys, _, rfl, (register_data_read data persistentIds).trans constructed, rfl, rfl, rfl,
          login_ids _ _ _ (by rw [parts.acg]) (by rw [parts.acg])⟩

theorem listen_on_saved (machine : Machine) (data : FcmRegisterData) (persistentIds : List Bytes) (client : FcmClient)
    (made : listeningClient (registerDataJson data) persistentIds = .ok client) :
    (∃ connected, (connectToServer machine.connection client).returned = .ok connected ∧
      listenOn machine.connection persistentIds (registerDataJson data) =
        if connected then .receives (connectToServer machine.connection client).client else .exits .cantConnectFcmServer) := by
  obtain ⟨connected, returned⟩ := connect_never_throws machine.connection client
  refine ⟨connected, returned, ?_⟩
  rw [listenOn, register_data_valid, made]
  dsimp only
  rw [returned]
  cases connected <;> rfl

-- The process listens with the keys that were generated and the ids that were assigned at the registration.
structure ListensFor (machine : Machine) (connection : Connection) (ends : ListenEnd) : Prop where
  client : ∃ keys client connected, machine.generated = .ok keys ∧ client.rawSubPrivKey = keys.recvPrivKey ∧
    client.authSecret = keys.authSecret ∧
    client.receiver = .fresh (.loaded (loadPersistentId (machine.files (wide "persistent_id.txt")) []).2) ∧
    client.loginIds = some ((checkIn machine.http 0 0).androidId.toNat, (checkIn machine.http 0 0).securityToken.toNat) ∧
    (connectToServer connection client).returned = .ok connected ∧
    ends = if connected then .receives (connectToServer connection client).client else .exits .cantConnectFcmServer

theorem saved_file_listens (machine : Machine) (output : WString) (data : FcmRegisterData) (outcome : MainOutcome)
    (saved : Saved machine output data outcome)
    (restored : machine.parse (machine.dump (registerDataJson data)) = .value (registerDataJson data)) (connection : Connection) :
    ListensFor machine connection (listenCommand { machine with files := outcome.files, connection } output).ends := by
  have other : wide "persistent_id.txt" ≠ output := by
    rintro rfl
    exact absurd saved.path (by decide +kernel)
  have isSaved : outcome.files output = some (machine.dump (registerDataJson data)) := by
    rw [saved.files, Function.update_self]
  have kept : outcome.files (wide "persistent_id.txt") = machine.files (wide "persistent_id.txt") := by
    rw [saved.files, Function.update_of_ne other]
  have loaded : loadListenInput machine.parse (outcome.files output) = .ok (some (registerDataJson data)) := by
    rw [isSaved, loadListenInput, Option.map_some, restored]
    exact congrArg Except.ok (congrArg Parsed.json restored)
  obtain ⟨keys, client, generated, made, privKey, authSecret, receiver, ids⟩ := saved_client machine output data outcome saved
    (loadPersistentId (machine.files (wide "persistent_id.txt")) []).2
  obtain ⟨connected, returned, listened⟩ := listen_on_saved { machine with connection } data _ client made
  refine ⟨keys, client, connected, generated, privKey, authSecret, receiver, ids, returned, ?_⟩
  rw [listenCommand, if_neg (by simp [saved.path])]
  dsimp only
  rw [kept, listen, loaded]
  exact listened

-- A process that is told to register changes no file but its log unless it succeeds, and then the
-- output file alone; a process told to listen to that file accepts it, however the two command lines are written.
theorem registered_process_listens (machine : Machine) (order later : List OptionRef) (execCall laterCall : WString)
    (arguments laterArguments : List WString) (input output : WString)
    (registers : (commandOf order execCall arguments).command = .registers input output)
    (listens : (commandOf later laterCall laterArguments).command = .listens output)
    (restored : ∀ params data, generateECDHKeys machine.generated = .ok params.keys →
      registerToFCM machine.http params = .ok data → data.token ≠ [] →
      machine.parse (machine.dump (registerDataJson data)) = .value (registerDataJson data))
    (connection : Connection) :
    ((wmain machine order execCall arguments).ends = .exits .success ∧
        (∀ path, path ≠ output → (wmain machine order execCall arguments).files path = machine.files path) ∧
        ListensFor machine connection
          (wmain { machine with files := (wmain machine order execCall arguments).files, connection } later laterCall
            laterArguments).ends) ∨
      ((wmain machine order execCall arguments).ends ≠ .exits .success ∧
        (wmain machine order execCall arguments).files = machine.files) := by
  simp only [wmain, registers, listens, runCommand]
  rcases register_outcome machine input output with ⟨data, saved⟩ | unsaved
  · obtain ⟨params, generates, registered⟩ := saved.registered
    refine .inl ⟨saved.ends, fun path differs => ?_, saved_file_listens machine output data _ saved
      (restored params data generates registered saved.token) connection⟩
    rw [saved.files, Function.update_of_ne differs]
  · exact .inr ⟨unsaved.ends, unsaved.files⟩

def answeringHttp : Http where
  serializeCheckinRequest _ := []
  post _ := some (ascii "token=gcm")
  parseCheckinResponse _ := some ⟨5134567890123456789, 18446744073709551615⟩
  parseJson _ := some (.object
    [(ascii "authToken", .object [(ascii "token", .string (ascii "fis"))]), (ascii "token", .string (ascii "fcm"))])
  random := List.replicate 17 0

def initFile : Bytes := ascii "init"

def sampleMachine : Machine where
  files path := if path = wide "init_fcm_data.json" then some initFile else none
  opensForWriting _ := true
  isFolderExist _ := false
  parse text :=
    if text = initFile then .value (.object
      [(ascii "apikey", .string (ascii "api")), (ascii "appid", .string (ascii "1:2:web:3")),
        (ascii "projectid", .string (ascii "project")), (ascii "vapidkey", .string (ascii "vapid"))])
    else if text = sampleText then .value (registerDataJson sampleData)
    else .parseError
  dump _ := sampleText
  generated := .ok sampleKeys
  http := answeringHttp
  connection := ⟨false, fun _ => 0, fun _ => []⟩

theorem wmain_order_reversed :
    wmain sampleMachine wmainRefs (wide "FCMReceiverCpp") [wide "-r"] =
      wmain sampleMachine [7, 6, 5, 0, 2, 1, 3, 4] (wide "FCMReceiverCpp") [wide "-r"] :=
  wmain_order_independent sampleMachine wmainRefs [7, 6, 5, 0, 2, 1, 3, 4] (.refl _) (by decide) _ _

theorem sample_restored (params : FcmParams) (data : FcmRegisterData)
    (generates : generateECDHKeys sampleMachine.generated = .ok params.keys)
    (registered : registerToFCM sampleMachine.http params = .ok data) (token : data.token ≠ []) :
    sampleMachine.parse (sampleMachine.dump (registerDataJson data)) = .value (registerDataJson data) := by
  rcases register_cases sampleMachine.http params data registered with rfl | parts
  · exact absurd rfl token
  · obtain ⟨gcmToken, installationToken, _, _, _, _, exchanged⟩ := parts.exchanged
    obtain ⟨acg, ece, fcmToken⟩ := data
    have isToken : fcmToken = ascii "fcm" := (Except.ok.inj exchanged).symm
    have isAcg : acg = sampleData.acg := parts.acg.trans (by decide +kernel)
    have keys : params.keys = sampleParams.keys := Except.ok.inj (generates.symm.trans (by decide +kernel))
    have isEce : ece = sampleData.ece := by
      have same : ece = ⟨params.keys.base64AuthSecret, params.keys.base64PrivateKey⟩ := parts.ece
      rw [same, keys]
      rfl
    have differs : sampleText ≠ initFile := by decide +kernel
    have same : (⟨sampleData.acg, sampleData.ece, ascii "fcm"⟩ : FcmRegisterData) = sampleData := rfl
    rw [isToken, isAcg, isEce, same]
    simp only [sampleMachine, differs, if_true, if_false]

theorem default_commands :
    (commandOf wmainRefs (wide "FCMReceiverCpp") [wide "-r"]).command =
        .registers (wide "init_fcm_data.json") (wide "fcm_register_data.json") ∧
      (commandOf wmainRefs (wide "FCMReceiverCpp") [wide "--listen"]).command = .listens (wide "fcm_register_data.json") := by
  constructor <;> decide +kernel

theorem registered_process_listens_default :
    ((wmain sampleMachine wmainRefs (wide "FCMReceiverCpp") [wide "-r"]).ends = .exits .success ∧
        (∀ path, path ≠ wide "fcm_register_data.json" →
          (wmain sampleMachine wmainRefs (wide "FCMReceiverCpp") [wide "-r"]).files path = sampleMachine.files path) ∧
        ListensFor sampleMachine sampleMachine.connection
          (wmain { sampleMachine with files := (wmain sampleMachine wmainRefs (wide "FCMReceiverCpp") [wide "-r"]).files }
            wmainRefs (wide "FCMReceiverCpp") [wide "--listen"]).ends) ∨
      ((wmain sampleMachine wmainRefs (wide "FCMReceiverCpp") [wide "-r"]).ends ≠ .exits .success ∧
        (wmain sampleMachine wmainRefs (wide "FCMReceiverCpp") [wide "-r"]).files = sampleMachine.files) :=
  registered_process_listens sampleMachine wmainRefs wmainRefs (wide "FCMReceiverCpp") (wide "FCMReceiverCpp") [wide "-r"]
    [wide "--listen"] (wide "init_fcm_data.json") (wide "fcm_register_data.json") default_commands.1 default_commands.2
    sample_restored sampleMachine.connection

end PushReceiver
