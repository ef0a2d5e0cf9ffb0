import PushReceiver.Login
import PushReceiver.RegisterOutcome

set_option autoImplicit false

namespace PushReceiver

inductive ExitCode where
  | success
  | parseError
  | argumentError
  | cantReadRegisterInputFile
  | registerInputFileTypeInvalid
  | registerInputDataInvalid
  | cantGenerateKeys
  | registerOutputFileTypeInvalid
  | registerFailed
  | cantWriteRegisterData
  | listenInputFileTypeInvalid
  | cantReadListenInputFile
  | listenInputDataInvalid
  | cantConnectFcmServer
  | errorWhileListening
deriving DecidableEq, Repr

-- What operator>> does with the text of a file. LoadJsonFromFile catches parse_error; a number
-- that overflows a double raises out_of_range, which it does not catch.
inductive Parsed where
  | value (json : Json)
  | parseError
  | outOfRange

def Parsed.json : Parsed → Option Json
  | .value json => some json
  | _ => none

def loadListenInput (parse : Bytes → Parsed) (file : Option Bytes) : Except Exception (Option Json) :=
  match file.map parse with
  | some .outOfRange => .error .outOfRange
  | _ => .ok (loadJsonFromFile (fun text => (parse text).json) file)

inductive ListenEnd where
  | exits (code : ExitCode)
  | uncaught (exception : Exception)
  | receives (client : FcmClient)

-- The listen path of wmain on a value loaded from the file, up to the try block around StartReceiver.
-- dump() throws for text that is not UTF-8 only, which no parsed value holds.
def listenOn (connection : Connection) (persistentIds : List Bytes) (fcmRegisterData : Json) : ListenEnd :=
  match isRegisterDataValid fcmRegisterData with
  | .error exception => .uncaught exception
  | .ok false => .exits .listenInputDataInvalid
  | .ok true =>
      match listeningClient fcmRegisterData persistentIds with
      | .error exception => .uncaught exception
      | .ok client =>
          match (connectToServer connection client).returned with
          | .error exception => .uncaught exception
          | .ok true => .receives (connectToServer connection client).client
          | .ok false => .exits .cantConnectFcmServer

def listen (parse : Bytes → Parsed) (connection : Connection) (file : Option Bytes) (persistentIds : List Bytes) : ListenEnd :=
  match loadListenInput parse file with
  | .error exception => .uncaught exception
  | .ok none => .exits .cantReadListenInputFile
  | .ok (some fcmRegisterData) => listenOn connection persistentIds fcmRegisterData

-- The value is rejected, or it gives a client with keys of the right lengths.
def ListenInputHandled (persistentIds : List Bytes) (fcmRegisterData : Json) : Prop :=
  isRegisterDataValid fcmRegisterData = .ok false ∨
    ∃ client, listeningClient fcmRegisterData persistentIds = .ok client ∧
      client.rawSubPrivKey.length = eceWebpushPrivateKeyLength ∧ client.authSecret.length = eceWebpushAuthSecretLength

-- A text in groups of four characters that stands for `length` bytes. A group that an equal sign
-- ends may be anything after it, and need not be the last.
def Base64Text : Bytes → Nat → Prop
  | [], length => length = 0
  | [_], _ => False
  | [chr0, chr1], length => IsBase64 chr0 ∧ IsBase64 chr1 ∧ length = 1
  | [chr0, chr1, chr2], length =>
      IsBase64 chr0 ∧ IsBase64 chr1 ∧ if chr2 = trailingChar then length = 1 else IsBase64 chr2 ∧ length = 2
  | chr0 :: chr1 :: chr2 :: chr3 :: rest, length =>
      IsBase64 chr0 ∧ IsBase64 chr1 ∧
        if chr2 = trailingChar then 1 ≤ length ∧ Base64Text rest (length - 1)
        else IsBase64 chr2 ∧
          if chr3 = trailingChar then 2 ≤ length ∧ Base64Text rest (length - 2)
          else IsBase64 chr3 ∧ 3 ≤ length ∧ Base64Text rest (length - 3)

-- The values at the places of the file that wmain looks at.
structure ListenInput where
  acg : Json
  ece : Json
  token : Json
  id : Json
  securityToken : Json
  authSecret : Json
  privateKey : Json

structure Present (json : Json) (input : ListenInput) : Prop where
  acg : json.member (ascii "acg") = some input.acg
  ece : json.member (ascii "ece") = some input.ece
  token : json.member (ascii "Token") = some input.token
  id : input.acg.member (ascii "ID") = some input.id
  securityToken : input.acg.member (ascii "SecurityToken") = some input.securityToken
  authSecret : input.ece.member (ascii "AuthSecret") = some input.authSecret
  privateKey : input.ece.member (ascii "PrivateKey") = some input.privateKey

def KeyText (value : Json) (length : Nat) : Prop :=
  ∃ encoded, value = .string encoded ∧ Base64Text (encoded.filter (· ≠ 10)) length

structure Usable (input : ListenInput) : Prop where
  id : input.id.IsString
  securityToken : input.securityToken.IsString
  privateKey : KeyText input.privateKey eceWebpushPrivateKeyLength
  authSecret : KeyText input.authSecret eceWebpushAuthSecretLength

theorem pos_known (chr : UInt8) : (∃ position, posOfChar chr = .ok position) ↔ IsBase64 chr := by
  rw [← char_value_known]
  constructor
  · rintro ⟨position, known⟩
    exact ⟨position, by rw [charValue, known]; rfl⟩
  · rintro ⟨position, known⟩
    exact ⟨position, except_ok _ _ known⟩

theorem pos_unknown (chr : UInt8) (unknown : ¬ IsBase64 chr) : ∃ exception, posOfChar chr = .error exception := by
  cases found : posOfChar chr with
  | error exception => exact ⟨exception, rfl⟩
  | ok position => exact absurd ((pos_known chr).mp ⟨position, found⟩) unknown

def DecodesTo (result : Except Exception Bytes) (length : Nat) : Prop := ∃ decoded, result = .ok decoded ∧ decoded.length = length

theorem decodes_char (chr : UInt8) (next : Nat → Except Exception Bytes) (length : Nat) (rest : Prop)
    (later : ∀ position, DecodesTo (next position) length ↔ rest) :
    DecodesTo (posOfChar chr >>= next) length ↔ IsBase64 chr ∧ rest := by
  by_cases known : IsBase64 chr
  · obtain ⟨position, read⟩ := (pos_known chr).mpr known
    rw [read, and_iff_right known]
    exact later position
  · obtain ⟨exception, read⟩ := pos_unknown chr known
    rw [read]
    exact iff_of_false nofun fun both => known both.1

theorem decodes_front (front : Bytes) (result : Except Exception Bytes) (length : Nat) :
    DecodesTo (result >>= fun rest => pure (front ++ rest)) length ↔
      front.length ≤ length ∧ DecodesTo result (length - front.length) := by
  cases result with
  | error exception => exact iff_of_false nofun nofun
  | ok rest =>
      constructor
      · rintro ⟨decoded, read, isLength⟩
        obtain rfl := Except.ok.inj read
        rw [List.length_append] at isLength
        exact ⟨by omega, rest, rfl, by omega⟩
      · rintro ⟨enough, decoded, read, isLength⟩
        obtain rfl := Except.ok.inj read
        exact ⟨front ++ rest, rfl, by rw [List.length_append]; omega⟩

theorem decodes_end (decoded : Bytes) (length : Nat) : DecodesTo (pure decoded) length ↔ length = decoded.length := by
  constructor
  · rintro ⟨same, read, isLength⟩
    obtain rfl := Except.ok.inj read
    exact isLength.symm
  · exact fun isLength => ⟨decoded, rfl, isLength.symm⟩

theorem decode_chunks_length (text : Bytes) (length : Nat) : DecodesTo (decodeChunks text) length ↔ Base64Text text length := by
  induction text using decodeChunks.induct generalizing length with
  | case1 => exact decodes_end [] length
  | case2 chr =>
      refine iff_of_false ?_ id
      intro decodes
      obtain ⟨_, failed, _⟩ := decodes
      cases failed
  | case3 chr0 chr1 =>
      rw [decodeChunks, Base64Text, and_left_comm]
      apply decodes_char
      intro pos1
      apply decodes_char
      intro pos0
      exact decodes_end _ length
  | case4 chr0 chr1 chr2 =>
      rw [decodeChunks, Base64Text, and_left_comm]
      apply decodes_char
      intro pos1
      apply decodes_char
      intro pos0
      by_cases padded : chr2 = trailingChar
      · rw [if_pos padded, if_pos padded]
        exact decodes_end _ length
      · rw [if_neg padded, if_neg padded]
        apply decodes_char
        intro pos2
        exact decodes_end _ length
  | case5 chr0 chr1 chr2 chr3 rest ih =>
      rw [decodeChunks, Base64Text, and_left_comm]
      apply decodes_char
      intro pos1
      apply decodes_char
      intro pos0
      by_cases short : chr2 = trailingChar
      · rw [if_pos short, if_pos short, ← ih]
        exact decodes_front [_] (decodeChunks rest) length
      · rw [if_neg short, if_neg short]
        apply decodes_char
        intro pos2
        by_cases padded : chr3 = trailingChar
        · rw [if_pos padded, if_pos padded, ← ih]
          exact decodes_front [_, _] (decodeChunks rest) length
        · rw [if_neg padded, if_neg padded, ← ih]
          apply decodes_char
          intro pos3
          exact decodes_front [_, _, _] (decodeChunks rest) length

theorem member_present (json : Json) (key : Bytes) : json.contains key = true ↔ ∃ value, json.member key = some value := by
  rw [member_contains, Option.isSome_iff_exists]

theorem validator_read (json acg ece token : Json) (isAcg : json.member (ascii "acg") = some acg)
    (isEce : json.member (ascii "ece") = some ece) (isToken : json.member (ascii "Token") = some token) :
    isRegisterDataValid json =
      .ok (acg.contains (ascii "ID") && acg.contains (ascii "SecurityToken") && ece.contains (ascii "AuthSecret") &&
        ece.contains (ascii "PrivateKey")) := by
  have top : ∀ key value, json.member key = some value → json.contains key = true :=
    fun key value found => (member_present json key).mpr ⟨value, found⟩
  rw [isRegisterDataValid, top _ _ isAcg, top _ _ isEce, top _ _ isToken, member_index json _ acg isAcg,
    member_index json _ ece isEce, if_neg (by simp)]
  change (if ¬ acg.contains (ascii "ID") ∨ ¬ acg.contains (ascii "SecurityToken") ∨ ¬ ece.contains (ascii "AuthSecret") ∨
    ¬ ece.contains (ascii "PrivateKey") ∨ ¬ true then Except.ok false else Except.ok true) = _
  cases acg.contains (ascii "ID") <;> cases acg.contains (ascii "SecurityToken") <;>
    cases ece.contains (ascii "AuthSecret") <;> cases ece.contains (ascii "PrivateKey") <;> rfl

theorem validator_refuses (json : Json)
    (absent : ¬ ((∃ acg, json.member (ascii "acg") = some acg) ∧ (∃ ece, json.member (ascii "ece") = some ece) ∧
      ∃ token, json.member (ascii "Token") = some token)) : isRegisterDataValid json = .ok false := by
  simp only [← member_present] at absent
  rw [isRegisterDataValid, if_pos]
  by_contra held
  simp only [not_or, not_not] at held
  exact absent held

theorem register_data_valid_iff (json : Json) : isRegisterDataValid json = .ok true ↔ ∃ input, Present json input := by
  constructor
  · intro valid
    by_cases top : (∃ acg, json.member (ascii "acg") = some acg) ∧ (∃ ece, json.member (ascii "ece") = some ece) ∧
        ∃ token, json.member (ascii "Token") = some token
    · obtain ⟨⟨acg, isAcg⟩, ⟨ece, isEce⟩, token, isToken⟩ := top
      rw [validator_read json acg ece token isAcg isEce isToken] at valid
      have inside := Except.ok.inj valid
      simp only [Bool.and_eq_true, member_present] at inside
      obtain ⟨⟨⟨⟨id, isId⟩, securityToken, isSecurityToken⟩, authSecret, isAuthSecret⟩, privateKey, isPrivateKey⟩ := inside
      exact ⟨⟨acg, ece, token, id, securityToken, authSecret, privateKey⟩,
        ⟨isAcg, isEce, isToken, isId, isSecurityToken, isAuthSecret, isPrivateKey⟩⟩
    · rw [validator_refuses json top] at valid
      cases valid
  · rintro ⟨input, present⟩
    rw [validator_read json _ _ _ present.acg present.ece present.token]
    simp [member_contains, present.id, present.securityToken, present.authSecret, present.privateKey]

theorem register_data_refused_iff (json : Json) : isRegisterDataValid json = .ok false ↔ ¬ ∃ input, Present json input := by
  rw [← register_data_valid_iff]
  by_cases top : (∃ acg, json.member (ascii "acg") = some acg) ∧ (∃ ece, json.member (ascii "ece") = some ece) ∧
      ∃ token, json.member (ascii "Token") = some token
  · obtain ⟨⟨acg, isAcg⟩, ⟨ece, isEce⟩, token, isToken⟩ := top
    rw [validator_read json acg ece token isAcg isEce isToken]
    simp
  · rw [validator_refuses json top]
    simp

theorem index_read {α : Type} (json : Json) (key : Bytes) (value : Json) (found : json.member key = some value)
    (next : Json → Except Exception α) : (json.index key >>= next) = next value := by
  rw [member_index json key value found]
  rfl

theorem listening_client_read (json : Json) (input : ListenInput) (present : Present json input) (persistentIds : List Bytes) :
    listeningClient json persistentIds =
      input.id.toStdString.bind fun androidId => input.securityToken.toStdString.bind fun securityToken =>
        input.privateKey.toStdString.bind fun privateKey => input.authSecret.toStdString.bind fun authSecret =>
          constructClient androidId securityToken privateKey authSecret persistentIds := by
  simp only [listeningClient, index_read _ _ _ present.acg, index_read _ _ _ present.ece, index_read _ _ _ present.id,
    index_read _ _ _ present.securityToken, index_read _ _ _ present.privateKey, index_read _ _ _ present.authSecret]
  rfl

-- The constructor decodes both keys before it looks at their lengths.
theorem constructed_keys (androidId securityToken base64PrivateKey base64AuthSecret : Bytes) (persistentIds : List Bytes)
    (client : FcmClient)
    (constructed : constructClient androidId securityToken base64PrivateKey base64AuthSecret persistentIds = .ok client) :
    DecodesTo (base64Decode base64PrivateKey) eceWebpushPrivateKeyLength ∧
      DecodesTo (base64Decode base64AuthSecret) eceWebpushAuthSecretLength := by
  obtain ⟨privateKey, privDecoded, constructed⟩ := bind_ok _ _ _ constructed
  obtain ⟨authSecret, authDecoded, constructed⟩ := bind_ok _ _ _ constructed
  by_cases wrong : privateKey.length ≠ eceWebpushPrivateKeyLength ∨ authSecret.length ≠ eceWebpushAuthSecretLength
  · rw [if_pos wrong] at constructed
    cases constructed
  · simp only [not_or, not_not] at wrong
    exact ⟨⟨privateKey, privDecoded, wrong.1⟩, authSecret, authDecoded, wrong.2⟩

theorem constructs_keys_iff (androidId securityToken base64PrivateKey base64AuthSecret : Bytes) (persistentIds : List Bytes) :
    (∃ client, constructClient androidId securityToken base64PrivateKey base64AuthSecret persistentIds = .ok client ∧
        client.rawSubPrivKey.length = eceWebpushPrivateKeyLength ∧ client.authSecret.length = eceWebpushAuthSecretLength) ↔
      Base64Text (base64PrivateKey.filter (· ≠ 10)) eceWebpushPrivateKeyLength ∧
        Base64Text (base64AuthSecret.filter (· ≠ 10)) eceWebpushAuthSecretLength := by
  rw [← decode_chunks_length, ← decode_chunks_length]
  constructor
  · rintro ⟨client, constructed, _⟩
    exact constructed_keys androidId securityToken base64PrivateKey base64AuthSecret persistentIds client constructed
  · rintro ⟨⟨privateKey, privDecoded, privLength⟩, authSecret, authDecoded, authLength⟩
    exact ⟨_, construct_client androidId securityToken base64PrivateKey base64AuthSecret persistentIds privateKey authSecret
      privDecoded authDecoded privLength authLength, privLength, authLength⟩

theorem string_read {α : Type} (value : Json) (next : Bytes → Except Exception α) (kept : α → Prop) :
    (∃ result, value.toStdString.bind next = .ok result ∧ kept result) ↔
      ∃ text, value = .string text ∧ ∃ result, next text = .ok result ∧ kept result := by
  cases value with
  | string text => simp [Json.toStdString, Except.bind]
  | _ => simp [Json.toStdString, Except.bind]

theorem is_string_iff (value : Json) : value.IsString ↔ ∃ text, value = .string text := by
  cases value <;> simp [Json.IsString]

theorem listening_client_iff (json : Json) (input : ListenInput) (present : Present json input) (persistentIds : List Bytes) :
    (∃ client, listeningClient json persistentIds = .ok client ∧
        client.rawSubPrivKey.length = eceWebpushPrivateKeyLength ∧ client.authSecret.length = eceWebpushAuthSecretLength) ↔
      Usable input := by
  rw [listening_client_read json input present persistentIds]
  simp only [string_read, constructs_keys_iff]
  constructor
  · rintro ⟨id, isId, token, isToken, privateKey, isPrivateKey, authSecret, isAuthSecret, privText, authText⟩
    exact ⟨(is_string_iff _).mpr ⟨id, isId⟩, (is_string_iff _).mpr ⟨token, isToken⟩, ⟨privateKey, isPrivateKey, privText⟩,
      ⟨authSecret, isAuthSecret, authText⟩⟩
  · intro usable
    obtain ⟨id, isId⟩ := (is_string_iff _).mp usable.id
    obtain ⟨token, isToken⟩ := (is_string_iff _).mp usable.securityToken
    obtain ⟨privateKey, isPrivateKey, privText⟩ := usable.privateKey
    obtain ⟨authSecret, isAuthSecret, authText⟩ := usable.authSecret
    exact ⟨id, isId, token, isToken, privateKey, isPrivateKey, authSecret, isAuthSecret, privText, authText⟩

theorem present_unique (json : Json) (left right : ListenInput) (isLeft : Present json left) (isRight : Present json right) :
    left = right := by
  obtain ⟨acg, ece, token, id, securityToken, authSecret, privateKey⟩ := left
  obtain ⟨isAcg, isEce, isToken, isId, isSecurityToken, isAuthSecret, isPrivateKey⟩ := isLeft
  obtain rfl := Option.some.inj (isAcg.symm.trans isRight.acg)
  obtain rfl := Option.some.inj (isEce.symm.trans isRight.ece)
  obtain rfl := Option.some.inj (isToken.symm.trans isRight.token)
  obtain rfl := Option.some.inj (isId.symm.trans isRight.id)
  obtain rfl := Option.some.inj (isSecurityToken.symm.trans isRight.securityToken)
  obtain rfl := Option.some.inj (isAuthSecret.symm.trans isRight.authSecret)
  obtain rfl := Option.some.inj (isPrivateKey.symm.trans isRight.privateKey)
  rfl

theorem input_handled_iff (persistentIds : List Bytes) (json : Json) :
    ListenInputHandled persistentIds json ↔ ∀ input, Present json input → Usable input := by
  rw [ListenInputHandled, register_data_refused_iff]
  by_cases held : ∃ input, Present json input
  · obtain ⟨input, present⟩ := held
    rw [or_iff_right (not_not_intro ⟨input, present⟩), listening_client_iff json input present persistentIds]
    exact ⟨fun usable other isOther => present_unique json input other present isOther ▸ usable, fun usable => usable input present⟩
  · exact iff_of_true (.inl held) fun input present => absurd ⟨input, present⟩ held

-- Beyond the constructor nothing in wmain throws outside of its try block.
theorem handled_documented (connection : Connection) (persistentIds : List Bytes) (json : Json)
    (handled : ListenInputHandled persistentIds json) (exception : Exception) :
    listenOn connection persistentIds json ≠ .uncaught exception := by
  rw [listenOn]
  rcases handled with refused | ⟨client, constructed, _⟩
  · rw [refused]
    exact nofun
  · cases valid : isRegisterDataValid json with
    | error other =>
        obtain ⟨input, present⟩ | refused := Classical.em (∃ input, Present json input)
        · rw [(register_data_valid_iff json).mpr ⟨input, present⟩] at valid
          cases valid
        · rw [(register_data_refused_iff json).mpr refused] at valid
          cases valid
    | ok accepted =>
        obtain ⟨connected, returned⟩ := connect_never_throws connection client
        rw [constructed]
        cases accepted with
        | false => exact nofun
        | true =>
            dsimp only
            rw [returned]
            cases connected <;> exact nofun

theorem listen_documented_iff (parse : Bytes → Parsed) (connection : Connection) (file : Option Bytes) (persistentIds : List Bytes)
    (handled : ∀ json, file.map parse = some (.value json) → ListenInputHandled persistentIds json) :
    (∀ exception, listen parse connection file persistentIds ≠ .uncaught exception) ↔ file.map parse ≠ some .outOfRange := by
  constructor
  · intro documented overflows
    refine documented .outOfRange ?_
    rw [listen, loadListenInput, overflows]
  · intro inRange exception
    cases file with
    | none => exact nofun
    | some text =>
        rw [listen, loadListenInput]
        cases read : parse text with
        | parseError => simp [read, loadJsonFromFile, Parsed.json]
        | outOfRange => exact absurd (congrArg some read) inRange
        | value json =>
            simp only [Option.map_some, read, loadJsonFromFile, Option.bind_some, Parsed.json]
            exact handled_documented connection persistentIds json (handled json (congrArg some read)) exception

theorem listen_handled_iff (parse : Bytes → Parsed) (connection : Connection) (file : Option Bytes) (persistentIds : List Bytes) :
    ((∀ json, file.map parse = some (.value json) → ListenInputHandled persistentIds json) ∧
        ∀ exception, listen parse connection file persistentIds ≠ .uncaught exception) ↔
      (∀ json, file.map parse = some (.value json) → ∀ input, Present json input → Usable input) ∧
        file.map parse ≠ some .outOfRange := by
  have handled : (∀ json, file.map parse = some (.value json) → ListenInputHandled persistentIds json) ↔
      ∀ json, file.map parse = some (.value json) → ∀ input, Present json input → Usable input :=
    forall₂_congr fun json _ => input_handled_iff persistentIds json
  rw [← handled]
  exact and_congr_right (listen_documented_iff parse connection file persistentIds)

def shortKeyData : FcmRegisterData := ⟨⟨ascii "1", ascii "2"⟩, ⟨ascii "x", ascii "x"⟩, ascii "t"⟩

def shortKeyText : Bytes :=
  ascii "\x7b\"Token\":\"t\",\"acg\":\x7b\"ID\":\"1\",\"SecurityToken\":\"2\"\x7d," ++
    ascii "\"ece\":\x7b\"AuthSecret\":\"x\",\"PrivateKey\":\"x\"\x7d\x7d"

def shortKeyParse (text : Bytes) : Parsed := if text = shortKeyText then .value (registerDataJson shortKeyData) else .parseError

-- Every key is there, so the validator accepts the file, and the constructor throws on a key of one character.
theorem short_key_uncaught :
    isRegisterDataValid (registerDataJson shortKeyData) = .ok true ∧
      listen shortKeyParse ⟨true, fun _ => 1, fun _ => loginSerialized⟩ (some shortKeyText) [] = .uncaught .outOfRange := by
  refine ⟨register_data_valid shortKeyData, ?_⟩
  have loaded : loadListenInput shortKeyParse (some shortKeyText) = .ok (some (registerDataJson shortKeyData)) := by
    have parsed : shortKeyParse shortKeyText = .value (registerDataJson shortKeyData) := if_pos rfl
    simp only [loadListenInput, loadJsonFromFile, Option.map_some, Option.bind_some, parsed, Parsed.json]
  have throws : listeningClient (registerDataJson shortKeyData) [] = .error .outOfRange := by
    rw [register_data_read]
    rfl
  simp only [listen, loaded, listenOn, register_data_valid, throws]

end PushReceiver
