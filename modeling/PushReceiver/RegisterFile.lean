import PushReceiver.FcmClient

set_option autoImplicit false

namespace PushReceiver

def registerDataJson (data : FcmRegisterData) : Json :=
  .initializerList
    [.initializerList
        [.string (ascii "acg"), .initializerList
          [.initializerList [.string (ascii "ID"), .string data.acg.id],
            .initializerList [.string (ascii "SecurityToken"), .string data.acg.securityToken]]],
      .initializerList
        [.string (ascii "ece"), .initializerList
          [.initializerList [.string (ascii "AuthSecret"), .string data.ece.authSecret],
            .initializerList [.string (ascii "PrivateKey"), .string data.ece.privateKey]]],
      .initializerList [.string (ascii "Token"), .string data.token]]

-- WriteRegisterDataToFile: its result, and what the file holds afterwards. `opened` tells whether
-- the file can be opened for writing.
def writeRegisterDataToFile (dump : Json → Bytes) (data : FcmRegisterData) (opened : Bool) (file : Option Bytes) :
    Bool × Option Bytes :=
  if opened then (true, some (dump (registerDataJson data))) else (false, file)

-- LoadJsonFromFile. `parse` is what operator>> reads from a stream, none for a parse_error.
def loadJsonFromFile (parse : Bytes → Option Json) (file : Option Bytes) : Option Json := file.bind parse

def isRegisterDataValid (data : Json) : Except Exception Bool :=
  if ¬ data.contains (ascii "acg") ∨ ¬ data.contains (ascii "ece") ∨ ¬ data.contains (ascii "Token") then .ok false
  else do
    let acg ← data.index (ascii "acg")
    let ece ← data.index (ascii "ece")
    if ¬ acg.contains (ascii "ID") ∨ ¬ acg.contains (ascii "SecurityToken") ∨ ¬ ece.contains (ascii "AuthSecret") ∨
        ¬ ece.contains (ascii "PrivateKey") ∨ ¬ data.contains (ascii "Token") then return false
    return true

-- The arguments wmain takes out of the file for the constructor of CFCMClient.
def listeningClient (fcmRegisterData : Json) (persistentIds : List Bytes) : Except Exception FcmClient := do
  let acg ← fcmRegisterData.index (ascii "acg")
  let ece ← fcmRegisterData.index (ascii "ece")
  let androidId ← (← acg.index (ascii "ID")).toStdString
  let securityToken ← (← acg.index (ascii "SecurityToken")).toStdString
  let privateKey ← (← ece.index (ascii "PrivateKey")).toStdString
  let authSecret ← (← ece.index (ascii "AuthSecret")).toStdString
  constructClient androidId securityToken privateKey authSecret persistentIds

theorem register_data_members (data : FcmRegisterData) :
    registerDataJson data = .object
      [(ascii "Token", .string data.token),
        (ascii "acg", .object [(ascii "ID", .string data.acg.id), (ascii "SecurityToken", .string data.acg.securityToken)]),
        (ascii "ece", .object [(ascii "AuthSecret", .string data.ece.authSecret), (ascii "PrivateKey", .string data.ece.privateKey)])] :=
  rfl

theorem register_data_valid (data : FcmRegisterData) : isRegisterDataValid (registerDataJson data) = .ok true := by
  rw [register_data_members]
  rfl

theorem register_data_read (data : FcmRegisterData) (persistentIds : List Bytes) :
    listeningClient (registerDataJson data) persistentIds =
      constructClient data.acg.id data.acg.securityToken data.ece.privateKey data.ece.authSecret persistentIds := by
  rw [register_data_members]
  rfl

theorem generated_keys (keys : RawKeys) (ecdhKeys : EcdhKeys) (generated : generateECDHKeys (.ok keys) = .ok ecdhKeys) :
    ecdhKeys.base64PrivateKey = (base64Alphabet true).encode keys.recvPrivKey ++ [trailingChar] ∧
      ecdhKeys.base64AuthSecret = (base64Alphabet true).encode keys.authSecret := by
  obtain rfl := Except.ok.inj generated
  constructor
  · dsimp only
    rw [base64_encode_refines, keys.privLength]
    rfl
  · dsimp only
    rw [base64_encode_refines, replace_all_append, replace_all_repeated, List.append_nil]
    exact replace_all_absent _ _ _ (encode_plain true keys.authSecret).1

theorem generated_decoded (keys : RawKeys) (ecdhKeys : EcdhKeys) (generated : generateECDHKeys (.ok keys) = .ok ecdhKeys) :
    base64Decode ecdhKeys.base64PrivateKey = .ok keys.recvPrivKey ∧ base64Decode ecdhKeys.base64AuthSecret = .ok keys.authSecret := by
  constructor
  · obtain rfl := Except.ok.inj generated
    exact base64_decode_encode true keys.recvPrivKey
  · rw [(generated_keys keys ecdhKeys generated).2]
    exact base64_decode_stripped true keys.authSecret

theorem register_then_listen (http : Http) (dump : Json → Bytes) (parse : Bytes → Option Json) (keys : RawKeys)
    (params : FcmParams) (generated : generateECDHKeys (.ok keys) = .ok params.keys) (data : FcmRegisterData)
    (registered : registerToFCM http params = .ok data) (token : data.token ≠ [])
    (restored : parse (dump (registerDataJson data)) = some (registerDataJson data))
    (opened : Bool) (file stored : Option Bytes) (written : writeRegisterDataToFile dump data opened file = (true, stored))
    (persistentIds : List Bytes) :
    ∃ json client, loadJsonFromFile parse stored = some json ∧ isRegisterDataValid json = .ok true ∧
      listeningClient json persistentIds = .ok client ∧ client.rawSubPrivKey = keys.recvPrivKey ∧
      client.authSecret = keys.authSecret ∧
      client.loginIds = some ((checkIn http 0 0).androidId.toNat, (checkIn http 0 0).securityToken.toNat) ∧
      data.ece.privateKey = (base64Alphabet true).encode keys.recvPrivKey ++ [trailingChar] ∧
      trailingChar ∉ data.ece.authSecret := by
  have stores : stored = some (dump (registerDataJson data)) := by
    cases opened with
    | false => cases written
    | true => exact (Prod.mk.inj written).2.symm
  rcases register_cases http params data registered with rfl | parts
  · exact absurd rfl token
  · obtain ⟨privDecoded, authDecoded⟩ := generated_decoded keys params.keys generated
    obtain ⟨padded, stripped⟩ := generated_keys keys params.keys generated
    have constructed := construct_client data.acg.id data.acg.securityToken data.ece.privateKey data.ece.authSecret persistentIds
      keys.recvPrivKey keys.authSecret (by rw [parts.ece, privDecoded]) (by rw [parts.ece, authDecoded]) keys.privLength
      keys.authLength
    refine ⟨registerDataJson data, ⟨data.acg.id, data.acg.securityToken, keys.recvPrivKey, keys.authSecret, _⟩, ?_,
      register_data_valid data, (register_data_read data persistentIds).trans constructed, rfl, rfl, ?_, ?_, ?_⟩
    · rw [stores, loadJsonFromFile, Option.bind_some, restored]
    · exact login_ids _ _ _ (by rw [parts.acg]) (by rw [parts.acg])
    · rw [parts.ece, padded]
    · rw [parts.ece, stripped]
      exact (encode_plain true keys.authSecret).1

def sampleKeys : RawKeys := ⟨List.replicate 32 0xff, List.replicate 65 4, List.replicate 16 0xfb, rfl, rfl, rfl⟩

def sampleParams : FcmParams :=
  { keys :=
      { base64PrivateKey := ascii "__________________________________________8="
        base64PublicKey := ascii "BAQEBAQEBAQEBAQEBAQEBAQEBAQEBAQEBAQEBAQEBAQEBAQEBAQEBAQEBAQEBAQEBAQEBAQEBAQEBAQEBAQEBAQ"
        base64AuthSecret := ascii "-_v7-_v7-_v7-_v7-_v7-w" }
    firebase := ⟨ascii "api", ascii "1:2:web:3", ascii "project"⟩
    vapidKey := ascii "vapid" }

def sampleHttp : Http where
  serializeCheckinRequest _ := []
  post request :=
    if request.url = ascii "https://android.clients.google.com/checkin" then some (ascii "checkin")
    else if request.url = ascii "https://android.clients.google.com/c2dm/register3" then some (ascii "token=gcm")
    else if request.url = ascii "https://firebaseinstallations.googleapis.com/v1/projects/project/installations" then
      some (ascii "\x7b\"authToken\":\x7b\"token\":\"fis\"\x7d\x7d")
    else some (ascii "\x7b\"token\":\"fcm\"\x7d")
  parseCheckinResponse response :=
    if response = ascii "checkin" then some ⟨5134567890123456789, 18446744073709551615⟩ else none
  parseJson response :=
    if response = ascii "\x7b\"authToken\":\x7b\"token\":\"fis\"\x7d\x7d" then
      some (.object [(ascii "authToken", .object [(ascii "token", .string (ascii "fis"))])])
    else if response = ascii "\x7b\"token\":\"fcm\"\x7d" then some (.object [(ascii "token", .string (ascii "fcm"))])
    else none
  random := List.replicate 17 0

def sampleData : FcmRegisterData :=
  ⟨⟨ascii "5134567890123456789", ascii "18446744073709551615"⟩,
    ⟨ascii "-_v7-_v7-_v7-_v7-_v7-w", ascii "__________________________________________8="⟩, ascii "fcm"⟩

def sampleText : Bytes :=
  ascii "\x7b\n    \"Token\": \"fcm\",\n    \"acg\": \x7b\n        \"ID\": \"5134567890123456789\",\n" ++
    ascii "        \"SecurityToken\": \"18446744073709551615\"\n    \x7d,\n    \"ece\": \x7b\n" ++
    ascii "        \"AuthSecret\": \"-_v7-_v7-_v7-_v7-_v7-w\",\n" ++
    ascii "        \"PrivateKey\": \"__________________________________________8=\"\n    \x7d\n\x7d"

theorem register_then_listen_sample :
    ∃ json client,
      loadJsonFromFile (fun text => if text = sampleText then some (registerDataJson sampleData) else none) (some sampleText) =
          some json ∧
        isRegisterDataValid json = .ok true ∧ listeningClient json [ascii "0:1"] = .ok client ∧
        client.rawSubPrivKey = sampleKeys.recvPrivKey ∧ client.authSecret = sampleKeys.authSecret ∧
        client.loginIds =
          some ((checkIn sampleHttp 0 0).androidId.toNat, (checkIn sampleHttp 0 0).securityToken.toNat) ∧
        sampleData.ece.privateKey = (base64Alphabet true).encode sampleKeys.recvPrivKey ++ [trailingChar] ∧
        trailingChar ∉ sampleData.ece.authSecret :=
  register_then_listen sampleHttp (fun _ => sampleText) _ sampleKeys sampleParams (by decide +kernel) sampleData
    (by decide +kernel) (by decide) (if_pos rfl) true none (some sampleText) rfl [ascii "0:1"]

end PushReceiver
