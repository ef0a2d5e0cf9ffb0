import PushReceiver.Base64
import PushReceiver.Decimal
import PushReceiver.Ece
import PushReceiver.Json
import PushReceiver.StringUtil

set_option autoImplicit false

namespace PushReceiver

-- The three buffers ece_webpush_generate_keys fills.
structure RawKeys where
  recvPrivKey : Bytes
  recvPubKey : Bytes
  authSecret : Bytes
  privLength : recvPrivKey.length = eceWebpushPrivateKeyLength
  pubLength : recvPubKey.length = eceWebpushPublicKeyLength
  authLength : authSecret.length = eceWebpushAuthSecretLength

structure EcdhKeys where
  base64PrivateKey : Bytes
  base64PublicKey : Bytes
  base64AuthSecret : Bytes
deriving DecidableEq, Repr

-- UtilFunction::GenerateECDHKeys on what ece_webpush_generate_keys returns.
def generateECDHKeys (generated : Except EceError RawKeys) : Except EceError EcdhKeys :=
  match generated with
  | .error error => .error error
  | .ok keys => .ok
      { base64PrivateKey := base64Encode true keys.recvPrivKey
        base64PublicKey := replaceAll (base64Encode true keys.recvPubKey) trailingChar []
        base64AuthSecret := replaceAll (base64Encode true keys.authSecret) trailingChar [] }

-- UtilFunction::GenerateFirebaseFID on its seventeen random bytes.
def generateFirebaseFID (random : Bytes) : Bytes :=
  let fid :=
    match random with
    | [] => []
    | first :: rest => UInt8.ofNat (0b01110000 + first.toNat % 0b00010000) :: rest
  replaceAll (base64Encode true fid) trailingChar []

structure Firebase where
  apiKey : Bytes
  appId : Bytes
  projectId : Bytes
deriving DecidableEq, Repr

structure FcmParams where
  keys : EcdhKeys
  firebase : Firebase
  vapidKey : Bytes
deriving DecidableEq, Repr

structure Acg where
  id : Bytes
  securityToken : Bytes
deriving DecidableEq, Repr

structure EceKeys where
  authSecret : Bytes
  privateKey : Bytes
deriving DecidableEq, Repr

structure FcmRegisterData where
  acg : Acg
  ece : EceKeys
  token : Bytes
deriving DecidableEq, Repr

def FcmRegisterData.empty : FcmRegisterData := ⟨⟨[], []⟩, ⟨[], []⟩, []⟩

-- The fields GetCheckinRequest sets, in its order; the enumerations by their values.
structure CheckinRequest where
  userSerialNumber : Nat
  version : Nat
  id : UInt64
  securityToken : UInt64
  deviceType : Nat
  platform : Nat
  chromeVersion : Bytes
  channel : Nat
deriving DecidableEq, Repr

-- The fields of the AndroidCheckinResponse that are read.
structure CheckinResponse where
  androidId : UInt64
  securityToken : UInt64
deriving DecidableEq, Repr

structure HttpRequest where
  url : Bytes
  headers : List Bytes
  postData : Bytes
deriving DecidableEq, Repr

-- What the registration uses and does not compute. `post` is CLibCurlWrapper::Post, none where it
-- returns FALSE; no request is made twice. `random` is what GenerateRandomBytes(17) yields.
structure Http where
  serializeCheckinRequest : CheckinRequest → Bytes
  post : HttpRequest → Option Bytes
  parseCheckinResponse : Bytes → Option CheckinResponse
  parseJson : Bytes → Option Json
  random : Bytes

def getCheckinRequest (http : Http) (androidId securityToken : UInt64) : Bytes :=
  http.serializeCheckinRequest
    { userSerialNumber := 0
      version := 3
      id := androidId
      securityToken
      deviceType := 3
      platform := 2
      chromeVersion := ascii "87.0.4280.66"
      channel := 1 }

def checkIn (http : Http) (androidId securityToken : UInt64) : CheckinResponse :=
  let request : HttpRequest :=
    { url := ascii "https://android.clients.google.com/checkin"
      headers := [ascii "Content-Type: application/x-protobuf"]
      postData := getCheckinRequest http androidId securityToken }
  match http.post request with
  | none => ⟨0, 0⟩
  | some response => (http.parseCheckinResponse response).getD ⟨0, 0⟩

def serverKey : Bytes :=
  [0x04, 0x33, 0x94, 0xf7, 0xdf, 0xa1, 0xeb, 0xb1, 0xdc, 0x03, 0xa2, 0x5e, 0x15, 0x71, 0xdb, 0x48,
    0xd3, 0x2e, 0xed, 0xed, 0xb2, 0x34, 0xdb, 0xb7, 0x47, 0x3a, 0x0c, 0x8f, 0xc4, 0xcc, 0xe1, 0x6f,
    0x3c, 0x8c, 0x84, 0xdf, 0xab, 0xb6, 0x66, 0x3e, 0xf2, 0x0c, 0xd4, 0x8b, 0xfe, 0xe3, 0xf9, 0x76,
    0x2f, 0x14, 0x1c, 0x63, 0x08, 0x6a, 0x6f, 0x2d, 0xb1, 0x1a, 0x95, 0xb0, 0xce, 0x37, 0xc0, 0x9c,
    0x6e]

def doGCMRegister (http : Http) (appId : Bytes) (androidId securityToken : UInt64) : Except Exception Bytes :=
  let sender := replaceAll (base64Encode true serverKey) trailingChar []
  let request : HttpRequest :=
    { url := ascii "https://android.clients.google.com/c2dm/register3"
      headers :=
        [ascii "Authorization: AidLogin " ++ decimal androidId.toNat ++ ascii ":" ++ decimal securityToken.toNat]
      postData := ascii "app=org.chromium.linux&X-subtype=" ++ appId ++ ascii "&device=" ++ decimal androidId.toNat ++
        ascii "&sender=" ++ sender }
  match http.post request with
  | none => .ok []
  | some response =>
      match (split response 61)[1]? with
      | none => .error .outOfRange
      | some token => .ok token

def postInstallations (http : Http) (appId projectId apiKey : Bytes) : Except Exception Bytes :=
  let request : HttpRequest :=
    { url := ascii "https://firebaseinstallations.googleapis.com/v1/projects/" ++ projectId ++ ascii "/installations"
      headers :=
        [ascii "x-firebase-client: " ++ base64Encode true (ascii "\x7b\"heartbeats\":[],\"version\":2\x7d"),
          ascii "x-goog-api-key: " ++ apiKey,
          ascii "Content-Type: application/json"]
      postData := ascii "\x7b\"appId\":\"" ++ appId ++
        ascii "\",\"authVersion\":\"FIS_v2\",\"sdkVersion\":\"w:0.6.4\",\"fid\":\"" ++ generateFirebaseFID http.random ++
        ascii "\"\x7d" }
  match http.post request with
  | none => .ok []
  | some response =>
      match http.parseJson response with
      | none => .ok []
      | some jsonResponse =>
          if jsonResponse.contains (ascii "authToken") then do
            let authToken ← jsonResponse.index (ascii "authToken")
            if authToken.contains (ascii "token") then do
              let token ← authToken.index (ascii "token")
              token.toStdString
            else return []
          else return []

def postFcmRegistrations (http : Http) (projectId apiKey vapidKey authSecret installationToken publicKey gcmToken : Bytes) :
    Except Exception Bytes :=
  let request : HttpRequest :=
    { url := ascii "https://fcmregistrations.googleapis.com/v1/projects/" ++ projectId ++ ascii "/registrations"
      headers :=
        [ascii "Content-Type: application/json",
          ascii "x-goog-api-key: " ++ apiKey,
          ascii "x-goog-firebase-installations-auth: " ++ installationToken]
      postData := ascii "\x7b\"web\":\x7b\"applicationPubKey\":\"" ++ vapidKey ++ ascii "\",\"auth\":\"" ++ authSecret ++
        ascii "\",\"endpoint\":\"https://fcm.googleapis.com/fcm/send/" ++ gcmToken ++ ascii "\",\"p256dh\":\"" ++ publicKey ++
        ascii "\"\x7d\x7d" }
  match http.post request with
  | none => .ok []
  | some response =>
      match http.parseJson response with
      | none => .ok []
      | some jsonResponse =>
          if jsonResponse.contains (ascii "token") then do
            let token ← jsonResponse.index (ascii "token")
            token.toStdString
          else return []

def FcmParams.incomplete (params : FcmParams) : Prop :=
  params.keys.base64AuthSecret = [] ∨ params.keys.base64PublicKey = [] ∨ params.keys.base64PrivateKey = [] ∨
    params.firebase.apiKey = [] ∨ params.firebase.appId = [] ∨ params.firebase.projectId = [] ∨ params.vapidKey = []

instance (params : FcmParams) : Decidable params.incomplete := by
  unfold FcmParams.incomplete
  infer_instance

def registerToFCM (http : Http) (params : FcmParams) : Except Exception FcmRegisterData :=
  if params.incomplete then .ok .empty
  else
    let checkin := checkIn http 0 0
    if checkin.androidId = 0 ∨ checkin.securityToken = 0 then .ok .empty
    else do
      let gcmToken ← doGCMRegister http params.firebase.appId checkin.androidId checkin.securityToken
      if gcmToken = [] then return .empty
      let installationToken ← postInstallations http params.firebase.appId params.firebase.projectId params.firebase.apiKey
      if installationToken = [] then return .empty
      let fcmToken ← postFcmRegistrations http params.firebase.projectId params.firebase.apiKey params.vapidKey
        params.keys.base64AuthSecret installationToken params.keys.base64PublicKey gcmToken
      if fcmToken = [] then return .empty
      return { acg := ⟨decimal checkin.androidId.toNat, decimal checkin.securityToken.toNat⟩
               ece := ⟨params.keys.base64AuthSecret, params.keys.base64PrivateKey⟩
               token := fcmToken }

-- What RegisterToFCM has been told and what it keeps of it, when all four exchanges give a value.
structure Registered (http : Http) (params : FcmParams) (data : FcmRegisterData) : Prop where
  complete : ¬ params.incomplete
  checkedIn : (checkIn http 0 0).androidId ≠ 0 ∧ (checkIn http 0 0).securityToken ≠ 0
  exchanged : ∃ gcmToken installationToken, gcmToken ≠ [] ∧ installationToken ≠ [] ∧
    doGCMRegister http params.firebase.appId (checkIn http 0 0).androidId (checkIn http 0 0).securityToken = .ok gcmToken ∧
    postInstallations http params.firebase.appId params.firebase.projectId params.firebase.apiKey = .ok installationToken ∧
    postFcmRegistrations http params.firebase.projectId params.firebase.apiKey params.vapidKey params.keys.base64AuthSecret
      installationToken params.keys.base64PublicKey gcmToken = .ok data.token
  token : data.token ≠ []
  acg : data.acg = ⟨decimal (checkIn http 0 0).androidId.toNat, decimal (checkIn http 0 0).securityToken.toNat⟩
  ece : data.ece = ⟨params.keys.base64AuthSecret, params.keys.base64PrivateKey⟩

theorem register_cases (http : Http) (params : FcmParams) (data : FcmRegisterData)
    (registered : registerToFCM http params = .ok data) : data = .empty ∨ Registered http params data := by
  unfold registerToFCM at registered
  split at registered
  · exact .inl (Except.ok.inj registered).symm
  · rename_i complete
    dsimp only at registered
    split at registered
    · exact .inl (Except.ok.inj registered).symm
    · rename_i checkedIn
      obtain ⟨gcmToken, gcm, registered⟩ := bind_ok _ _ _ registered
      split at registered
      · exact .inl (Except.ok.inj registered).symm
      · rename_i gcmSome
        obtain ⟨installationToken, installation, registered⟩ := bind_ok _ _ _ registered
        split at registered
        · exact .inl (Except.ok.inj registered).symm
        · rename_i installationSome
          obtain ⟨fcmToken, fcm, registered⟩ := bind_ok _ _ _ registered
          split at registered
          · exact .inl (Except.ok.inj registered).symm
          · rename_i fcmSome
            obtain rfl := Except.ok.inj registered
            exact .inr ⟨complete, not_or.mp checkedIn,
              ⟨gcmToken, installationToken, gcmSome, installationSome, gcm, installation, fcm⟩, fcmSome, rfl, rfl⟩

end PushReceiver
