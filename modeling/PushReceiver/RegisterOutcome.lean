import PushReceiver.Harmless
import PushReceiver.RegisterFile

set_option autoImplicit false

namespace PushReceiver

def gcmRequest (appId : Bytes) (androidId securityToken : UInt64) : HttpRequest :=
  { url := ascii "https://android.clients.google.com/c2dm/register3"
    headers :=
      [ascii "Authorization: AidLogin " ++ decimal androidId.toNat ++ ascii ":" ++ decimal securityToken.toNat]
    postData := ascii "app=org.chromium.linux&X-subtype=" ++ appId ++ ascii "&device=" ++ decimal androidId.toNat ++
      ascii "&sender=" ++ replaceAll (base64Encode true serverKey) trailingChar [] }

def installationsRequest (http : Http) (firebase : Firebase) : HttpRequest :=
  { url := ascii "https://firebaseinstallations.googleapis.com/v1/projects/" ++ firebase.projectId ++ ascii "/installations"
    headers :=
      [ascii "x-firebase-client: " ++ base64Encode true (ascii "\x7b\"heartbeats\":[],\"version\":2\x7d"),
        ascii "x-goog-api-key: " ++ firebase.apiKey,
        ascii "Content-Type: application/json"]
    postData := ascii "\x7b\"appId\":\"" ++ firebase.appId ++
      ascii "\",\"authVersion\":\"FIS_v2\",\"sdkVersion\":\"w:0.6.4\",\"fid\":\"" ++ generateFirebaseFID http.random ++
      ascii "\"\x7d" }

def registrationsRequest (params : FcmParams) (installationToken gcmToken : Bytes) : HttpRequest :=
  { url := ascii "https://fcmregistrations.googleapis.com/v1/projects/" ++ params.firebase.projectId ++ ascii "/registrations"
    headers :=
      [ascii "Content-Type: application/json",
        ascii "x-goog-api-key: " ++ params.firebase.apiKey,
        ascii "x-goog-firebase-installations-auth: " ++ installationToken]
    postData := ascii "\x7b\"web\":\x7b\"applicationPubKey\":\"" ++ params.vapidKey ++ ascii "\",\"auth\":\"" ++
      params.keys.base64AuthSecret ++ ascii "\",\"endpoint\":\"https://fcm.googleapis.com/fcm/send/" ++ gcmToken ++
      ascii "\",\"p256dh\":\"" ++ params.keys.base64PublicKey ++ ascii "\"\x7d\x7d" }

def Json.member (key : Bytes) : Json → Option Json
  | .object members => findMember key members
  | _ => none

-- The member each of the two JSON answers is read for.
def installationMember (json : Json) : Option Json := (json.member (ascii "authToken")).bind (Json.member (ascii "token"))

def registrationMember (json : Json) : Option Json := json.member (ascii "token")

-- A token that is missing is an error the code reports; one that is no string makes it throw.
def tokenOf : Option Json → Except Exception Bytes
  | none => .ok []
  | some value => value.toStdString

def answerToken (member : Json → Option Json) : Option Json → Except Exception Bytes
  | none => .ok []
  | some json => tokenOf (member json)

def Json.IsString : Json → Prop
  | .string _ => True
  | _ => False

def RegistrationConvertible (http : Http) (params : FcmParams) (installationToken gcmToken : Bytes) : Prop :=
  ∀ json, (http.post (registrationsRequest params installationToken gcmToken)).bind http.parseJson = some json →
    ∀ value, registrationMember json = some value → value.IsString

def InstallationConvertible (http : Http) (params : FcmParams) (gcmToken : Bytes) : Prop :=
  ∀ json, (http.post (installationsRequest http params.firebase)).bind http.parseJson = some json →
    ∀ value, installationMember json = some value →
      value.IsString ∧ ∀ token, value.toStdString = .ok token → token ≠ [] → RegistrationConvertible http params token gcmToken

def GcmConvertible (http : Http) (params : FcmParams) (checkin : CheckinResponse) : Prop :=
  ∀ response, http.post (gcmRequest params.firebase.appId checkin.androidId checkin.securityToken) = some response →
    equalSign ∈ response ∧ (secondField response ≠ [] → InstallationConvertible http params (secondField response))

-- Every answer that RegisterToFCM comes to read can be read: the GCM body has an equal sign, and
-- the tokens of the two JSON bodies are strings where they are there at all.
def Convertible (http : Http) (params : FcmParams) : Prop :=
  params.incomplete ∨ (checkIn http 0 0).androidId = 0 ∨ (checkIn http 0 0).securityToken = 0 ∨
    GcmConvertible http params (checkIn http 0 0)

structure FcmRegisterData.Complete (data : FcmRegisterData) : Prop where
  id : data.acg.id ≠ []
  securityToken : data.acg.securityToken ≠ []
  authSecret : data.ece.authSecret ≠ []
  privateKey : data.ece.privateKey ≠ []
  token : data.token ≠ []

theorem gcm_exchange (http : Http) (appId : Bytes) (androidId securityToken : UInt64) :
    doGCMRegister http appId androidId securityToken =
      match http.post (gcmRequest appId androidId securityToken) with
      | none => .ok []
      | some response => if equalSign ∈ response then .ok (secondField response) else .error .outOfRange := by
  rw [doGCMRegister]
  dsimp only [gcmRequest]
  cases http.post _ with
  | none => rfl
  | some response =>
      dsimp only
      by_cases field : equalSign ∈ response
      · have second : (split response 61)[1]? = some (secondField response) := second_field response field
        rw [second, if_pos field]
      · have absent : (split response 61)[1]? = none := split_second_none response equalSign field
        rw [absent, if_neg field]

theorem member_contains (json : Json) (key : Bytes) : json.contains key = (json.member key).isSome := by
  cases json <;> rfl

theorem member_index (json : Json) (key : Bytes) (value : Json) (found : json.member key = some value) :
    json.index key = .ok value := by
  cases json with
  | object members => exact congrArg (fun held => Except.ok (Option.getD held Json.null)) found
  | _ => cases found

theorem registration_exchange (http : Http) (params : FcmParams) (installationToken gcmToken : Bytes) :
    postFcmRegistrations http params.firebase.projectId params.firebase.apiKey params.vapidKey params.keys.base64AuthSecret
        installationToken params.keys.base64PublicKey gcmToken =
      answerToken registrationMember ((http.post (registrationsRequest params installationToken gcmToken)).bind http.parseJson) := by
  rw [postFcmRegistrations]
  dsimp only [registrationsRequest]
  cases http.post _ with
  | none => rfl
  | some response =>
      rw [Option.bind_some]
      dsimp only
      cases http.parseJson response with
      | none => rfl
      | some json =>
          dsimp only
          rw [member_contains, answerToken, registrationMember]
          cases found : json.member (ascii "token") with
          | none => rfl
          | some value =>
              rw [member_index json _ value found]
              rfl

theorem installation_exchange (http : Http) (firebase : Firebase) :
    postInstallations http firebase.appId firebase.projectId firebase.apiKey =
      answerToken installationMember ((http.post (installationsRequest http firebase)).bind http.parseJson) := by
  rw [postInstallations]
  dsimp only [installationsRequest]
  cases http.post _ with
  | none => rfl
  | some response =>
      rw [Option.bind_some]
      dsimp only
      cases http.parseJson response with
      | none => rfl
      | some json =>
          dsimp only
          rw [member_contains, answerToken, installationMember]
          cases found : json.member (ascii "authToken") with
          | none => rfl
          | some authToken =>
              rw [member_index json _ authToken found, Option.bind_some]
              simp only [Option.isSome_some, if_true]
              change (if authToken.contains (ascii "token") = true then _ else _) = _
              rw [member_contains]
              cases inner : authToken.member (ascii "token") with
              | none => rfl
              | some value =>
                  rw [member_index authToken _ value inner]
                  rfl

-- A stage that reads the token of an answer and goes on when there is one.
theorem answer_stage (member : Json → Option Json) (answer : Option Json) (later : Bytes → Prop) :
    (∃ token, answerToken member answer = .ok token ∧ (token ≠ [] → later token)) ↔
      ∀ json, answer = some json → ∀ value, member json = some value →
        value.IsString ∧ ∀ token, value.toStdString = .ok token → token ≠ [] → later token := by
  cases answer with
  | none => simp [answerToken]
  | some json =>
      cases found : member json with
      | none => simp [answerToken, tokenOf, found]
      | some value => cases value <;> simp [answerToken, tokenOf, found, Json.toStdString, Json.IsString]

theorem answer_returns (member : Json → Option Json) (answer : Option Json) :
    (∃ token, answerToken member answer = .ok token) ↔
      ∀ json, answer = some json → ∀ value, member json = some value → value.IsString := by
  simpa using answer_stage member answer fun _ => True

-- A stage of RegisterToFCM stops with the empty data when its token is empty.
theorem stage_returns (result : Except Exception Bytes) (next : Bytes → Except Exception FcmRegisterData) :
    (∃ data, (result >>= fun token => if token = [] then pure .empty else next token) = .ok data) ↔
      ∃ token, result = .ok token ∧ (token ≠ [] → ∃ data, next token = .ok data) := by
  constructor
  · rintro ⟨data, returned⟩
    obtain ⟨token, exchanged, returned⟩ := bind_ok _ _ _ returned
    refine ⟨token, exchanged, fun nonempty => ⟨data, ?_⟩⟩
    rwa [if_neg nonempty] at returned
  · rintro ⟨token, rfl, later⟩
    by_cases empty : token = []
    · exact ⟨.empty, if_pos empty⟩
    · obtain ⟨data, returned⟩ := later empty
      exact ⟨data, (if_neg empty).trans returned⟩

theorem register_returns_iff (http : Http) (params : FcmParams) :
    (∃ data, registerToFCM http params = .ok data) ↔ Convertible http params := by
  rw [registerToFCM, Convertible]
  by_cases incomplete : params.incomplete
  · rw [if_pos incomplete]
    exact iff_of_true ⟨.empty, rfl⟩ (.inl incomplete)
  · rw [if_neg incomplete, or_iff_right incomplete, ← or_assoc]
    dsimp only
    by_cases refused : (checkIn http 0 0).androidId = 0 ∨ (checkIn http 0 0).securityToken = 0
    · rw [if_pos refused]
      exact iff_of_true ⟨.empty, rfl⟩ (.inl refused)
    · rw [if_neg refused, or_iff_right refused, stage_returns, gcm_exchange, GcmConvertible]
      have stored : ∀ data : FcmRegisterData, ∃ kept, (pure data : Except Exception FcmRegisterData) = .ok kept :=
        fun data => ⟨data, rfl⟩
      simp only [stage_returns, installation_exchange, registration_exchange, stored, implies_true, and_true, answer_returns,
        answer_stage]
      cases http.post (gcmRequest _ _ _) with
      | none => simp
      | some response =>
          dsimp only
          by_cases field : equalSign ∈ response
          · simp only [field, if_true, Except.ok.injEq, exists_eq_left', Option.some.injEq, forall_eq', true_and,
              InstallationConvertible, RegistrationConvertible]
          · simp [field]

theorem registered_complete (http : Http) (params : FcmParams) (data : FcmRegisterData)
    (registered : Registered http params data) : data.Complete := by
  have present := registered.complete
  simp only [FcmParams.incomplete, not_or] at present
  constructor
  · rw [registered.acg]
    exact decimal_nonempty _
  · rw [registered.acg]
    exact decimal_nonempty _
  · rw [registered.ece]
    exact present.1
  · rw [registered.ece]
    exact present.2.2.1
  · exact registered.token

theorem register_all_or_nothing_iff (http : Http) (params : FcmParams) :
    (∃ data, registerToFCM http params = .ok data ∧
        (data = .empty ∨ (data.Complete ∧ Registered http params data))) ↔ Convertible http params := by
  rw [← register_returns_iff]
  constructor
  · rintro ⟨data, returned, _⟩
    exact ⟨data, returned⟩
  · rintro ⟨data, returned⟩
    refine ⟨data, returned, ?_⟩
    rcases register_cases http params data returned with empty | registered
    · exact .inl empty
    · exact .inr ⟨registered_complete http params data registered, registered⟩

-- The GCM server answers with a page that has no equal sign in it.
def brokenGcm : Http :=
  { sampleHttp with
    post := fun request =>
      if request.url = ascii "https://android.clients.google.com/c2dm/register3" then some (ascii "Service Unavailable")
      else sampleHttp.post request }

theorem broken_gcm_throws :
    registerToFCM brokenGcm sampleParams = .error .outOfRange ∧
      ¬ ∃ data, registerToFCM brokenGcm sampleParams = .ok data ∧
        (data = .empty ∨ (data.Complete ∧ Registered brokenGcm sampleParams data)) := by
  have threw : registerToFCM brokenGcm sampleParams = .error .outOfRange := by decide +kernel
  refine ⟨threw, ?_⟩
  rintro ⟨data, returned, _⟩
  rw [threw] at returned
  cases returned

end PushReceiver
