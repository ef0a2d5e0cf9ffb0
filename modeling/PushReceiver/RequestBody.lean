import PushReceiver.Library.JsonText
import PushReceiver.RegisterOutcome

set_option autoImplicit false

namespace PushReceiver

open JsonText (Plain)

def installationsValue (appId fid : Bytes) : JsonText.Value :=
  .object
    [(ascii "appId", .string appId), (ascii "authVersion", .string (ascii "FIS_v2")),
      (ascii "sdkVersion", .string (ascii "w:0.6.4")), (ascii "fid", .string fid)]

def registrationsValue (vapidKey authSecret gcmToken publicKey : Bytes) : JsonText.Value :=
  .object
    [(ascii "web", .object
      [(ascii "applicationPubKey", .string vapidKey), (ascii "auth", .string authSecret),
        (ascii "endpoint", .string (ascii "https://fcm.googleapis.com/fcm/send/" ++ gcmToken)), (ascii "p256dh", .string publicKey)])]

-- The bodies are the JSON texts that were meant, and no other parameters give them.
structure CarriesFields (http : Http) (params : FcmParams) (installationToken gcmToken : Bytes) : Prop where
  installations : JsonText.parse (installationsRequest http params.firebase).postData =
    some (installationsValue params.firebase.appId (generateFirebaseFID http.random))
  registrations : JsonText.parse (registrationsRequest params installationToken gcmToken).postData =
    some (registrationsValue params.vapidKey params.keys.base64AuthSecret gcmToken params.keys.base64PublicKey)
  installationsOnly : ∀ (other : Http) (firebase : Firebase),
    (installationsRequest other firebase).postData = (installationsRequest http params.firebase).postData →
      firebase.appId = params.firebase.appId
  registrationsOnly : ∀ (other : FcmParams) (otherInstallation otherGcm : Bytes),
    (registrationsRequest other otherInstallation otherGcm).postData = (registrationsRequest params installationToken gcmToken).postData →
      other.vapidKey = params.vapidKey ∧ other.keys.base64AuthSecret = params.keys.base64AuthSecret ∧ otherGcm = gcmToken ∧
        other.keys.base64PublicKey = params.keys.base64PublicKey

structure PlainFields (params : FcmParams) (gcmToken : Bytes) : Prop where
  appId : Plain params.firebase.appId
  vapidKey : Plain params.vapidKey
  authSecret : Plain params.keys.base64AuthSecret
  publicKey : Plain params.keys.base64PublicKey
  gcmToken : Plain gcmToken

theorem base64_plain (group : Nat) (bound : group < 64) :
    JsonText.Unescaped (base64Char true group) ∧ base64Char true group < 0x80 := by
  have table : ∀ group : Fin 64, JsonText.Unescaped (base64Char true group.val) ∧ base64Char true group.val < 0x80 := by
    decide +kernel
  exact table ⟨group, bound⟩

theorem fid_plain (random : Bytes) : Plain (generateFirebaseFID random) := by
  unfold generateFirebaseFID
  dsimp only
  rw [base64_encode_refines, replace_all_append, replace_all_repeated, List.append_nil, replace_all_absent _ _ _ (encode_plain true _).1]
  apply JsonText.plain_ascii
  intro byte member
  obtain ⟨group, bound, rfl⟩ := Radix64.encode_symbols (base64Alphabet true) _ byte member
  exact base64_plain group bound

theorem installations_body (http : Http) (firebase : Firebase) :
    (installationsRequest http firebase).postData =
      ascii "\x7b\"appId\":\"" ++ (firebase.appId ++ 34 ::
        (ascii ",\"authVersion\":\"FIS_v2\",\"sdkVersion\":\"w:0.6.4\",\"fid\":\"" ++ (generateFirebaseFID http.random ++ 34 ::
          ascii "\x7d"))) := by
  simp only [installationsRequest, List.append_assoc]
  rfl

theorem registrations_body (params : FcmParams) (installationToken gcmToken : Bytes) :
    (registrationsRequest params installationToken gcmToken).postData =
      ascii "\x7b\"web\":\x7b\"applicationPubKey\":\"" ++ (params.vapidKey ++ 34 ::
        (ascii ",\"auth\":\"" ++ (params.keys.base64AuthSecret ++ 34 ::
          (ascii ",\"endpoint\":\"https://fcm.googleapis.com/fcm/send/" ++ (gcmToken ++ 34 ::
            (ascii ",\"p256dh\":\"" ++ (params.keys.base64PublicKey ++ 34 :: ascii "\x7d\x7d"))))))) := by
  simp only [registrationsRequest, List.append_assoc]
  rfl

theorem installations_length (http : Http) (firebase : Firebase) :
    JsonText.cost (installationsValue firebase.appId (generateFirebaseFID http.random)) =
      (installationsRequest http firebase).postData.length := by
  rw [installations_body]
  simp [installationsValue, JsonText.cost, JsonText.membersCost, ascii]
  omega

theorem registrations_length (params : FcmParams) (installationToken gcmToken : Bytes) :
    JsonText.cost (registrationsValue params.vapidKey params.keys.base64AuthSecret gcmToken params.keys.base64PublicKey) =
      (registrationsRequest params installationToken gcmToken).postData.length := by
  rw [registrations_body]
  simp [registrationsValue, JsonText.cost, JsonText.membersCost, ascii]
  omega

theorem installations_parsed (http : Http) (firebase : Firebase) (plain : Plain firebase.appId) :
    JsonText.parse (installationsRequest http firebase).postData =
      some (installationsValue firebase.appId (generateFirebaseFID http.random)) := by
  have opened : JsonText.scanRun .ground (ascii "\x7b\"appId\":\"") =
      some ([.beginObject, .string (ascii "appId"), .nameSeparator], .string [] .complete) := by decide +kernel
  have middle : JsonText.scanRun .ground (ascii ",\"authVersion\":\"FIS_v2\",\"sdkVersion\":\"w:0.6.4\",\"fid\":\"") =
      some ([.valueSeparator, .string (ascii "authVersion"), .nameSeparator, .string (ascii "FIS_v2"), .valueSeparator,
        .string (ascii "sdkVersion"), .nameSeparator, .string (ascii "w:0.6.4"), .valueSeparator, .string (ascii "fid"), .nameSeparator],
        .string [] .complete) := by decide +kernel
  have closed : JsonText.scanRun .ground (ascii "\x7d") = some ([.endObject], .ground) := by decide +kernel
  rw [installations_body, JsonText.parse, JsonText.tokenize, JsonText.scan_run_append, opened]
  dsimp only
  rw [JsonText.scan_field [] _ _ _ _ _ plain middle, JsonText.scan_string _ [] _ (fid_plain http.random), closed]
  rfl

theorem registrations_parsed (params : FcmParams) (installationToken gcmToken : Bytes) (vapidKey : Plain params.vapidKey)
    (authSecret : Plain params.keys.base64AuthSecret) (publicKey : Plain params.keys.base64PublicKey) (token : Plain gcmToken) :
    JsonText.parse (registrationsRequest params installationToken gcmToken).postData =
      some (registrationsValue params.vapidKey params.keys.base64AuthSecret gcmToken params.keys.base64PublicKey) := by
  have opened : JsonText.scanRun .ground (ascii "\x7b\"web\":\x7b\"applicationPubKey\":\"") =
      some ([.beginObject, .string (ascii "web"), .nameSeparator, .beginObject, .string (ascii "applicationPubKey"), .nameSeparator],
        .string [] .complete) := by decide +kernel
  have auth : JsonText.scanRun .ground (ascii ",\"auth\":\"") =
      some ([.valueSeparator, .string (ascii "auth"), .nameSeparator], .string [] .complete) := by decide +kernel
  have endpoint : JsonText.scanRun .ground (ascii ",\"endpoint\":\"https://fcm.googleapis.com/fcm/send/") =
      some ([.valueSeparator, .string (ascii "endpoint"), .nameSeparator],
        .string (ascii "https://fcm.googleapis.com/fcm/send/") .complete) := by decide +kernel
  have p256dh : JsonText.scanRun .ground (ascii ",\"p256dh\":\"") =
      some ([.valueSeparator, .string (ascii "p256dh"), .nameSeparator], .string [] .complete) := by decide +kernel
  have closed : JsonText.scanRun .ground (ascii "\x7d\x7d") = some ([.endObject, .endObject], .ground) := by decide +kernel
  rw [registrations_body, JsonText.parse, JsonText.tokenize, JsonText.scan_run_append, opened]
  dsimp only
  rw [JsonText.scan_field [] _ _ _ _ _ vapidKey auth, JsonText.scan_field [] _ _ _ _ _ authSecret endpoint,
    JsonText.scan_field _ _ _ _ _ _ token p256dh, JsonText.scan_string _ [] _ publicKey, closed]
  rfl

-- Every string of a body that parses to what was meant stands in it as it is: the body has no byte to spare.
theorem installations_plain (http : Http) (firebase : Firebase)
    (parsed : JsonText.parse (installationsRequest http firebase).postData =
      some (installationsValue firebase.appId (generateFirebaseFID http.random))) : Plain firebase.appId := by
  have exact := (JsonText.parsed_accounts _ _ parsed).2 (installations_length http firebase)
  exact exact firebase.appId (by simp [installationsValue, JsonText.strings, JsonText.membersStrings])

theorem registrations_plain (params : FcmParams) (installationToken gcmToken : Bytes)
    (parsed : JsonText.parse (registrationsRequest params installationToken gcmToken).postData =
      some (registrationsValue params.vapidKey params.keys.base64AuthSecret gcmToken params.keys.base64PublicKey)) :
    Plain params.vapidKey ∧ Plain params.keys.base64AuthSecret ∧ Plain gcmToken ∧ Plain params.keys.base64PublicKey := by
  have exact := (JsonText.parsed_accounts _ _ parsed).2 (registrations_length params installationToken gcmToken)
  have endpoint := exact (ascii "https://fcm.googleapis.com/fcm/send/" ++ gcmToken)
    (by simp [registrationsValue, JsonText.strings, JsonText.membersStrings])
  refine ⟨exact _ ?_, exact _ ?_, JsonText.plain_suffix _ _ (by decide +kernel) endpoint, exact _ ?_⟩
  · simp [registrationsValue, JsonText.strings, JsonText.membersStrings]
  · simp [registrationsValue, JsonText.strings, JsonText.membersStrings]
  · simp [registrationsValue, JsonText.strings, JsonText.membersStrings]

theorem plain_unquoted (text : Bytes) (plain : Plain text) : (34 : UInt8) ∉ text := by
  intro member
  exact (plain.unescaped 34 member).1 rfl

theorem field_unique (first second rest other : Bytes) (plain : (34 : UInt8) ∉ first) (alsoPlain : (34 : UInt8) ∉ second)
    (same : first ++ 34 :: rest = second ++ 34 :: other) : first = second ∧ rest = other := by
  induction first generalizing second with
  | nil =>
      cases second with
      | nil => exact ⟨rfl, List.tail_eq_of_cons_eq same⟩
      | cons byte more => exact absurd (List.head_eq_of_cons_eq same ▸ List.mem_cons_self) alsoPlain
  | cons byte more ih =>
      cases second with
      | nil => exact absurd (List.head_eq_of_cons_eq same ▸ List.mem_cons_self) plain
      | cons first others =>
          obtain ⟨rest, behind⟩ := ih others (List.not_mem_of_not_mem_cons plain) (List.not_mem_of_not_mem_cons alsoPlain)
            (List.tail_eq_of_cons_eq same)
          exact ⟨by rw [List.head_eq_of_cons_eq same, rest], behind⟩

-- The quotation marks of two equal bodies are as many, so the other parameters have none either.
theorem installations_unique (http other : Http) (firebase otherFirebase : Firebase) (plain : Plain firebase.appId)
    (same : (installationsRequest other otherFirebase).postData = (installationsRequest http firebase).postData) :
    otherFirebase.appId = firebase.appId := by
  rw [installations_body, installations_body] at same
  have unquoted := plain_unquoted _ plain
  have fid := plain_unquoted _ (fid_plain http.random)
  have otherFid := plain_unquoted _ (fid_plain other.random)
  have marks := congrArg (List.count 34) same
  simp only [List.count_append, List.count_cons_self, List.count_eq_zero_of_not_mem unquoted, List.count_eq_zero_of_not_mem fid,
    List.count_eq_zero_of_not_mem otherFid] at marks
  have otherUnquoted : (34 : UInt8) ∉ otherFirebase.appId := List.count_eq_zero.mp (by omega)
  exact (field_unique _ _ _ _ otherUnquoted unquoted (List.append_cancel_left same)).1

theorem registrations_unique (params other : FcmParams) (installationToken gcmToken otherInstallation otherGcm : Bytes)
    (vapidKey : Plain params.vapidKey) (authSecret : Plain params.keys.base64AuthSecret)
    (publicKey : Plain params.keys.base64PublicKey) (token : Plain gcmToken)
    (same : (registrationsRequest other otherInstallation otherGcm).postData =
      (registrationsRequest params installationToken gcmToken).postData) :
    other.vapidKey = params.vapidKey ∧ other.keys.base64AuthSecret = params.keys.base64AuthSecret ∧ otherGcm = gcmToken ∧
      other.keys.base64PublicKey = params.keys.base64PublicKey := by
  rw [registrations_body, registrations_body] at same
  have vapidMarks := plain_unquoted _ vapidKey
  have authMarks := plain_unquoted _ authSecret
  have tokenMarks := plain_unquoted _ token
  have publicMarks := plain_unquoted _ publicKey
  have marks := congrArg (List.count 34) same
  simp only [List.count_append, List.count_cons_self, List.count_eq_zero_of_not_mem vapidMarks, List.count_eq_zero_of_not_mem authMarks,
    List.count_eq_zero_of_not_mem tokenMarks, List.count_eq_zero_of_not_mem publicMarks] at marks
  have otherVapid : (34 : UInt8) ∉ other.vapidKey := List.count_eq_zero.mp (by omega)
  have otherAuth : (34 : UInt8) ∉ other.keys.base64AuthSecret := List.count_eq_zero.mp (by omega)
  have otherToken : (34 : UInt8) ∉ otherGcm := List.count_eq_zero.mp (by omega)
  have otherPublic : (34 : UInt8) ∉ other.keys.base64PublicKey := List.count_eq_zero.mp (by omega)
  obtain ⟨isVapid, same⟩ := field_unique _ _ _ _ otherVapid vapidMarks (List.append_cancel_left same)
  obtain ⟨isAuth, same⟩ := field_unique _ _ _ _ otherAuth authMarks (List.append_cancel_left same)
  obtain ⟨isToken, same⟩ := field_unique _ _ _ _ otherToken tokenMarks (List.append_cancel_left same)
  obtain ⟨isPublic, _⟩ := field_unique _ _ _ _ otherPublic publicMarks (List.append_cancel_left same)
  exact ⟨isVapid, isAuth, isToken, isPublic⟩

theorem bodies_carry_fields_iff (http : Http) (params : FcmParams) (installationToken gcmToken : Bytes) :
    CarriesFields http params installationToken gcmToken ↔ PlainFields params gcmToken := by
  constructor
  · intro carries
    obtain ⟨vapidKey, authSecret, token, publicKey⟩ := registrations_plain params installationToken gcmToken carries.registrations
    exact ⟨installations_plain http params.firebase carries.installations, vapidKey, authSecret, publicKey, token⟩
  · rintro ⟨appId, vapidKey, authSecret, publicKey, token⟩
    refine ⟨installations_parsed http params.firebase appId,
      registrations_parsed params installationToken gcmToken vapidKey authSecret publicKey token, ?_, ?_⟩
    · intro other firebase same
      exact installations_unique http other params.firebase firebase appId same
    · intro other otherInstallation otherGcm same
      exact registrations_unique params other installationToken gcmToken otherInstallation otherGcm vapidKey authSecret publicKey token
        same

-- A quotation mark in the vapid key moves a member from one field to the next.
theorem quoted_field_moves :
    ¬ CarriesFields sampleHttp { sampleParams with vapidKey := ascii "a\",\"auth\":\"b" } [] (ascii "token") := by
  intro carries
  have moved := carries.registrationsOnly
    { sampleParams with
      vapidKey := ascii "a"
      keys := { sampleParams.keys with base64AuthSecret := ascii "b\",\"auth\":\"" ++ sampleParams.keys.base64AuthSecret } }
    [] (ascii "token") (by decide +kernel)
  exact absurd moved.1 (by decide +kernel)

end PushReceiver
