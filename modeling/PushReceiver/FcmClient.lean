import PushReceiver.Register
import PushReceiver.Stanza

set_option autoImplicit false

namespace PushReceiver

-- CFCMClient as its constructor leaves it: the members that are only read from then on, and the
-- part the receiver works on.
structure FcmClient where
  androidId : Bytes
  securityToken : Bytes
  rawSubPrivKey : Bytes
  authSecret : Bytes
  receiver : Client App
deriving DecidableEq, Repr

def constructClient (androidId securityToken base64PrivateKey base64AuthSecret : Bytes) (persistentIds : List Bytes) :
    Except Exception FcmClient := do
  let decodedPrivateKey ← base64Decode base64PrivateKey
  let decodedAuth ← base64Decode base64AuthSecret
  if decodedPrivateKey.length ≠ eceWebpushPrivateKeyLength ∨ decodedAuth.length ≠ eceWebpushAuthSecretLength then
    throw (.runtimeError "Invalid private key or auth secret")
  return { androidId, securityToken
           rawSubPrivKey := decodedPrivateKey
           authSecret := decodedAuth
           receiver := .fresh (.loaded persistentIds) }

-- The try block ConnectToServer starts with; none where it returns false.
def FcmClient.loginIds (client : FcmClient) : Option (Nat × Nat) :=
  match stoull client.androidId, stoull client.securityToken with
  | .ok androidId, .ok securityToken => some (androidId, securityToken)
  | _, _ => none

theorem construct_client (androidId securityToken base64PrivateKey base64AuthSecret : Bytes) (persistentIds : List Bytes)
    (privateKey authSecret : Bytes) (privDecoded : base64Decode base64PrivateKey = .ok privateKey)
    (authDecoded : base64Decode base64AuthSecret = .ok authSecret) (privLength : privateKey.length = eceWebpushPrivateKeyLength)
    (authLength : authSecret.length = eceWebpushAuthSecretLength) :
    constructClient androidId securityToken base64PrivateKey base64AuthSecret persistentIds =
      .ok ⟨androidId, securityToken, privateKey, authSecret, .fresh (.loaded persistentIds)⟩ := by
  have accepted : ¬ (privateKey.length ≠ eceWebpushPrivateKeyLength ∨ authSecret.length ≠ eceWebpushAuthSecretLength) := by
    simp [privLength, authLength]
  rw [constructClient, privDecoded, authDecoded]
  exact if_neg accepted

theorem login_ids (client : FcmClient) (androidId securityToken : UInt64) (id : client.androidId = decimal androidId.toNat)
    (token : client.securityToken = decimal securityToken.toNat) :
    client.loginIds = some (androidId.toNat, securityToken.toNat) := by
  rw [FcmClient.loginIds, id, token, stoull_decimal _ androidId.toNat_lt, stoull_decimal _ securityToken.toNat_lt]

end PushReceiver
