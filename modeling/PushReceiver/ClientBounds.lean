import PushReceiver.AesgcmRefinement

set_option autoImplicit false

namespace PushReceiver

variable {Scalar Point : Type}

-- The record size the client decrypts with, and the tag that ece_aesgcm_rs adds to it.
theorem client_rs : eceAesgcmRs rsLength = 4112 := by decide

theorem client_stays (length : Nat) :
    aesgcmPadding.StaysInside 4112 length ↔
      length ≤ 4112 ∨ length % 4112 = 0 ∨ 16 ≤ length % 4112 + (length / 4112 - 1) * 2 := by
  have sizes : aesgcmPadding.overhead = 18 ∧ aesgcmPadding.padSize = 2 ∧ eceTagLength = 16 ∧ intMax = 2147483647 := by decide
  obtain ⟨overhead, padSize, tagLength, intMax⟩ := sizes
  rw [Padding.StaysInside, overhead, padSize, tagLength, intMax]
  omega

theorem client_call (env : Environment) (stanza : DataMessageStanza) (call : DecryptCall)
    (passed : passedToDecrypt env stanza = some call) :
    call.rs = rsLength ∧ call.ciphertext = stanza.rawData ∧
      call.plaintextLen = eceAesgcmPlaintextMaxLength rsLength stanza.rawData.length ∧ call.plaintextLen ≠ 0 := by
  rw [passedToDecrypt] at passed
  split at passed
  · rw [decryptCall] at passed
    split at passed
    · cases passed
    · split at passed
      · cases passed
      · rename_i room
        rw [← Option.some.inj passed]
        exact ⟨rfl, rfl, rfl, room⟩
  · cases passed

-- What ece_webpush_decrypt does before the records does not depend on the buffer.
theorem webpush_reaches (scheme : Scheme Scalar Point) (ssl : OpenSsl Scalar Point) (rs : Nat)
    (rawRecvPrivKey authSecret salt rawSenderPubKey ciphertext : Bytes) :
    (∃ error, ∀ buffer, scheme.webpushDecrypt ssl rs rawRecvPrivKey authSecret salt rawSenderPubKey ciphertext buffer =
        .error (.code error)) ∨
      ∃ key nonce, ∀ buffer, scheme.webpushDecrypt ssl rs rawRecvPrivKey authSecret salt rawSenderPubKey ciphertext buffer =
        scheme.decryptInto ssl key nonce rs ciphertext buffer := by
  simp only [Scheme.webpushDecrypt]
  split
  · exact .inl ⟨_, fun _ => rfl⟩
  · split
    · exact .inl ⟨_, fun _ => rfl⟩
    · split
      · exact .inl ⟨_, fun _ => rfl⟩
      · split
        · exact .inl ⟨_, fun _ => rfl⟩
        · cases eceImportPrivateKey ssl rawRecvPrivKey with
          | none => exact .inl ⟨_, fun _ => rfl⟩
          | some recvPrivKey =>
              cases eceImportPublicKey ssl rawSenderPubKey with
              | none => exact .inl ⟨_, fun _ => rfl⟩
              | some senderPubKey =>
                  dsimp only
                  cases scheme.deriveKeyAndNonce ssl .decrypt recvPrivKey senderPubKey authSecret salt with
                  | error error => exact .inl ⟨error, fun _ => rfl⟩
                  | ok keyAndNonce => exact .inr ⟨keyAndNonce.1, keyAndNonce.2, fun _ => rfl⟩

theorem client_reaches (ssl : OpenSsl Scalar Point) (env : Environment) (stanza : DataMessageStanza) (call : DecryptCall)
    (passed : passedToDecrypt env stanza = some call) :
    (∃ error, ∀ buffer, eceWebpushAesgcmDecryptInto ssl call buffer = .error (.code error)) ∨
      ∃ key nonce, ∀ buffer, eceWebpushAesgcmDecryptInto ssl call buffer =
        aesgcmPadding.decryptInto ssl key nonce 4112 stanza.rawData buffer := by
  obtain ⟨rs, ciphertext, _, _⟩ := client_call env stanza call passed
  have into : ∀ buffer, eceWebpushAesgcmDecryptInto ssl call buffer =
      (aesgcmScheme Scalar Point).webpushDecrypt ssl 4112 call.rawRecvPrivKey call.authSecret call.salt call.rawSenderPubKey
        stanza.rawData buffer := by
    intro buffer
    rw [eceWebpushAesgcmDecryptInto, rs, client_rs, ciphertext]
    exact if_neg (by decide)
  simp only [into]
  exact webpush_reaches (aesgcmScheme Scalar Point) ssl 4112 call.rawRecvPrivKey call.authSecret call.salt call.rawSenderPubKey
    stanza.rawData

theorem client_query (length : Nat) :
    eceAesgcmPlaintextMaxLength rsLength length = ecePlaintextMaxLength 4112 aesgcmPadding.padSize length := by
  rw [eceAesgcmPlaintextMaxLength, client_rs]
  exact if_neg (by decide)

-- A stanza that carries zeros for everything, and a receiver whose secrets are zeros.
def zeroAppData : List AppData :=
  [⟨ascii "encryption", ascii "salt=" ++ eceBase64urlEncode (List.replicate 16 0)⟩,
    ⟨ascii "crypto-key", ascii "dh=" ++ eceBase64urlEncode (List.replicate 65 0)⟩]

def zeroStanza (length : Nat) : DataMessageStanza where
  appData := zeroAppData
  persistentId := []
  rawData := List.replicate length 0

def zeroEnvironment : Environment where
  parseLoginResponse _ := none
  parseDataMessageStanza _ := none
  parseHeartbeatAck _ := none
  rawSubPrivKey := List.replicate 32 0
  authSecret := List.replicate 16 0
  decrypt _ := (eceOk, [])

def zeroCall (length : Nat) : DecryptCall where
  rawRecvPrivKey := List.replicate 32 0
  authSecret := List.replicate 16 0
  salt := List.replicate 16 0
  rawSenderPubKey := List.replicate 65 0
  rs := rsLength
  ciphertext := List.replicate length 0
  plaintextLen := eceAesgcmPlaintextMaxLength rsLength length

theorem zero_passed (length : Nat) (room : eceAesgcmPlaintextMaxLength rsLength length ≠ 0) :
    passedToDecrypt zeroEnvironment (zeroStanza length) = some (zeroCall length) := by
  have carried : zeroAppData.filter isHeaderEntry = zeroAppData := by decide +kernel
  have scanned : scanAppData (zeroStanza length).appData [] [] = .accepts (List.replicate 16 0) (List.replicate 65 0) :=
    headers_scanned zeroAppData _ _ (by decide) (by decide) (by rw [carried]; exact .refl _)
  have length_ : (zeroStanza length).rawData.length = length := List.length_replicate
  rw [passed_of_scan zeroEnvironment (zeroStanza length) _ _ scanned (by decide) (by decide) (by rwa [length_]), length_]
  rfl

-- Under the bare cipher every call with secrets of their lengths gets to the records.
theorem bare_reaches (call : DecryptCall) (rs : call.rs = rsLength)
    (authLength : call.authSecret.length = eceWebpushAuthSecretLength) (saltLength : call.salt.length = eceSaltLength)
    (inside : call.ciphertext.length % 4112 ≠ 0) :
    ∃ key nonce, ∀ buffer, eceWebpushAesgcmDecryptInto aesgcmPadding.bareSsl call buffer =
      aesgcmPadding.decryptInto aesgcmPadding.bareSsl key nonce 4112 call.ciphertext buffer := by
  have nonempty : ¬ call.ciphertext.length = 0 := fun empty => inside (by rw [empty])
  have noTrailer : ¬ (aesgcmScheme Unit Unit).needsTrailer 4112 call.ciphertext.length = true := by
    rw [(aesgcmScheme Unit Unit).trailer_inside 4112 _ inside]
    exact Bool.false_ne_true
  refine ⟨List.replicate 16 0, List.replicate 12 0, fun buffer => ?_⟩
  rw [eceWebpushAesgcmDecryptInto, rs, client_rs, if_neg (by decide), Scheme.webpushDecrypt, if_neg (not_not.mpr authLength),
    if_neg (not_not.mpr saltLength), if_neg nonempty, if_neg noTrailer]
  rfl

theorem bare_call_overruns (env : Environment) (stanza : DataMessageStanza) (call : DecryptCall)
    (passed : passedToDecrypt env stanza = some call) (authLength : call.authSecret.length = eceWebpushAuthSecretLength)
    (saltLength : call.salt.length = eceSaltLength) (leaves : ¬ aesgcmPadding.StaysInside 4112 stanza.rawData.length) :
    eceWebpushAesgcmDecryptInto aesgcmPadding.bareSsl call (List.replicate call.plaintextLen 0) = .error .overrun := by
  obtain ⟨rs, ciphertext, plaintextLen, _⟩ := client_call env stanza call passed
  obtain ⟨key, nonce, reached⟩ := bare_reaches call rs authLength saltLength
    fun boundary => leaves (.inr (.inr (.inr (.inl (by rwa [ciphertext] at boundary)))))
  rw [reached, ciphertext]
  exact bare_overruns aesgcmPadding 4112 stanza.rawData.length key nonce _ _ leaves rfl
    (by rw [List.length_replicate, plaintextLen, client_query])

theorem call_inside (ssl : OpenSsl Scalar Point) (streaming : ssl.Streaming) (env : Environment) (stanza : DataMessageStanza)
    (call : DecryptCall) (passed : passedToDecrypt env stanza = some call)
    (stays : aesgcmPadding.StaysInside 4112 stanza.rawData.length) :
    eceWebpushAesgcmDecryptInto ssl call (List.replicate call.plaintextLen 0) ≠ .error .overrun := by
  rcases client_reaches ssl env stanza call passed with ⟨error, failed⟩ | ⟨key, nonce, reached⟩
  · rw [failed]
    exact fun overrun => by cases overrun
  · rw [reached]
    exact decrypt_into_inside aesgcmPadding ssl streaming key nonce 4112 stanza.rawData _ stays

-- The client's own call stays inside its buffer, whatever the cipher makes of the message,
-- exactly when the message has one of these lengths.
theorem client_stays_inside_iff (length : Nat) :
    (∀ (Scalar Point : Type) (ssl : OpenSsl Scalar Point), ssl.Streaming → ∀ env stanza call,
      passedToDecrypt env stanza = some call → stanza.rawData.length = length →
      eceWebpushAesgcmDecryptInto ssl call (List.replicate call.plaintextLen 0) ≠ .error .overrun) ↔
      length ≤ 4112 ∨ length % 4112 = 0 ∨ 16 ≤ length % 4112 + (length / 4112 - 1) * 2 := by
  rw [← client_stays]
  constructor
  · intro always
    by_contra leaves
    have passed := zero_passed length (by rw [client_query]; exact query_positive aesgcmPadding 4112 length leaves)
    have length_ : (zeroStanza length).rawData.length = length := List.length_replicate
    exact always Unit Unit aesgcmPadding.bareSsl (bare_streaming aesgcmPadding) zeroEnvironment (zeroStanza length)
      (zeroCall length) passed length_ (bare_call_overruns zeroEnvironment (zeroStanza length) (zeroCall length) passed
        List.length_replicate List.length_replicate (by rwa [length_]))
  · intro stays Scalar Point ssl streaming env stanza call passed length_
    exact call_inside ssl streaming env stanza call passed (by rwa [length_])

-- On the first lengths behind a full record the first block itself does not fit, so the client
-- writes behind its buffer before anything of the message is authenticated.
theorem client_overruns (ssl : OpenSsl Scalar Point) (env : Environment) (stanza : DataMessageStanza) (call : DecryptCall)
    (passed : passedToDecrypt env stanza = some call) (longer : 4112 < stanza.rawData.length)
    (shorter : stanza.rawData.length < 4128) :
    eceWebpushAesgcmDecryptInto ssl call (List.replicate call.plaintextLen 0) = .error .overrun ∨
      ∃ error, ∀ buffer, eceWebpushAesgcmDecryptInto ssl call buffer = .error (.code error) := by
  rcases client_reaches ssl env stanza call passed with failed | ⟨key, nonce, reached⟩
  · exact .inr failed
  · obtain ⟨_, _, plaintextLen, _⟩ := client_call env stanza call passed
    have max := plaintext_max_length aesgcmPadding 4112 1 (stanza.rawData.length - 4112) (by decide) (by omega)
    have whole : 1 * 4112 + (stanza.rawData.length - 4112) = stanza.rawData.length := by omega
    rw [if_neg (by omega), whole] at max
    have tagLength : eceTagLength = 16 := rfl
    obtain ⟨fuel, turns⟩ : ∃ fuel, stanza.rawData.length = fuel + 1 := ⟨stanza.rawData.length - 1, by omega⟩
    have record : (stanza.rawData.take 4112).length = 4112 := List.length_take_of_le (by omega)
    have room : ¬ ecePlaintextMaxLength 4112 aesgcmPadding.padSize stanza.rawData.length = 0 := by omega
    rw [turns] at max
    refine .inl ?_
    rw [reached, plaintextLen, client_query, Padding.decryptInto, List.length_replicate, if_neg room,
      if_neg (Nat.lt_irrefl _), turns, Padding.decryptRecords, if_neg (by omega),
      decrypt_record_outside aesgcmPadding ssl key nonce _ 0 (stanza.rawData.take 4112) 0 _ (by rw [record]; decide)
        (by rw [record]; decide) (by rw [List.length_replicate, record]; omega)]

theorem client_overruns_zero :
    eceWebpushAesgcmDecryptInto aesgcmPadding.bareSsl (zeroCall 4113) (List.replicate (zeroCall 4113).plaintextLen 0) =
        .error .overrun ∨
      ∃ error, ∀ buffer, eceWebpushAesgcmDecryptInto aesgcmPadding.bareSsl (zeroCall 4113) buffer = .error (.code error) :=
  client_overruns aesgcmPadding.bareSsl zeroEnvironment (zeroStanza 4113) (zeroCall 4113) (zero_passed 4113 (by decide))
    (by rw [zeroStanza, List.length_replicate]; decide) (by rw [zeroStanza, List.length_replicate]; decide)

end PushReceiver
