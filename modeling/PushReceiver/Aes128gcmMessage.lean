import PushReceiver.Aes128gcmPayload
import PushReceiver.DecryptRun

set_option autoImplicit false

namespace PushReceiver

variable {Scalar Point : Type}

-- EC_POINT_point2oct refuses an encoding longer than the space it is given.
def point2octInto (ssl : OpenSsl Scalar Point) (point : Point) (space : Nat) : Option Bytes :=
  (ssl.point2oct point).filter fun encoding => encoding.length ≤ space

def eceAes128gcmPayloadHeaderLength : Nat := eceAes128gcmHeaderLength + eceWebpushPublicKeyLength

-- ece_webpush_aes128gcm_encrypt_plaintext: the payload length, and the caller's buffer. The salt
-- is copied before its length is looked at.
def eceWebpushAes128gcmEncryptPlaintext (target : Target) (ssl : OpenSsl Scalar Point)
    (senderPrivKey recvPubKey : EcKey Scalar Point) (authSecret salt : Bytes) (rs padLen : Nat) (plaintext payload : Bytes) :
    Except Fault (Nat × Bytes) :=
  if payload.length < eceAes128gcmPayloadHeaderLength then .error (.code .outOfMemory)
  else if salt.length < eceSaltLength then .error .overrun
  else do
    let payload ← store payload 0 (salt.take eceSaltLength)
    let payload ← store payload eceSaltLength (writeUint32Be rs)
    let payload ← store payload (eceSaltLength + 4) [UInt8.ofNat eceWebpushPublicKeyLength]
    match point2octInto ssl senderPrivKey.pubKey eceWebpushPublicKeyLength with
    | none => .error (.code .encodePublicKey)
    | some rawSenderPubKey => do
        let payload ← store payload eceAes128gcmHeaderLength rawSenderPubKey
        let (ciphertextLen, ciphertext) ← (aes128gcmScheme Scalar Point).encryptPlaintext target ssl senderPrivKey recvPubKey
          authSecret salt rs padLen plaintext (payload.drop eceAes128gcmPayloadHeaderLength)
        return (eceAes128gcmPayloadHeaderLength + ciphertextLen, payload.take eceAes128gcmPayloadHeaderLength ++ ciphertext)

def eceWebpushAes128gcmEncryptWithKeys (target : Target) (ssl : OpenSsl Scalar Point) (rawSenderPrivKey authSecret salt
    rawRecvPubKey : Bytes) (rs padLen : Nat) (plaintext payload : Bytes) : Except Fault (Nat × Bytes) :=
  match eceImportPrivateKey ssl rawSenderPrivKey with
  | none => .error (.code .invalidPrivateKey)
  | some senderPrivKey =>
      match eceImportPublicKey ssl rawRecvPubKey with
      | none => .error (.code .invalidPublicKey)
      | some recvPubKey =>
          eceWebpushAes128gcmEncryptPlaintext target ssl senderPrivKey recvPubKey authSecret salt rs padLen plaintext payload

-- The functions of OpenSSL that hand out a random salt and a new key pair, none for a failure.
structure Entropy (Scalar Point : Type) where
  randBytes : Option Bytes
  generateKey : Option (EcKey Scalar Point)

def eceWebpushAes128gcmEncrypt (target : Target) (ssl : OpenSsl Scalar Point) (entropy : Entropy Scalar Point)
    (rawRecvPubKey authSecret : Bytes) (rs padLen : Nat) (plaintext payload : Bytes) : Except Fault (Nat × Bytes) :=
  match entropy.randBytes with
  | none => .error (.code .invalidSalt)
  | some salt =>
      match eceImportPublicKey ssl rawRecvPubKey with
      | none => .error (.code .invalidPublicKey)
      | some recvPubKey =>
          match entropy.generateKey with
          | none => .error (.code .invalidPrivateKey)
          | some senderPrivKey =>
              eceWebpushAes128gcmEncryptPlaintext target ssl senderPrivKey recvPubKey authSecret salt rs padLen plaintext payload

def eceAes128gcmPayloadMaxLength (target : Target) (rs padLen plaintextLen : Nat) : Nat :=
  let ciphertextLen := (aes128gcmScheme Unit Unit).ciphertextMaxLength target rs padLen plaintextLen
  if ciphertextLen = 0 then 0
  else
    let maxHeaderLen := eceAes128gcmHeaderLength + eceAes128gcmMaxKeyIdLength
    if target.sizeMaxValue - maxHeaderLen < ciphertextLen then 0 else maxHeaderLen + ciphertextLen

def eceAes128gcmPlaintextMaxLength (payload : Bytes) : Nat :=
  match eceAes128gcmPayloadExtractParams payload with
  | .error _ => 0
  | .ok params => ecePlaintextMaxLength params.rs eceAes128gcmPadSize params.ciphertext.length

-- ece_webpush_aes128gcm_decrypt: the plaintext length, and the caller's buffer.
def eceWebpushAes128gcmDecrypt (ssl : OpenSsl Scalar Point) (rawRecvPrivKey authSecret payload plaintext : Bytes) :
    Except PayloadFault (Nat × Bytes) :=
  match eceAes128gcmPayloadExtractParams payload with
  | .error fault => .error fault
  | .ok params =>
      ((aes128gcmScheme Scalar Point).webpushDecrypt ssl params.rs rawRecvPrivKey authSecret params.salt params.keyId
        params.ciphertext plaintext).mapError .fault

-- ece_aes128gcm_decrypt, for keying material that both ends have.
def eceAes128gcmDecrypt (ssl : OpenSsl Scalar Point) (ikm payload plaintext : Bytes) : Except PayloadFault (Nat × Bytes) :=
  match eceAes128gcmPayloadExtractParams payload with
  | .error fault => .error fault
  | .ok params =>
      match eceAes128gcmDeriveKeyAndNonce ssl params.salt ikm with
      | .error error => .error (.fault (.code error))
      | .ok (key, nonce) =>
          (aes128gcmPadding.decryptInto ssl key nonce params.rs params.ciphertext plaintext).mapError .fault

-- The header is stored in front of the ciphertext, or the sender's key cannot be encoded.
theorem encrypt_payload (target : Target) (ssl : OpenSsl Scalar Point) (senderPrivKey recvPubKey : EcKey Scalar Point)
    (authSecret salt : Bytes) (rs padLen : Nat) (plaintext payload : Bytes)
    (room : eceAes128gcmPayloadHeaderLength ≤ payload.length) (saltLength : eceSaltLength ≤ salt.length) :
    eceWebpushAes128gcmEncryptPlaintext target ssl senderPrivKey recvPubKey authSecret salt rs padLen plaintext payload =
        .error (.code .encodePublicKey) ∨
      ∃ rawSenderPubKey header space, ssl.point2oct senderPrivKey.pubKey = some rawSenderPubKey ∧
        rawSenderPubKey.length ≤ eceWebpushPublicKeyLength ∧ header.length = eceAes128gcmPayloadHeaderLength ∧
        space.length + eceAes128gcmPayloadHeaderLength = payload.length ∧
        (rawSenderPubKey.length = eceWebpushPublicKeyLength →
          header = payloadHeader (salt.take eceSaltLength) rs rawSenderPubKey) ∧
        eceWebpushAes128gcmEncryptPlaintext target ssl senderPrivKey recvPubKey authSecret salt rs padLen plaintext payload =
          ((aes128gcmScheme Scalar Point).encryptPlaintext target ssl senderPrivKey recvPubKey authSecret salt rs padLen plaintext
            space).map fun written => (eceAes128gcmPayloadHeaderLength + written.1, header ++ written.2) := by
  have lengths : eceAes128gcmPayloadHeaderLength = 86 ∧ eceSaltLength = 16 ∧ eceWebpushPublicKeyLength = 65 ∧
      eceAes128gcmHeaderLength = 21 := by decide
  obtain ⟨headerLength, saltSize, keySize, fixed⟩ := lengths
  have salted : (salt.take eceSaltLength).length = 16 := by
    rw [List.length_take]
    omega
  obtain ⟨first, stored, firstLength, firstThrough, _⟩ := store_inside payload 0 (salt.take eceSaltLength) (by omega)
  obtain ⟨second, storedRs, secondLength, secondThrough, _⟩ := store_inside first eceSaltLength (writeUint32Be rs)
    (by rw [writeUint32Be]; simp only [List.length_cons, List.length_nil]; omega)
  obtain ⟨third, storedLen, thirdLength, thirdThrough, _⟩ := store_inside second (eceSaltLength + 4)
    [UInt8.ofNat eceWebpushPublicKeyLength] (by rw [List.length_singleton]; omega)
  rw [eceWebpushAes128gcmEncryptPlaintext, if_neg (by omega), if_neg (by omega), stored]
  simp only [bind, Except.bind, storedRs, storedLen]
  cases encoded : point2octInto ssl senderPrivKey.pubKey eceWebpushPublicKeyLength with
  | none => exact .inl rfl
  | some rawSenderPubKey =>
      obtain ⟨raw, short⟩ := Option.filter_eq_some_iff.mp encoded
      have short := of_decide_eq_true short
      obtain ⟨last, storedKey, lastLength, lastThrough, _⟩ := store_inside third eceAes128gcmHeaderLength rawSenderPubKey
        (by omega)
      refine .inr ⟨rawSenderPubKey, last.take eceAes128gcmPayloadHeaderLength, last.drop eceAes128gcmPayloadHeaderLength, raw,
        short, ?_, ?_, ?_, ?_⟩
      · rw [List.length_take]
        omega
      · rw [List.length_drop]
        omega
      · intro whole
        rw [List.length_singleton] at thirdThrough
        have rsBytes : (writeUint32Be rs).length = 4 := rfl
        rw [rsBytes] at secondThrough
        have keyed : eceAes128gcmPayloadHeaderLength = eceAes128gcmHeaderLength + rawSenderPubKey.length := by omega
        have three : eceAes128gcmHeaderLength = eceSaltLength + 4 + 1 := rfl
        have one : first.take eceSaltLength = salt.take eceSaltLength := by
          rw [Nat.zero_add, salted, List.take_zero, List.nil_append] at firstThrough
          exact firstThrough
        rw [keyed, lastThrough, three, thirdThrough, secondThrough, one, payloadHeader, whole]
      · simp only [storedKey]
        cases (aes128gcmScheme Scalar Point).encryptPlaintext target ssl senderPrivKey recvPubKey authSecret salt rs padLen
          plaintext (last.drop eceAes128gcmPayloadHeaderLength) with
        | error fault => rfl
        | ok written => rfl

end PushReceiver
