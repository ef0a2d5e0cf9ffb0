import PushReceiver.Aes128gcmMessage
import PushReceiver.Delivery
import PushReceiver.SchemeDelivery

set_option autoImplicit false

namespace PushReceiver

variable {Scalar Point : Type}

-- A call of ece_webpush_aes128gcm_encrypt_with_keys that returns ECE_OK, taken apart.
structure Aes128gcmEncrypted (target : Target) (ssl : OpenSsl Scalar Point) (sender : Scalar) (senderPoint recvPoint : Point)
    (rawSenderPubKey authSecret salt : Bytes) (rs padLen : Nat) (plaintext payload : Bytes) (length : Nat) (next : Bytes)
    (space : Bytes) (ciphertextLen : Nat) (ciphertext key nonce : Bytes) : Prop where
  starts : (aes128gcmScheme Scalar Point).Starts target ssl ⟨some sender, senderPoint⟩ ⟨none, recvPoint⟩ authSecret salt rs padLen
    plaintext space key nonce
  encrypted : (aes128gcmScheme Scalar Point).encryptPlaintext target ssl ⟨some sender, senderPoint⟩ ⟨none, recvPoint⟩ authSecret
    salt rs padLen plaintext space = .ok (ciphertextLen, ciphertext)
  space : space.length + eceAes128gcmPayloadHeaderLength = payload.length
  length : length = eceAes128gcmPayloadHeaderLength + ciphertextLen
  next : next = payloadHeader salt rs rawSenderPubKey ++ ciphertext

theorem aes128gcm_encrypted (target : Target) (ssl : OpenSsl Scalar Point) (lawful : ssl.Lawful)
    (recv sender : Scalar) (recvPoint senderPoint : Point)
    (rawRecvPrivKey rawRecvPubKey rawSenderPrivKey rawSenderPubKey : Bytes)
    (recvPair : KeyPair ssl rawRecvPrivKey rawRecvPubKey recv recvPoint)
    (senderPair : KeyPair ssl rawSenderPrivKey rawSenderPubKey sender senderPoint)
    (authSecret salt plaintext payload next : Bytes) (rs padLen length : Nat)
    (encrypted : eceWebpushAes128gcmEncryptWithKeys target ssl rawSenderPrivKey authSecret salt rawRecvPubKey rs padLen
      plaintext payload = .ok (length, next)) :
    ∃ space ciphertextLen ciphertext key nonce, Aes128gcmEncrypted target ssl sender senderPoint recvPoint rawSenderPubKey
      authSecret salt rs padLen plaintext payload length next space ciphertextLen ciphertext key nonce := by
  rw [eceWebpushAes128gcmEncryptWithKeys, import_private ssl _ _ _ _ senderPair, import_public ssl lawful _ _ _ _ recvPair]
    at encrypted
  dsimp only at encrypted
  have checks : eceAes128gcmPayloadHeaderLength ≤ payload.length ∧ eceSaltLength ≤ salt.length := by
    rw [eceWebpushAes128gcmEncryptPlaintext] at encrypted
    split at encrypted
    · cases encrypted
    · split at encrypted
      · cases encrypted
      · omega
  rcases encrypt_payload target ssl ⟨some sender, senderPoint⟩ ⟨none, recvPoint⟩ authSecret salt rs padLen plaintext payload
    checks.1 checks.2 with failed | ⟨raw, header, space, encoded, _, _, spaceLength, headed, inner⟩
  · rw [failed] at encrypted
    cases encrypted
  · rw [senderPair.encoded] at encoded
    obtain rfl := Option.some.inj encoded
    rw [inner] at encrypted
    rcases encrypt_starts (aes128gcmScheme Scalar Point) target ssl ⟨some sender, senderPoint⟩ ⟨none, recvPoint⟩ authSecret salt
      rs padLen plaintext space with ⟨error, failed, _⟩ | ⟨key, nonce, starts⟩
    · rw [failed] at encrypted
      cases encrypted
    · cases done : (aes128gcmScheme Scalar Point).encryptPlaintext target ssl ⟨some sender, senderPoint⟩ ⟨none, recvPoint⟩
          authSecret salt rs padLen plaintext space with
      | error fault =>
          rw [done] at encrypted
          cases encrypted
      | ok stored =>
          obtain ⟨ciphertextLen, ciphertext⟩ := stored
          rw [done] at encrypted
          obtain ⟨length, next⟩ := Prod.mk.inj (Except.ok.inj encrypted)
          refine ⟨space, ciphertextLen, ciphertext, key, nonce, starts, done, spaceLength, length.symm, ?_⟩
          rw [← next, headed senderPair.pubLength, List.take_of_length_le (Nat.le_of_eq starts.saltLength)]

-- Any ciphertext behind the header of such a call reaches ece_decrypt_records with the sender's
-- key and nonce.
theorem aes128gcm_decrypts (ssl : OpenSsl Scalar Point) (lawful : ssl.Lawful) (recv sender : Scalar)
    (recvPoint senderPoint : Point) (rawRecvPrivKey rawRecvPubKey rawSenderPrivKey rawSenderPubKey : Bytes)
    (recvPair : KeyPair ssl rawRecvPrivKey rawRecvPubKey recv recvPoint)
    (senderPair : KeyPair ssl rawSenderPrivKey rawSenderPubKey sender senderPoint)
    (authSecret salt key nonce ciphertext : Bytes) (rs : Nat) (roomy : aes128gcmPadding.overhead < rs) (representable : rs < 2 ^ 32)
    (authLength : authSecret.length = eceWebpushAuthSecretLength) (saltLength : salt.length = eceSaltLength)
    (derived : eceWebpushAes128gcmDeriveKeyAndNonce ssl .encrypt ⟨some sender, senderPoint⟩ ⟨none, recvPoint⟩ authSecret salt =
      .ok (key, nonce))
    (some_ : ciphertext ≠ []) (buffer : Bytes) :
    eceAes128gcmPlaintextMaxLength (payloadHeader salt rs rawSenderPubKey ++ ciphertext) =
        ecePlaintextMaxLength rs eceAes128gcmPadSize ciphertext.length ∧
      eceWebpushAes128gcmDecrypt ssl rawRecvPrivKey authSecret (payloadHeader salt rs rawSenderPubKey ++ ciphertext) buffer =
        (aes128gcmPadding.decryptInto ssl key nonce rs ciphertext buffer).mapError .fault := by
  have extracted : eceAes128gcmPayloadExtractParams (payloadHeader salt rs rawSenderPubKey ++ ciphertext) =
      .ok ⟨salt, rs, rawSenderPubKey, ciphertext⟩ := by
    refine extract_payload ⟨salt, rs, rawSenderPubKey, ciphertext⟩ ⟨saltLength, roomy, representable, ?_, some_⟩
    rw [senderPair.pubLength]
    decide
  have agreed := lawful.agreement recv sender recvPoint senderPoint recvPair.multiplied senderPair.multiplied
  have derives : eceWebpushAes128gcmDeriveKeyAndNonce ssl .decrypt ⟨some recv, recvPoint⟩ ⟨none, senderPoint⟩ authSecret salt =
      .ok (key, nonce) := by
    rw [derive_aes128gcm_modes ssl recv sender recvPoint senderPoint agreed, derived]
  have nonempty : ¬ ciphertext.length = 0 := fun empty => some_ (List.eq_nil_of_length_eq_zero empty)
  constructor
  · rw [eceAes128gcmPlaintextMaxLength, extracted]
  · rw [eceWebpushAes128gcmDecrypt, extracted]
    dsimp only
    rw [Scheme.webpushDecrypt, if_neg (not_not.mpr authLength), if_neg (not_not.mpr saltLength), if_neg nonempty,
      import_private ssl _ _ _ _ recvPair, import_public ssl lawful _ _ _ _ senderPair]
    simp only [aes128gcmScheme, derives]
    rfl

theorem aes128gcm_counted (target : Target) (ssl : OpenSsl Scalar Point) (lawful : ssl.Lawful) (sender : Scalar)
    (senderPoint recvPoint : Point) (rawSenderPubKey authSecret salt plaintext payload next space ciphertext key nonce : Bytes)
    (rs padLen length ciphertextLen : Nat)
    (parts : Aes128gcmEncrypted target ssl sender senderPoint recvPoint rawSenderPubKey authSecret salt rs padLen plaintext payload
      length next space ciphertextLen ciphertext key nonce)
    (counted : (aes128gcmScheme Scalar Point).Counted rs padLen plaintext.length) :
    ∃ stream, ciphertextLen = stream.length ∧ (aes128gcmScheme Scalar Point).Encryption target ssl ⟨some sender, senderPoint⟩
      ⟨none, recvPoint⟩ authSecret salt rs padLen plaintext space key nonce stream ciphertext := by
  have inner := parts.encrypted
  rcases encrypt_plaintext_counted _ target ssl lawful _ _ authSecret salt rs padLen plaintext space counted with
    ⟨error, failed⟩ | ⟨otherKey, otherNonce, stream, other, done, encryption⟩
  · rw [failed] at inner
    cases inner
  · rw [done] at inner
    obtain ⟨rfl, rfl⟩ := Prod.mk.inj (Except.ok.inj inner)
    obtain ⟨rfl, rfl⟩ := Prod.mk.inj (Except.ok.inj (parts.starts.derived.symm.trans encryption.derived))
    exact ⟨stream, rfl, encryption⟩

theorem payload_taken (target : Target) (ssl : OpenSsl Scalar Point) (sender : Scalar) (senderPoint recvPoint : Point)
    (rawSenderPrivKey rawSenderPubKey authSecret salt plaintext payload next space ciphertext key nonce : Bytes)
    (rs padLen length ciphertextLen : Nat) (senderPair : KeyPair ssl rawSenderPrivKey rawSenderPubKey sender senderPoint)
    (parts : Aes128gcmEncrypted target ssl sender senderPoint recvPoint rawSenderPubKey authSecret salt rs padLen plaintext payload
      length next space ciphertextLen ciphertext key nonce) (count : Nat) :
    next.take (eceAes128gcmPayloadHeaderLength + count) = payloadHeader salt rs rawSenderPubKey ++ ciphertext.take count := by
  have header : (payloadHeader salt rs rawSenderPubKey).length = eceAes128gcmPayloadHeaderLength := by
    rw [header_length salt rs rawSenderPubKey parts.starts.saltLength, senderPair.pubLength]
    rfl
  rw [parts.next, List.take_append, header, Nat.add_sub_cancel_left, List.take_of_length_le (by omega)]

-- The plaintext the caller is left with.
def plaintextOf (result : Except PayloadFault (Nat × Bytes)) : Except PayloadFault Bytes :=
  result.map fun stored => stored.2.take stored.1

theorem plaintext_written (result : Except Fault (Nat × Bytes)) :
    plaintextOf (result.mapError .fault) = (written result).mapError .fault := by
  cases result <;> rfl

theorem without_fault (result : Except Fault Bytes) (text : Bytes) (opened : result.mapError PayloadFault.fault = .ok text) :
    result = .ok text := by
  cases result with
  | error fault => cases opened
  | ok other => exact congrArg Except.ok (Except.ok.inj opened)

-- A message that is not counted right comes out too short to hold its plaintext.
theorem uncounted_lost (scheme : Scheme Scalar Point) (ssl : OpenSsl Scalar Point) (streaming : ssl.Streaming)
    (key nonce : Bytes) (rs padLen : Nat) (roomy : scheme.overhead < rs) (light : padLen < scheme.overhead)
    (plaintext ciphertext buffer : Bytes) (uncounted : ¬ scheme.Counted rs padLen plaintext.length)
    (lacks : ciphertext.length + scheme.overhead = scheme.streamLength rs (plaintext.length + padLen)) :
    written (scheme.decryptInto ssl key nonce rs ciphertext buffer) ≠ .ok plaintext := by
  have positive : 0 < rs - scheme.overhead := Nat.sub_pos_of_lt roomy
  obtain ⟨records, uneven, noTrailer⟩ := uncounted_records scheme rs padLen plaintext.length uncounted
  intro delivered
  have length := decrypt_into_length scheme.toPadding ssl streaming key nonce rs (by omega) ciphertext buffer plaintext delivered
  have same : scheme.recordsOf rs (plaintext.length + padLen) = (plaintext.length + padLen) / (rs - scheme.overhead) + 1 := by
    rw [records, Scheme.countedRecords, if_neg]
    rw [Scheme.Counted, not_or, not_or] at uncounted
    obtain ⟨boundary, _⟩ := uncounted
    rw [not_not] at boundary
    rw [scheme.trailer_boundary rs plaintext.length boundary, noTrailer]
    simp [boundary]
  have whole := Nat.div_add_mod (plaintext.length + padLen) (rs - scheme.overhead)
  have short := Nat.mod_lt (plaintext.length + padLen) positive
  rw [Scheme.streamLength, same, Nat.mul_succ] at lacks
  generalize (plaintext.length + padLen) / (rs - scheme.overhead) = blocks at *
  have sum : (rs - scheme.overhead) * blocks + scheme.overhead * blocks = blocks * rs := by
    rw [← Nat.add_mul, Nat.sub_add_cancel (Nat.le_of_lt roomy), Nat.mul_comm]
  have ceiling : (ciphertext.length + (rs - 1)) / rs = blocks + 1 := by
    rw [Nat.div_eq_iff (by omega), Nat.succ_mul]
    omega
  rw [ceiling, Nat.mul_succ] at length
  omega

-- One message of two records, with the values P-256, HKDF-SHA-256 and AES-128-GCM give for it.
def greetingIkm : Bytes := fromBase64 "mmiJah7TonjDa2D9G4sCI56lldOOYRiBTgpSbWYTkdo"
def greetingKey : Bytes := fromBase64 "c2uxv4gaV6wciEY9i-2Bmw"
def greetingNonce : Bytes := fromBase64 "ShTR4ArVdvrimdX4"
def firstBlock : Bytes := ascii "hello" ++ [1]
def firstSealed : Bytes := fromBase64 "_P8yRkuT"
def firstTag : Bytes := fromBase64 "zD1tMNylmwQNTqb-80JWlA"
def lastBlock : Bytes := ascii " you" ++ [2]
def lastSealed : Bytes := fromBase64 "KKNbcIU"
def lastTag : Bytes := fromBase64 "N-PLC7xxL4UaGiMCFFvicg"

def greetingSsl : OpenSsl Bool Bool :=
  { helloSsl with
    hkdf := fun salt ikm info outputLen =>
      if (salt, ikm, info, outputLen) =
          (counting 0 16, helloSecret, eceWebpushAes128gcmIkmInfoPrefix ++ helloRecvPubKey ++ helloSenderPubKey, 32) then
        some greetingIkm
      else if (salt, ikm, info, outputLen) = (counting 16 16, greetingIkm, eceAes128gcmKeyInfo, 16) then some greetingKey
      else if (salt, ikm, info, outputLen) = (counting 16 16, greetingIkm, eceAes128gcmNonceInfo, 12) then some greetingNonce
      else none
    gcmEncrypt := fun key iv block =>
      if (key, iv, block) = (greetingKey, eceGenerateIv greetingNonce 0, firstBlock) then some (firstSealed, firstTag)
      else if (key, iv, block) = (greetingKey, eceGenerateIv greetingNonce 1, lastBlock) then some (lastSealed, lastTag)
      else none
    gcmDecrypt := fun key iv ciphertext tag =>
      if (key, iv, ciphertext, tag) = (greetingKey, eceGenerateIv greetingNonce 0, firstSealed, firstTag) then some firstBlock
      else if (key, iv, ciphertext, tag) = (greetingKey, eceGenerateIv greetingNonce 1, lastSealed, lastTag) then some lastBlock
      else none }

theorem greeting_lawful : greetingSsl.Lawful where
  encoding := hello_lawful.encoding
  agreement := hello_lawful.agreement
  opens key iv block ciphertext tag encrypted := by
    simp only [greetingSsl] at encrypted
    split at encrypted
    · rename_i same
      obtain ⟨rfl, rfl, rfl⟩ : key = greetingKey ∧ iv = eceGenerateIv greetingNonce 0 ∧ block = firstBlock := by simpa using same
      obtain ⟨rfl, rfl⟩ := Prod.mk.inj (Option.some.inj encrypted)
      decide +kernel
    · split at encrypted
      · rename_i same
        obtain ⟨rfl, rfl, rfl⟩ : key = greetingKey ∧ iv = eceGenerateIv greetingNonce 1 ∧ block = lastBlock := by simpa using same
        obtain ⟨rfl, rfl⟩ := Prod.mk.inj (Option.some.inj encrypted)
        decide +kernel
      · cases encrypted

theorem greeting_streaming : greetingSsl.Streaming where
  decrypted key iv ciphertext tag block opened := by
    simp only [greetingSsl] at opened
    split at opened
    · rename_i same
      have sealed_ : ciphertext = firstSealed := (Prod.mk.inj (Prod.mk.inj (Prod.mk.inj same).2).2).1
      rw [← Option.some.inj opened, sealed_]
      decide +kernel
    · split at opened
      · rename_i same
        have sealed_ : ciphertext = lastSealed := (Prod.mk.inj (Prod.mk.inj (Prod.mk.inj same).2).2).1
        rw [← Option.some.inj opened, sealed_]
        decide +kernel
      · cases opened

def greetingPayload : Bytes :=
  payloadHeader (counting 16 16) 22 helloSenderPubKey ++ firstSealed ++ firstTag ++ lastSealed ++ lastTag

theorem greeting_recv : KeyPair greetingSsl (counting 1 32) helloRecvPubKey true true :=
  ⟨by decide +kernel, by decide +kernel, rfl, rfl, by decide +kernel⟩

theorem greeting_sender : KeyPair greetingSsl (counting 33 32) helloSenderPubKey false false :=
  ⟨by decide +kernel, by decide +kernel, rfl, rfl, by decide +kernel⟩

theorem greeting_encrypted :
    eceWebpushAes128gcmEncryptWithKeys .x64 greetingSsl (counting 33 32) (counting 0 16) (counting 16 16) helloRecvPubKey 22 0
      (ascii "hello you") (List.replicate 129 0) = .ok (129, greetingPayload) := by
  decide +kernel

-- What ece_webpush_aes128gcm_encrypt_with_keys encrypts for a receiver, that receiver decrypts,
-- if the size query counted the records of the message right; and only then, unless the padding
-- outweighs a record's overhead.
theorem aes128gcm_delivered (target : Target) (ssl : OpenSsl Scalar Point) (lawful : ssl.Lawful) (streaming : ssl.Streaming)
    (recv sender : Scalar) (recvPoint senderPoint : Point)
    (rawRecvPrivKey rawRecvPubKey rawSenderPrivKey rawSenderPubKey : Bytes)
    (recvPair : KeyPair ssl rawRecvPrivKey rawRecvPubKey recv recvPoint)
    (senderPair : KeyPair ssl rawSenderPrivKey rawSenderPubKey sender senderPoint)
    (authSecret salt plaintext payload next : Bytes) (rs padLen length : Nat) (representable : rs < 2 ^ 32)
    (bounded : min rs (plaintext.length + padLen + aes128gcmPadding.overhead) ≤ intMax + eceTagLength)
    (encrypted : eceWebpushAes128gcmEncryptWithKeys target ssl rawSenderPrivKey authSecret salt rawRecvPubKey rs padLen
      plaintext payload = .ok (length, next)) :
    ((aes128gcmScheme Scalar Point).Counted rs padLen plaintext.length → ∀ buffer : Bytes,
        eceAes128gcmPlaintextMaxLength (next.take length) ≤ buffer.length →
        plaintextOf (eceWebpushAes128gcmDecrypt ssl rawRecvPrivKey authSecret (next.take length) buffer) = .ok plaintext) ∧
      (¬ (aes128gcmScheme Scalar Point).Counted rs padLen plaintext.length → padLen < aes128gcmPadding.overhead →
        ∀ buffer : Bytes,
          plaintextOf (eceWebpushAes128gcmDecrypt ssl rawRecvPrivKey authSecret (next.take length) buffer) ≠ .ok plaintext) := by
  obtain ⟨space, ciphertextLen, ciphertext, key, nonce, parts⟩ := aes128gcm_encrypted target ssl lawful recv sender recvPoint
    senderPoint _ _ _ _ recvPair senderPair authSecret salt plaintext payload next rs padLen length encrypted
  have starts := parts.starts
  obtain ⟨roomy, _, _⟩ := max_length_records _ target rs padLen plaintext.length starts.queried
  have decrypts := aes128gcm_decrypts ssl lawful recv sender recvPoint senderPoint _ _ _ _ recvPair senderPair authSecret salt key
    nonce (ciphertext.take ciphertextLen) rs roomy representable starts.authLength starts.saltLength starts.derived
  rw [parts.length, payload_taken target ssl sender senderPoint recvPoint _ _ authSecret salt plaintext payload next space
    ciphertext key nonce rs padLen length ciphertextLen senderPair parts]
  constructor
  · intro counted buffer room
    obtain ⟨stream, rfl, encryption⟩ := aes128gcm_counted target ssl lawful sender senderPoint recvPoint _ authSecret salt plaintext
      payload next space ciphertext key nonce rs padLen length ciphertextLen parts counted
    have nonempty : ciphertext.take stream.length ≠ [] := by
      rw [encryption.written]
      apply List.ne_nil_of_length_pos
      rw [encryption.length, Scheme.streamLength]
      have some_ := starts.some_
      omega
    obtain ⟨query, decrypted⟩ := decrypts nonempty buffer
    rw [query] at room
    rw [decrypted, plaintext_written]
    rw [encryption.written] at room ⊢
    exact congrArg (Except.mapError PayloadFault.fault) (sealing_decrypted (aes128gcmScheme Scalar Point) ssl lawful streaming
      key nonce rs _ padLen (plaintext.length + padLen) roomy bounded (Nat.add_pos_left starts.some_ _) stream plaintext buffer
      encryption.length encryption.isSealing room)
  · intro uncounted light buffer
    have inner := parts.encrypted
    rcases encrypt_plaintext_uncounted _ target ssl lawful _ _ authSecret salt rs padLen plaintext space uncounted with
      ⟨error, failed⟩ | ⟨overran, _⟩ | ⟨⟨other, done, kept⟩, lacks, fits⟩
    · rw [failed] at inner
      cases inner
    · rw [overran] at inner
      cases inner
    · rw [done] at inner
      obtain ⟨rfl, rfl⟩ := Prod.mk.inj (Except.ok.inj inner)
      have shortLength : (other.take ((aes128gcmScheme Scalar Point).ciphertextMaxLength target rs padLen
          plaintext.length)).length =
          (aes128gcmScheme Scalar Point).ciphertextMaxLength target rs padLen plaintext.length :=
        List.length_take_of_le (by omega)
      have nonempty : other.take ((aes128gcmScheme Scalar Point).ciphertextMaxLength target rs padLen plaintext.length) ≠ [] := by
        apply List.ne_nil_of_length_pos
        rw [shortLength]
        exact Nat.pos_of_ne_zero starts.queried
      obtain ⟨_, decrypted⟩ := decrypts nonempty buffer
      rw [decrypted, plaintext_written]
      intro delivered
      exact uncounted_lost (aes128gcmScheme Scalar Point) ssl streaming key nonce rs padLen roomy light plaintext _ buffer
        uncounted (by rw [shortLength]; exact lacks) (without_fault _ plaintext delivered)

theorem aes128gcm_delivered_greeting :
    plaintextOf (eceWebpushAes128gcmDecrypt greetingSsl (counting 1 32) (counting 0 16) (greetingPayload.take 129)
      (List.replicate 11 0)) = .ok (ascii "hello you") :=
  (aes128gcm_delivered .x64 greetingSsl greeting_lawful greeting_streaming true false true false _ _ _ _ greeting_recv
    greeting_sender (counting 0 16) (counting 16 16) (ascii "hello you") (List.replicate 129 0) greetingPayload 22 0 129
    (by decide) (by decide) greeting_encrypted).1 (by decide) _ (by decide +kernel)

-- A payload that lost its last records is refused, whatever is left of it.
theorem aes128gcm_truncation_refused (target : Target) (ssl : OpenSsl Scalar Point) (lawful : ssl.Lawful)
    (streaming : ssl.Streaming) (recv sender : Scalar) (recvPoint senderPoint : Point)
    (rawRecvPrivKey rawRecvPubKey rawSenderPrivKey rawSenderPubKey : Bytes)
    (recvPair : KeyPair ssl rawRecvPrivKey rawRecvPubKey recv recvPoint)
    (senderPair : KeyPair ssl rawSenderPrivKey rawSenderPubKey sender senderPoint)
    (authSecret salt plaintext payload next : Bytes) (rs padLen length : Nat) (representable : rs < 2 ^ 32)
    (bounded : rs ≤ intMax + eceTagLength)
    (encrypted : eceWebpushAes128gcmEncryptWithKeys target ssl rawSenderPrivKey authSecret salt rawRecvPubKey rs padLen
      plaintext payload = .ok (length, next))
    (counted : (aes128gcmScheme Scalar Point).Counted rs padLen plaintext.length)
    (kept : Nat) (some_ : 0 < kept) (cut : eceAes128gcmPayloadHeaderLength + kept * rs < length) (buffer : Bytes)
    (room : eceAes128gcmPlaintextMaxLength (next.take (eceAes128gcmPayloadHeaderLength + kept * rs)) ≤ buffer.length) :
    plaintextOf (eceWebpushAes128gcmDecrypt ssl rawRecvPrivKey authSecret
        (next.take (eceAes128gcmPayloadHeaderLength + kept * rs)) buffer) = .error (.fault (.code .decryptPadding)) := by
  obtain ⟨space, ciphertextLen, ciphertext, key, nonce, parts⟩ := aes128gcm_encrypted target ssl lawful recv sender recvPoint
    senderPoint _ _ _ _ recvPair senderPair authSecret salt plaintext payload next rs padLen length encrypted
  have starts := parts.starts
  obtain ⟨roomy, _, _⟩ := max_length_records _ target rs padLen plaintext.length starts.queried
  obtain ⟨stream, rfl, encryption⟩ := aes128gcm_counted target ssl lawful sender senderPoint recvPoint _ authSecret salt plaintext
    payload next space ciphertext key nonce rs padLen length ciphertextLen parts counted
  have within : kept * rs < stream.length := by
    have total := parts.length
    omega
  have positive : 0 < kept * rs := Nat.mul_pos some_ (by omega)
  have inside : ciphertext.take (kept * rs) = stream.take (kept * rs) := by
    have shorter := congrArg (List.take (kept * rs)) encryption.written
    rwa [List.take_take, Nat.min_eq_left (Nat.le_of_lt within)] at shorter
  have truncatedLength : (stream.take (kept * rs)).length = kept * rs := List.length_take_of_le (Nat.le_of_lt within)
  rw [payload_taken target ssl sender senderPoint recvPoint _ _ authSecret salt plaintext payload next space ciphertext key nonce
    rs padLen length stream.length senderPair parts, inside] at room ⊢
  obtain ⟨query, decrypted⟩ := aes128gcm_decrypts ssl lawful recv sender recvPoint senderPoint _ _ _ _ recvPair senderPair
    authSecret salt key nonce (stream.take (kept * rs)) rs roomy representable starts.authLength starts.saltLength starts.derived
    (List.ne_nil_of_length_pos (by rw [truncatedLength]; exact positive)) buffer
  rw [query, truncatedLength] at room
  rw [decrypted, plaintext_written]
  exact congrArg (Except.mapError PayloadFault.fault) (sealing_truncated (aes128gcmScheme Scalar Point) ssl lawful streaming key
    nonce rs _ padLen roomy bounded stream plaintext buffer encryption.isSealing .decryptPadding aes128gcm_unpad_tells kept some_
    within room)

theorem aes128gcm_truncation_refused_greeting :
    plaintextOf (eceWebpushAes128gcmDecrypt greetingSsl (counting 1 32) (counting 0 16)
      (greetingPayload.take (eceAes128gcmPayloadHeaderLength + 1 * 22)) (List.replicate 6 0)) =
        .error (.fault (.code .decryptPadding)) :=
  aes128gcm_truncation_refused .x64 greetingSsl greeting_lawful greeting_streaming true false true false _ _ _ _ greeting_recv
    greeting_sender (counting 0 16) (counting 16 16) (ascii "hello you") (List.replicate 129 0) greetingPayload 22 0 129
    (by decide) (by decide) greeting_encrypted (by decide) 1 Nat.one_pos (by decide) _ (by decide +kernel)

-- How much of the payload an accepted message takes up.
def payloadLength (target : Target) (rs padLen plaintextLen : Nat) : Nat :=
  eceAes128gcmPayloadHeaderLength +
    if (aes128gcmScheme Unit Unit).Counted rs padLen plaintextLen then
      (aes128gcmScheme Unit Unit).streamLength rs (plaintextLen + padLen)
    else (aes128gcmScheme Unit Unit).ciphertextMaxLength target rs padLen plaintextLen

-- A payload of the length the payload query gives has room for a longer key id to spare.
theorem payload_query_spares (target : Target) (rs padLen plaintextLen : Nat)
    (queried : eceAes128gcmPayloadMaxLength target rs padLen plaintextLen ≠ 0) :
    payloadLength target rs padLen plaintextLen < eceAes128gcmPayloadMaxLength target rs padLen plaintextLen := by
  have lengths : eceAes128gcmPayloadHeaderLength = 86 ∧ eceAes128gcmHeaderLength + eceAes128gcmMaxKeyIdLength = 276 ∧
      (aes128gcmScheme Unit Unit).overhead = 17 := by decide
  obtain ⟨headerLength, maxHeaderLength, overhead⟩ := lengths
  rw [eceAes128gcmPayloadMaxLength] at queried ⊢
  dsimp only at queried ⊢
  split at queried
  · exact absurd rfl queried
  · rename_i counted
    rw [if_neg counted]
    split at queried
    · exact absurd rfl queried
    · rename_i representable
      rw [if_neg representable, payloadLength]
      obtain ⟨_, _, maxLength⟩ := max_length_records (aes128gcmScheme Unit Unit) target rs padLen plaintextLen counted
      split
      · have fewer : (plaintextLen + padLen - 1) / (rs - (aes128gcmScheme Unit Unit).overhead) ≤
            (plaintextLen + padLen) / (rs - (aes128gcmScheme Unit Unit).overhead) := Nat.div_le_div_right (Nat.sub_le _ _)
        have most : (aes128gcmScheme Unit Unit).recordsOf rs (plaintextLen + padLen) ≤
            (aes128gcmScheme Unit Unit).countedRecords rs padLen plaintextLen + 1 := by
          rw [Scheme.recordsOf, Scheme.countedRecords]
          split <;> split <;> omega
        rw [Scheme.streamLength, overhead]
        rw [overhead] at maxLength
        omega
      · omega

-- A call fails with a code; or reads behind a short salt, or writes outside a payload that has no
-- byte to spare, for a message that the query does not count right; or takes up this much.
theorem aes128gcm_encrypt_outcome (target : Target) (ssl : OpenSsl Scalar Point) (lawful : ssl.Lawful)
    (rawSenderPrivKey authSecret salt rawRecvPubKey plaintext payload : Bytes) (rs padLen : Nat) :
    (∃ error, eceWebpushAes128gcmEncryptWithKeys target ssl rawSenderPrivKey authSecret salt rawRecvPubKey rs padLen plaintext
        payload = .error (.code error)) ∨
      (eceWebpushAes128gcmEncryptWithKeys target ssl rawSenderPrivKey authSecret salt rawRecvPubKey rs padLen plaintext payload =
          .error .overrun ∧
        (salt.length < eceSaltLength ∨
          ¬ (aes128gcmScheme Unit Unit).Counted rs padLen plaintext.length ∧
            payload.length ≤ payloadLength target rs padLen plaintext.length ∧
            (eceAes128gcmPayloadMaxLength target rs padLen plaintext.length = 0 ∨
              payload.length < eceAes128gcmPayloadMaxLength target rs padLen plaintext.length))) ∨
      ∃ next, eceWebpushAes128gcmEncryptWithKeys target ssl rawSenderPrivKey authSecret salt rawRecvPubKey rs padLen plaintext
          payload = .ok (payloadLength target rs padLen plaintext.length, next) ∧
        next.length = payload.length ∧ payloadLength target rs padLen plaintext.length ≤ payload.length ∧
        ((aes128gcmScheme Unit Unit).Counted rs padLen plaintext.length ∨
          payloadLength target rs padLen plaintext.length < payload.length) := by
  rw [eceWebpushAes128gcmEncryptWithKeys]
  cases eceImportPrivateKey ssl rawSenderPrivKey with
  | none => exact .inl ⟨.invalidPrivateKey, rfl⟩
  | some senderPrivKey =>
      cases eceImportPublicKey ssl rawRecvPubKey with
      | none => exact .inl ⟨.invalidPublicKey, rfl⟩
      | some recvPubKey =>
          dsimp only
          by_cases small : payload.length < eceAes128gcmPayloadHeaderLength
          · exact .inl ⟨.outOfMemory, if_pos small⟩
          rcases Nat.lt_or_ge salt.length eceSaltLength with shortSalt | saltLength
          · refine .inr (.inl ⟨?_, .inl shortSalt⟩)
            rw [eceWebpushAes128gcmEncryptPlaintext, if_neg small, if_pos shortSalt]
          · rcases encrypt_payload target ssl senderPrivKey recvPubKey authSecret salt rs padLen plaintext payload
              (Nat.le_of_not_lt small) saltLength with failed | ⟨raw, header, space, _, _, headerLength, spaceLength, _, inner⟩
            · exact .inl ⟨.encodePublicKey, failed⟩
            · have spares := payload_query_spares target rs padLen plaintext.length
              rw [inner]
              rw [payloadLength] at spares ⊢
              by_cases counted : (aes128gcmScheme Unit Unit).Counted rs padLen plaintext.length
              · rw [if_pos counted]
                rcases encrypt_plaintext_counted (aes128gcmScheme Scalar Point) target ssl lawful senderPrivKey recvPubKey
                  authSecret salt rs padLen plaintext space counted with
                  ⟨error, failed⟩ | ⟨_, _, stream, other, done, encryption⟩
                · exact .inl ⟨error, by rw [failed]; rfl⟩
                · have length : stream.length = (aes128gcmScheme Unit Unit).streamLength rs (plaintext.length + padLen) :=
                    encryption.length
                  have fits := congrArg List.length encryption.written
                  rw [List.length_take, encryption.kept] at fits
                  refine .inr (.inr ⟨header ++ other, by rw [done, ← length]; rfl, ?_, by omega, .inl counted⟩)
                  rw [List.length_append, headerLength, encryption.kept]
                  omega
              · rw [if_neg counted] at spares ⊢
                rcases encrypt_plaintext_uncounted (aes128gcmScheme Scalar Point) target ssl lawful senderPrivKey recvPubKey
                  authSecret salt rs padLen plaintext space counted with
                  ⟨error, failed⟩ | ⟨overran, outside⟩ | ⟨⟨other, done, kept⟩, _, fits⟩
                · exact .inl ⟨error, by rw [failed]; rfl⟩
                · have outside : space.length < (aes128gcmScheme Unit Unit).ciphertextMaxLength target rs padLen
                      plaintext.length + 1 := outside
                  exact .inr (.inl ⟨by rw [overran]; rfl, .inr ⟨counted, by omega, by omega⟩⟩)
                · have fits : (aes128gcmScheme Unit Unit).ciphertextMaxLength target rs padLen plaintext.length + 1 ≤
                      space.length := fits
                  refine .inr (.inr ⟨header ++ other, by rw [done]; rfl, ?_, by omega, .inr (by omega)⟩)
                  rw [List.length_append, headerLength, kept]
                  omega

theorem aes128gcm_encrypt_outcome_greeting :
    eceWebpushAes128gcmEncryptWithKeys .x64 greetingSsl (counting 33 32) (counting 0 16) (counting 16 16) helloRecvPubKey 22 0
      (ascii "hello you") (List.replicate 129 0) ≠ .error .overrun := by
  intro overran
  rcases aes128gcm_encrypt_outcome .x64 greetingSsl greeting_lawful (counting 33 32) (counting 0 16) (counting 16 16)
    helloRecvPubKey (ascii "hello you") (List.replicate 129 0) 22 0 with
    ⟨error, failed⟩ | ⟨_, shortSalt | ⟨uncounted, _⟩⟩ | ⟨next, done, _⟩
  · rw [overran] at failed
    cases failed
  · exact absurd shortSalt (by decide)
  · exact uncounted (by decide)
  · rw [overran] at done
    cases done

-- No two records of a message that the size query counts right are sealed under the same IV.
theorem encrypt_ivs_distinct (scheme : Scheme Scalar Point) (target : Target) (ssl : OpenSsl Scalar Point) (lawful : ssl.Lawful)
    (senderPrivKey recvPubKey : EcKey Scalar Point) (authSecret salt : Bytes) (rs padLen : Nat) (plaintext buffer : Bytes)
    (counted : scheme.Counted rs padLen plaintext.length) (length : Nat) (next : Bytes)
    (encrypted : scheme.encryptPlaintext target ssl senderPrivKey recvPubKey authSecret salt rs padLen plaintext buffer =
      .ok (length, next)) :
    ∃ key nonce records, scheme.deriveKeyAndNonce ssl .encrypt senderPrivKey recvPubKey authSecret salt = .ok (key, nonce) ∧
      scheme.Sealing ssl key nonce rs records 0 (next.take length) plaintext padLen ∧
      ((List.range records).map (eceGenerateIv nonce)).Nodup := by
  rcases encrypt_plaintext_counted scheme target ssl lawful senderPrivKey recvPubKey authSecret salt rs padLen plaintext buffer
    counted with ⟨error, failed⟩ | ⟨key, nonce, stream, other, done, encryption⟩
  · rw [failed] at encrypted
    cases encrypted
  · rw [done] at encrypted
    obtain ⟨rfl, rfl⟩ := Prod.mk.inj (Except.ok.inj encrypted)
    refine ⟨key, nonce, _, encryption.derived, encryption.written.symm ▸ encryption.isSealing, ivs_distinct nonce _ ?_⟩
    have counter := encryption.counted
    have some_ : 0 < scheme.overhead := Nat.add_pos_left scheme.padded _
    have most := Nat.le_mul_of_pos_left (scheme.recordsOf rs (plaintext.length + padLen)) some_
    have width : target.sizeMaxValue < 2 ^ 64 := by
      rw [Target.sizeMaxValue]
      rcases target.width with narrow | wide
      · rw [narrow]
        decide
      · rw [wide]
        decide
    omega

theorem encrypt_ivs_distinct_greeting :
    ∃ key nonce records,
      (aes128gcmScheme Bool Bool).deriveKeyAndNonce greetingSsl .encrypt ⟨some false, false⟩ ⟨none, true⟩ (counting 0 16)
          (counting 16 16) = .ok (key, nonce) ∧
        (aes128gcmScheme Bool Bool).Sealing greetingSsl key nonce 22 records 0
          ((greetingPayload.drop eceAes128gcmPayloadHeaderLength).take 43) (ascii "hello you") 0 ∧
        ((List.range records).map (eceGenerateIv nonce)).Nodup :=
  encrypt_ivs_distinct (aes128gcmScheme Bool Bool) .x64 greetingSsl greeting_lawful ⟨some false, false⟩ ⟨none, true⟩
    (counting 0 16) (counting 16 16) 22 0 (ascii "hello you") (List.replicate 43 0) (by decide) 43
    (greetingPayload.drop eceAes128gcmPayloadHeaderLength) (by decide +kernel)

end PushReceiver
