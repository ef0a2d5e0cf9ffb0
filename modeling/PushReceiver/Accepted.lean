import PushReceiver.Aes128gcmDelivery
import PushReceiver.AesgcmRefinement

set_option autoImplicit false

namespace PushReceiver

variable {Scalar Point : Type}

-- A GCM message opens only as what sealing it again would make of it: the tag that is compared
-- is the one of the block that is returned.
def OpenSsl.Exact (ssl : OpenSsl Scalar Point) : Prop :=
  ∀ key iv ciphertext tag block, ssl.gcmDecrypt key iv ciphertext tag = some block →
    ssl.gcmEncrypt key iv block = some (ciphertext, tag)

theorem exact_streaming (ssl : OpenSsl Scalar Point) (lawful : ssl.Lawful) (exact_ : ssl.Exact) : ssl.Streaming where
  decrypted key iv ciphertext tag block opened :=
    (lawful.opens _ _ _ _ _ (exact_ key iv ciphertext tag block opened)).1.symm

-- A block as the encryption lays it out for some padding and some block size.
def Padding.Lays (padding : Padding) (lastRecord : Bool) (text block : Bytes) : Prop :=
  ∃ padLen maxBlockLen, 0 < maxBlockLen ∧
    block = (padding.updates lastRecord text (padding.minBlockPadLength padLen maxBlockLen)).flatten

-- What is unpadded is laid out so.
def Padding.Faithful (padding : Padding) : Prop :=
  ∀ lastRecord block text, padding.padSize ≤ block.length → padding.unpad lastRecord block = .ok text →
    padding.Lays lastRecord text block

-- A record as anyone with the key and the nonce can seal it under the IV of its number.
inductive Padding.SealedRecord (padding : Padding) (ssl : OpenSsl Scalar Point) (key nonce : Bytes) (lastRecord : Bool)
    (counter : Nat) : Bytes → Bytes → Prop where
  | intro (laid block tag text : Bytes) (lays : padding.Lays lastRecord text laid) (small : block.length ≤ intMax)
      (encrypted : ssl.gcmEncrypt key (eceGenerateIv nonce counter) laid = some (block, tag)) :
      Padding.SealedRecord padding ssl key nonce lastRecord counter (block ++ tag) text

-- A whole message of such records: all but the last have the record size, and only the last is
-- laid out as one. How much padding each of them has is left to its sender.
inductive Padding.SealedMessage (padding : Padding) (ssl : OpenSsl Scalar Point) (key nonce : Bytes) (rs : Nat) :
    Nat → Bytes → Bytes → Prop where
  | last (counter : Nat) (record text : Bytes) (short : record.length ≤ rs)
      (isSealed : padding.SealedRecord ssl key nonce true counter record text) :
      Padding.SealedMessage padding ssl key nonce rs counter record text
  | full (counter : Nat) (record rest text others : Bytes) (whole : record.length = rs)
      (isSealed : padding.SealedRecord ssl key nonce false counter record text)
      (later : Padding.SealedMessage padding ssl key nonce rs (counter + 1) rest others) :
      Padding.SealedMessage padding ssl key nonce rs counter (record ++ rest) (text ++ others)

theorem open_record_iff (padding : Padding) (faithful : padding.Faithful) (ssl : OpenSsl Scalar Point) (lawful : ssl.Lawful)
    (exact_ : ssl.Exact) (key nonce : Bytes) (lastRecord : Bool) (counter : Nat) (record text : Bytes) :
    padding.openRecord ssl key nonce lastRecord counter record = .ok text ↔
      padding.SealedRecord ssl key nonce lastRecord counter record text := by
  constructor
  · intro opens
    rw [Padding.openRecord] at opens
    split at opens
    · cases opens
    · cases decrypted : eceDecryptRecord ssl key (eceGenerateIv nonce counter) record with
      | none =>
          rw [decrypted] at opens
          cases opens
      | some laid =>
          have length := decrypted_length ssl (exact_streaming ssl lawful exact_) _ _ record laid decrypted
          rw [decrypted] at opens
          dsimp only at opens
          split at opens
          · cases opens
          · rename_i padded
            unfold eceDecryptRecord at decrypted
            dsimp only at decrypted
            split at decrypted
            · cases decrypted
            · rename_i small
              rw [← List.take_append_drop (record.length - eceTagLength) record]
              refine .intro laid _ _ text (faithful lastRecord laid text (by omega) opens) ?_ (exact_ _ _ _ _ _ decrypted)
              rw [List.length_take]
              omega
  · rintro ⟨laid, block, tag, _, ⟨padLen, maxBlockLen, positive, rfl⟩, small, encrypted⟩
    exact record_opens padding ssl lawful key nonce lastRecord counter padLen maxBlockLen block tag text positive small encrypted

theorem sealed_record_length (padding : Padding) (ssl : OpenSsl Scalar Point) (lawful : ssl.Lawful) (key nonce : Bytes)
    (lastRecord : Bool) (counter : Nat) (record text : Bytes)
    (isSealed : padding.SealedRecord ssl key nonce lastRecord counter record text) : padding.overhead ≤ record.length := by
  obtain ⟨laid, block, tag, _, ⟨padLen, maxBlockLen, _, rfl⟩, _, encrypted⟩ := isSealed
  obtain ⟨blockLength, tagLength, _⟩ := lawful.opens _ _ _ _ _ encrypted
  rw [List.length_append, blockLength, tagLength, padding.updates_length, Padding.overhead]
  omega

theorem sealed_message_length (padding : Padding) (ssl : OpenSsl Scalar Point) (lawful : ssl.Lawful) (key nonce : Bytes)
    (rs counter : Nat) (stream text : Bytes) (message : padding.SealedMessage ssl key nonce rs counter stream text) :
    ∃ records tail, stream.length = records * rs + tail ∧ padding.overhead ≤ tail ∧ tail ≤ rs := by
  induction message with
  | last counter record text short isSealed =>
      exact ⟨0, record.length, by rw [Nat.zero_mul, Nat.zero_add],
        sealed_record_length padding ssl lawful key nonce true counter record text isSealed, short⟩
  | full counter record rest text others whole isSealed later ih =>
      obtain ⟨records, tail, length, least, most⟩ := ih
      refine ⟨records + 1, tail, ?_, least, most⟩
      rw [List.length_append, whole, length, Nat.succ_mul]
      omega

theorem message_marked (padding : Padding) (faithful : padding.Faithful) (ssl : OpenSsl Scalar Point) (lawful : ssl.Lawful)
    (exact_ : ssl.Exact) (key nonce : Bytes) (rs counter : Nat) (stream text : Bytes)
    (message : padding.SealedMessage ssl key nonce rs counter stream text) :
    Records.Marked (padding.openRecord ssl key nonce) rs counter stream text := by
  have overhead : padding.overhead = padding.padSize + eceTagLength := rfl
  have tagLength : eceTagLength = 16 := rfl
  induction message with
  | last counter record text short isSealed =>
      have length := sealed_record_length padding ssl lawful key nonce true counter record text isSealed
      exact .last counter record text (List.ne_nil_of_length_pos (by omega)) short
        ((open_record_iff padding faithful ssl lawful exact_ key nonce true counter record text).mpr isSealed)
  | full counter record rest text others whole isSealed later ih =>
      exact .full counter record rest text others whole
        ((open_record_iff padding faithful ssl lawful exact_ key nonce false counter record text).mpr isSealed) ih

theorem marked_message (padding : Padding) (faithful : padding.Faithful) (ssl : OpenSsl Scalar Point) (lawful : ssl.Lawful)
    (exact_ : ssl.Exact) (key nonce : Bytes) (rs counter : Nat) (stream text : Bytes)
    (marked : Records.Marked (padding.openRecord ssl key nonce) rs counter stream text) :
    padding.SealedMessage ssl key nonce rs counter stream text := by
  induction marked with
  | last counter record text some_ short opens =>
      exact .last counter record text short
        ((open_record_iff padding faithful ssl lawful exact_ key nonce true counter record text).mp opens)
  | full counter record rest text others whole opens later ih =>
      exact .full counter record rest text others whole
        ((open_record_iff padding faithful ssl lawful exact_ key nonce false counter record text).mp opens) ih

-- The records are decrypted exactly where they make up such a message; into which buffer, and
-- whether the loop would leave it for another ciphertext, makes no difference.
theorem decrypt_into_iff (padding : Padding) (faithful : padding.Faithful) (ssl : OpenSsl Scalar Point) (lawful : ssl.Lawful)
    (exact_ : ssl.Exact) (key nonce : Bytes) (rs : Nat) (ciphertext buffer text : Bytes) :
    written (padding.decryptInto ssl key nonce rs ciphertext buffer) = .ok text ↔
      padding.overhead < rs ∧ ecePlaintextMaxLength rs padding.padSize ciphertext.length ≤ buffer.length ∧
        padding.SealedMessage ssl key nonce rs 0 ciphertext text := by
  have streaming := exact_streaming ssl lawful exact_
  constructor
  · intro done
    obtain ⟨some_, room, reads⟩ := decrypt_into_done padding ssl streaming key nonce rs ciphertext buffer text done
    have roomy : padding.overhead < rs := by
      by_contra cramped
      exact some_ (if_pos (Nat.le_of_not_lt cramped))
    have nonempty : ciphertext ≠ [] := by
      rintro rfl
      exact some_ (by simp only [ecePlaintextMaxLength, List.length_nil, Nat.zero_sub, ite_self])
    exact ⟨roomy, room, marked_message padding faithful ssl lawful exact_ key nonce rs 0 ciphertext text
      (Records.marked_read _ 0 ciphertext text (by omega) nonempty (Nat.le_refl _) reads)⟩
  · rintro ⟨roomy, room, message⟩
    have marked := message_marked padding faithful ssl lawful exact_ key nonce rs 0 ciphertext text message
    obtain ⟨records, tail, length, least, most⟩ := sealed_message_length padding ssl lawful key nonce rs 0 ciphertext text
      message
    obtain ⟨stays, some_⟩ := length_stays padding rs records tail roomy least most
    rw [← length] at stays some_
    rw [decrypt_into_read padding ssl streaming key nonce rs ciphertext buffer roomy stays some_ room,
      Records.read_marked 0 ciphertext text marked (by omega) _ (Nat.le_refl _)]
    rfl

-- Any padding within the cap is what a block of one byte more takes.
theorem laid_out (padding : Padding) (lastRecord : Bool) (text : Bytes) (blockPadLen : Nat)
    (within : blockPadLen ≤ padding.padCap (blockPadLen + 1)) :
    padding.Lays lastRecord text (padding.updates lastRecord text blockPadLen).flatten := by
  refine ⟨blockPadLen, blockPadLen + 1, Nat.succ_pos blockPadLen, ?_⟩
  rw [padding.pad_capped _ _ (Nat.succ_pos blockPadLen), Nat.min_eq_left within]

-- The two bytes in front of a block and the zeros behind them are those that encrypt.c writes.
theorem aesgcm_unpadded (high low : UInt8) (rest text : Bytes) (unpadded : eceAesgcmUnpad (high :: low :: rest) = some text) :
    high :: low :: rest = eceAesgcmBlock text (high.toNat * 256 + low.toNat) := by
  have highBound := high.toNat_lt
  have lowBound := low.toNat_lt
  have read : readUint16Be (high :: low :: rest) = high.toNat * 256 + low.toNat := rfl
  have body : (high :: low :: rest).drop eceAesgcmPadSize = rest := rfl
  have written : writeUint16Be (high.toNat * 256 + low.toNat) = [high, low] := by
    rw [writeUint16Be]
    simp only [List.cons.injEq, and_true, ← UInt8.toNat_inj, UInt8.toNat_ofNat']
    omega
  rw [eceAesgcmUnpad, read] at unpadded
  generalize high.toNat * 256 + low.toNat = padLen at unpadded written
  by_cases short : (high :: low :: rest).length - eceAesgcmPadSize < padLen
  · rw [if_pos short] at unpadded
    cases unpadded
  by_cases zeros : (((high :: low :: rest).drop eceAesgcmPadSize).take padLen).all (· = 0) = true
  · rw [if_neg short, if_pos zeros, ← List.drop_drop, body] at unpadded
    rw [body] at zeros
    have length : (high :: low :: rest).length - eceAesgcmPadSize = rest.length := rfl
    rw [length] at short
    have padding : rest.take padLen = List.replicate padLen 0 := by
      refine List.eq_replicate_iff.mpr ⟨List.length_take_of_le (Nat.le_of_not_lt short), ?_⟩
      intro byte member
      exact of_decide_eq_true (List.all_eq_true.mp zeros byte member)
    rw [eceAesgcmBlock, written, ← padding, ← Option.some.inj unpadded, List.append_assoc, List.take_append_drop]
    rfl
  · rw [if_neg short, if_neg zeros] at unpadded
    cases unpadded

theorem aesgcm_faithful : aesgcmPadding.Faithful := by
  intro lastRecord block text padded unpadded
  have padSize : aesgcmPadding.padSize = 2 := rfl
  obtain ⟨high, low, rest, rfl⟩ : ∃ high low rest, block = high :: low :: rest := by
    cases block with
    | nil => exact absurd padded (by rw [padSize]; decide)
    | cons high block =>
        cases block with
        | nil => exact absurd padded (by rw [padSize]; exact Nat.not_succ_le_self 1)
        | cons low rest => exact ⟨high, low, rest, rfl⟩
  have highBound := high.toNat_lt
  have lowBound := low.toNat_lt
  change aesgcmUnpad lastRecord (high :: low :: rest) = .ok text at unpadded
  cases found : eceAesgcmUnpad (high :: low :: rest) with
  | none =>
      rw [aesgcmUnpad, found] at unpadded
      cases unpadded
  | some blockPlaintext =>
      rw [aesgcmUnpad, found] at unpadded
      obtain rfl := Except.ok.inj unpadded
      rw [aesgcm_unpadded high low rest blockPlaintext found, ← aesgcm_updates_flatten lastRecord]
      apply laid_out aesgcmPadding
      change _ ≤ aesgcmPadCap _
      rw [aesgcmPadCap]
      omega

-- Behind the delimiter that the loop stops at there are zeros only.
theorem unpad_loop_found (lastRecord : Bool) (block : Bytes) (length blockLen : Nat) (within : length ≤ block.length)
    (found : aes128gcmUnpadLoop lastRecord block length = .ok blockLen) :
    ∃ blockPadLen, block.take length =
      block.take blockLen ++ eceAes128gcmPadDelim lastRecord :: List.replicate blockPadLen 0 := by
  induction length with
  | zero => cases found
  | succ length ih =>
      have next : block.take (length + 1) = block.take length ++ [block.getD length 0] := by
        rw [List.take_succ_eq_append_getElem (by omega), List.getD_eq_getElem _ _ (by omega)]
      rw [aes128gcmUnpadLoop] at found
      by_cases zero : block.getD length 0 = 0
      · rw [if_pos zero] at found
        obtain ⟨blockPadLen, before⟩ := ih (by omega) found
        refine ⟨blockPadLen + 1, ?_⟩
        rw [next, zero, before, List.replicate_succ', List.append_assoc, List.cons_append]
      · rw [if_neg zero] at found
        by_cases delim : block.getD length 0 = eceAes128gcmPadDelim lastRecord
        · rw [if_neg (not_not.mpr delim)] at found
          exact ⟨0, by rw [next, delim, ← Except.ok.inj found, List.replicate_zero]⟩
        · rw [if_pos delim] at found
          cases found

theorem aes128gcm_faithful : aes128gcmPadding.Faithful := by
  intro lastRecord block text _ unpadded
  change eceAes128gcmUnpad lastRecord block = .ok text at unpadded
  rw [eceAes128gcmUnpad] at unpadded
  cases found : aes128gcmUnpadLoop lastRecord block block.length with
  | error error =>
      rw [found] at unpadded
      cases unpadded
  | ok blockLen =>
      rw [found] at unpadded
      obtain ⟨blockPadLen, laid⟩ := unpad_loop_found lastRecord block _ blockLen (Nat.le_refl _) found
      rw [List.take_length, Except.ok.inj unpadded, ← aes128gcm_updates_flatten] at laid
      rw [laid]
      apply laid_out aes128gcmPadding
      change _ ≤ aes128gcmPadCap _
      rw [aes128gcmPadCap]
      omega

-- What the receiver derives from its own private key, its secret and what it is sent.
def Scheme.Derives (scheme : Scheme Scalar Point) (ssl : OpenSsl Scalar Point)
    (rawRecvPrivKey authSecret salt rawSenderPubKey key nonce : Bytes) : Prop :=
  authSecret.length = eceWebpushAuthSecretLength ∧ salt.length = eceSaltLength ∧
    ∃ recvPrivKey senderPubKey, eceImportPrivateKey ssl rawRecvPrivKey = some recvPrivKey ∧
      eceImportPublicKey ssl rawSenderPubKey = some senderPubKey ∧
      scheme.deriveKeyAndNonce ssl .decrypt recvPrivKey senderPubKey authSecret salt = .ok (key, nonce)

theorem webpush_decrypted_iff (scheme : Scheme Scalar Point) (faithful : scheme.Faithful) (ssl : OpenSsl Scalar Point)
    (lawful : ssl.Lawful) (exact_ : ssl.Exact) (rs : Nat)
    (rawRecvPrivKey authSecret salt rawSenderPubKey ciphertext buffer text : Bytes) :
    written (scheme.webpushDecrypt ssl rs rawRecvPrivKey authSecret salt rawSenderPubKey ciphertext buffer) = .ok text ↔
      ∃ key nonce, scheme.Derives ssl rawRecvPrivKey authSecret salt rawSenderPubKey key nonce ∧
        scheme.needsTrailer rs ciphertext.length = false ∧ scheme.overhead < rs ∧
        ecePlaintextMaxLength rs scheme.padSize ciphertext.length ≤ buffer.length ∧
        scheme.SealedMessage ssl key nonce rs 0 ciphertext text := by
  constructor
  · intro done
    rw [Scheme.webpushDecrypt] at done
    by_cases authLength : authSecret.length ≠ eceWebpushAuthSecretLength
    · rw [if_pos authLength] at done
      cases done
    by_cases saltLength : salt.length ≠ eceSaltLength
    · rw [if_neg authLength, if_pos saltLength] at done
      cases done
    by_cases empty : ciphertext.length = 0
    · rw [if_neg authLength, if_neg saltLength, if_pos empty] at done
      cases done
    by_cases trailer : scheme.needsTrailer rs ciphertext.length = true
    · rw [if_neg authLength, if_neg saltLength, if_neg empty, if_pos trailer] at done
      cases done
    rw [if_neg authLength, if_neg saltLength, if_neg empty, if_neg trailer] at done
    cases imported : eceImportPrivateKey ssl rawRecvPrivKey with
    | none =>
        rw [imported] at done
        cases done
    | some recvPrivKey =>
        cases sent : eceImportPublicKey ssl rawSenderPubKey with
        | none =>
            rw [imported, sent] at done
            cases done
        | some senderPubKey =>
            cases derived : scheme.deriveKeyAndNonce ssl .decrypt recvPrivKey senderPubKey authSecret salt with
            | error error =>
                rw [imported, sent] at done
                simp only [derived] at done
                cases done
            | ok keyAndNonce =>
                obtain ⟨key, nonce⟩ := keyAndNonce
                rw [imported, sent] at done
                simp only [derived] at done
                exact ⟨key, nonce,
                  ⟨not_not.mp authLength, not_not.mp saltLength, recvPrivKey, senderPubKey, imported, sent, derived⟩,
                  Bool.eq_false_of_not_eq_true trailer,
                  (decrypt_into_iff scheme.toPadding faithful ssl lawful exact_ key nonce rs ciphertext buffer text).mp done⟩
  · rintro ⟨key, nonce, ⟨authLength, saltLength, recvPrivKey, senderPubKey, imported, sent, derived⟩, trailer, sealed_⟩
    have done := (decrypt_into_iff scheme.toPadding faithful ssl lawful exact_ key nonce rs ciphertext buffer text).mpr sealed_
    have nonempty : ¬ ciphertext.length = 0 := by
      obtain ⟨records, tail, length, least, _⟩ := sealed_message_length scheme.toPadding ssl lawful key nonce rs 0 ciphertext text
        sealed_.2.2
      have overhead : scheme.overhead = scheme.padSize + eceTagLength := rfl
      have padded := scheme.padded
      omega
    rw [Scheme.webpushDecrypt, if_neg (not_not.mpr authLength), if_neg (not_not.mpr saltLength), if_neg nonempty,
      if_neg (Bool.not_eq_true _ ▸ trailer), imported, sent]
    simp only [derived]
    exact done

-- A record size of zero is answered with success and leaves the buffer as it is; else what
-- decrypts is a message that someone with the key has sealed for this receiver, in full.
theorem aesgcm_decrypted_iff (ssl : OpenSsl Scalar Point) (lawful : ssl.Lawful) (exact_ : ssl.Exact) (call : DecryptCall)
    (buffer text : Bytes) :
    written (eceWebpushAesgcmDecryptInto ssl call buffer) = .ok text ↔
      (eceAesgcmRs call.rs = 0 ∧ text = buffer) ∨
        ∃ key nonce, (aesgcmScheme Scalar Point).Derives ssl call.rawRecvPrivKey call.authSecret call.salt call.rawSenderPubKey
            key nonce ∧
          call.ciphertext.length % eceAesgcmRs call.rs ≠ 0 ∧ aesgcmPadding.overhead < eceAesgcmRs call.rs ∧
          ecePlaintextMaxLength (eceAesgcmRs call.rs) eceAesgcmPadSize call.ciphertext.length ≤ buffer.length ∧
          aesgcmPadding.SealedMessage ssl key nonce (eceAesgcmRs call.rs) 0 call.ciphertext text := by
  have decrypted := webpush_decrypted_iff (aesgcmScheme Scalar Point) aesgcm_faithful ssl lawful exact_ (eceAesgcmRs call.rs)
    call.rawRecvPrivKey call.authSecret call.salt call.rawSenderPubKey call.ciphertext buffer text
  have trailer : (aesgcmScheme Scalar Point).needsTrailer (eceAesgcmRs call.rs) call.ciphertext.length = false ↔
      call.ciphertext.length % eceAesgcmRs call.rs ≠ 0 := decide_eq_false_iff_not
  rw [trailer] at decrypted
  rw [eceWebpushAesgcmDecryptInto]
  by_cases zero : eceAesgcmRs call.rs = 0
  · have stored : written (.ok (buffer.length, buffer)) = .ok buffer := congrArg Except.ok List.take_length
    rw [if_pos zero, stored]
    constructor
    · intro same
      exact .inl ⟨zero, (Except.ok.inj same).symm⟩
    · rintro (⟨_, rfl⟩ | ⟨key, nonce, _, _, roomy, _⟩)
      · rfl
      · exact absurd (zero ▸ roomy) (Nat.not_lt_zero _)
  · rw [if_neg zero, decrypted]
    constructor
    · exact .inr
    · rintro (⟨absent, _⟩ | sealed_)
      · exact absurd absent zero
      · exact sealed_

theorem hello_exact : helloSsl.Exact := by
  intro key iv ciphertext tag block opened
  simp only [helloSsl] at opened
  split at opened
  · rename_i same
    obtain ⟨rfl, rfl, rfl, rfl⟩ : key = helloKey ∧ iv = helloNonce ∧ ciphertext = helloSealed ∧ tag = helloTag := by
      simpa using same
    rw [← Option.some.inj opened]
    decide +kernel
  · cases opened

theorem aesgcm_decrypted_iff_hello :
    ∃ key nonce, (aesgcmScheme Bool Bool).Derives helloSsl (counting 1 32) (counting 0 16) (counting 16 16) helloSenderPubKey
        key nonce ∧
      aesgcmPadding.SealedMessage helloSsl key nonce 4112 0 (helloSealed ++ helloTag) (ascii "hello") := by
  have decrypted := (aesgcm_decrypted_iff helloSsl hello_lawful hello_exact
    ⟨counting 1 32, counting 0 16, counting 16 16, helloSenderPubKey, rsLength, helloSealed ++ helloTag, 8⟩ (List.replicate 8 0)
    (ascii "hello")).mp (by decide +kernel)
  rcases decrypted with ⟨zero, _⟩ | ⟨key, nonce, derives, _, _, _, message⟩
  · exact absurd zero (by decide)
  · exact ⟨key, nonce, derives, message⟩

theorem plaintext_written_iff (result : Except Fault (Nat × Bytes)) (text : Bytes) :
    plaintextOf (result.mapError .fault) = .ok text ↔ written result = .ok text := by
  rw [plaintext_written]
  constructor
  · exact without_fault _ text
  · intro done
    rw [done]
    rfl

-- The last record is told by its delimiter, so no length has to be refused.
theorem aes128gcm_decrypted_iff (ssl : OpenSsl Scalar Point) (lawful : ssl.Lawful) (exact_ : ssl.Exact)
    (rawRecvPrivKey authSecret payload buffer text : Bytes) :
    plaintextOf (eceWebpushAes128gcmDecrypt ssl rawRecvPrivKey authSecret payload buffer) = .ok text ↔
      ∃ params : PayloadParams, params.WellFormed ∧ payload = params.payload ∧
        ∃ key nonce, (aes128gcmScheme Scalar Point).Derives ssl rawRecvPrivKey authSecret params.salt params.keyId key nonce ∧
          ecePlaintextMaxLength params.rs eceAes128gcmPadSize params.ciphertext.length ≤ buffer.length ∧
          aes128gcmPadding.SealedMessage ssl key nonce params.rs 0 params.ciphertext text := by
  have decrypted := fun params : PayloadParams => webpush_decrypted_iff (aes128gcmScheme Scalar Point) aes128gcm_faithful ssl
    lawful exact_ params.rs rawRecvPrivKey authSecret params.salt params.keyId params.ciphertext buffer text
  rw [eceWebpushAes128gcmDecrypt]
  constructor
  · intro done
    cases extracted : eceAes128gcmPayloadExtractParams payload with
    | error fault =>
        rw [extracted] at done
        cases done
    | ok params =>
        rw [extracted] at done
        obtain ⟨wellFormed, whole⟩ := extract_sound payload params extracted
        obtain ⟨key, nonce, derives, _, _, room, message⟩ := (decrypted params).mp ((plaintext_written_iff _ text).mp done)
        exact ⟨params, wellFormed, whole, key, nonce, derives, room, message⟩
  · rintro ⟨params, wellFormed, rfl, key, nonce, derives, room, message⟩
    rw [extract_payload params wellFormed]
    exact (plaintext_written_iff _ text).mpr
      ((decrypted params).mpr ⟨key, nonce, derives, rfl, wellFormed.least, room, message⟩)

theorem greeting_exact : greetingSsl.Exact := by
  intro key iv ciphertext tag block opened
  simp only [greetingSsl] at opened
  split at opened
  · rename_i same
    obtain ⟨rfl, rfl, rfl, rfl⟩ : key = greetingKey ∧ iv = eceGenerateIv greetingNonce 0 ∧ ciphertext = firstSealed ∧
        tag = firstTag := by simpa using same
    rw [← Option.some.inj opened]
    decide +kernel
  · split at opened
    · rename_i same
      obtain ⟨rfl, rfl, rfl, rfl⟩ : key = greetingKey ∧ iv = eceGenerateIv greetingNonce 1 ∧ ciphertext = lastSealed ∧
          tag = lastTag := by simpa using same
      rw [← Option.some.inj opened]
      decide +kernel
    · cases opened

theorem aes128gcm_decrypted_iff_greeting :
    ∃ params : PayloadParams, params.WellFormed ∧ greetingPayload = params.payload ∧
      ∃ key nonce, (aes128gcmScheme Bool Bool).Derives greetingSsl (counting 1 32) (counting 0 16) params.salt params.keyId key
          nonce ∧
        ecePlaintextMaxLength params.rs eceAes128gcmPadSize params.ciphertext.length ≤ (List.replicate 11 (0 : UInt8)).length ∧
        aes128gcmPadding.SealedMessage greetingSsl key nonce params.rs 0 params.ciphertext (ascii "hello you") :=
  (aes128gcm_decrypted_iff greetingSsl greeting_lawful greeting_exact (counting 1 32) (counting 0 16) greetingPayload
    (List.replicate 11 0) (ascii "hello you")).mp (by decide +kernel)

end PushReceiver
