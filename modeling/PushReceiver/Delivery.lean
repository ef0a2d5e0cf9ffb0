import PushReceiver.Decrypt
import PushReceiver.HeaderAgreement

set_option autoImplicit false

namespace PushReceiver

variable {Scalar Point : Type}

-- The plaintext one record carries under its sequence number.
def openRecord (ssl : OpenSsl Scalar Point) (key nonce : Bytes) (counter : Nat) (record : Bytes) : Option Bytes :=
  (eceDecryptRecord ssl key (eceGenerateIv nonce counter) record).bind eceAesgcmUnpad

def recordOverhead : Nat := eceAesgcmPadSize + eceTagLength

theorem block_length (blockPlaintext : Bytes) (blockPadLen : Nat) :
    (eceAesgcmBlock blockPlaintext blockPadLen).length = eceAesgcmPadSize + blockPadLen + blockPlaintext.length := by
  simp [eceAesgcmBlock, writeUint16Be, eceAesgcmPadSize]
  omega

theorem unpad_block (blockPlaintext : Bytes) (blockPadLen : Nat) (fits : blockPadLen ≤ 65535) :
    eceAesgcmUnpad (eceAesgcmBlock blockPlaintext blockPadLen) = some blockPlaintext := by
  have high : (UInt8.ofNat (blockPadLen / 256)).toNat = blockPadLen / 256 := by
    rw [UInt8.toNat_ofNat']
    omega
  have low : (UInt8.ofNat blockPadLen).toNat = blockPadLen % 256 := UInt8.toNat_ofNat'
  have read : readUint16Be (eceAesgcmBlock blockPlaintext blockPadLen) = blockPadLen := by
    rw [readUint16Be, eceAesgcmBlock, writeUint16Be]
    simp only [List.cons_append, List.getD_cons_zero, List.getD_cons_succ, high, low]
    omega
  have body : (eceAesgcmBlock blockPlaintext blockPadLen).drop eceAesgcmPadSize =
      List.replicate blockPadLen 0 ++ blockPlaintext := rfl
  rw [eceAesgcmUnpad, read, block_length, if_neg (by omega), ← List.drop_drop, body]
  simp

theorem open_record (ssl : OpenSsl Scalar Point) (lawful : ssl.Lawful) (key nonce : Bytes) (counter : Nat)
    (blockPlaintext : Bytes) (blockPadLen : Nat) (block tag : Bytes) (fits : blockPadLen ≤ 65535)
    (small : (eceAesgcmBlock blockPlaintext blockPadLen).length ≤ intMax)
    (encrypted : ssl.gcmEncrypt key (eceGenerateIv nonce counter) (eceAesgcmBlock blockPlaintext blockPadLen) =
      some (block, tag)) :
    (block ++ tag).length = blockPlaintext.length + blockPadLen + recordOverhead ∧
      openRecord ssl key nonce counter (block ++ tag) = some blockPlaintext := by
  obtain ⟨blockLength, tagLength, opens⟩ := lawful.opens _ _ _ _ _ encrypted
  constructor
  · rw [List.length_append, blockLength, tagLength, block_length, recordOverhead]
    omega
  · rw [openRecord, decrypt_record_tag ssl key _ block tag tagLength (by rwa [blockLength]), opens]
    exact unpad_block blockPlaintext blockPadLen fits

-- One turn of the encryption loop that does not fail: how much padding and plaintext it takes,
-- the sealed record, and whether it was the last one.
structure EncryptStep (ssl : OpenSsl Scalar Point) (key nonce : Bytes) (rs maxCiphertextLen fuel padLen : Nat)
    (rest ciphertext : Bytes) (counter : Nat) (final : Bytes) (blockPadLen blockPlaintextLen : Nat) (block tag : Bytes) :
    Prop where
  padding : blockPadLen ≤ padLen
  fits : blockPadLen ≤ 65535
  plaintext : blockPlaintextLen ≤ rest.length
  room : blockPlaintextLen + blockPadLen ≤ rs - recordOverhead
  encrypted : ssl.gcmEncrypt key (eceGenerateIv nonce counter) (eceAesgcmBlock (rest.take blockPlaintextLen) blockPadLen) =
    some (block, tag)
  outcome :
    let recordEnd := ciphertextEnd maxCiphertextLen ciphertext.length (blockPlaintextLen + blockPadLen + recordOverhead)
    let written := (ciphertext ++ block).take (recordEnd - eceTagLength) ++ tag
    (blockPadLen = padLen ∧ blockPlaintextLen = rest.length ∧ recordEnd % rs ≠ 0 ∧ final = written) ∨
      (blockPlaintextLen + blockPadLen = rs - recordOverhead ∧
        encryptLoop ssl key nonce rs eceAesgcmPadSize maxCiphertextLen fuel (padLen - blockPadLen)
          (rest.drop blockPlaintextLen) written (counter + 1) = .ok final)

theorem encrypt_step (ssl : OpenSsl Scalar Point) (key nonce : Bytes) (rs maxCiphertextLen fuel padLen : Nat)
    (rest ciphertext : Bytes) (counter : Nat) (final : Bytes) (roomy : recordOverhead < rs)
    (encrypted : encryptLoop ssl key nonce rs eceAesgcmPadSize maxCiphertextLen (fuel + 1) padLen rest ciphertext counter =
      .ok final) :
    ∃ blockPadLen blockPlaintextLen block tag, EncryptStep ssl key nonce rs maxCiphertextLen fuel padLen rest ciphertext
      counter final blockPadLen blockPlaintextLen block tag := by
  obtain ⟨padding, within, fits⟩ := min_block_pad padLen (rs - recordOverhead) (Nat.sub_pos_of_lt roomy)
  simp only [encryptLoop] at encrypted
  rw [← recordOverhead] at encrypted
  generalize padded : eceAesgcmMinBlockPadLength padLen (rs - recordOverhead) = blockPadLen at *
  generalize taken : (if rest.length ≤ rs - recordOverhead - blockPadLen then rest.length
    else rs - recordOverhead - blockPadLen) = blockPlaintextLen at *
  have plaintext : blockPlaintextLen ≤ rest.length ∧ blockPlaintextLen + blockPadLen ≤ rs - recordOverhead := by
    rw [← taken]
    split <;> omega
  split at encrypted
  · cases encrypted
  · rename_i goesOn
    cases sealed_ : eceAesgcmEncryptBlock ssl key (eceGenerateIv nonce counter) (rest.take blockPlaintextLen) blockPadLen with
    | none =>
        rw [sealed_] at encrypted
        cases encrypted
    | some record =>
        obtain ⟨block, tag⟩ := record
        rw [sealed_] at encrypted
        dsimp only at encrypted
        refine ⟨blockPadLen, blockPlaintextLen, block, tag, padding, fits, plaintext.1, plaintext.2, ?_, ?_⟩
        · unfold eceAesgcmEncryptBlock at sealed_
          split at sealed_
          · cases sealed_
          · exact sealed_
        · dsimp only
          split at encrypted
          · rename_i last
            obtain ⟨noPadding, exhausted, noTrailer⟩ := last
            refine .inl ⟨by omega, by omega, ?_, (Except.ok.inj encrypted).symm⟩
            simpa [eceAesgcmNeedsTrailer] using noTrailer
          · rename_i notLast
            refine .inr ⟨?_, encrypted⟩
            rw [not_and, Nat.not_lt] at goesOn
            exact Nat.le_antisymm plaintext.2 (goesOn notLast)

-- The length formula counts the rest of the records exactly, so no record is cut short by it.
theorem record_end_last (start dataLen maxBlockLen : Nat) (short : dataLen < maxBlockLen) :
    ciphertextEnd (start + dataLen + recordOverhead * (dataLen / maxBlockLen + 1)) start (dataLen + recordOverhead) =
      start + dataLen + recordOverhead := by
  rw [Nat.div_eq_of_lt short, ciphertextEnd, if_pos (by omega), Nat.zero_add, Nat.mul_one]

theorem record_end_full (start dataLen maxBlockLen : Nat) (positive : 0 < maxBlockLen) (enough : maxBlockLen ≤ dataLen) :
    ciphertextEnd (start + dataLen + recordOverhead * (dataLen / maxBlockLen + 1)) start (maxBlockLen + recordOverhead) =
        start + maxBlockLen + recordOverhead ∧
      start + dataLen + recordOverhead * (dataLen / maxBlockLen + 1) =
        start + maxBlockLen + recordOverhead + (dataLen - maxBlockLen) +
          recordOverhead * ((dataLen - maxBlockLen) / maxBlockLen + 1) := by
  have records : dataLen / maxBlockLen = (dataLen - maxBlockLen) / maxBlockLen + 1 := Nat.div_eq_sub_div positive enough
  have overhead : recordOverhead = 18 := rfl
  rw [records, ciphertextEnd, overhead]
  generalize (dataLen - maxBlockLen) / maxBlockLen = others
  constructor
  · rw [if_neg (by omega)]
    omega
  · omega

theorem written_record (ciphertext block tag : Bytes) (recordEnd : Nat) (tagLength : tag.length = eceTagLength)
    (whole : recordEnd = ciphertext.length + (block ++ tag).length) :
    (ciphertext ++ block).take (recordEnd - eceTagLength) ++ tag = ciphertext ++ (block ++ tag) := by
  rw [List.take_of_length_le, List.append_assoc]
  rw [List.length_append] at whole ⊢
  omega

theorem step_record (ssl : OpenSsl Scalar Point) (lawful : ssl.Lawful) (key nonce : Bytes)
    (rs maxCiphertextLen fuel padLen : Nat) (roomy : recordOverhead < rs) (bounded : rs ≤ intMax) (rest ciphertext : Bytes)
    (counter : Nat) (final : Bytes) (blockPadLen blockPlaintextLen : Nat) (block tag : Bytes)
    (step : EncryptStep ssl key nonce rs maxCiphertextLen fuel padLen rest ciphertext counter final blockPadLen
      blockPlaintextLen block tag) :
    (block ++ tag).length = blockPlaintextLen + blockPadLen + recordOverhead ∧ tag.length = eceTagLength ∧
      openRecord ssl key nonce counter (block ++ tag) = some (rest.take blockPlaintextLen) := by
  have taken : (rest.take blockPlaintextLen).length = blockPlaintextLen := List.length_take_of_le step.plaintext
  have small : (eceAesgcmBlock (rest.take blockPlaintextLen) blockPadLen).length ≤ intMax := by
    have room := step.room
    rw [block_length, taken]
    simp only [recordOverhead] at room roomy
    omega
  obtain ⟨length, opens⟩ := open_record ssl lawful key nonce counter (rest.take blockPlaintextLen) blockPadLen block tag
    step.fits small step.encrypted
  rw [taken] at length
  exact ⟨length, (lawful.opens _ _ _ _ _ step.encrypted).2.1, opens⟩

-- A full record ends on a record boundary and asks for a trailer, so the last one is not full.
theorem last_record_short (rs start dataLen : Nat) (roomy : recordOverhead < rs) (aligned : start % rs = 0)
    (room : dataLen ≤ rs - recordOverhead)
    (noTrailer : ciphertextEnd (start + dataLen + recordOverhead * (dataLen / (rs - recordOverhead) + 1)) start
      (dataLen + recordOverhead) % rs ≠ 0) : dataLen < rs - recordOverhead := by
  refine Nat.lt_of_le_of_ne room fun boundary => noTrailer ?_
  obtain ⟨recordEnd, _⟩ := record_end_full start dataLen (rs - recordOverhead) (Nat.sub_pos_of_lt roomy)
    (Nat.le_of_eq boundary.symm)
  have boundaryEnd : start + (rs - recordOverhead) + recordOverhead = start + rs := by omega
  rw [← boundary] at recordEnd boundaryEnd
  rw [← boundary, recordEnd, boundaryEnd, Nat.add_mod_right, aligned]

theorem encrypt_sealed (ssl : OpenSsl Scalar Point) (lawful : ssl.Lawful) (key nonce : Bytes) (rs maxCiphertextLen : Nat)
    (roomy : recordOverhead < rs) (bounded : rs ≤ intMax) (fuel padLen : Nat) (rest ciphertext : Bytes) (counter : Nat)
    (final : Bytes) (aligned : ciphertext.length % rs = 0)
    (exact_ : maxCiphertextLen = ciphertext.length + (rest.length + padLen) +
      recordOverhead * ((rest.length + padLen) / (rs - recordOverhead) + 1))
    (encrypted : encryptLoop ssl key nonce rs eceAesgcmPadSize maxCiphertextLen fuel padLen rest ciphertext counter =
      .ok final) :
    ∃ stream, final = ciphertext ++ stream ∧
      Records.Sealed (openRecord ssl key nonce) recordOverhead rs counter stream rest := by
  induction fuel generalizing padLen rest ciphertext counter with
  | zero => cases encrypted
  | succ fuel ih =>
      obtain ⟨blockPadLen, blockPlaintextLen, block, tag, step⟩ :=
        encrypt_step ssl key nonce rs maxCiphertextLen fuel padLen rest ciphertext counter final roomy encrypted
      obtain ⟨length, tagLength, opens⟩ := step_record ssl lawful key nonce rs maxCiphertextLen fuel padLen roomy bounded rest
        ciphertext counter final blockPadLen blockPlaintextLen block tag step
      rcases step.outcome with ⟨rfl, rfl, noTrailer, written⟩ | ⟨whole, later⟩
      · have short : rest.length + blockPadLen < rs - recordOverhead :=
          last_record_short rs ciphertext.length (rest.length + blockPadLen) roomy aligned step.room (exact_ ▸ noTrailer)
        have recordEnd := record_end_last ciphertext.length (rest.length + blockPadLen) (rs - recordOverhead) short
        rw [← exact_] at recordEnd
        rw [written_record ciphertext block tag _ tagLength (by rw [recordEnd, length]; omega)] at written
        refine ⟨block ++ tag, written, .last counter (block ++ tag) rest ?_ ?_ ?_⟩
        · omega
        · omega
        · rw [opens, List.take_length]
      · have padding := step.padding
        have plaintext := step.plaintext
        obtain ⟨recordEnd, remaining⟩ := record_end_full ciphertext.length (rest.length + padLen) (rs - recordOverhead)
          (Nat.sub_pos_of_lt roomy) (by omega)
        rw [← exact_, ← whole] at recordEnd
        rw [← exact_] at remaining
        rw [written_record ciphertext block tag _ tagLength (by rw [recordEnd, length]; omega)] at later
        have recordLength : (block ++ tag).length = rs := by omega
        have left : (rest.drop blockPlaintextLen).length + (padLen - blockPadLen) =
            rest.length + padLen - (rs - recordOverhead) := by
          rw [List.length_drop]
          omega
        obtain ⟨stream, same, laterSealed⟩ := ih (padLen - blockPadLen) (rest.drop blockPlaintextLen)
          (ciphertext ++ (block ++ tag)) (counter + 1)
          (by rw [List.length_append, recordLength, Nat.add_mod_right, aligned])
          (by rw [left, List.length_append, recordLength, remaining]; omega) later
        refine ⟨block ++ tag ++ stream, by rw [same, List.append_assoc], ?_⟩
        rw [← List.take_append_drop blockPlaintextLen rest]
        exact .full counter (block ++ tag) stream _ _ recordLength opens laterSealed

theorem decrypt_record (ssl : OpenSsl Scalar Point) (key nonce : Bytes) (rs fuel : Nat) (record rest before text : Bytes)
    (counter : Nat) (atLeast : recordOverhead ≤ record.length)
    (cut : (if (record ++ rest).length < rs then (record ++ rest).length else rs) = record.length)
    (opens : openRecord ssl key nonce counter record = some text) :
    decryptLoop ssl key nonce rs eceAesgcmPadSize (fuel + 1) (record ++ rest) before counter =
      decryptLoop ssl key nonce rs eceAesgcmPadSize fuel rest (before ++ text) (counter + 1) := by
  obtain ⟨block, decrypted, unpadded⟩ := Option.bind_eq_some_iff.mp opens
  have overhead : recordOverhead = 18 := rfl
  have tag : eceTagLength = 16 := rfl
  have pad : eceAesgcmPadSize = 2 := rfl
  have some_ : record ++ rest ≠ [] := by
    intro empty
    have nothing := congrArg List.length empty
    rw [List.length_append, List.length_nil] at nothing
    omega
  simp only [decryptLoop, if_neg some_, cut, List.take_left, List.drop_left, decrypted, unpadded]
  rw [if_neg (by omega), if_neg (by omega)]

theorem decrypt_sealed (ssl : OpenSsl Scalar Point) (key nonce : Bytes) (rs counter : Nat) (stream text : Bytes)
    (isSealed : Records.Sealed (openRecord ssl key nonce) recordOverhead rs counter stream text) (fuel : Nat) (before : Bytes)
    (enough : stream.length ≤ fuel) :
    decryptLoop ssl key nonce rs eceAesgcmPadSize fuel stream before counter = .ok (before ++ text) := by
  induction isSealed generalizing fuel before with
  | last counter record text atLeast short opens =>
      obtain ⟨turns, rfl⟩ : ∃ turns, fuel = turns + 1 := by
        have overhead : recordOverhead = 18 := rfl
        exact ⟨fuel - 1, by omega⟩
      have step := decrypt_record ssl key nonce rs turns record [] before text counter atLeast
        (by rw [List.append_nil, if_pos short]) opens
      rw [List.append_nil] at step
      rw [step]
      cases turns <;> rfl
  | full counter record rest text others whole opens later ih =>
      obtain ⟨_, _, _, atLeast, short⟩ := Records.sealed_length _ _ _ later
      have overhead : recordOverhead = 18 := rfl
      rw [List.length_append] at enough
      obtain ⟨turns, rfl⟩ : ∃ turns, fuel = turns + 1 := ⟨fuel - 1, by omega⟩
      rw [decrypt_record ssl key nonce rs turns record rest before text counter (by omega)
        (by rw [List.length_append, if_neg (by omega), whole]) opens, ih turns (before ++ text) (by omega), List.append_assoc]

theorem plaintext_room (rs ciphertextLen : Nat) (roomy : recordOverhead < rs)
    (last : recordOverhead ≤ ciphertextLen % rs)
    (records : ciphertextLen / rs * rs + recordOverhead ≤ ciphertextLen) :
    ecePlaintextMaxLength rs eceAesgcmPadSize ciphertextLen ≠ 0 := by
  have overhead : eceAesgcmPadSize + eceTagLength = 18 := rfl
  have tag : eceTagLength = 16 := rfl
  rw [show recordOverhead = 18 from rfl] at roomy last records
  have lower : ciphertextLen / rs * 19 ≤ ciphertextLen / rs * rs := Nat.mul_le_mul_left _ (by omega)
  have short : ciphertextLen % rs ≠ 0 := by omega
  unfold ecePlaintextMaxLength
  simp only [tag, if_neg short]
  generalize ciphertextLen / rs = whole at *
  rw [if_neg (by omega), if_neg (by omega)]
  omega

-- What an encryption that returns ECE_OK has checked, derived and sealed.
structure SealedPlaintext (ssl : OpenSsl Scalar Point) (sender recv : EcKey Scalar Point) (authSecret salt : Bytes) (rs : Nat)
    (plaintext ciphertext key nonce : Bytes) : Prop where
  authLength : authSecret.length = eceWebpushAuthSecretLength
  saltLength : salt.length = eceSaltLength
  derived : eceWebpushAesgcmDeriveKeyAndNonce ssl .encrypt sender recv authSecret salt = .ok (key, nonce)
  isSealed : Records.Sealed (openRecord ssl key nonce) recordOverhead rs 0 ciphertext plaintext

theorem ciphertext_length (target : Target) (rs padLen plaintextLen : Nat)
    (nonzero : eceCiphertextMaxLength target rs eceAesgcmPadSize padLen plaintextLen ≠ 0) :
    recordOverhead < rs ∧ eceCiphertextMaxLength target rs eceAesgcmPadSize padLen plaintextLen =
      plaintextLen + padLen + recordOverhead * ((plaintextLen + padLen) / (rs - recordOverhead) + 1) := by
  unfold eceCiphertextMaxLength at nonzero ⊢
  simp only [← show recordOverhead = eceAesgcmPadSize + eceTagLength from rfl] at nonzero ⊢
  have extra : plaintextLen % rs ≠ 0 ∨ eceAesgcmNeedsTrailer rs plaintextLen = true := by
    by_cases boundary : plaintextLen % rs = 0
    · exact .inr (by simp [eceAesgcmNeedsTrailer, boundary])
    · exact .inl boundary
  simp only [if_pos extra] at nonzero ⊢
  split at nonzero
  · exact absurd rfl nonzero
  · rename_i roomy
    split at nonzero
    · exact absurd rfl nonzero
    · split at nonzero
      · exact absurd rfl nonzero
      · rename_i added counted
        rw [if_neg roomy, if_neg added, if_neg counted]
        exact ⟨Nat.lt_of_not_le roomy, rfl⟩

theorem encrypt_plaintext (target : Target) (ssl : OpenSsl Scalar Point) (lawful : ssl.Lawful) (sender recv : EcKey Scalar Point)
    (authSecret salt : Bytes) (rs padLen : Nat) (bounded : rs ≤ intMax) (plaintext : Bytes) (ciphertextLen : Nat)
    (ciphertext : Bytes)
    (encrypted : eceWebpushEncryptPlaintext target ssl sender recv authSecret salt rs eceAesgcmPadSize padLen plaintext
      ciphertextLen = .ok ciphertext) :
    ∃ key nonce, recordOverhead < rs ∧ SealedPlaintext ssl sender recv authSecret salt rs plaintext ciphertext key nonce := by
  unfold eceWebpushEncryptPlaintext at encrypted
  split at encrypted
  · cases encrypted
  · rename_i authLength
    split at encrypted
    · cases encrypted
    · rename_i saltLength
      split at encrypted
      · cases encrypted
      · dsimp only at encrypted
        split at encrypted
        · cases encrypted
        · rename_i nonzero
          obtain ⟨roomy, length⟩ := ciphertext_length target rs padLen plaintext.length nonzero
          split at encrypted
          · cases encrypted
          · cases derived : eceWebpushAesgcmDeriveKeyAndNonce ssl .encrypt sender recv authSecret salt with
            | error error =>
                rw [derived] at encrypted
                cases encrypted
            | ok keys =>
                obtain ⟨key, nonce⟩ := keys
                rw [derived] at encrypted
                obtain ⟨stream, same, isSealed⟩ := encrypt_sealed ssl lawful key nonce rs _ roomy bounded _ padLen plaintext [] 0
                  ciphertext (Nat.zero_mod rs) (by rw [length, List.length_nil, Nat.zero_add]) encrypted
                rw [List.nil_append] at same
                subst same
                exact ⟨key, nonce, roomy, not_not.mp authLength, not_not.mp saltLength, derived, isSealed⟩

theorem sealed_room (ssl : OpenSsl Scalar Point) (key nonce : Bytes) (rs : Nat) (roomy : recordOverhead < rs)
    (ciphertext plaintext : Bytes)
    (isSealed : Records.Sealed (openRecord ssl key nonce) recordOverhead rs 0 ciphertext plaintext) :
    ciphertext.length % rs ≠ 0 ∧ ciphertext.length ≠ 0 ∧ ecePlaintextMaxLength rs eceAesgcmPadSize ciphertext.length ≠ 0 := by
  obtain ⟨last, records⟩ := Records.sealed_mod 0 ciphertext plaintext isSealed
  have overhead : recordOverhead = 18 := rfl
  exact ⟨by omega, by omega, plaintext_room rs ciphertext.length roomy last records⟩

theorem decrypt_call (ssl : OpenSsl Scalar Point) (recv : EcKey Scalar Point) (sender : EcKey Scalar Point) (rs : Nat)
    (roomy : recordOverhead < rs) (call : DecryptCall) (plaintext key nonce : Bytes)
    (authLength : call.authSecret.length = eceWebpushAuthSecretLength) (saltLength : call.salt.length = eceSaltLength)
    (recvImported : eceImportPrivateKey ssl call.rawRecvPrivKey = some recv)
    (senderImported : eceImportPublicKey ssl call.rawSenderPubKey = some sender)
    (derived : eceWebpushAesgcmDeriveKeyAndNonce ssl .decrypt recv sender call.authSecret call.salt = .ok (key, nonce))
    (isSealed : Records.Sealed (openRecord ssl key nonce) recordOverhead rs 0 call.ciphertext plaintext)
    (buffer : call.plaintextLen = ecePlaintextMaxLength rs eceAesgcmPadSize call.ciphertext.length) :
    eceWebpushDecrypt ssl rs eceAesgcmPadSize call = .ok plaintext := by
  obtain ⟨noTrailer, nonempty, room⟩ := sealed_room ssl key nonce rs roomy call.ciphertext plaintext isSealed
  have whole : ¬ eceAesgcmNeedsTrailer rs call.ciphertext.length = true := by simpa [eceAesgcmNeedsTrailer] using noTrailer
  rw [eceWebpushDecrypt, if_neg (not_not.mpr authLength), if_neg (not_not.mpr saltLength), if_neg nonempty, if_neg whole,
    recvImported, senderImported]
  simp only [derived, eceDecryptRecords]
  rw [if_neg room, buffer, if_neg (Nat.lt_irrefl _),
    decrypt_sealed ssl key nonce rs 0 call.ciphertext plaintext isSealed _ [] (Nat.le_refl _), List.nil_append]

theorem entry_decoded (name bytes : Bytes) (plain : equalSign ∉ name) :
    decodeSecondField (name ++ equalSign :: eceBase64urlEncode bytes) = .ok bytes := by
  have whole : ((base64Alphabet true).encode bytes).takeWhile (· ≠ equalSign) = (base64Alphabet true).encode bytes :=
    List.takeWhile_eq_self_iff.mpr (each_differs _ equalSign (encode_plain true bytes).1)
  rw [decodeSecondField, split_second name _ equalSign plain, url_encode_refines, whole]
  exact base64_decode_stripped true bytes

theorem headers_scanned (appData : List AppData) (salt rawSenderPubKey : Bytes) (saltLength : salt.length = eceSaltLength)
    (keyLength : rawSenderPubKey.length = eceWebpushPublicKeyLength)
    (carried : (appData.filter isHeaderEntry).Perm
      [⟨ascii "encryption", ascii "salt=" ++ eceBase64urlEncode salt⟩,
        ⟨ascii "crypto-key", ascii "dh=" ++ eceBase64urlEncode rawSenderPubKey⟩]) :
    scanAppData appData [] [] = .accepts salt rawSenderPubKey := by
  have saltDecoded : decodeSecondField (ascii "salt=" ++ eceBase64urlEncode salt) = .ok salt :=
    entry_decoded (ascii "salt") salt (by decide)
  have keyDecoded : decodeSecondField (ascii "dh=" ++ eceBase64urlEncode rawSenderPubKey) = .ok rawSenderPubKey :=
    entry_decoded (ascii "dh") rawSenderPubKey (by decide)
  exact (scan_pair appData _ _ carried salt rawSenderPubKey).mpr ⟨⟨saltDecoded, saltLength⟩, keyDecoded, keyLength⟩

theorem deliver_decrypted (env : Environment) (call : DecryptCall) (app : App) (plaintext : Bytes)
    (decrypted : env.decrypt call = (eceOk, plaintext)) :
    (deliverMessage env (some call) app).messages = app.messages ++ [plaintext] := by
  simp [deliverMessage, decrypted, App.messages, App.emit]

-- What an accepted call of ece_webpush_aesgcm_encrypt_with_keys has sealed, seen by the receiver.
theorem encrypt_with_keys (target : Target) (ssl : OpenSsl Scalar Point) (lawful : ssl.Lawful)
    (recv sender : Scalar) (recvPoint senderPoint : Point)
    (rawRecvPrivKey rawRecvPubKey rawSenderPrivKey rawSenderPubKey : Bytes)
    (recvPair : KeyPair ssl rawRecvPrivKey rawRecvPubKey recv recvPoint)
    (senderPair : KeyPair ssl rawSenderPrivKey rawSenderPubKey sender senderPoint)
    (authSecret salt plaintext ciphertext : Bytes) (padLen ciphertextLen : Nat)
    (encrypted : eceWebpushAesgcmEncryptWithKeys target ssl rawSenderPrivKey authSecret salt rawRecvPubKey rsLength padLen
      plaintext ciphertextLen = .ok (rawSenderPubKey, ciphertext)) :
    ∃ key nonce,
      SealedPlaintext ssl ⟨some sender, senderPoint⟩ ⟨none, recvPoint⟩ authSecret salt (eceAesgcmRs rsLength) plaintext ciphertext
          key nonce ∧
        eceWebpushAesgcmDeriveKeyAndNonce ssl .decrypt ⟨some recv, recvPoint⟩ ⟨none, senderPoint⟩ authSecret salt =
          .ok (key, nonce) := by
  have agreed := lawful.agreement recv sender recvPoint senderPoint recvPair.multiplied senderPair.multiplied
  rw [eceWebpushAesgcmEncryptWithKeys] at encrypted
  simp only [if_neg (show eceAesgcmRs rsLength ≠ 0 by decide), import_private ssl _ _ _ _ senderPair,
    import_public ssl lawful _ _ _ _ recvPair, senderPair.encoded] at encrypted
  cases inner : eceWebpushEncryptPlaintext target ssl ⟨some sender, senderPoint⟩ ⟨none, recvPoint⟩ authSecret salt
      (eceAesgcmRs rsLength) eceAesgcmPadSize padLen plaintext ciphertextLen with
  | error error =>
      rw [inner] at encrypted
      cases encrypted
  | ok written =>
      rw [inner] at encrypted
      obtain ⟨_, rfl⟩ := Prod.mk.inj (Except.ok.inj encrypted)
      obtain ⟨key, nonce, _, parts⟩ := encrypt_plaintext target ssl lawful _ _ authSecret salt _ padLen (by decide) plaintext
        ciphertextLen written inner
      refine ⟨key, nonce, parts, ?_⟩
      rw [derive_modes ssl recv sender recvPoint senderPoint agreed]
      exact parts.derived

-- What the library encrypted for a receiver it decrypts for that receiver, in a buffer of the
-- size ece_aesgcm_plaintext_max_length gives.
theorem sent_decrypted (ssl : OpenSsl Scalar Point) (lawful : ssl.Lawful) (recv sender : Scalar)
    (recvPoint senderPoint : Point) (rawRecvPrivKey rawRecvPubKey rawSenderPrivKey rawSenderPubKey : Bytes)
    (recvPair : KeyPair ssl rawRecvPrivKey rawRecvPubKey recv recvPoint)
    (senderPair : KeyPair ssl rawSenderPrivKey rawSenderPubKey sender senderPoint)
    (authSecret salt plaintext ciphertext key nonce : Bytes)
    (parts : SealedPlaintext ssl ⟨some sender, senderPoint⟩ ⟨none, recvPoint⟩ authSecret salt (eceAesgcmRs rsLength) plaintext
      ciphertext key nonce)
    (derived : eceWebpushAesgcmDeriveKeyAndNonce ssl .decrypt ⟨some recv, recvPoint⟩ ⟨none, senderPoint⟩ authSecret salt =
      .ok (key, nonce)) :
    eceAesgcmPlaintextMaxLength rsLength ciphertext.length ≠ 0 ∧
      eceWebpushAesgcmDecrypt ssl
          { rawRecvPrivKey, authSecret, salt, rawSenderPubKey
            rs := rsLength
            ciphertext
            plaintextLen := eceAesgcmPlaintextMaxLength rsLength ciphertext.length } =
        (eceOk, plaintext) := by
  have roomy : recordOverhead < eceAesgcmRs rsLength := by decide
  have nonzero : eceAesgcmRs rsLength ≠ 0 := by decide
  have buffer : eceAesgcmPlaintextMaxLength rsLength ciphertext.length =
      ecePlaintextMaxLength (eceAesgcmRs rsLength) eceAesgcmPadSize ciphertext.length :=
    if_neg nonzero
  constructor
  · rw [buffer]
    exact (sealed_room ssl key nonce _ roomy ciphertext plaintext parts.isSealed).2.2
  · rw [eceWebpushAesgcmDecrypt]
    simp only [if_neg nonzero]
    rw [decrypt_call ssl ⟨some recv, recvPoint⟩ ⟨none, senderPoint⟩ (eceAesgcmRs rsLength) roomy _ plaintext key nonce
      parts.authLength parts.saltLength (import_private ssl _ _ _ _ recvPair) (import_public ssl lawful _ _ _ _ senderPair)
      derived parts.isSealed buffer]

theorem end_to_end_delivery (target : Target) (ssl : OpenSsl Scalar Point) (lawful : ssl.Lawful) (env : Environment)
    (decrypts : env.decrypt = eceWebpushAesgcmDecrypt ssl)
    (recv sender : Scalar) (recvPoint senderPoint : Point) (rawRecvPubKey rawSenderPrivKey rawSenderPubKey : Bytes)
    (recvPair : KeyPair ssl env.rawSubPrivKey rawRecvPubKey recv recvPoint)
    (senderPair : KeyPair ssl rawSenderPrivKey rawSenderPubKey sender senderPoint)
    (salt plaintext ciphertext : Bytes) (padLen ciphertextLen : Nat)
    (encrypted : eceWebpushAesgcmEncryptWithKeys target ssl rawSenderPrivKey env.authSecret salt rawRecvPubKey rsLength padLen
      plaintext ciphertextLen = .ok (rawSenderPubKey, ciphertext))
    (body : Bytes) (stanza : DataMessageStanza) (parsed : env.parseDataMessageStanza body = some stanza)
    (rawData : stanza.rawData = ciphertext)
    (carried : (stanza.appData.filter isHeaderEntry).Perm
      [⟨ascii "encryption", ascii "salt=" ++ eceBase64urlEncode salt⟩,
        ⟨ascii "crypto-key", ascii "dh=" ++ eceBase64urlEncode rawSenderPubKey⟩])
    (app : App) :
    ∃ next, handleDataMessageStanzaTag env body app = .returns next ∧ next.messages = app.messages ++ [plaintext] := by
  obtain ⟨key, nonce, parts, derived⟩ := encrypt_with_keys target ssl lawful recv sender recvPoint senderPoint _ _ _ _ recvPair
    senderPair env.authSecret salt plaintext ciphertext padLen ciphertextLen encrypted
  obtain ⟨room, decrypted⟩ := sent_decrypted ssl lawful recv sender recvPoint senderPoint _ _ _ _ recvPair senderPair
    env.authSecret salt plaintext ciphertext key nonce parts derived
  have scanned := headers_scanned stanza.appData salt rawSenderPubKey parts.saltLength senderPair.pubLength carried
  have passed := passed_of_scan env stanza salt rawSenderPubKey scanned parts.saltLength senderPair.pubLength (rawData ▸ room)
  rw [List.take_of_length_le (Nat.le_of_eq recvPair.privLength), List.take_of_length_le (Nat.le_of_eq parts.authLength),
    rawData] at passed
  rw [← decrypts] at decrypted
  refine ⟨_, handle_passes env body app stanza salt rawSenderPubKey parsed scanned, ?_⟩
  rw [passed, deliver_decrypted env _ _ plaintext decrypted, record_messages]

-- One exchange with the values P-256, HKDF-SHA-256 and AES-128-GCM give for it, the receiver's
-- key pair under `true` and the sender's under `false`.
def fromBase64 (text : String) : Bytes := (base64Decode (ascii text)).toOption.getD []

def counting (start length : Nat) : Bytes := (List.range length).map fun index => UInt8.ofNat (start + index)

def helloRecvPubKey : Bytes :=
  fromBase64 "BFFcPW6545a5BNP-yn9U_c0MwemXvzddylFa0KbDtANfRTa-OlDzGPv5pUdZAqIhUCvvDVfgjFOyzApW8X2fk1Q"

def helloSenderPubKey : Bytes :=
  fromBase64 "BB8UAUa_sbJR-E9N2-DUzc_Xev2YSpUg41eUAh-DErue7JlaCLH6dwTfPcwLUKlmUmP7dxH5X5-KRJxQluR8iSs"

def helloSecret : Bytes := fromBase64 "T-JDkI83iqHCppU4gi5u2QjDIl2GkldVB8ZJkBJFFQo"
def helloIkm : Bytes := fromBase64 "0S9jrGuAN6ICloirAq6o96b9c8s_nSzJyxa7vmi7nEw"
def helloKey : Bytes := fromBase64 "5ISD5za_f-367nBsqW8JkQ"
def helloNonce : Bytes := fromBase64 "AcN5oKhQ1AyeqMQV"
def helloBlock : Bytes := [0, 1, 0] ++ ascii "hello"
def helloSealed : Bytes := fromBase64 "xtCzSkTI9fU"
def helloTag : Bytes := fromBase64 "50-qaJAxDwOwl7S7Op-tJQ"

def helloInfo : Bytes := [0, 65] ++ helloRecvPubKey ++ [0, 65] ++ helloSenderPubKey

def helloSsl : OpenSsl Bool Bool where
  oct2priv rawKey := if rawKey = counting 1 32 then some true else if rawKey = counting 33 32 then some false else none
  pointMul scalar := some scalar
  oct2key rawKey := if rawKey = helloRecvPubKey then some true else if rawKey = helloSenderPubKey then some false else none
  point2oct point := some (if point then helloRecvPubKey else helloSenderPubKey)
  ecdhComputeKey point scalar := if point = scalar then none else some helloSecret
  hkdf salt ikm info outputLen :=
    if (salt, ikm, info, outputLen) = (counting 0 16, helloSecret, eceWebpushAesgcmIkmInfo, 32) then some helloIkm
    else if (salt, ikm, info, outputLen) = (counting 16 16, helloIkm, eceWebpushAesgcmKeyInfoPrefix ++ helloInfo, 16) then
      some helloKey
    else if (salt, ikm, info, outputLen) = (counting 16 16, helloIkm, eceWebpushAesgcmNonceInfoPrefix ++ helloInfo, 12) then
      some helloNonce
    else none
  gcmEncrypt key iv block := if (key, iv, block) = (helloKey, helloNonce, helloBlock) then some (helloSealed, helloTag) else none
  gcmDecrypt key iv ciphertext tag :=
    if (key, iv, ciphertext, tag) = (helloKey, helloNonce, helloSealed, helloTag) then some helloBlock else none

theorem hello_lawful : helloSsl.Lawful where
  encoding point oct encoded _ := by
    obtain rfl := Option.some.inj encoded
    cases point <;> decide +kernel
  agreement scalar other point otherPoint multiplied otherMultiplied := by
    obtain rfl := Option.some.inj multiplied
    obtain rfl := Option.some.inj otherMultiplied
    simp only [helloSsl, eq_comm]
  opens key iv block ciphertext tag encrypted := by
    simp only [helloSsl] at encrypted
    split at encrypted
    · rename_i same
      obtain ⟨rfl, rfl, rfl⟩ : key = helloKey ∧ iv = helloNonce ∧ block = helloBlock := by simpa using same
      obtain ⟨rfl, rfl⟩ := Prod.mk.inj (Option.some.inj encrypted)
      decide +kernel
    · cases encrypted

def helloStanza : DataMessageStanza :=
  { appData :=
      [⟨ascii "crypto-key", ascii "dh=" ++ eceBase64urlEncode helloSenderPubKey⟩,
        ⟨ascii "encryption", ascii "salt=" ++ eceBase64urlEncode (counting 16 16)⟩]
    persistentId := ascii "0:1"
    rawData := helloSealed ++ helloTag }

def helloEnvironment : Environment where
  parseLoginResponse _ := none
  parseDataMessageStanza body := if body = ascii "hello stanza" then some helloStanza else none
  parseHeartbeatAck _ := none
  rawSubPrivKey := counting 1 32
  authSecret := counting 0 16
  decrypt := eceWebpushAesgcmDecrypt helloSsl

theorem end_to_end_delivery_hello :
    ∃ next, handleDataMessageStanzaTag helloEnvironment (ascii "hello stanza") (App.loaded []) = .returns next ∧
      next.messages = (App.loaded []).messages ++ [ascii "hello"] :=
  end_to_end_delivery .x64 helloSsl hello_lawful helloEnvironment rfl true false true false helloRecvPubKey (counting 33 32)
    helloSenderPubKey ⟨by decide +kernel, by decide +kernel, rfl, rfl, by decide +kernel⟩
    ⟨by decide +kernel, by decide +kernel, rfl, rfl, by decide +kernel⟩ (counting 16 16) (ascii "hello")
    (helloSealed ++ helloTag) 1 24 (by decide +kernel) (ascii "hello stanza") helloStanza rfl rfl
    (List.Perm.swap _ _ _) (App.loaded [])

end PushReceiver
