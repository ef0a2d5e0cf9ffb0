import PushReceiver.Aesgcm

set_option autoImplicit false

namespace PushReceiver

variable {Scalar Point : Type}

-- ece_webpush_aesgcm_decrypt into the caller's buffer. A record size of zero leaves the buffer
-- and its length as they are.
def eceWebpushAesgcmDecryptInto (ssl : OpenSsl Scalar Point) (call : DecryptCall) (buffer : Bytes) :
    Except Fault (Nat × Bytes) :=
  let rs := eceAesgcmRs call.rs
  if rs = 0 then .ok (buffer.length, buffer)
  else
    (aesgcmScheme Scalar Point).webpushDecrypt ssl rs call.rawRecvPrivKey call.authSecret call.salt call.rawSenderPubKey
      call.ciphertext buffer

-- What the caller sees of a call that stayed inside the buffer: the error code, and the bytes
-- stored, or after an error the zeros the buffer was made with.
def reported (plaintextLen : Nat) (result : Except Fault Bytes) : Option (Int × Bytes) :=
  match result with
  | .ok plaintext => some (eceOk, plaintext)
  | .error (.code error) => some (error.code, List.replicate plaintextLen 0)
  | .error .overrun => none

theorem decrypt_loop_reads (ssl : OpenSsl Scalar Point) (key nonce : Bytes) (rs : Nat) (positive : 0 < rs) (fuel : Nat)
    (rest plaintext : Bytes) (counter : Nat) (enough : rest.length ≤ fuel) :
    decryptLoop ssl key nonce rs eceAesgcmPadSize fuel rest plaintext counter =
      (Records.read (aesgcmPadding.openRecord ssl key nonce) rs fuel counter rest).map (plaintext ++ ·) := by
  induction fuel generalizing rest plaintext counter with
  | zero =>
      obtain rfl := List.eq_nil_of_length_eq_zero (Nat.le_zero.mp enough)
      rw [decryptLoop, if_pos rfl]
      exact congrArg Except.ok (List.append_nil plaintext).symm
  | succ fuel ih =>
      rw [decryptLoop, Records.read]
      by_cases empty : rest = []
      · rw [if_pos empty, empty]
        exact congrArg Except.ok (List.append_nil plaintext).symm
      · have nonempty : ¬ rest.length = 0 := fun none => empty (List.eq_nil_of_length_eq_zero none)
        rw [if_neg empty, if_neg nonempty]
        have record : rest.take (if rest.length < rs then rest.length else rs) = rest.take rs := by
          split
          · rename_i short
            rw [List.take_length, List.take_of_length_le (Nat.le_of_lt short)]
          · rfl
        have others : rest.drop (if rest.length < rs then rest.length else rs) = rest.drop rs := by
          split
          · rename_i short
            rw [List.drop_length, List.drop_eq_nil_of_le (Nat.le_of_lt short)]
          · rfl
        have recordLen : (rest.take rs).length = if rest.length < rs then rest.length else rs := by
          rw [List.length_take]
          split <;> omega
        dsimp only
        rw [record, others, Padding.openRecord, recordLen]
        by_cases short : (if rest.length < rs then rest.length else rs) ≤ eceTagLength
        · rw [if_pos short, if_pos short]
          rfl
        · rw [if_neg short, if_neg short]
          cases eceDecryptRecord ssl key (eceGenerateIv nonce counter) (rest.take rs) with
          | none => rfl
          | some block =>
              dsimp only
              by_cases bare : (if rest.length < rs then rest.length else rs) - eceTagLength < eceAesgcmPadSize
              · rw [if_pos bare, if_pos (show _ < aesgcmPadding.padSize from bare)]
                rfl
              · rw [if_neg bare, if_neg (show ¬ _ < aesgcmPadding.padSize from bare)]
                have unpads : aesgcmPadding.unpad (decide (rest.length ≤ rs)) block =
                    aesgcmUnpad (decide (rest.length ≤ rs)) block := rfl
                rw [unpads, aesgcmUnpad]
                cases eceAesgcmUnpad block with
                | none => rfl
                | some text =>
                    dsimp only
                    rw [ih (rest.drop rs) (plaintext ++ text) (counter + 1) (by rw [List.length_drop]; omega)]
                    cases Records.read (aesgcmPadding.openRecord ssl key nonce) rs fuel (counter + 1) (rest.drop rs) with
                    | error error => rfl
                    | ok later => exact congrArg Except.ok (List.append_assoc plaintext text later)

theorem aesgcm_records_refine (ssl : OpenSsl Scalar Point) (streaming : ssl.Streaming) (key nonce : Bytes) (rs : Nat)
    (ciphertext buffer : Bytes) (stays : aesgcmPadding.StaysInside rs ciphertext.length) :
    written (aesgcmPadding.decryptInto ssl key nonce rs ciphertext buffer) =
      (eceDecryptRecords ssl key nonce rs eceAesgcmPadSize ciphertext buffer.length).mapError .code := by
  have query : ecePlaintextMaxLength rs eceAesgcmPadSize ciphertext.length =
      ecePlaintextMaxLength rs aesgcmPadding.padSize ciphertext.length := rfl
  rw [eceDecryptRecords, query]
  by_cases none : ecePlaintextMaxLength rs aesgcmPadding.padSize ciphertext.length = 0
  · rw [Padding.decryptInto, if_pos none, if_pos none]
    rfl
  · by_cases small : buffer.length < ecePlaintextMaxLength rs aesgcmPadding.padSize ciphertext.length
    · rw [Padding.decryptInto, if_neg none, if_neg none, if_pos small, if_pos small]
      rfl
    · have roomy : aesgcmPadding.overhead < rs := by
        by_contra cramped
        exact none (if_pos (Nat.le_of_not_lt cramped))
      rw [decrypt_into_read aesgcmPadding ssl streaming key nonce rs ciphertext buffer roomy stays none (Nat.le_of_not_lt small),
        if_neg none, if_neg small,
        decrypt_loop_reads ssl key nonce rs (by omega) _ ciphertext [] 0 (Nat.le_refl _)]
      cases Records.read (aesgcmPadding.openRecord ssl key nonce) rs ciphertext.length 0 ciphertext <;> rfl

theorem aesgcm_webpush_refines (ssl : OpenSsl Scalar Point) (streaming : ssl.Streaming) (call : DecryptCall) (rs : Nat)
    (stays : aesgcmPadding.StaysInside rs call.ciphertext.length) (buffer : Bytes) (length : buffer.length = call.plaintextLen) :
    written ((aesgcmScheme Scalar Point).webpushDecrypt ssl rs call.rawRecvPrivKey call.authSecret call.salt
        call.rawSenderPubKey call.ciphertext buffer) = (eceWebpushDecrypt ssl rs eceAesgcmPadSize call).mapError .code := by
  rw [Scheme.webpushDecrypt, eceWebpushDecrypt]
  by_cases authLength : call.authSecret.length ≠ eceWebpushAuthSecretLength
  · rw [if_pos authLength, if_pos authLength]
    rfl
  by_cases saltLength : call.salt.length ≠ eceSaltLength
  · rw [if_neg authLength, if_neg authLength, if_pos saltLength, if_pos saltLength]
    rfl
  by_cases empty : call.ciphertext.length = 0
  · rw [if_neg authLength, if_neg authLength, if_neg saltLength, if_neg saltLength, if_pos empty, if_pos empty]
    rfl
  rw [if_neg authLength, if_neg authLength, if_neg saltLength, if_neg saltLength, if_neg empty, if_neg empty]
  by_cases trailer : eceAesgcmNeedsTrailer rs call.ciphertext.length = true
  · rw [if_pos trailer, if_pos (show (aesgcmScheme Scalar Point).needsTrailer rs call.ciphertext.length = true from trailer)]
    rfl
  · rw [if_neg trailer, if_neg (show ¬ (aesgcmScheme Scalar Point).needsTrailer rs call.ciphertext.length = true from trailer)]
    cases eceImportPrivateKey ssl call.rawRecvPrivKey with
    | none => rfl
    | some recvPrivKey =>
        cases eceImportPublicKey ssl call.rawSenderPubKey with
        | none => rfl
        | some senderPubKey =>
            have derives : (aesgcmScheme Scalar Point).deriveKeyAndNonce = eceWebpushAesgcmDeriveKeyAndNonce := rfl
            dsimp only
            rw [derives]
            cases eceWebpushAesgcmDeriveKeyAndNonce ssl .decrypt recvPrivKey senderPubKey call.authSecret call.salt with
            | error error => rfl
            | ok keyAndNonce =>
                obtain ⟨key, nonce⟩ := keyAndNonce
                have refines := aesgcm_records_refine ssl streaming key nonce rs call.ciphertext buffer stays
                rw [length] at refines
                exact refines

theorem hello_streaming : helloSsl.Streaming where
  decrypted key iv ciphertext tag block opened := by
    simp only [helloSsl] at opened
    split at opened
    · rename_i same
      have sealed_ : ciphertext = helloSealed := (Prod.mk.inj (Prod.mk.inj (Prod.mk.inj same).2).2).1
      rw [← Option.some.inj opened, sealed_]
      decide +kernel
    · cases opened

-- Where no block leaves the buffer, which its caller makes of zeros, the call does what the model
-- without a buffer says.
theorem aesgcm_decrypt_refines (ssl : OpenSsl Scalar Point) (streaming : ssl.Streaming) (call : DecryptCall)
    (stays : aesgcmPadding.StaysInside (eceAesgcmRs call.rs) call.ciphertext.length) :
    reported call.plaintextLen (written (eceWebpushAesgcmDecryptInto ssl call (List.replicate call.plaintextLen 0))) =
      some (eceWebpushAesgcmDecrypt ssl call) := by
  rw [eceWebpushAesgcmDecryptInto, eceWebpushAesgcmDecrypt]
  by_cases zero : eceAesgcmRs call.rs = 0
  · rw [if_pos zero, if_pos zero, written]
    simp only [Except.map, reported, List.length_replicate, List.take_replicate, Nat.min_self]
  · rw [if_neg zero, if_neg zero, aesgcm_webpush_refines ssl streaming call _ stays _ List.length_replicate]
    cases eceWebpushDecrypt ssl (eceAesgcmRs call.rs) eceAesgcmPadSize call <;> rfl

theorem aesgcm_decrypt_refines_hello :
    reported 8 (written (eceWebpushAesgcmDecryptInto helloSsl
        ⟨counting 1 32, counting 0 16, counting 16 16, helloSenderPubKey, rsLength, helloSealed ++ helloTag, 8⟩
        (List.replicate 8 0))) =
      some (eceWebpushAesgcmDecrypt helloSsl
        ⟨counting 1 32, counting 0 16, counting 16 16, helloSenderPubKey, rsLength, helloSealed ++ helloTag, 8⟩) :=
  aesgcm_decrypt_refines helloSsl hello_streaming
    ⟨counting 1 32, counting 0 16, counting 16 16, helloSenderPubKey, rsLength, helloSealed ++ helloTag, 8⟩
    (.inr (.inr (.inl (by decide +kernel))))

-- One call of EVP_EncryptUpdate takes an int's worth of bytes; the others of a block are short.
theorem updates_small (bufferLen : Nat) (updates : List Bytes) (offset : Nat)
    (inside : offset + updates.flatten.length ≤ bufferLen) (small : ∀ update ∈ updates, update.length ≤ intMax) :
    encryptUpdates bufferLen offset updates = .ok () := by
  induction updates generalizing offset with
  | nil => rfl
  | cons update rest ih =>
      rw [List.flatten_cons, List.length_append] at inside
      rw [encryptUpdates, if_neg (Nat.not_lt.mpr (small update List.mem_cons_self)), if_neg (by omega)]
      exact ih _ (by omega) fun other listed => small other (List.mem_cons_of_mem update listed)

theorem updates_large (bufferLen : Nat) (updates : List Bytes) (offset : Nat) (update : Bytes) (listed : update ∈ updates)
    (large : intMax < update.length) : encryptUpdates bufferLen offset updates ≠ .ok () := by
  induction updates generalizing offset with
  | nil => cases listed
  | cons first rest ih =>
      rw [encryptUpdates]
      split
      · exact fun done => by cases done
      · rename_i short
        split
        · exact fun done => by cases done
        · rcases List.mem_cons.mp listed with rfl | later
          · exact absurd large short
          · exact ih _ later

theorem aesgcm_record_refines (ssl : OpenSsl Scalar Point) (lawful : ssl.Lawful) (key iv : Bytes) (lastRecord : Bool)
    (blockPlaintext : Bytes) (blockPadLen ciphertextStart recordEnd : Nat) (buffer : Bytes)
    (whole : recordEnd = ciphertextStart + (blockPlaintext.length + blockPadLen + aesgcmPadding.overhead))
    (inside : recordEnd ≤ buffer.length) :
    (eceAesgcmEncryptBlock ssl key iv blockPlaintext blockPadLen = none ∧
      aesgcmPadding.encryptRecord ssl key iv lastRecord blockPlaintext blockPadLen ciphertextStart recordEnd buffer =
        .error (.code .encrypt)) ∨
      ∃ block tag next, eceAesgcmEncryptBlock ssl key iv blockPlaintext blockPadLen = some (block, tag) ∧
        aesgcmPadding.encryptRecord ssl key iv lastRecord blockPlaintext blockPadLen ciphertextStart recordEnd buffer = .ok next ∧
        (block ++ tag).length = blockPlaintext.length + blockPadLen + aesgcmPadding.overhead ∧ tag.length = eceTagLength ∧
        next.length = buffer.length ∧ next.take recordEnd = buffer.take ciphertextStart ++ (block ++ tag) := by
  have length := aesgcmPadding.updates_length lastRecord blockPlaintext blockPadLen
  have overhead : aesgcmPadding.overhead = aesgcmPadding.padSize + eceTagLength := rfl
  have block : (aesgcmPadding.updates lastRecord blockPlaintext blockPadLen).flatten =
      eceAesgcmBlock blockPlaintext blockPadLen := aesgcm_updates_flatten lastRecord blockPlaintext blockPadLen
  have fits : ciphertextStart + (aesgcmPadding.updates lastRecord blockPlaintext blockPadLen).flatten.length ≤
      buffer.length := by
    omega
  rw [eceAesgcmEncryptBlock]
  by_cases large : intMax < blockPlaintext.length
  · refine .inl ⟨if_pos large, ?_⟩
    have listed : blockPlaintext ∈ aesgcmPadding.updates lastRecord blockPlaintext blockPadLen :=
      List.mem_cons_of_mem _ (List.mem_append_right _ List.mem_cons_self)
    have refused := (updates_inside buffer.length _ ciphertextStart fits).resolve_left
      (updates_large buffer.length _ ciphertextStart blockPlaintext listed large)
    rw [Padding.encryptRecord, refused]
  · rw [if_neg large]
    have small : ∀ update ∈ aesgcmPadding.updates lastRecord blockPlaintext blockPadLen, update.length ≤ intMax := by
      intro update listed
      rcases List.mem_cons.mp listed with rfl | other
      · exact show 2 ≤ intMax by decide
      · rcases List.mem_append.mp other with zero | text
        · rw [(List.mem_replicate.mp zero).2]
          exact show 1 ≤ intMax by decide
        · rw [List.mem_singleton.mp text]
          exact Nat.le_of_not_lt large
    rw [← block]
    cases encrypted : ssl.gcmEncrypt key iv (aesgcmPadding.updates lastRecord blockPlaintext blockPadLen).flatten with
    | none =>
        refine .inl ⟨rfl, ?_⟩
        rw [Padding.encryptRecord, updates_small buffer.length _ ciphertextStart fits small, encrypted]
    | some record =>
        obtain ⟨sealedBlock, tag⟩ := record
        obtain ⟨_, tagLength, _⟩ := lawful.opens _ _ _ _ _ encrypted
        rcases encrypt_record_inside aesgcmPadding ssl lawful key iv lastRecord blockPlaintext blockPadLen ciphertextStart
          recordEnd buffer whole inside with ⟨_, updates | none⟩ | ⟨other, otherTag, next, same, stored, recordLength, kept, appended⟩
        · exact absurd (updates_small buffer.length _ ciphertextStart fits small) updates
        · rw [encrypted] at none
          cases none
        · rw [encrypted] at same
          obtain ⟨rfl, rfl⟩ := Prod.mk.inj (Option.some.inj same)
          exact .inr ⟨sealedBlock, tag, next, rfl, stored, recordLength, tagLength, kept, appended⟩

theorem aesgcm_loop_refines (ssl : OpenSsl Scalar Point) (lawful : ssl.Lawful) (key nonce : Bytes) (rs maxCiphertextLen : Nat)
    (roomy : aesgcmPadding.overhead < rs) (fuel padLen : Nat) (rest : Bytes) (ciphertextStart counter : Nat) (buffer : Bytes)
    (aligned : ciphertextStart % rs = 0)
    (enough : ciphertextStart + (aesgcmScheme Scalar Point).streamLength rs (rest.length + padLen) ≤ maxCiphertextLen)
    (inside : maxCiphertextLen ≤ buffer.length) :
    written ((aesgcmScheme Scalar Point).encryptRecords ssl key nonce rs maxCiphertextLen fuel padLen rest ciphertextStart counter
        buffer) =
      (encryptLoop ssl key nonce rs eceAesgcmPadSize maxCiphertextLen fuel padLen rest (buffer.take ciphertextStart)
        counter).mapError .code := by
  have overhead : aesgcmPadding.overhead = 18 := rfl
  have positive : 0 < rs - aesgcmPadding.overhead := Nat.sub_pos_of_lt roomy
  induction fuel generalizing padLen rest ciphertextStart counter buffer with
  | zero => rfl
  | succ fuel ih =>
      obtain ⟨padding, within⟩ := aesgcmPadding.pad_bound padLen (rs - aesgcmPadding.overhead) positive
      have some_ : aesgcmPadding.overhead ≤ aesgcmPadding.overhead *
          (aesgcmScheme Scalar Point).recordsOf rs (rest.length + padLen) := by
        apply Nat.le_mul_of_pos_right
        rw [Scheme.recordsOf]
        split <;> exact Nat.succ_pos _
      have total : (aesgcmScheme Scalar Point).streamLength rs (rest.length + padLen) = rest.length + padLen +
          aesgcmPadding.overhead * (aesgcmScheme Scalar Point).recordsOf rs (rest.length + padLen) := rfl
      have startWithin : (buffer.take ciphertextStart).length = ciphertextStart := List.length_take_of_le (by omega)
      have turn := Scheme.encryptRecords.eq_2 (aesgcmScheme Scalar Point) ssl key nonce rs maxCiphertextLen padLen rest
        ciphertextStart counter buffer fuel
      have listTurn := encryptLoop.eq_2 ssl key nonce rs eceAesgcmPadSize maxCiphertextLen padLen rest
        (buffer.take ciphertextStart) counter fuel
      rw [Nat.succ_eq_add_one] at turn listTurn
      rw [startWithin] at listTurn
      have sameOverhead : eceAesgcmPadSize + eceTagLength = aesgcmPadding.overhead := rfl
      have samePadding : eceAesgcmMinBlockPadLength padLen (rs - aesgcmPadding.overhead) =
          aesgcmPadding.minBlockPadLength padLen (rs - aesgcmPadding.overhead) := rfl
      have sameTrailer : (aesgcmScheme Scalar Point).needsTrailer = eceAesgcmNeedsTrailer := rfl
      have schemePadding : (aesgcmScheme Scalar Point).toPadding = aesgcmPadding := rfl
      rw [sameOverhead, samePadding] at listTurn
      rw [schemePadding, sameTrailer] at turn
      generalize aesgcmPadding.minBlockPadLength padLen (rs - aesgcmPadding.overhead) = blockPadLen at *
      generalize taken : (if rest.length ≤ rs - aesgcmPadding.overhead - blockPadLen then rest.length
        else rs - aesgcmPadding.overhead - blockPadLen) = blockPlaintextLen at *
      have plaintext : blockPlaintextLen ≤ rest.length ∧
          blockPlaintextLen + blockPadLen ≤ rs - aesgcmPadding.overhead := by
        rw [← taken]
        split <;> omega
      have whole : ciphertextEnd maxCiphertextLen ciphertextStart (blockPlaintextLen + blockPadLen + aesgcmPadding.overhead) =
          ciphertextStart + (blockPlaintextLen + blockPadLen + aesgcmPadding.overhead) := record_end _ _ _ (by omega)
      rw [whole] at turn listTurn
      have takenLength : (rest.take blockPlaintextLen).length = blockPlaintextLen := List.length_take_of_le plaintext.1
      generalize recordEnd : ciphertextStart + (blockPlaintextLen + blockPadLen + aesgcmPadding.overhead) = stop at *
      have notCramped : ¬ (true = false ∧ blockPlaintextLen + blockPadLen < rs - aesgcmPadding.overhead) :=
        fun both => Bool.noConfusion both.1
      rw [turn, listTurn]
      clear turn listTurn
      rcases aesgcm_record_refines ssl lawful key (eceGenerateIv nonce counter)
        (decide (padLen - blockPadLen = 0 ∧ rest.length ≤ blockPlaintextLen ∧ eceAesgcmNeedsTrailer rs stop = false))
        (rest.take blockPlaintextLen) blockPadLen ciphertextStart stop buffer (by rw [takenLength]; exact recordEnd.symm)
        (by omega) with ⟨listRefused, refused⟩ | ⟨block, tag, next, listSealed, stored, recordLength, tagLength, kept, appended⟩
      · rw [listRefused, refused]
        by_cases last : padLen - blockPadLen = 0 ∧ rest.length ≤ blockPlaintextLen ∧ eceAesgcmNeedsTrailer rs stop = false
        · rw [decide_eq_true last, if_neg notCramped, if_neg (show ¬ (¬ _ ∧ _) from fun both => both.1 last)]
          rfl
        · rw [decide_eq_false last]
          by_cases cramped : blockPlaintextLen + blockPadLen < rs - aesgcmPadding.overhead
          · rw [if_pos ⟨rfl, cramped⟩, if_pos ⟨last, cramped⟩]
            rfl
          · rw [if_neg (fun both => cramped both.2), if_neg (fun both => cramped both.2)]
            rfl
      · rw [takenLength] at recordLength
        have written_ : (buffer.take ciphertextStart ++ block).take (stop - eceTagLength) ++ tag = next.take stop := by
          rw [appended, written_record _ block tag stop tagLength (by rw [startWithin]; omega)]
        rw [listSealed, stored]
        dsimp only
        rw [written_]
        by_cases last : padLen - blockPadLen = 0 ∧ rest.length ≤ blockPlaintextLen ∧ eceAesgcmNeedsTrailer rs stop = false
        · rw [decide_eq_true last, if_neg notCramped, if_neg (show ¬ (¬ _ ∧ _) from fun both => both.1 last), if_pos rfl, if_pos last]
          rfl
        · rw [decide_eq_false last, if_neg Bool.false_ne_true, if_neg last]
          by_cases cramped : blockPlaintextLen + blockPadLen < rs - aesgcmPadding.overhead
          · rw [if_pos ⟨rfl, cramped⟩, if_pos ⟨last, cramped⟩]
            rfl
          · rw [if_neg (fun both => cramped both.2), if_neg (fun both => cramped both.2)]
            have full : blockPlaintextLen + blockPadLen = rs - aesgcmPadding.overhead := by omega
            have left : (rest.drop blockPlaintextLen).length + (padLen - blockPadLen) =
                rest.length + padLen - (rs - aesgcmPadding.overhead) := by
              rw [List.length_drop]
              omega
            have boundary : stop = ciphertextStart + rs := by omega
            have trailer : (aesgcmScheme Scalar Point).needsTrailer rs 0 = true := decide_eq_true (Nat.zero_mod rs)
            have later := records_full (aesgcmScheme Scalar Point) rs (rest.length + padLen) roomy
              (by rcases Nat.lt_or_eq_of_le (show rs - aesgcmPadding.overhead ≤ rest.length + padLen by omega) with more | same
                  · exact .inl more
                  · exact .inr ⟨same.symm, trailer⟩)
            apply ih
            · rw [boundary, Nat.add_mod_right, aligned]
            · rw [Scheme.streamLength, later, Nat.mul_succ] at enough
              rw [left, Scheme.streamLength]
              have schemeOverhead : (aesgcmScheme Scalar Point).overhead = aesgcmPadding.overhead := rfl
              rw [schemeOverhead] at enough ⊢
              omega
            · rwa [kept]

-- "aesgcm" encryption never leaves the caller's buffer, and writes what the model without a
-- buffer says.
theorem aesgcm_encrypt_refines (target : Target) (ssl : OpenSsl Scalar Point) (lawful : ssl.Lawful)
    (senderPrivKey recvPubKey : EcKey Scalar Point) (authSecret salt : Bytes) (rs padLen : Nat) (plaintext buffer : Bytes) :
    written ((aesgcmScheme Scalar Point).encryptPlaintext target ssl senderPrivKey recvPubKey authSecret salt rs padLen plaintext
        buffer) =
      (eceWebpushEncryptPlaintext target ssl senderPrivKey recvPubKey authSecret salt rs eceAesgcmPadSize padLen plaintext
        buffer.length).mapError .code := by
  have query : (aesgcmScheme Scalar Point).ciphertextMaxLength target rs padLen plaintext.length =
      eceCiphertextMaxLength target rs eceAesgcmPadSize padLen plaintext.length := rfl
  have derives : (aesgcmScheme Scalar Point).deriveKeyAndNonce = eceWebpushAesgcmDeriveKeyAndNonce := rfl
  rw [Scheme.encryptPlaintext, eceWebpushEncryptPlaintext, query, derives]
  by_cases authLength : authSecret.length ≠ eceWebpushAuthSecretLength
  · rw [if_pos authLength, if_pos authLength]
    rfl
  by_cases saltLength : salt.length ≠ eceSaltLength
  · rw [if_neg authLength, if_neg authLength, if_pos saltLength, if_pos saltLength]
    rfl
  by_cases empty : plaintext.length = 0
  · rw [if_neg authLength, if_neg authLength, if_neg saltLength, if_neg saltLength, if_pos empty, if_pos empty]
    rfl
  rw [if_neg authLength, if_neg authLength, if_neg saltLength, if_neg saltLength, if_neg empty, if_neg empty]
  dsimp only
  by_cases none : eceCiphertextMaxLength target rs eceAesgcmPadSize padLen plaintext.length = 0
  · rw [if_pos none, if_pos none]
    rfl
  by_cases small : buffer.length < eceCiphertextMaxLength target rs eceAesgcmPadSize padLen plaintext.length
  · rw [if_neg none, if_neg none, if_pos small, if_pos small]
    rfl
  rw [if_neg none, if_neg none, if_neg small, if_neg small]
  cases eceWebpushAesgcmDeriveKeyAndNonce ssl .encrypt senderPrivKey recvPubKey authSecret salt with
  | error error => rfl
  | ok keyAndNonce =>
      obtain ⟨key, nonce⟩ := keyAndNonce
      obtain ⟨roomy, _, maxLength⟩ := max_length_records (aesgcmScheme Scalar Point) target rs padLen plaintext.length
        (by rwa [query])
      have most := Nat.mul_le_mul_left (aesgcmScheme Scalar Point).overhead
        (counted_records (aesgcmScheme Scalar Point) rs padLen plaintext.length (Nat.pos_of_ne_zero empty)
          (aesgcm_counted rs padLen plaintext.length))
      have refines := aesgcm_loop_refines ssl lawful key nonce rs
        (eceCiphertextMaxLength target rs eceAesgcmPadSize padLen plaintext.length) roomy (padLen + plaintext.length + 1) padLen
        plaintext 0 0 buffer (Nat.zero_mod rs)
        (by rw [Nat.zero_add, ← query, maxLength, Scheme.streamLength]; exact Nat.add_le_add_left most _)
        (Nat.le_of_not_lt small)
      rw [List.take_zero] at refines
      exact refines

theorem aesgcm_encrypt_refines_hello :
    written ((aesgcmScheme Bool Bool).encryptPlaintext .x64 helloSsl ⟨some false, false⟩ ⟨none, true⟩ (counting 0 16)
        (counting 16 16) 4112 1 (ascii "hello") (List.replicate 24 0)) =
      (eceWebpushEncryptPlaintext .x64 helloSsl ⟨some false, false⟩ ⟨none, true⟩ (counting 0 16) (counting 16 16) 4112
        eceAesgcmPadSize 1 (ascii "hello") 24).mapError .code :=
  aesgcm_encrypt_refines .x64 helloSsl hello_lawful ⟨some false, false⟩ ⟨none, true⟩ (counting 0 16) (counting 16 16) 4112 1
    (ascii "hello") (List.replicate 24 0)

end PushReceiver
