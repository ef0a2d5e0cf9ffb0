import PushReceiver.Aes128gcm

set_option autoImplicit false

namespace PushReceiver

variable {Scalar Point : Type}

-- The errors of the functions that read a payload: ECE_ERROR_SHORT_HEADER, or one they share.
inductive PayloadFault where
  | shortHeader
  | fault (fault : Fault)
deriving DecidableEq, Repr

def readUint32Be (bytes : Bytes) : Nat := (bytes.take 4).foldl (fun value byte => value * 256 + byte.toNat) 0

def writeUint32Be (value : Nat) : Bytes :=
  [UInt8.ofNat (value >>> 24), UInt8.ofNat (value >>> 16), UInt8.ofNat (value >>> 8), UInt8.ofNat value]

-- The pointers into the payload and their lengths.
structure PayloadParams where
  salt : Bytes
  rs : Nat
  keyId : Bytes
  ciphertext : Bytes
deriving DecidableEq, Repr

def eceAes128gcmPayloadExtractParams (payload : Bytes) : Except PayloadFault PayloadParams :=
  if payload.length < eceAes128gcmHeaderLength then .error .shortHeader
  else
    let keyIdLen := (payload.getD (eceSaltLength + 4) 0).toNat
    if payload.length < eceAes128gcmHeaderLength + keyIdLen then .error .shortHeader
    else
      let rs := readUint32Be (payload.drop eceSaltLength)
      if rs < eceAes128gcmMinRs then .error (.fault (.code .invalidRs))
      else
        let payloadStart := eceAes128gcmHeaderLength + keyIdLen
        if payload.length - payloadStart = 0 then .error (.fault (.code .zeroCiphertext))
        else
          .ok {
            salt := payload.take eceSaltLength
            rs
            keyId := (payload.drop eceAes128gcmHeaderLength).take keyIdLen
            ciphertext := payload.drop payloadStart }

-- What a payload header can say, and the payload that says it.
structure PayloadParams.WellFormed (params : PayloadParams) : Prop where
  salt : params.salt.length = eceSaltLength
  least : eceAes128gcmMinRs ≤ params.rs
  bounded : params.rs < 2 ^ 32
  keyId : params.keyId.length ≤ eceAes128gcmMaxKeyIdLength
  some_ : params.ciphertext ≠ []

def payloadHeader (salt : Bytes) (rs : Nat) (keyId : Bytes) : Bytes :=
  salt ++ writeUint32Be rs ++ [UInt8.ofNat keyId.length] ++ keyId

def PayloadParams.payload (params : PayloadParams) : Bytes :=
  payloadHeader params.salt params.rs params.keyId ++ params.ciphertext

theorem read_write_uint32 (value : Nat) (bounded : value < 2 ^ 32) (rest : Bytes) :
    readUint32Be (writeUint32Be value ++ rest) = value := by
  simp only [readUint32Be, writeUint32Be, List.cons_append, List.nil_append, List.take_succ_cons, List.take_zero,
    List.foldl_cons, List.foldl_nil, UInt8.toNat_ofNat', Nat.shiftRight_eq_div_pow]
  omega

theorem write_read_uint32 (bytes : Bytes) (length : bytes.length = 4) :
    writeUint32Be (readUint32Be bytes) = bytes ∧ readUint32Be bytes < 2 ^ 32 := by
  obtain ⟨a, b, c, d, rfl⟩ : ∃ a b c d, bytes = [a, b, c, d] := by
    match bytes, length with
    | [a, b, c, d], _ => exact ⟨a, b, c, d, rfl⟩
  have ha := a.toNat_lt
  have hb := b.toNat_lt
  have hc := c.toNat_lt
  have hd := d.toNat_lt
  have value : readUint32Be [a, b, c, d] = ((a.toNat * 256 + b.toNat) * 256 + c.toNat) * 256 + d.toNat := by
    simp [readUint32Be]
  rw [value]
  constructor
  · rw [writeUint32Be]
    simp only [Nat.shiftRight_eq_div_pow, List.cons.injEq, and_true, ← UInt8.toNat_inj, UInt8.toNat_ofNat']
    omega
  · omega

theorem header_length (salt : Bytes) (rs : Nat) (keyId : Bytes) (saltLength : salt.length = eceSaltLength) :
    (payloadHeader salt rs keyId).length = eceAes128gcmHeaderLength + keyId.length := by
  rw [payloadHeader, List.length_append, List.length_append, List.length_append, saltLength]
  simp only [writeUint32Be, List.length_cons, List.length_nil, eceSaltLength, eceAes128gcmHeaderLength]

-- Reading what such a header and a ciphertext make up.
theorem extract_payload (params : PayloadParams) (wellFormed : params.WellFormed) :
    eceAes128gcmPayloadExtractParams params.payload = .ok params := by
  obtain ⟨saltLength, least, bounded, keyIdLength, some_⟩ := wellFormed
  have header := header_length params.salt params.rs params.keyId saltLength
  have nonempty := List.length_pos_of_ne_nil some_
  have length : params.payload.length = eceAes128gcmHeaderLength + params.keyId.length + params.ciphertext.length := by
    rw [PayloadParams.payload, List.length_append, header]
  have behindSalt : params.payload.drop eceSaltLength =
      writeUint32Be params.rs ++ (UInt8.ofNat params.keyId.length :: (params.keyId ++ params.ciphertext)) := by
    simp only [PayloadParams.payload, payloadHeader, List.append_assoc, List.drop_left' saltLength, List.cons_append,
      List.nil_append]
  have keyIdLen : (params.payload.getD (eceSaltLength + 4) 0).toNat = params.keyId.length := by
    rw [PayloadParams.payload, payloadHeader, List.append_assoc, List.append_assoc, List.append_assoc,
      List.getD_append_right _ _ _ _ (by omega), List.getD_append_right _ _ _ _ (by simp [writeUint32Be, saltLength])]
    simp only [writeUint32Be, List.length_cons, List.length_nil, saltLength, List.cons_append,
      Nat.add_sub_cancel_left, Nat.sub_self, List.getD_cons_zero, UInt8.toNat_ofNat']
    exact Nat.mod_eq_of_lt (by rw [eceAes128gcmMaxKeyIdLength] at keyIdLength; omega)
  have headerOnly : params.payload.drop eceAes128gcmHeaderLength = params.keyId ++ params.ciphertext := by
    have split_ : params.payload = (params.salt ++ writeUint32Be params.rs ++ [UInt8.ofNat params.keyId.length]) ++
        (params.keyId ++ params.ciphertext) := by
      simp only [PayloadParams.payload, payloadHeader, List.append_assoc]
    rw [split_, List.drop_left']
    simp only [List.length_append, saltLength, writeUint32Be, List.length_cons, List.length_nil, eceSaltLength,
      eceAes128gcmHeaderLength]
  rw [eceAes128gcmPayloadExtractParams, if_neg (by omega)]
  simp only [keyIdLen]
  rw [if_neg (by omega), behindSalt, read_write_uint32 _ bounded, if_neg (by omega), if_neg (by omega), headerOnly,
    List.take_left' rfl, ← List.drop_drop, headerOnly, List.drop_left' rfl, PayloadParams.payload, payloadHeader,
    List.append_assoc, List.append_assoc, List.append_assoc, List.take_left' saltLength]

theorem extract_sound (payload : Bytes) (params : PayloadParams)
    (extracted : eceAes128gcmPayloadExtractParams payload = .ok params) : params.WellFormed ∧ payload = params.payload := by
  rw [eceAes128gcmPayloadExtractParams] at extracted
  split at extracted
  · cases extracted
  · rename_i long
    dsimp only at extracted
    generalize whole : payload.getD (eceSaltLength + 4) 0 = keyIdLen at extracted
    split at extracted
    · cases extracted
    · rename_i within
      split at extracted
      · cases extracted
      · rename_i least
        split at extracted
        · cases extracted
        · rename_i some_
          obtain rfl := Except.ok.inj extracted
          have saltLength : (payload.take eceSaltLength).length = eceSaltLength := by
            rw [List.length_take]
            simp only [eceAes128gcmHeaderLength, eceSaltLength] at long ⊢
            omega
          have rsLength : ((payload.drop eceSaltLength).take 4).length = 4 := by
            rw [List.length_take, List.length_drop]
            simp only [eceAes128gcmHeaderLength, eceSaltLength] at long ⊢
            omega
          have keyIdLength : ((payload.drop eceAes128gcmHeaderLength).take keyIdLen.toNat).length = keyIdLen.toNat := by
            rw [List.length_take, List.length_drop]
            omega
          have byte := keyIdLen.toNat_lt
          obtain ⟨written, bounded⟩ := write_read_uint32 _ rsLength
          have value : readUint32Be ((payload.drop eceSaltLength).take 4) = readUint32Be (payload.drop eceSaltLength) := by
            rw [readUint32Be, List.take_take, Nat.min_self, readUint32Be]
          rw [value] at written bounded
          have delimiter : (payload.drop (eceSaltLength + 4)).take 1 = [keyIdLen] := by
            have inside : eceSaltLength + 4 < payload.length := by
              simp only [eceAes128gcmHeaderLength, eceSaltLength] at long ⊢
              omega
            rw [List.drop_eq_getElem_cons inside, List.take_succ_cons, List.take_zero, ← whole, List.getD_eq_getElem _ _ inside]
          refine ⟨⟨saltLength, Nat.le_of_not_lt least, bounded, by rw [keyIdLength]; exact Nat.le_of_lt_succ byte, ?_⟩, ?_⟩
          · exact List.ne_nil_of_length_pos (by rw [List.length_drop]; omega)
          · rw [PayloadParams.payload, payloadHeader, keyIdLength, written, UInt8.ofNat_toNat, ← delimiter]
            have first : payload.take eceSaltLength ++ (payload.drop eceSaltLength).take 4 = payload.take (eceSaltLength + 4) :=
              List.take_add.symm
            have second : payload.take (eceSaltLength + 4) ++ (payload.drop (eceSaltLength + 4)).take 1 =
                payload.take eceAes128gcmHeaderLength := List.take_add.symm
            have third : payload.take eceAes128gcmHeaderLength ++ (payload.drop eceAes128gcmHeaderLength).take keyIdLen.toNat =
                payload.take (eceAes128gcmHeaderLength + keyIdLen.toNat) := List.take_add.symm
            rw [first, second, third, List.take_append_drop]

-- A payload is read as these parameters exactly when it is the one payload that encodes them.
theorem payload_extracted_iff (payload : Bytes) (params : PayloadParams) :
    eceAes128gcmPayloadExtractParams payload = .ok params ↔ params.WellFormed ∧ payload = params.payload := by
  constructor
  · exact extract_sound payload params
  · rintro ⟨wellFormed, rfl⟩
    exact extract_payload params wellFormed

end PushReceiver
