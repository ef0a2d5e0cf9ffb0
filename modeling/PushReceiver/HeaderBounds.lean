import PushReceiver.Base64UrlBounds
import PushReceiver.HeaderGrammar

set_option autoImplicit false

namespace PushReceiver

-- encryptionLoop with the caller's buffer in the place of the salt; none for a write outside it.
def encryptionLoopInto (overflow : Bytes → UInt32) : HeaderParam → EncryptionParam → Option (Except EceError EncryptionParam)
  | [], param => some (.ok param)
  | pair :: rest, param =>
      if pair.hasName (ascii "keyid") then
        if param.keyId.isSome then some (.error .invalidEncryptionHeader)
        else encryptionLoopInto overflow rest { param with keyId := some pair.value }
      else if pair.hasName (ascii "rs") then
        if param.rsValue ≠ 0 then some (.error .invalidEncryptionHeader)
        else
          match scanU32 overflow pair.value with
          | none => some (.error .invalidRs)
          | some rsValue =>
              if rsValue < aesgcmMinRs then some (.error .invalidRs)
              else encryptionLoopInto overflow rest { param with rsValue }
      else if pair.hasName (ascii "salt") then
        if param.decodedSaltLen ≠ 0 then some (.error .invalidEncryptionHeader)
        else
          match eceBase64urlDecodeInto pair.value .ignorePadding param.salt with
          | none => none
          | some (decodedSaltLen, salt) =>
              if decodedSaltLen = 0 then some (.ok { param with decodedSaltLen, salt })
              else encryptionLoopInto overflow rest { param with decodedSaltLen, salt }
      else encryptionLoopInto overflow rest param

def dhInto (pairs : HeaderParam) (rawSenderPubKey : Bytes) : Option (Except EceError Bytes) :=
  match pairs.find? (·.hasName (ascii "dh")) with
  | none => if rawSenderPubKey.length ≠ 0 then some (.error .invalidDh) else some (.ok rawSenderPubKey)
  | some pair =>
      match eceBase64urlDecodeInto pair.value .ignorePadding rawSenderPubKey with
      | none => none
      | some (decodedKeyLen, decoded) =>
          if decodedKeyLen ≠ rawSenderPubKey.length then some (.error .invalidDh) else some (.ok decoded)

def senderPubKeyInto (keyId : Option Bytes) (cryptoKeyHeader rawSenderPubKey : Bytes) : Option (Except EceError Bytes) :=
  match headerExtractParams cryptoKeyHeader with
  | none => some (.error .invalidCryptoKeyHeader)
  | some cryptoKeyParams =>
      let cryptoKeyParam :=
        match keyId with
        | none => cryptoKeyParams.head?
        | some keyId => cryptoKeyParams.find? (keyIdMatches keyId)
      match cryptoKeyParam with
      | none => some (.error .invalidDh)
      | some pairs => dhInto pairs rawSenderPubKey

-- ece_webpush_aesgcm_headers_extract_params into the caller's buffers for the salt and the key.
def headersExtractInto (overflow : Bytes → UInt32) (cryptoKeyHeader encryptionHeader salt rawSenderPubKey : Bytes) :
    Option (Except EceError WebpushParams) :=
  match headerExtractParams encryptionHeader with
  | none => some (.error .invalidEncryptionHeader)
  | some encryptionParams =>
      match encryptionLoopInto overflow (encryptionParams.headD []) ⟨none, 0, 0, salt⟩ with
      | none => none
      | some (.error error) => some (.error error)
      | some (.ok param) =>
          if param.decodedSaltLen ≠ salt.length then some (.error .invalidSalt)
          else
            match senderPubKeyInto param.keyId cryptoKeyHeader rawSenderPubKey with
            | none => none
            | some (.error error) => some (.error error)
            | some (.ok rawSenderPubKey) =>
                some (.ok ⟨param.salt, rawSenderPubKey, if param.rsValue = 0 then 4096 else param.rsValue⟩)

-- A value that the decoder takes for an empty one, and writes over the end of the buffer.
def Overlong (value : Bytes) (binaryLen : Nat) : Prop :=
  value.length % 4 = 1 ∧ 0 < binaryLen ∧ binaryLen < value.length / 4 * 3 ∧ KnownText (reachedText value binaryLen)

theorem overlong_iff (value binary : Bytes) :
    eceBase64urlDecodeInto value .ignorePadding binary = none ↔ Overlong value binary.length := by
  rw [decode_into_overruns, Overlong, ← List.length_pos_iff]
  simp

-- The buffer holds the salt that the loop over lists has decoded.
structure Holds (saltLen : Nat) (inBuffer param : EncryptionParam) : Prop where
  keyId : inBuffer.keyId = param.keyId
  rsValue : inBuffer.rsValue = param.rsValue
  decodedSaltLen : inBuffer.decodedSaltLen = param.decodedSaltLen
  buffer : inBuffer.salt.length = saltLen
  salt : inBuffer.salt.take param.decodedSaltLen = param.salt

theorem encryption_loop_refines (overflow : Bytes → UInt32) (saltLen : Nat) (pairs : HeaderParam)
    (short : ∀ pair ∈ pairs, pair.hasName (ascii "salt") = true → ¬ Overlong pair.value saltLen)
    (inBuffer param : EncryptionParam) (holds : Holds saltLen inBuffer param) :
    (∃ error, encryptionLoopInto overflow pairs inBuffer = some (.error error) ∧
      encryptionLoop overflow saltLen pairs param = .error error) ∨
    ∃ last lastParam, encryptionLoopInto overflow pairs inBuffer = some (.ok last) ∧
      encryptionLoop overflow saltLen pairs param = .ok lastParam ∧ Holds saltLen last lastParam := by
  induction pairs generalizing inBuffer param with
  | nil => exact .inr ⟨inBuffer, param, rfl, rfl, holds⟩
  | cons pair rest ih =>
      have later := ih fun other member => short other (List.mem_cons_of_mem pair member)
      obtain ⟨keyId, rsValue, decodedSaltLen, buffer, salt⟩ := holds
      rw [encryptionLoopInto, encryptionLoop, keyId, rsValue, decodedSaltLen]
      by_cases isKeyId : pair.hasName (ascii "keyid") = true
      · rw [if_pos isKeyId, if_pos isKeyId]
        split
        · exact .inl ⟨_, rfl, rfl⟩
        · exact later _ _ ⟨rfl, rfl, rfl, buffer, salt⟩
      rw [if_neg isKeyId, if_neg isKeyId]
      by_cases isRs : pair.hasName (ascii "rs") = true
      · rw [if_pos isRs, if_pos isRs]
        split
        · exact .inl ⟨_, rfl, rfl⟩
        · cases scanU32 overflow pair.value with
          | none => exact .inl ⟨_, rfl, rfl⟩
          | some rsValue =>
              dsimp only
              split
              · exact .inl ⟨_, rfl, rfl⟩
              · exact later _ _ ⟨rfl, rfl, rfl, buffer, salt⟩
      rw [if_neg isRs, if_neg isRs]
      by_cases isSalt : pair.hasName (ascii "salt") = true
      · rw [if_pos isSalt, if_pos isSalt]
        split
        · exact .inl ⟨_, rfl, rfl⟩
        · have inside := short pair List.mem_cons_self isSalt
          rw [← buffer, ← overlong_iff] at inside
          cases decoded : eceBase64urlDecodeInto pair.value .ignorePadding inBuffer.salt with
          | none => exact absurd decoded inside
          | some returned =>
              obtain ⟨result, next⟩ := returned
              have refines := decode_into_refines _ _ _ _ _ decoded
              have size := decode_into_length _ _ _ _ _ decoded
              rw [buffer] at refines size
              rw [refines]
              have after : Holds saltLen ⟨param.keyId, param.rsValue, result, next⟩
                  { param with decodedSaltLen := result, salt := next.take result } := ⟨rfl, rfl, rfl, size, rfl⟩
              dsimp only
              split
              · exact .inr ⟨_, _, rfl, rfl, after⟩
              · exact later _ _ after
      rw [if_neg isSalt, if_neg isSalt]
      exact later _ _ ⟨keyId, rsValue, decodedSaltLen, buffer, salt⟩

-- The last step of senderPubKeyFrom.
def dhFrom (pairs : HeaderParam) (rawSenderPubKeyLen : Nat) : Except EceError Bytes :=
  let (decodedKeyLen, rawSenderPubKey) :=
    match pairs.find? (·.hasName (ascii "dh")) with
    | none => (0, [])
    | some pair => eceBase64urlDecode pair.value .ignorePadding rawSenderPubKeyLen
  if decodedKeyLen ≠ rawSenderPubKeyLen then .error .invalidDh else .ok rawSenderPubKey

theorem dh_refines (pairs : HeaderParam) (rawSenderPubKey : Bytes)
    (short : ∀ pair ∈ pairs, pair.hasName (ascii "dh") = true → ¬ Overlong pair.value rawSenderPubKey.length) :
    dhInto pairs rawSenderPubKey = some (dhFrom pairs rawSenderPubKey.length) := by
  rw [dhInto, dhFrom]
  cases dh : pairs.find? (·.hasName (ascii "dh")) with
  | none =>
      dsimp only
      by_cases empty : rawSenderPubKey.length = 0
      · obtain rfl := List.eq_nil_of_length_eq_zero empty
        rfl
      · rw [if_pos empty, if_pos fun same => empty same.symm]
  | some pair =>
      have inside := short pair (List.mem_of_find?_eq_some dh) (by simpa using List.find?_some dh)
      rw [← overlong_iff] at inside
      dsimp only
      cases decoded : eceBase64urlDecodeInto pair.value .ignorePadding rawSenderPubKey with
      | none => exact absurd decoded inside
      | some returned =>
          obtain ⟨result, next⟩ := returned
          have size := decode_into_length _ _ _ _ _ decoded
          rw [decode_into_refines _ _ _ _ _ decoded]
          dsimp only
          split
          · rfl
          · rename_i whole
            rw [show result = next.length by omega, List.take_length]

theorem sender_pub_key_refines (keyId : Option Bytes) (cryptoKeyHeader rawSenderPubKey : Bytes)
    (short : ∀ params, headerExtractParams cryptoKeyHeader = some params → ∀ param ∈ params, ∀ pair ∈ param,
      pair.hasName (ascii "dh") = true → ¬ Overlong pair.value rawSenderPubKey.length) :
    senderPubKeyInto keyId cryptoKeyHeader rawSenderPubKey =
      some (senderPubKeyFrom keyId cryptoKeyHeader rawSenderPubKey.length) := by
  rw [senderPubKeyInto, senderPubKeyFrom]
  cases extracted : headerExtractParams cryptoKeyHeader with
  | none => rfl
  | some params =>
      have same : ∀ pairs ∈ params, dhInto pairs rawSenderPubKey = some (dhFrom pairs rawSenderPubKey.length) :=
        fun pairs member => dh_refines pairs rawSenderPubKey (short params extracted pairs member)
      cases keyId with
      | none =>
          dsimp only
          cases found : params.head? with
          | none => rfl
          | some pairs => exact same pairs (List.mem_of_mem_head? found)
      | some keyId =>
          dsimp only
          cases found : params.find? (keyIdMatches keyId) with
          | none => rfl
          | some pairs => exact same pairs (List.mem_of_find?_eq_some found)

-- With no overlong salt or key among the values, the extraction into buffers stays inside them
-- and returns what the one over lists does.
theorem headers_extract_refines (overflow : Bytes → UInt32) (cryptoKeyHeader encryptionHeader salt rawSenderPubKey : Bytes)
    (shortSalt : ∀ params, headerExtractParams encryptionHeader = some params → ∀ pair ∈ params.headD [],
      pair.hasName (ascii "salt") = true → ¬ Overlong pair.value salt.length)
    (shortKey : ∀ params, headerExtractParams cryptoKeyHeader = some params → ∀ param ∈ params, ∀ pair ∈ param,
      pair.hasName (ascii "dh") = true → ¬ Overlong pair.value rawSenderPubKey.length) :
    headersExtractInto overflow cryptoKeyHeader encryptionHeader salt rawSenderPubKey =
      some (headersExtractParams overflow cryptoKeyHeader encryptionHeader salt.length rawSenderPubKey.length) := by
  rw [headersExtractInto, headersExtractParams]
  cases extracted : headerExtractParams encryptionHeader with
  | none => rfl
  | some params =>
      dsimp only
      have begins : Holds salt.length ⟨none, 0, 0, salt⟩ ⟨none, 0, 0, []⟩ := ⟨rfl, rfl, rfl, rfl, rfl⟩
      rcases encryption_loop_refines overflow salt.length (params.headD []) (shortSalt params extracted) _ _ begins with
        ⟨error, failed, same⟩ | ⟨last, param, looped, same, holds⟩
      · rw [failed, same]
      · rw [looped, same]
        dsimp only
        obtain ⟨keyId, rsValue, decodedSaltLen, buffer, held⟩ := holds
        rw [decodedSaltLen, keyId, rsValue]
        split
        · rfl
        · rename_i whole
          have full : last.salt = param.salt := by
            rw [← held, List.take_of_length_le]
            omega
          rw [sender_pub_key_refines param.keyId cryptoKeyHeader rawSenderPubKey shortKey, full]
          cases senderPubKeyFrom param.keyId cryptoKeyHeader rawSenderPubKey.length with
          | error error => rfl
          | ok key => rfl

theorem bare_pair_text (name value : Bytes) (nameText : NameText name) (present : value ≠ [])
    (bare : ∀ c ∈ value, isValidPairValue c = true) : PairText ⟨name, value⟩ (name ++ 61 :: value) := by
  have blank : Blank [] := by simp [Blank]
  simpa using PairText.pair [] name [] [] value value [] blank nameText blank blank (.bare value present bare) blank

theorem has_name (name value other : Bytes) : HeaderPair.hasName ⟨name, value⟩ other = name.isPrefixOf other := rfl

theorem bare_known (text : Bytes) (bare : ∀ c ∈ text, isValidPairValue c = true) : KnownText text := by
  have table : ∀ index : Fin 256, isValidPairValue (UInt8.ofNat index.val) = true →
      eceBase64urlDecodeByte (UInt8.ofNat index.val) ≠ 64 := by
    decide +kernel
  intro c member
  have found := table ⟨c.toNat, c.toNat_lt⟩
  rw [UInt8.ofNat_toNat] at found
  exact found (bare c member)

theorem salt_extracted (text : Bytes) (present : text ≠ []) (bare : ∀ c ∈ text, isValidPairValue c = true) :
    headerExtractParams (ascii "salt=" ++ text) = some [[⟨ascii "salt", text⟩]] := by
  have pair := bare_pair_text (ascii "salt") text ⟨by decide, by decide +kernel⟩ present bare
  exact header_text_extracted _ _ (.last _ _ (.last _ _ pair))

theorem salt_loop (overflow : Bytes → UInt32) (text salt : Bytes)
    (overrun : encryptionLoopInto overflow [⟨ascii "salt", text⟩] ⟨none, 0, 0, salt⟩ = none) : Overlong text salt.length := by
  have named : (ascii "salt").isPrefixOf (ascii "keyid") = false ∧ (ascii "salt").isPrefixOf (ascii "rs") = false ∧
      (ascii "salt").isPrefixOf (ascii "salt") = true := by
    decide
  rw [← overlong_iff]
  cases decoded : eceBase64urlDecodeInto text .ignorePadding salt with
  | none => rfl
  | some returned =>
      simp only [encryptionLoopInto, has_name, named, decoded] at overrun
      split_ifs at overrun

theorem salt_loop_overruns (overflow : Bytes → UInt32) (text salt : Bytes) (overlong : Overlong text salt.length) :
    encryptionLoopInto overflow [⟨ascii "salt", text⟩] ⟨none, 0, 0, salt⟩ = none := by
  have named : (ascii "salt").isPrefixOf (ascii "keyid") = false ∧ (ascii "salt").isPrefixOf (ascii "rs") = false ∧
      (ascii "salt").isPrefixOf (ascii "salt") = true := by
    decide
  rw [← overlong_iff] at overlong
  simp [encryptionLoopInto, has_name, named, overlong]

-- An Encryption header that a sender chooses writes over the end of the salt, whatever stands in
-- the other header.
theorem salt_overruns_iff (overflow : Bytes → UInt32) (text salt : Bytes) (bare : ∀ c ∈ text, isValidPairValue c = true) :
    (∀ cryptoKeyHeader rawSenderPubKey,
      headersExtractInto overflow cryptoKeyHeader (ascii "salt=" ++ text) salt rawSenderPubKey = none) ↔
      text.length % 4 = 1 ∧ 0 < salt.length ∧ salt.length < text.length / 4 * 3 := by
  have known : KnownText (reachedText text salt.length) := fun c member => bare_known text bare c (List.mem_of_mem_take member)
  constructor
  · intro overruns
    have overrun := overruns [] []
    rw [headersExtractInto] at overrun
    by_cases empty : text = []
    · subst empty
      rw [show headerExtractParams (ascii "salt=" ++ []) = none by decide] at overrun
      cases overrun
    rw [salt_extracted text empty bare] at overrun
    simp only [List.headD_cons] at overrun
    cases looped : encryptionLoopInto overflow [⟨ascii "salt", text⟩] ⟨none, 0, 0, salt⟩ with
    | none =>
        obtain ⟨dangling, present, long, _⟩ := salt_loop overflow text salt looped
        exact ⟨dangling, present, long⟩
    | some outcome =>
        rw [looped] at overrun
        cases outcome with
        | error error => cases overrun
        | ok param =>
            dsimp only at overrun
            split at overrun
            · cases overrun
            · rw [senderPubKeyInto, show headerExtractParams [] = none by decide] at overrun
              cases overrun
  · rintro ⟨dangling, present, long⟩ cryptoKeyHeader rawSenderPubKey
    have some_ : text ≠ [] := by
      rintro rfl
      cases dangling
    have loop := salt_loop_overruns overflow text salt ⟨dangling, present, long, known⟩
    rw [headersExtractInto, salt_extracted text some_ bare]
    simp only [List.headD_cons, loop]

theorem salt_overruns_iff_sixteen :
    (∀ c ∈ List.replicate 25 65, isValidPairValue c = true) ∧ ∀ cryptoKeyHeader rawSenderPubKey,
      headersExtractInto (fun _ => 0) cryptoKeyHeader (ascii "salt=" ++ List.replicate 25 65) (List.replicate 16 0)
        rawSenderPubKey = none :=
  ⟨by decide +kernel, (salt_overruns_iff (fun _ => 0) (List.replicate 25 65) (List.replicate 16 0) (by decide +kernel)).mpr
    (by decide +kernel)⟩

end PushReceiver
