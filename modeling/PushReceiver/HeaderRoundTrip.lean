import PushReceiver.HeaderBounds

set_option autoImplicit false

namespace PushReceiver

def headerDhPrefix : Bytes := ascii "dh="

-- What printf makes of "rs=%" PRIu32 ";salt=".
def encryptionPrefix (rs : UInt32) : Bytes := ascii "rs=" ++ decimal rs.toNat ++ ascii ";salt="

-- A call of ece_base64url_encode on `base64Len` bytes inside a buffer, its result not looked at.
def encodeAt (target : Target) (binary buffer : Bytes) (offset base64Len : Nat) : Option Bytes :=
  if buffer.length < offset + base64Len then none
  else
    match eceBase64urlEncodeInto target binary .omitPadding ((buffer.drop offset).take base64Len) with
    | none => none
    | some (_, base64) => Store.write buffer offset base64

-- A header is its first part, behind which a text may spill over, and then the encoded bytes.
def headerInto (target : Target) (binary first spill : Bytes) (b64Len : Nat) (header : Bytes) : Option Bytes :=
  if header = [] then some []
  else (Store.write header 0 (first ++ spill)).bind fun header => encodeAt target binary header first.length b64Len

-- ece_webpush_aesgcm_headers_from_params: the lengths it returns and the two buffers, or none for
-- a write outside one of them.
def headersFromParamsInto (target : Target) (salt rawSenderPubKey : Bytes) (rs : UInt32)
    (cryptoKeyHeader encryptionHeader : Bytes) : Option (Except EceError ((Nat × Bytes) × (Nat × Bytes))) := do
  let (b64SenderPubKeyLen, _) ← eceBase64urlEncodeInto target rawSenderPubKey .omitPadding []
  if b64SenderPubKeyLen = 0 ∨ target.sizeMaxValue - headerDhPrefix.length < b64SenderPubKeyLen then return .error .invalidDh
  let requiredCryptoKeyHeaderLen := b64SenderPubKeyLen + headerDhPrefix.length
  if cryptoKeyHeader ≠ [] ∧ cryptoKeyHeader.length < requiredCryptoKeyHeaderLen then return .error .outOfMemory
  let cryptoKey ← headerInto target rawSenderPubKey headerDhPrefix [] b64SenderPubKeyLen cryptoKeyHeader
  let (b64SaltLen, _) ← eceBase64urlEncodeInto target salt .omitPadding []
  if b64SaltLen = 0 then return .error .invalidSalt
  let encryptionPrefixLen := (encryptionPrefix rs).length
  if target.sizeMaxValue - encryptionPrefixLen < b64SaltLen then return .error .invalidSalt
  let requiredEncryptionHeaderLen := b64SaltLen + encryptionPrefixLen
  if encryptionHeader ≠ [] ∧ encryptionHeader.length < requiredEncryptionHeaderLen then return .error .outOfMemory
  -- sprintf also writes the terminating NUL
  let encryption ← headerInto target salt (encryptionPrefix rs) [0] b64SaltLen encryptionHeader
  return .ok ((requiredCryptoKeyHeaderLen, cryptoKey), (requiredEncryptionHeaderLen, encryption))

theorem omit_pad_length (base64Len : Nat) : eceBase64urlEncodePadLength .omitPadding base64Len = 0 := by
  simp [eceBase64urlEncodePadLength]

theorem encode_query (target : Target) (binary : Bytes) :
    ∃ result, eceBase64urlEncodeInto target binary .omitPadding [] = some (result, []) ∧
      (result = 0 ∧ (binary = [] ∨ target.sizeMaxValue < (eceBase64urlEncode binary).length) ∨
        result ≠ 0 ∧ result = (eceBase64urlEncode binary).length ∧ binary ≠ []) := by
  rw [eceBase64urlEncodeInto]
  dsimp only
  split
  · rename_i empty
    exact ⟨0, rfl, .inl ⟨rfl, .inl empty⟩⟩
  rename_i present
  have size := url_encode_length binary
  have some_ : binary.length ≠ 0 := fun none_ => present (List.eq_nil_of_length_eq_zero none_)
  split
  · rename_i uncounted
    have refused := (base64_length_refused target binary.length uncounted).resolve_left some_
    exact ⟨0, rfl, .inl ⟨rfl, .inr (by omega)⟩⟩
  rename_i counted
  rw [base64_length target binary.length counted, omit_pad_length, if_neg (Nat.not_lt_zero _), if_pos List.length_nil]
  exact ⟨_, rfl, .inr ⟨by omega, by omega, present⟩⟩

-- The encoder fills the room it has asked for.
theorem encode_filled (target : Target) (binary base64 : Bytes) (result : Nat) (counted : result ≠ 0)
    (query : eceBase64urlEncodeInto target binary .omitPadding [] = some (result, [])) (whole : base64.length = result) :
    eceBase64urlEncodeInto target binary .omitPadding base64 = some (result, eceBase64urlEncode binary) := by
  rw [eceBase64urlEncodeInto] at query ⊢
  dsimp only at query ⊢
  split at query
  · exact absurd (congrArg Prod.fst (Option.some.inj query)).symm counted
  split at query
  · exact absurd (congrArg Prod.fst (Option.some.inj query)).symm counted
  rename_i present sized
  rw [if_neg present, if_neg sized]
  have size := url_encode_length binary
  rw [base64_length target binary.length sized, omit_pad_length] at query ⊢
  rw [if_neg (Nat.not_lt_zero _), if_pos List.length_nil] at query
  obtain ⟨same, _⟩ := Prod.mk.inj (Option.some.inj query)
  rw [if_neg (Nat.not_lt_zero _), if_neg (by omega), if_neg (by omega), List.replicate_zero, List.append_nil,
    Store.write_inside base64 0 _ (by omega), same, Nat.zero_add, List.drop_of_length_le (by omega)]
  simp

theorem encode_at (target : Target) (binary buffer : Bytes) (offset result : Nat) (counted : result ≠ 0)
    (query : eceBase64urlEncodeInto target binary .omitPadding [] = some (result, []))
    (room : offset + result ≤ buffer.length) :
    encodeAt target binary buffer offset result = Store.write buffer offset (eceBase64urlEncode binary) := by
  have slice : ((buffer.drop offset).take result).length = result := by
    rw [List.length_take, List.length_drop]
    omega
  rw [encodeAt, if_neg (Nat.not_lt.mpr room), encode_filled target binary _ result counted query slice]

-- A prefix, whose bytes past the end of `first` are written over by the text behind it.
theorem write_header (buffer first text : Bytes) (spill : Bytes) (covered : spill.length ≤ text.length)
    (room : first.length + text.length ≤ buffer.length) :
    ∃ next last, Store.write buffer 0 (first ++ spill) = some next ∧ Store.write next first.length text = some last ∧
      last.take (text.length + first.length) = first ++ text := by
  obtain ⟨next, written⟩ : ∃ next, Store.write buffer 0 (first ++ spill) = some next :=
    ⟨_, Store.write_inside buffer 0 _ (by rw [List.length_append]; omega)⟩
  have size := Store.write_length buffer next 0 _ written
  obtain ⟨last, followed⟩ : ∃ last, Store.write next first.length text = some last :=
    ⟨_, Store.write_inside next first.length text (by rw [size]; exact room)⟩
  refine ⟨next, last, written, followed, ?_⟩
  have through := Store.write_through buffer next 0 _ written
  rw [Nat.zero_add, List.take_zero, List.nil_append] at through
  have start : next.take first.length = first := by
    have shorter := congrArg (List.take first.length) through
    rwa [List.take_take, List.length_append, Nat.min_eq_left (Nat.le_add_right _ _), List.take_left] at shorter
  rw [Nat.add_comm, Store.write_through next last first.length text followed, start]

theorem header_into (target : Target) (binary first spill header : Bytes) (b64Len : Nat) (counted : b64Len ≠ 0)
    (query : eceBase64urlEncodeInto target binary .omitPadding [] = some (b64Len, []))
    (length : b64Len = (eceBase64urlEncode binary).length) (covered : spill.length ≤ b64Len)
    (room : header ≠ [] → b64Len + first.length ≤ header.length) :
    ∃ last, headerInto target binary first spill b64Len header = some last ∧
      (header ≠ [] → last.take (b64Len + first.length) = first ++ eceBase64urlEncode binary) := by
  rw [headerInto]
  by_cases query_ : header = []
  · exact ⟨[], if_pos query_, fun present => absurd query_ present⟩
  · have enough := room query_
    rw [length] at covered enough
    obtain ⟨next, last, written, followed, text⟩ := write_header header first _ spill covered (by omega)
    have size := Store.write_length header next 0 _ written
    refine ⟨last, ?_, fun _ => by rw [length, text]⟩
    rw [if_neg query_, written, Option.bind_some, encode_at target binary next first.length b64Len counted query (by omega),
      followed]

-- A text that has no length, or that does not fit the buffer.
def Unwritable (target : Target) (text buffer : Bytes) : Prop :=
  target.sizeMaxValue < text.length ∨ buffer ≠ [] ∧ buffer.length < text.length

def dhHeader (rawSenderPubKey : Bytes) : Bytes := headerDhPrefix ++ eceBase64urlEncode rawSenderPubKey

def saltHeader (salt : Bytes) (rs : UInt32) : Bytes := encryptionPrefix rs ++ eceBase64urlEncode salt

-- Neither header leaves its buffer, and what is written is what the function over lists returns.
theorem from_params_into (target : Target) (salt rawSenderPubKey : Bytes) (rs : UInt32)
    (cryptoKeyHeader encryptionHeader : Bytes) :
    (∃ error, headersFromParamsInto target salt rawSenderPubKey rs cryptoKeyHeader encryptionHeader = some (.error error) ∧
      (salt = [] ∨ rawSenderPubKey = [] ∨ Unwritable target (dhHeader rawSenderPubKey) cryptoKeyHeader ∨
        Unwritable target (saltHeader salt rs) encryptionHeader)) ∨
    ∃ cryptoKey encryption, salt ≠ [] ∧ rawSenderPubKey ≠ [] ∧
      headersFromParamsInto target salt rawSenderPubKey rs cryptoKeyHeader encryptionHeader =
        some (.ok (((dhHeader rawSenderPubKey).length, cryptoKey), ((saltHeader salt rs).length, encryption))) ∧
      (cryptoKeyHeader ≠ [] → cryptoKey.take (dhHeader rawSenderPubKey).length = dhHeader rawSenderPubKey) ∧
      (encryptionHeader ≠ [] → encryption.take (saltHeader salt rs).length = saltHeader salt rs) := by
  obtain ⟨b64SenderPubKeyLen, keyQuery, keyLength⟩ := encode_query target rawSenderPubKey
  obtain ⟨b64SaltLen, saltQuery, saltLength⟩ := encode_query target salt
  have keySum : (dhHeader rawSenderPubKey).length = headerDhPrefix.length + (eceBase64urlEncode rawSenderPubKey).length :=
    List.length_append
  have saltSum : (saltHeader salt rs).length = (encryptionPrefix rs).length + (eceBase64urlEncode salt).length :=
    List.length_append
  rw [headersFromParamsInto, keyQuery, saltQuery]
  simp only [Option.bind_eq_bind, Option.bind_some, Option.pure_def]
  rcases keyLength with ⟨none_, absent | long⟩ | ⟨keyCounted, keySize, keyPresent⟩
  · exact .inl ⟨_, if_pos (.inl none_), .inr (.inl absent)⟩
  · exact .inl ⟨_, if_pos (.inl none_), .inr (.inr (.inl (.inl (by omega))))⟩
  by_cases longKey : target.sizeMaxValue - headerDhPrefix.length < b64SenderPubKeyLen
  · exact .inl ⟨_, if_pos (.inr longKey), .inr (.inr (.inl (.inl (by omega))))⟩
  rw [if_neg (not_or.mpr ⟨keyCounted, longKey⟩)]
  by_cases smallKey : cryptoKeyHeader ≠ [] ∧ cryptoKeyHeader.length < b64SenderPubKeyLen + headerDhPrefix.length
  · exact .inl ⟨_, if_pos smallKey, .inr (.inr (.inl (.inr ⟨smallKey.1, by omega⟩)))⟩
  obtain ⟨cryptoKey, keyWritten, keyText⟩ := header_into target rawSenderPubKey headerDhPrefix [] cryptoKeyHeader
    b64SenderPubKeyLen keyCounted keyQuery keySize (Nat.zero_le _)
    fun present => Nat.le_of_not_lt fun small => smallKey ⟨present, small⟩
  rw [if_neg smallKey, keyWritten, Option.bind_some]
  rcases saltLength with ⟨none_, absent | long⟩ | ⟨saltCounted, saltSize, saltPresent⟩
  · exact .inl ⟨_, if_pos none_, .inl absent⟩
  · exact .inl ⟨_, if_pos none_, .inr (.inr (.inr (.inl (by omega))))⟩
  rw [if_neg saltCounted]
  by_cases longSalt : target.sizeMaxValue - (encryptionPrefix rs).length < b64SaltLen
  · exact .inl ⟨_, if_pos longSalt, .inr (.inr (.inr (.inl (by omega))))⟩
  rw [if_neg longSalt]
  by_cases smallSalt : encryptionHeader ≠ [] ∧ encryptionHeader.length < b64SaltLen + (encryptionPrefix rs).length
  · exact .inl ⟨_, if_pos smallSalt, .inr (.inr (.inr (.inr ⟨smallSalt.1, by omega⟩)))⟩
  obtain ⟨encryption, saltWritten, saltText⟩ := header_into target salt (encryptionPrefix rs) [0] encryptionHeader
    b64SaltLen saltCounted saltQuery saltSize (Nat.one_le_iff_ne_zero.mpr saltCounted)
    fun present => Nat.le_of_not_lt fun small => smallSalt ⟨present, small⟩
  rw [if_neg smallSalt, saltWritten, Option.bind_some]
  refine .inr ⟨cryptoKey, encryption, saltPresent, keyPresent, ?_, fun present => ?_, fun present => ?_⟩
  · rw [keySum, saltSum, keySize, saltSize, Nat.add_comm (List.length _), Nat.add_comm (List.length (eceBase64urlEncode salt))]
  · rw [keySum, Nat.add_comm, ← keySize]
    exact keyText present
  · rw [saltSum, Nat.add_comm, ← saltSize]
    exact saltText present

theorem scan_decimal (overflow : Bytes → UInt32) (rs : UInt32) : scanU32 overflow (decimal rs.toNat) = some rs.toNat := by
  have bound := rs.toNat_lt
  cases printed : decimal rs.toNat with
  | nil => exact absurd printed (decimal_nonempty rs.toNat)
  | cons first rest =>
      obtain ⟨_, noMinus, noPlus⟩ :=
        digit_plain first (decimal_is_digits rs.toNat first (by rw [printed]; exact List.mem_cons_self))
      have digits : decimalDigits (first :: rest) = first :: rest := by rw [← printed, decimal_digits_decimal]
      have value : decimalValue (first :: rest) = rs.toNat := by rw [← printed, decimal_value_decimal]
      simp only [scanU32, List.head?_cons, Option.some.injEq, noMinus, noPlus, or_self, if_false, digits, value]
      rw [if_neg (List.cons_ne_nil first rest), if_neg (Nat.not_le.mpr bound)]

theorem url_symbol_bare : ∀ group < 64, isValidPairValue (urlAlphabet.symbol group) = true := by
  decide +kernel

theorem url_encode_bare (binary : Bytes) : ∀ c ∈ eceBase64urlEncode binary, isValidPairValue c = true := by
  rw [url_encode_refines]
  intro c member
  obtain ⟨group, bound, rfl⟩ := Radix64.encode_symbols urlAlphabet binary c member
  exact url_symbol_bare group bound

theorem url_encode_present (binary : Bytes) (present : binary ≠ []) : eceBase64urlEncode binary ≠ [] := by
  have size := url_encode_length binary
  have counted : 0 < binary.length := List.length_pos_iff.mpr present
  intro empty
  rw [empty, List.length_nil] at size
  omega

theorem digit_bare (c : UInt8) (digit : isDecimalDigit c = true) : isValidPairValue c = true := by
  simp only [isDecimalDigit, decide_eq_true_eq] at digit
  simp only [isValidPairValue, decide_eq_true_eq]
  exact .inr (.inr (.inl digit))

theorem crypto_key_extracted (rawSenderPubKey : Bytes) (present : rawSenderPubKey ≠ []) :
    headerExtractParams (dhHeader rawSenderPubKey) =
      some [[⟨ascii "dh", eceBase64urlEncode rawSenderPubKey⟩]] := by
  have pair := bare_pair_text (ascii "dh") _ ⟨by decide, by decide +kernel⟩ (url_encode_present rawSenderPubKey present)
    (url_encode_bare rawSenderPubKey)
  exact header_text_extracted _ _ (.last _ _ (.last _ _ pair))

theorem encryption_extracted (salt : Bytes) (rs : UInt32) (present : salt ≠ []) :
    headerExtractParams (saltHeader salt rs) =
      some [[⟨ascii "salt", eceBase64urlEncode salt⟩, ⟨ascii "rs", decimal rs.toNat⟩]] := by
  have saltPair := bare_pair_text (ascii "salt") _ ⟨by decide, by decide +kernel⟩ (url_encode_present salt present) (url_encode_bare salt)
  have rsPair := bare_pair_text (ascii "rs") (decimal rs.toNat) ⟨by decide, by decide +kernel⟩ (decimal_nonempty rs.toNat)
    fun c member => digit_bare c (decimal_is_digits rs.toNat c member)
  refine header_text_extracted _ _ (.last _ _ ?_)
  have pairs := @Separated.next _ 59 PairText _ _ _ _ rsPair (.last _ _ saltPair)
  simpa [ParamText, saltHeader, encryptionPrefix, ascii] using pairs

theorem url_decode_encode (binary : Bytes) (present : binary ≠ []) :
    eceBase64urlDecode (eceBase64urlEncode binary) .ignorePadding binary.length = (binary.length, binary) := by
  have counted : binary.length ≠ 0 := fun none_ => present (List.eq_nil_of_length_eq_zero none_)
  have size := url_encode_length binary
  have length : eceBase64urlBinaryLength (eceBase64urlEncode binary).length = binary.length := by
    rw [binary_length _ (by omega)]
    omega
  rw [eceBase64urlDecode, if_neg (url_encode_present binary present), plain_pad_length _ (url_encode_plain binary)]
  simp only [Nat.sub_zero, List.take_length, length, if_neg counted, Nat.lt_irrefl, if_false, url_encode_decodes,
    show ¬ (0 = 3) by decide]

theorem url_encode_fits (binary : Bytes) (binaryLen : Nat) : ¬ Overlong (eceBase64urlEncode binary) binaryLen := by
  rintro ⟨dangling, _⟩
  rw [url_encode_length] at dangling
  omega

theorem encryption_loop_written (overflow : Bytes → UInt32) (salt : Bytes) (rs : UInt32) (present : salt ≠ []) :
    encryptionLoop overflow salt.length [⟨ascii "salt", eceBase64urlEncode salt⟩, ⟨ascii "rs", decimal rs.toNat⟩]
        ⟨none, 0, 0, []⟩ =
      if rs.toNat < 3 then .error .invalidRs else .ok ⟨none, rs.toNat, salt.length, salt⟩ := by
  have counted : salt.length ≠ 0 := fun none_ => present (List.eq_nil_of_length_eq_zero none_)
  have saltName : (ascii "salt").isPrefixOf (ascii "keyid") = false ∧ (ascii "salt").isPrefixOf (ascii "rs") = false ∧
      (ascii "salt").isPrefixOf (ascii "salt") = true := by
    decide
  have rsName : (ascii "rs").isPrefixOf (ascii "keyid") = false ∧ (ascii "rs").isPrefixOf (ascii "rs") = true := by decide
  have read := url_decode_encode salt present
  simp only [encryptionLoop, has_name, saltName, rsName, read, counted, scan_decimal, aesgcmMinRs, ne_eq, not_true_eq_false,
    if_false, if_true, Bool.false_eq_true]

theorem extract_written (overflow : Bytes → UInt32) (salt rawSenderPubKey : Bytes) (rs : UInt32) (saltPresent : salt ≠ [])
    (keyPresent : rawSenderPubKey ≠ []) :
    headersExtractParams overflow (dhHeader rawSenderPubKey) (saltHeader salt rs) salt.length rawSenderPubKey.length =
      if rs.toNat < 3 then .error .invalidRs else .ok ⟨salt, rawSenderPubKey, rs.toNat⟩ := by
  have dhName : (ascii "dh").isPrefixOf (ascii "dh") = true := by decide
  rw [headersExtractParams]
  simp only [encryption_extracted salt rs saltPresent, List.headD_cons, encryption_loop_written overflow salt rs saltPresent]
  by_cases small : rs.toNat < 3
  · simp only [if_pos small]
  · simp only [if_neg small, senderPubKeyFrom, crypto_key_extracted rawSenderPubKey keyPresent, List.head?_cons,
      List.find?_cons, has_name, dhName, url_decode_encode rawSenderPubKey keyPresent, ne_eq, not_true_eq_false, if_false]
    rw [if_neg (by omega)]

theorem written_salt_fits (salt : Bytes) (rs : UInt32) (present : salt ≠ []) (params : List HeaderParam)
    (extracted : headerExtractParams (saltHeader salt rs) = some params) (binaryLen : Nat) :
    ∀ pair ∈ params.headD [], pair.hasName (ascii "salt") = true → ¬ Overlong pair.value binaryLen := by
  rw [encryption_extracted salt rs present] at extracted
  obtain rfl := Option.some.inj extracted
  intro pair member named
  simp only [List.headD_cons, List.mem_cons, List.not_mem_nil, or_false] at member
  rcases member with rfl | rfl
  · exact url_encode_fits salt binaryLen
  · have other : (ascii "rs").isPrefixOf (ascii "salt") = false := by decide
    rw [has_name, other] at named
    cases named

theorem written_key_fits (rawSenderPubKey : Bytes) (present : rawSenderPubKey ≠ []) (params : List HeaderParam)
    (extracted : headerExtractParams (dhHeader rawSenderPubKey) = some params) (binaryLen : Nat) :
    ∀ param ∈ params, ∀ pair ∈ param, pair.hasName (ascii "dh") = true → ¬ Overlong pair.value binaryLen := by
  rw [crypto_key_extracted rawSenderPubKey present] at extracted
  obtain rfl := Option.some.inj extracted
  intro param paramMember pair member _
  obtain rfl := List.mem_singleton.mp paramMember
  obtain rfl := List.mem_singleton.mp member
  exact url_encode_fits rawSenderPubKey binaryLen

-- The two calls of a sender and the one of a receiver: what is written into any two buffers that
-- are long enough is extracted into buffers of the lengths of the salt and the key, except that
-- the sender does not check the record size. No call leaves its buffers.
theorem headers_round_trip (target : Target) (overflow : Bytes → UInt32) (salt rawSenderPubKey : Bytes) (rs : UInt32)
    (cryptoKeyHeader encryptionHeader : Bytes) :
    (∃ error, headersFromParamsInto target salt rawSenderPubKey rs cryptoKeyHeader encryptionHeader = some (.error error) ∧
      (salt = [] ∨ rawSenderPubKey = [] ∨ Unwritable target (dhHeader rawSenderPubKey) cryptoKeyHeader ∨
        Unwritable target (saltHeader salt rs) encryptionHeader)) ∨
    ∃ cryptoKeyHeaderLen cryptoKey encryptionHeaderLen encryption,
      headersFromParamsInto target salt rawSenderPubKey rs cryptoKeyHeader encryptionHeader =
        some (.ok ((cryptoKeyHeaderLen, cryptoKey), (encryptionHeaderLen, encryption))) ∧
      (cryptoKeyHeader ≠ [] → encryptionHeader ≠ [] → ∀ saltBuffer keyBuffer,
        saltBuffer.length = salt.length → keyBuffer.length = rawSenderPubKey.length →
          headersExtractInto overflow (cryptoKey.take cryptoKeyHeaderLen) (encryption.take encryptionHeaderLen) saltBuffer
              keyBuffer =
            some (if rs.toNat < 3 then .error .invalidRs else .ok ⟨salt, rawSenderPubKey, rs.toNat⟩)) := by
  rcases from_params_into target salt rawSenderPubKey rs cryptoKeyHeader encryptionHeader with
    failed | ⟨cryptoKey, encryption, saltPresent, keyPresent, written, keyText, saltText⟩
  · exact .inl failed
  refine .inr ⟨_, cryptoKey, _, encryption, written, fun keyRoom saltRoom saltBuffer keyBuffer saltSize keySize => ?_⟩
  have extracted := extract_written overflow salt rawSenderPubKey rs saltPresent keyPresent
  rw [keyText keyRoom, saltText saltRoom, headers_extract_refines, saltSize, keySize, extracted]
  · exact fun params found => written_salt_fits salt rs saltPresent params found saltBuffer.length
  · exact fun params found => written_key_fits rawSenderPubKey keyPresent params found keyBuffer.length

end PushReceiver
