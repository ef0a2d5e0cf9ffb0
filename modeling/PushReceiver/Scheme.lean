import PushReceiver.Decrypt
import PushReceiver.Library.MarkedRecords
import PushReceiver.Library.Store

set_option autoImplicit false

namespace PushReceiver

variable {Scalar Point : Type}

-- How a content encoding lays a block out and takes it apart again. The updates are the pieces
-- a block is handed to the cipher in, one behind the other; padCap is the most padding a block takes.
structure Padding where
  padSize : Nat
  minBlockPadLength : Nat → Nat → Nat
  updates : Bool → Bytes → Nat → List Bytes
  unpad : Bool → Bytes → Except EceError Bytes
  padCap : Nat → Nat
  padded : 0 < padSize
  pad_capped : ∀ padLen maxBlockLen, 0 < maxBlockLen →
    minBlockPadLength padLen maxBlockLen = min padLen (padCap maxBlockLen)
  cap_bound : ∀ maxBlockLen, 0 < maxBlockLen → 0 < padCap maxBlockLen ∧ padCap maxBlockLen ≤ maxBlockLen
  updates_length : ∀ lastRecord blockPlaintext blockPadLen,
    (updates lastRecord blockPlaintext blockPadLen).flatten.length = padSize + blockPadLen + blockPlaintext.length
  unpad_updates : ∀ lastRecord blockPlaintext padLen maxBlockLen, 0 < maxBlockLen →
    unpad lastRecord (updates lastRecord blockPlaintext (minBlockPadLength padLen maxBlockLen)).flatten = .ok blockPlaintext
  unpad_length : ∀ lastRecord block blockPlaintext, padSize ≤ block.length → unpad lastRecord block = .ok blockPlaintext →
    padSize + blockPlaintext.length ≤ block.length

-- The function pointers of the functions that the content encodings share. A trailer is a
-- matter of record boundaries.
structure Scheme (Scalar Point : Type) extends Padding where
  needsTrailer : Nat → Nat → Bool
  deriveKeyAndNonce : OpenSsl Scalar Point → EceMode → EcKey Scalar Point → EcKey Scalar Point → Bytes → Bytes →
    Except EceError (Bytes × Bytes)
  trailer_inside : ∀ rs length, length % rs ≠ 0 → needsTrailer rs length = false
  trailer_boundary : ∀ rs length, length % rs = 0 → needsTrailer rs length = needsTrailer rs 0
  derive_padding : ∀ ssl mode localKey remoteKey authSecret salt,
    deriveKeyAndNonce ssl mode localKey remoteKey authSecret salt ≠ .error .encryptPadding

-- An access outside the caller's buffer, or an error code.
inductive Fault where
  | overrun
  | code (error : EceError)
deriving DecidableEq, Repr

def Padding.overhead (padding : Padding) : Nat := padding.padSize + eceTagLength

theorem Padding.pad_bound (padding : Padding) (padLen maxBlockLen : Nat) (positive : 0 < maxBlockLen) :
    padding.minBlockPadLength padLen maxBlockLen ≤ padLen ∧ padding.minBlockPadLength padLen maxBlockLen ≤ maxBlockLen := by
  have cap := (padding.cap_bound maxBlockLen positive).2
  rw [padding.pad_capped padLen maxBlockLen positive]
  omega

-- EVP_EncryptUpdate, one call behind the other: each writes as many bytes as it is handed.
def encryptUpdates (bufferLen : Nat) : Nat → List Bytes → Except Fault Unit
  | _, [] => .ok ()
  | offset, update :: rest =>
      if intMax < update.length then .error (.code .encrypt)
      else if bufferLen < offset + update.length then .error .overrun
      else encryptUpdates bufferLen (offset + update.length) rest

def store (buffer : Bytes) (offset : Nat) (bytes : Bytes) : Except Fault Bytes :=
  match Store.write buffer offset bytes with
  | none => .error .overrun
  | some buffer => .ok buffer

-- One record: the encrypted block from ciphertextStart on, the tag in front of ciphertextEnd.
def Padding.encryptRecord (padding : Padding) (ssl : OpenSsl Scalar Point) (key iv : Bytes) (lastRecord : Bool)
    (blockPlaintext : Bytes) (blockPadLen ciphertextStart recordEnd : Nat) (buffer : Bytes) : Except Fault Bytes :=
  match encryptUpdates buffer.length ciphertextStart (padding.updates lastRecord blockPlaintext blockPadLen) with
  | .error fault => .error fault
  | .ok _ =>
      match ssl.gcmEncrypt key iv (padding.updates lastRecord blockPlaintext blockPadLen).flatten with
      | none => .error (.code .encrypt)
      | some (block, tag) => do
          let buffer ← store buffer ciphertextStart block
          store buffer (recordEnd - eceTagLength) tag

-- The while loop of ece_webpush_encrypt_plaintext on the caller's buffer: ciphertextStart after
-- the last record, and the buffer. `rest` is the plaintext from plaintextStart on.
def Scheme.encryptRecords (scheme : Scheme Scalar Point) (ssl : OpenSsl Scalar Point) (key nonce : Bytes)
    (rs maxCiphertextLen : Nat) : Nat → Nat → Bytes → Nat → Nat → Bytes → Except Fault (Nat × Bytes)
  | 0, _, _, _, _, _ => .error (.code .encrypt)
  | fuel + 1, padLen, rest, ciphertextStart, counter, buffer =>
      let maxBlockLen := rs - scheme.overhead
      let blockPadLen := scheme.minBlockPadLength padLen maxBlockLen
      let padLen := padLen - blockPadLen
      let maxBlockPlaintextLen := maxBlockLen - blockPadLen
      let blockPlaintextLen := if rest.length ≤ maxBlockPlaintextLen then rest.length else maxBlockPlaintextLen
      let blockLen := blockPlaintextLen + blockPadLen
      let recordEnd := ciphertextEnd maxCiphertextLen ciphertextStart (blockLen + scheme.overhead)
      let lastRecord := decide (padLen = 0 ∧ rest.length ≤ blockPlaintextLen ∧ scheme.needsTrailer rs recordEnd = false)
      if lastRecord = false ∧ blockLen < maxBlockLen then .error (.code .encryptPadding)
      else
        match scheme.encryptRecord ssl key (eceGenerateIv nonce counter) lastRecord (rest.take blockPlaintextLen) blockPadLen
          ciphertextStart recordEnd buffer with
        | .error fault => .error fault
        | .ok buffer =>
            if lastRecord then .ok (recordEnd, buffer)
            else
              Scheme.encryptRecords scheme ssl key nonce rs maxCiphertextLen fuel padLen (rest.drop blockPlaintextLen) recordEnd
                (counter + 1) buffer

-- ece_ciphertext_max_length
def Scheme.ciphertextMaxLength (scheme : Scheme Scalar Point) (target : Target) (rs padLen plaintextLen : Nat) : Nat :=
  if rs ≤ scheme.overhead then 0
  else if target.sizeMaxValue - plaintextLen < padLen then 0
  else
    let dataLen := plaintextLen + padLen
    let maxBlockLen := rs - scheme.overhead
    let numRecords := dataLen / maxBlockLen
    let numRecords :=
      if plaintextLen % rs ≠ 0 ∨ scheme.needsTrailer rs plaintextLen then numRecords + 1 else numRecords
    if (target.sizeMaxValue - dataLen) / scheme.overhead < numRecords then 0 else dataLen + scheme.overhead * numRecords

-- ece_webpush_encrypt_plaintext into a buffer of the caller's.
def Scheme.encryptPlaintext (scheme : Scheme Scalar Point) (target : Target) (ssl : OpenSsl Scalar Point)
    (senderPrivKey recvPubKey : EcKey Scalar Point) (authSecret salt : Bytes) (rs padLen : Nat) (plaintext buffer : Bytes) :
    Except Fault (Nat × Bytes) :=
  if authSecret.length ≠ eceWebpushAuthSecretLength then .error (.code .invalidAuthSecret)
  else if salt.length ≠ eceSaltLength then .error (.code .invalidSalt)
  else if plaintext.length = 0 then .error (.code .zeroPlaintext)
  else
    let maxCiphertextLen := scheme.ciphertextMaxLength target rs padLen plaintext.length
    if maxCiphertextLen = 0 then .error (.code .invalidRs)
    else if buffer.length < maxCiphertextLen then .error (.code .outOfMemory)
    else
      match scheme.deriveKeyAndNonce ssl .encrypt senderPrivKey recvPubKey authSecret salt with
      | .error error => .error (.code error)
      | .ok (key, nonce) =>
          scheme.encryptRecords ssl key nonce rs maxCiphertextLen (padLen + plaintext.length + 1) padLen plaintext 0 0 buffer

-- The body of the for loop of ece_decrypt_records on the caller's buffer: the length of the
-- unpadded block, and the buffer. The cipher writes a block before its tag is verified.
def Padding.decryptRecord (padding : Padding) (ssl : OpenSsl Scalar Point) (key nonce : Bytes) (lastRecord : Bool)
    (counter : Nat) (record : Bytes) (plaintextStart : Nat) (buffer : Bytes) : Except Fault (Nat × Bytes) :=
  if record.length ≤ eceTagLength then .error (.code .shortBlock)
  else
    let blockLen := record.length - eceTagLength
    if blockLen ≤ intMax ∧ buffer.length < plaintextStart + blockLen then .error .overrun
    else
      match eceDecryptRecord ssl key (eceGenerateIv nonce counter) record with
      | none => .error (.code .decrypt)
      | some block =>
          match store buffer plaintextStart block with
          | .error fault => .error fault
          | .ok buffer =>
              if blockLen < padding.padSize then .error (.code .decryptPadding)
              else
                match padding.unpad lastRecord block with
                | .error error => .error (.code error)
                | .ok text =>
                    match store buffer plaintextStart text with
                    | .error fault => .error fault
                    | .ok buffer => .ok (text.length, buffer)

-- The loop: plaintextStart after the last record, and the buffer. `rest` is the ciphertext from
-- ciphertextStart on, the record its part up to ciphertextEnd.
def Padding.decryptRecords (padding : Padding) (ssl : OpenSsl Scalar Point) (key nonce : Bytes) (rs : Nat) :
    Nat → Bytes → Nat → Nat → Bytes → Except Fault (Nat × Bytes)
  | 0, _, plaintextStart, _, buffer => .ok (plaintextStart, buffer)
  | fuel + 1, rest, plaintextStart, counter, buffer =>
      if rest.length = 0 then .ok (plaintextStart, buffer)
      else
        match padding.decryptRecord ssl key nonce (decide (rest.length ≤ rs)) counter (rest.take rs) plaintextStart buffer with
        | .error fault => .error fault
        | .ok (blockLen, buffer) =>
            Padding.decryptRecords padding ssl key nonce rs fuel (rest.drop rs) (plaintextStart + blockLen) (counter + 1) buffer

-- ece_decrypt_records into a buffer of the caller's.
def Padding.decryptInto (padding : Padding) (ssl : OpenSsl Scalar Point) (key nonce : Bytes) (rs : Nat)
    (ciphertext buffer : Bytes) : Except Fault (Nat × Bytes) :=
  let maxPlaintextLen := ecePlaintextMaxLength rs padding.padSize ciphertext.length
  if maxPlaintextLen = 0 then .error (.code .decrypt)
  else if buffer.length < maxPlaintextLen then .error (.code .outOfMemory)
  else padding.decryptRecords ssl key nonce rs ciphertext.length ciphertext 0 0 buffer

-- ece_webpush_decrypt into a buffer of the caller's.
def Scheme.webpushDecrypt (scheme : Scheme Scalar Point) (ssl : OpenSsl Scalar Point) (rs : Nat)
    (rawRecvPrivKey authSecret salt rawSenderPubKey ciphertext buffer : Bytes) : Except Fault (Nat × Bytes) :=
  if authSecret.length ≠ eceWebpushAuthSecretLength then .error (.code .invalidAuthSecret)
  else if salt.length ≠ eceSaltLength then .error (.code .invalidSalt)
  else if ciphertext.length = 0 then .error (.code .zeroCiphertext)
  else if scheme.needsTrailer rs ciphertext.length then .error (.code .decryptTruncated)
  else
    match eceImportPrivateKey ssl rawRecvPrivKey with
    | none => .error (.code .invalidPrivateKey)
    | some recvPrivKey =>
        match eceImportPublicKey ssl rawSenderPubKey with
        | none => .error (.code .invalidPublicKey)
        | some senderPubKey =>
            match scheme.deriveKeyAndNonce ssl .decrypt recvPrivKey senderPubKey authSecret salt with
            | .error error => .error (.code error)
            | .ok (key, nonce) => scheme.decryptInto ssl key nonce rs ciphertext buffer

theorem bind_fails {A B : Type} (first : Except EceError A) (then_ : A → Except EceError B) (error : EceError)
    (start : first ≠ .error error) (later : ∀ value, then_ value ≠ .error error) : first >>= then_ ≠ .error error := by
  cases first with
  | error other => exact fun failed => start (by cases failed; rfl)
  | ok value => exact later value

theorem hkdf_error (ssl : OpenSsl Scalar Point) (salt ikm info : Bytes) (outputLen : Nat) :
    eceHkdfSha256 ssl salt ikm info outputLen ≠ .error .encryptPadding := by
  rw [eceHkdfSha256]
  split <;> exact fun failed => by cases failed

end PushReceiver
