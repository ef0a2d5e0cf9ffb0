import PushReceiver.Keys
import PushReceiver.Library.Records

set_option autoImplicit false

namespace PushReceiver

variable {Scalar Point : Type}

def Target.sizeMaxValue (target : Target) : Nat := 2 ^ target.sizeBits - 1

def intMax : Nat := 2147483647

def eceAesgcmNeedsTrailer (rs ciphertextLen : Nat) : Bool := ciphertextLen % rs = 0

def eceMinBlockPadLength (padLen maxBlockLen : Nat) : Nat :=
  let blockPadLen := maxBlockLen - 1
  let blockPadLen := if padLen ≠ 0 ∧ blockPadLen = 0 then blockPadLen + 1 else blockPadLen
  if padLen < blockPadLen then padLen else blockPadLen

def eceAesgcmMinBlockPadLength (padLen maxBlockLen : Nat) : Nat :=
  let blockPadLen := eceMinBlockPadLength padLen maxBlockLen
  if 65535 < blockPadLen then 65535 else blockPadLen

-- ece_ciphertext_max_length with the padding and the trailer of "aesgcm". Zero is a failure.
def eceCiphertextMaxLength (target : Target) (rs padSize padLen plaintextLen : Nat) : Nat :=
  let overhead := padSize + eceTagLength
  if rs ≤ overhead then 0
  else if target.sizeMaxValue - plaintextLen < padLen then 0
  else
    let dataLen := plaintextLen + padLen
    let maxBlockLen := rs - overhead
    let numRecords := dataLen / maxBlockLen
    let numRecords :=
      if plaintextLen % rs ≠ 0 ∨ eceAesgcmNeedsTrailer rs plaintextLen then numRecords + 1 else numRecords
    if (target.sizeMaxValue - dataLen) / overhead < numRecords then 0 else dataLen + overhead * numRecords

-- The bytes ece_aesgcm_encrypt_block hands to the cipher, one update after the other.
def eceAesgcmBlock (blockPlaintext : Bytes) (blockPadLen : Nat) : Bytes :=
  writeUint16Be blockPadLen ++ List.replicate blockPadLen 0 ++ blockPlaintext

def eceAesgcmEncryptBlock (ssl : OpenSsl Scalar Point) (key iv blockPlaintext : Bytes) (blockPadLen : Nat) :
    Option (Bytes × Bytes) :=
  if intMax < blockPlaintext.length then none else ssl.gcmEncrypt key iv (eceAesgcmBlock blockPlaintext blockPadLen)

def ciphertextEnd (maxCiphertextLen ciphertextStart recordLen : Nat) : Nat :=
  if maxCiphertextLen - ciphertextStart ≤ recordLen then maxCiphertextLen else ciphertextStart + recordLen

-- The while loop of ece_webpush_encrypt_plaintext. `rest` is the plaintext from plaintextStart on,
-- `ciphertext` the output up to ciphertextStart; the tag is written in front of ciphertextEnd.
def encryptLoop (ssl : OpenSsl Scalar Point) (key nonce : Bytes) (rs padSize maxCiphertextLen : Nat) :
    Nat → Nat → Bytes → Bytes → Nat → Except EceError Bytes
  | 0, _, _, _, _ => .error .encrypt
  | fuel + 1, padLen, rest, ciphertext, counter =>
      let overhead := padSize + eceTagLength
      let maxBlockLen := rs - overhead
      let blockPadLen := eceAesgcmMinBlockPadLength padLen maxBlockLen
      let padLen := padLen - blockPadLen
      let maxBlockPlaintextLen := maxBlockLen - blockPadLen
      let blockPlaintextLen := if rest.length ≤ maxBlockPlaintextLen then rest.length else maxBlockPlaintextLen
      let blockLen := blockPlaintextLen + blockPadLen
      let recordLen := blockLen + overhead
      let ciphertextEnd := ciphertextEnd maxCiphertextLen ciphertext.length recordLen
      let lastRecord := padLen = 0 ∧ rest.length ≤ blockPlaintextLen ∧ eceAesgcmNeedsTrailer rs ciphertextEnd = false
      if ¬ lastRecord ∧ blockLen < maxBlockLen then .error .encryptPadding
      else
        match eceAesgcmEncryptBlock ssl key (eceGenerateIv nonce counter) (rest.take blockPlaintextLen) blockPadLen with
        | none => .error .encrypt
        | some (block, tag) =>
            let ciphertext := (ciphertext ++ block).take (ciphertextEnd - eceTagLength) ++ tag
            if lastRecord then .ok ciphertext
            else
              encryptLoop ssl key nonce rs padSize maxCiphertextLen fuel padLen (rest.drop blockPlaintextLen) ciphertext
                (counter + 1)

theorem min_block_pad (padLen maxBlockLen : Nat) (positive : 0 < maxBlockLen) :
    eceAesgcmMinBlockPadLength padLen maxBlockLen ≤ padLen ∧ eceAesgcmMinBlockPadLength padLen maxBlockLen ≤ maxBlockLen ∧
      eceAesgcmMinBlockPadLength padLen maxBlockLen ≤ 65535 := by
  unfold eceAesgcmMinBlockPadLength eceMinBlockPadLength
  dsimp only
  split <;> split <;> split <;> omega

-- A turn that is not the last one fills its block, so the loop ends within this many turns.
theorem encrypt_enough (ssl : OpenSsl Scalar Point) (key nonce : Bytes) (rs padSize maxCiphertextLen : Nat)
    (roomy : padSize + eceTagLength < rs) (fuel extra padLen : Nat) (rest ciphertext : Bytes) (counter : Nat)
    (enough : padLen + rest.length < fuel) :
    encryptLoop ssl key nonce rs padSize maxCiphertextLen (fuel + extra) padLen rest ciphertext counter =
      encryptLoop ssl key nonce rs padSize maxCiphertextLen fuel padLen rest ciphertext counter := by
  induction fuel generalizing padLen rest ciphertext counter with
  | zero => cases enough
  | succ fuel ih =>
      obtain ⟨padding, within, _⟩ := min_block_pad padLen (rs - (padSize + eceTagLength)) (Nat.sub_pos_of_lt roomy)
      rw [Nat.succ_add_eq_add_succ, Nat.add_succ]
      simp only [encryptLoop]
      generalize eceAesgcmMinBlockPadLength padLen (rs - (padSize + eceTagLength)) = blockPadLen at *
      generalize taken : (if rest.length ≤ rs - (padSize + eceTagLength) - blockPadLen then rest.length
        else rs - (padSize + eceTagLength) - blockPadLen) = blockPlaintextLen at *
      have plaintext : blockPlaintextLen ≤ rest.length := by
        rw [← taken]
        split <;> omega
      split
      · rfl
      · rename_i goesOn
        cases eceAesgcmEncryptBlock ssl key (eceGenerateIv nonce counter) (rest.take blockPlaintextLen) blockPadLen with
        | none => rfl
        | some record =>
            dsimp only
            split
            · rfl
            · rename_i notLast
              rw [not_and, Nat.not_lt] at goesOn
              have full := goesOn notLast
              apply ih
              rw [List.length_drop]
              omega

-- `ciphertextLen` is the length of the caller's buffer. Every record but the last takes at least
-- one byte of padding or plaintext.
def eceWebpushEncryptPlaintext (target : Target) (ssl : OpenSsl Scalar Point) (senderPrivKey recvPubKey : EcKey Scalar Point)
    (authSecret salt : Bytes) (rs padSize padLen : Nat) (plaintext : Bytes) (ciphertextLen : Nat) : Except EceError Bytes :=
  if authSecret.length ≠ eceWebpushAuthSecretLength then .error .invalidAuthSecret
  else if salt.length ≠ eceSaltLength then .error .invalidSalt
  else if plaintext.length = 0 then .error .zeroPlaintext
  else
    let maxCiphertextLen := eceCiphertextMaxLength target rs padSize padLen plaintext.length
    if maxCiphertextLen = 0 then .error .invalidRs
    else if ciphertextLen < maxCiphertextLen then .error .outOfMemory
    else
      match eceWebpushAesgcmDeriveKeyAndNonce ssl .encrypt senderPrivKey recvPubKey authSecret salt with
      | .error error => .error error
      | .ok (key, nonce) =>
          encryptLoop ssl key nonce rs padSize maxCiphertextLen (padLen + plaintext.length + 1) padLen plaintext [] 0

-- ece_webpush_aesgcm_encrypt_with_keys: the sender public key and the ciphertext.
def eceWebpushAesgcmEncryptWithKeys (target : Target) (ssl : OpenSsl Scalar Point) (rawSenderPrivKey authSecret salt
    rawRecvPubKey : Bytes) (rs padLen : Nat) (plaintext : Bytes) (ciphertextLen : Nat) : Except EceError (Bytes × Bytes) :=
  let rs := eceAesgcmRs rs
  if rs = 0 then .error .invalidRs
  else
    match eceImportPrivateKey ssl rawSenderPrivKey with
    | none => .error .invalidPrivateKey
    | some senderPrivKey =>
        match eceImportPublicKey ssl rawRecvPubKey with
        | none => .error .invalidPublicKey
        | some recvPubKey =>
            match ssl.point2oct senderPrivKey.pubKey with
            | none => .error .encodePublicKey
            | some rawSenderPubKey =>
                match eceWebpushEncryptPlaintext target ssl senderPrivKey recvPubKey authSecret salt rs eceAesgcmPadSize
                  padLen plaintext ciphertextLen with
                | .error error => .error error
                | .ok ciphertext => .ok (rawSenderPubKey, ciphertext)

end PushReceiver
