import PushReceiver.Encrypt
import PushReceiver.Stanza

set_option autoImplicit false

namespace PushReceiver

variable {Scalar Point : Type}

def readUint16Be (bytes : Bytes) : Nat := (bytes.getD 0 0).toNat * 256 + (bytes.getD 1 0).toNat

def eceDecryptRecord (ssl : OpenSsl Scalar Point) (key iv record : Bytes) : Option Bytes :=
  let blockLen := record.length - eceTagLength
  if intMax < blockLen then none else ssl.gcmDecrypt key iv (record.take blockLen) (record.drop blockLen)

theorem decrypt_record_tag (ssl : OpenSsl Scalar Point) (key iv block tag : Bytes) (tagLength : tag.length = eceTagLength)
    (small : block.length ≤ intMax) : eceDecryptRecord ssl key iv (block ++ tag) = ssl.gcmDecrypt key iv block tag := by
  have length : (block ++ tag).length - eceTagLength = block.length := by
    rw [List.length_append, tagLength, Nat.add_sub_cancel]
  rw [eceDecryptRecord]
  simp only [length]
  rw [if_neg (Nat.not_lt.mpr small), List.take_left' rfl, List.drop_left' rfl]

-- Unfolding the subtraction of the tag stalls the equations of the loop below.
attribute [irreducible] eceDecryptRecord

def eceAesgcmUnpad (block : Bytes) : Option Bytes :=
  let padLen := readUint16Be block
  if block.length - eceAesgcmPadSize < padLen then none
  else if ((block.drop eceAesgcmPadSize).take padLen).all (· = 0) then some (block.drop (eceAesgcmPadSize + padLen))
  else none

-- The for loop of ece_decrypt_records. `rest` is the ciphertext from ciphertextStart on,
-- `plaintext` the output up to plaintextStart.
def decryptLoop (ssl : OpenSsl Scalar Point) (key nonce : Bytes) (rs padSize : Nat) :
    Nat → Bytes → Bytes → Nat → Except EceError Bytes
  | 0, rest, plaintext, _ => if rest = [] then .ok plaintext else .error .decrypt
  | fuel + 1, rest, plaintext, counter =>
      if rest = [] then .ok plaintext
      else
        let recordLen := if rest.length < rs then rest.length else rs
        if recordLen ≤ eceTagLength then .error .shortBlock
        else
          match eceDecryptRecord ssl key (eceGenerateIv nonce counter) (rest.take recordLen) with
          | none => .error .decrypt
          | some block =>
              if recordLen - eceTagLength < padSize then .error .decryptPadding
              else
                match eceAesgcmUnpad block with
                | none => .error .decryptPadding
                | some text => decryptLoop ssl key nonce rs padSize fuel (rest.drop recordLen) (plaintext ++ text) (counter + 1)

-- Every turn takes more than a tag off the ciphertext.
theorem decrypt_enough (ssl : OpenSsl Scalar Point) (key nonce : Bytes) (rs padSize fuel extra : Nat) (rest plaintext : Bytes)
    (counter : Nat) (enough : rest.length ≤ fuel) :
    decryptLoop ssl key nonce rs padSize (fuel + extra) rest plaintext counter =
      decryptLoop ssl key nonce rs padSize fuel rest plaintext counter := by
  induction fuel generalizing rest plaintext counter with
  | zero =>
      obtain rfl := List.eq_nil_of_length_eq_zero (Nat.le_zero.mp enough)
      rw [Nat.zero_add]
      cases extra with
      | zero => rfl
      | succ extra => simp only [decryptLoop, if_true]
  | succ fuel ih =>
      rw [Nat.succ_add_eq_add_succ, Nat.add_succ]
      simp only [decryptLoop]
      split
      · rfl
      · generalize (if rest.length < rs then rest.length else rs) = recordLen
        split
        · rfl
        · cases eceDecryptRecord ssl key (eceGenerateIv nonce counter) (rest.take recordLen) with
          | none => rfl
          | some block =>
              dsimp only
              split
              · rfl
              · cases eceAesgcmUnpad block with
                | none => rfl
                | some text =>
                    apply ih
                    rw [List.length_drop]
                    omega

def eceDecryptRecords (ssl : OpenSsl Scalar Point) (key nonce : Bytes) (rs padSize : Nat) (ciphertext : Bytes)
    (plaintextLen : Nat) : Except EceError Bytes :=
  let maxPlaintextLen := ecePlaintextMaxLength rs padSize ciphertext.length
  if maxPlaintextLen = 0 then .error .decrypt
  else if plaintextLen < maxPlaintextLen then .error .outOfMemory
  else decryptLoop ssl key nonce rs padSize ciphertext.length ciphertext [] 0

def eceWebpushDecrypt (ssl : OpenSsl Scalar Point) (rs padSize : Nat) (call : DecryptCall) : Except EceError Bytes :=
  if call.authSecret.length ≠ eceWebpushAuthSecretLength then .error .invalidAuthSecret
  else if call.salt.length ≠ eceSaltLength then .error .invalidSalt
  else if call.ciphertext.length = 0 then .error .zeroCiphertext
  else if eceAesgcmNeedsTrailer rs call.ciphertext.length then .error .decryptTruncated
  else
    match eceImportPrivateKey ssl call.rawRecvPrivKey with
    | none => .error .invalidPrivateKey
    | some recvPrivKey =>
        match eceImportPublicKey ssl call.rawSenderPubKey with
        | none => .error .invalidPublicKey
        | some senderPubKey =>
            match eceWebpushAesgcmDeriveKeyAndNonce ssl .decrypt recvPrivKey senderPubKey call.authSecret call.salt with
            | .error error => .error error
            | .ok (key, nonce) => eceDecryptRecords ssl key nonce rs padSize call.ciphertext call.plaintextLen

-- The error code, and the output buffer up to the length stored; after an error no one reads it.
-- A record size of zero is answered with ECE_OK and leaves the zero-filled buffer as it is.
def eceWebpushAesgcmDecrypt (ssl : OpenSsl Scalar Point) (call : DecryptCall) : Int × Bytes :=
  let rs := eceAesgcmRs call.rs
  if rs = 0 then (eceOk, List.replicate call.plaintextLen 0)
  else
    match eceWebpushDecrypt ssl rs eceAesgcmPadSize call with
    | .error error => (error.code, List.replicate call.plaintextLen 0)
    | .ok plaintext => (eceOk, plaintext)

end PushReceiver
