import PushReceiver.Cpp

set_option autoImplicit false

namespace PushReceiver

def eceSaltLength : Nat := 16
def eceTagLength : Nat := 16
def eceWebpushPrivateKeyLength : Nat := 32
def eceWebpushPublicKeyLength : Nat := 65
def eceWebpushAuthSecretLength : Nat := 16
def eceAesgcmPadSize : Nat := 2
def rsLength : Nat := 4096

def eceOk : Int := 0

inductive EceError where
  | outOfMemory
  | invalidPrivateKey
  | invalidPublicKey
  | computeSecret
  | encodePublicKey
  | decrypt
  | decryptPadding
  | zeroPlaintext
  | shortBlock
  | zeroCiphertext
  | hkdf
  | invalidEncryptionHeader
  | invalidCryptoKeyHeader
  | invalidRs
  | invalidSalt
  | invalidDh
  | encrypt
  | encryptPadding
  | invalidAuthSecret
  | generateKeys
  | decryptTruncated
deriving DecidableEq, Repr

def EceError.code : EceError → Int
  | .outOfMemory => -1
  | .invalidPrivateKey => -2
  | .invalidPublicKey => -3
  | .computeSecret => -4
  | .encodePublicKey => -5
  | .decrypt => -6
  | .decryptPadding => -7
  | .zeroPlaintext => -8
  | .shortBlock => -9
  | .zeroCiphertext => -11
  | .hkdf => -12
  | .invalidEncryptionHeader => -13
  | .invalidCryptoKeyHeader => -14
  | .invalidRs => -15
  | .invalidSalt => -16
  | .invalidDh => -17
  | .encrypt => -18
  | .encryptPadding => -19
  | .invalidAuthSecret => -20
  | .generateKeys => -21
  | .decryptTruncated => -22

theorem error_code_nonzero (error : EceError) : error.code ≠ eceOk := by
  cases error <;> decide

-- ece_aesgcm_rs. Zero stands for a record size that the tag would carry past a uint32_t.
def eceAesgcmRs (rs : Nat) : Nat := if 4294967295 - eceTagLength < rs then 0 else rs + eceTagLength

def ecePlaintextMaxLength (rs padSize ciphertextLen : Nat) : Nat :=
  let overhead := padSize + eceTagLength
  if rs ≤ overhead then 0
  else
    let numRecords := if ciphertextLen % rs = 0 then ciphertextLen / rs else ciphertextLen / rs + 1
    if ciphertextLen / eceTagLength < numRecords then 0 else ciphertextLen - eceTagLength * numRecords

def eceAesgcmPlaintextMaxLength (rs ciphertextLen : Nat) : Nat :=
  if eceAesgcmRs rs = 0 then 0 else ecePlaintextMaxLength (eceAesgcmRs rs) eceAesgcmPadSize ciphertextLen

end PushReceiver
