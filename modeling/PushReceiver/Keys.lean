import PushReceiver.Ece

set_option autoImplicit false

namespace PushReceiver

-- The OpenSSL functions keys.c, encrypt.c and decrypt.c call on the curve P-256, none for a
-- failure. A scalar is the private part of an EC_KEY, a point its public part. The updates of
-- one GCM message are taken together: a cipher fed piece by piece works on the pieces' concatenation.
structure OpenSsl (Scalar Point : Type) where
  oct2priv : Bytes → Option Scalar
  pointMul : Scalar → Option Point
  oct2key : Bytes → Option Point
  point2oct : Point → Option Bytes
  ecdhComputeKey : Point → Scalar → Option Bytes
  hkdf : Bytes → Bytes → Bytes → Nat → Option Bytes
  gcmEncrypt : Bytes → Bytes → Bytes → Option (Bytes × Bytes)
  gcmDecrypt : Bytes → Bytes → Bytes → Bytes → Option Bytes

variable {Scalar Point : Type}

-- What the two ends rely on: an uncompressed encoding is read back, both ends of a key
-- agreement compute one secret, and a GCM message opens under the key and IV it was sealed with.
structure OpenSsl.Lawful (ssl : OpenSsl Scalar Point) : Prop where
  encoding : ∀ point oct, ssl.point2oct point = some oct → oct.length = eceWebpushPublicKeyLength →
    ssl.oct2key oct = some point
  agreement : ∀ scalar other point otherPoint, ssl.pointMul scalar = some point → ssl.pointMul other = some otherPoint →
    ssl.ecdhComputeKey point other = ssl.ecdhComputeKey otherPoint scalar
  opens : ∀ key iv block ciphertext tag, ssl.gcmEncrypt key iv block = some (ciphertext, tag) →
    ciphertext.length = block.length ∧ tag.length = eceTagLength ∧ ssl.gcmDecrypt key iv ciphertext tag = some block

structure EcKey (Scalar Point : Type) where
  privKey : Option Scalar
  pubKey : Point

def eceImportPrivateKey (ssl : OpenSsl Scalar Point) (rawKey : Bytes) : Option (EcKey Scalar Point) :=
  (ssl.oct2priv rawKey).bind fun privKey => (ssl.pointMul privKey).map fun pubKey => ⟨some privKey, pubKey⟩

def eceImportPublicKey (ssl : OpenSsl Scalar Point) (rawKey : Bytes) : Option (EcKey Scalar Point) :=
  (ssl.oct2key rawKey).map fun pubKey => ⟨none, pubKey⟩

def eceAesKeyLength : Nat := 16
def eceNonceLength : Nat := 12
def eceWebpushIkmLength : Nat := 32
def eceWebpushAesgcmIkmInfo : Bytes := ascii "Content-Encoding: auth" ++ [0]
def eceWebpushAesgcmKeyInfoPrefix : Bytes := ascii "Content-Encoding: aesgcm" ++ [0] ++ ascii "P-256" ++ [0]
def eceWebpushAesgcmNonceInfoPrefix : Bytes := ascii "Content-Encoding: nonce" ++ [0] ++ ascii "P-256" ++ [0]

def writeUint16Be (value : Nat) : Bytes := [UInt8.ofNat (value / 256), UInt8.ofNat value]

def readUint64Be (bytes : Bytes) : Nat := (bytes.take 8).foldl (fun value byte => value * 256 + byte.toNat) 0

def writeUint64Be (value : Nat) : Bytes :=
  [UInt8.ofNat (value >>> 56), UInt8.ofNat (value >>> 48), UInt8.ofNat (value >>> 40), UInt8.ofNat (value >>> 32),
    UInt8.ofNat (value >>> 24), UInt8.ofNat (value >>> 16), UInt8.ofNat (value >>> 8), UInt8.ofNat value]

def eceGenerateIv (nonce : Bytes) (counter : Nat) : Bytes :=
  let offset := eceNonceLength - 8
  nonce.take offset ++ writeUint64Be (readUint64Be (nonce.drop offset) ^^^ counter)

def eceComputeSecret (ssl : OpenSsl Scalar Point) (privKey pubKey : EcKey Scalar Point) : Option Bytes :=
  privKey.privKey.bind (ssl.ecdhComputeKey pubKey.pubKey)

def eceWebpushAesgcmGenerateInfo (ssl : OpenSsl Scalar Point) (recvKey senderKey : EcKey Scalar Point) (pre : Bytes) :
    Except EceError Bytes :=
  match ssl.point2oct recvKey.pubKey, ssl.point2oct senderKey.pubKey with
  | some recvPubKey, some senderPubKey =>
      .ok (pre ++ writeUint16Be eceWebpushPublicKeyLength ++ recvPubKey ++
        writeUint16Be eceWebpushPublicKeyLength ++ senderPubKey)
  | _, _ => .error .encodePublicKey

def eceHkdfSha256 (ssl : OpenSsl Scalar Point) (salt ikm info : Bytes) (outputLen : Nat) : Except EceError Bytes :=
  match ssl.hkdf salt ikm info outputLen with
  | none => .error .hkdf
  | some output => .ok output

inductive EceMode where
  | encrypt
  | decrypt
deriving DecidableEq, Repr

-- ece_webpush_aesgcm_derive_key_and_nonce: the key and the nonce.
def eceWebpushAesgcmDeriveKeyAndNonce (ssl : OpenSsl Scalar Point) (mode : EceMode) (localKey remoteKey : EcKey Scalar Point)
    (authSecret salt : Bytes) : Except EceError (Bytes × Bytes) :=
  match eceComputeSecret ssl localKey remoteKey with
  | none => .error .computeSecret
  | some sharedSecret => do
      let ikm ← eceHkdfSha256 ssl authSecret sharedSecret eceWebpushAesgcmIkmInfo eceWebpushIkmLength
      let (recvKey, senderKey) :=
        match mode with
        | .encrypt => (remoteKey, localKey)
        | .decrypt => (localKey, remoteKey)
      let keyInfo ← eceWebpushAesgcmGenerateInfo ssl recvKey senderKey eceWebpushAesgcmKeyInfoPrefix
      let nonceInfo ← eceWebpushAesgcmGenerateInfo ssl recvKey senderKey eceWebpushAesgcmNonceInfoPrefix
      let key ← eceHkdfSha256 ssl salt ikm keyInfo eceAesKeyLength
      let nonce ← eceHkdfSha256 ssl salt ikm nonceInfo eceNonceLength
      return (key, nonce)

structure KeyPair (ssl : OpenSsl Scalar Point) (rawPrivKey rawPubKey : Bytes) (privKey : Scalar) (pubKey : Point) : Prop where
  privLength : rawPrivKey.length = eceWebpushPrivateKeyLength
  imported : ssl.oct2priv rawPrivKey = some privKey
  multiplied : ssl.pointMul privKey = some pubKey
  encoded : ssl.point2oct pubKey = some rawPubKey
  pubLength : rawPubKey.length = eceWebpushPublicKeyLength

theorem import_private (ssl : OpenSsl Scalar Point) (rawPrivKey rawPubKey : Bytes) (privKey : Scalar) (pubKey : Point)
    (pair : KeyPair ssl rawPrivKey rawPubKey privKey pubKey) :
    eceImportPrivateKey ssl rawPrivKey = some ⟨some privKey, pubKey⟩ := by
  rw [eceImportPrivateKey, pair.imported, Option.bind_some, pair.multiplied]
  rfl

theorem import_public (ssl : OpenSsl Scalar Point) (lawful : ssl.Lawful) (rawPrivKey rawPubKey : Bytes) (privKey : Scalar)
    (pubKey : Point) (pair : KeyPair ssl rawPrivKey rawPubKey privKey pubKey) :
    eceImportPublicKey ssl rawPubKey = some ⟨none, pubKey⟩ := by
  rw [eceImportPublicKey, lawful.encoding pubKey rawPubKey pair.encoded pair.pubLength]
  rfl

-- The two modes differ only in which key is the receiver's.
theorem derive_modes (ssl : OpenSsl Scalar Point) (recv sender : Scalar) (recvPoint senderPoint : Point)
    (agreed : ssl.ecdhComputeKey recvPoint sender = ssl.ecdhComputeKey senderPoint recv) (authSecret salt : Bytes) :
    eceWebpushAesgcmDeriveKeyAndNonce ssl .decrypt ⟨some recv, recvPoint⟩ ⟨none, senderPoint⟩ authSecret salt =
      eceWebpushAesgcmDeriveKeyAndNonce ssl .encrypt ⟨some sender, senderPoint⟩ ⟨none, recvPoint⟩ authSecret salt := by
  simp only [eceWebpushAesgcmDeriveKeyAndNonce, eceComputeSecret, Option.bind_some, agreed, eceWebpushAesgcmGenerateInfo]

end PushReceiver
