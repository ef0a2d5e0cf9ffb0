import PushReceiver.EncryptRun
import Mathlib.Data.List.GetD

set_option autoImplicit false

namespace PushReceiver

variable {Scalar Point : Type}

def eceAes128gcmMinRs : Nat := 18
def eceAes128gcmHeaderLength : Nat := 21
def eceAes128gcmMaxKeyIdLength : Nat := 255
def eceAes128gcmPadSize : Nat := 1
def eceWebpushAes128gcmIkmInfoPrefix : Bytes := ascii "WebPush: info" ++ [0]
def eceAes128gcmKeyInfo : Bytes := ascii "Content-Encoding: aes128gcm" ++ [0]
def eceAes128gcmNonceInfo : Bytes := ascii "Content-Encoding: nonce" ++ [0]

def eceAes128gcmNeedsTrailer (_rs _ciphertextLen : Nat) : Bool := false

def eceAes128gcmPadDelim (lastRecord : Bool) : UInt8 := if lastRecord then 2 else 1

-- The updates of ece_aes128gcm_encrypt_block: the plaintext, the delimiter, one zero after the other.
def eceAes128gcmUpdates (lastRecord : Bool) (blockPlaintext : Bytes) (blockPadLen : Nat) : List Bytes :=
  blockPlaintext :: [eceAes128gcmPadDelim lastRecord] :: List.replicate blockPadLen [0]

-- The while loop of ece_aes128gcm_unpad, which walks from the end of the block to the delimiter.
def aes128gcmUnpadLoop (lastRecord : Bool) (block : Bytes) : Nat → Except EceError Nat
  | 0 => .error .zeroPlaintext
  | blockLen + 1 =>
      if block.getD blockLen 0 = 0 then aes128gcmUnpadLoop lastRecord block blockLen
      else if block.getD blockLen 0 ≠ eceAes128gcmPadDelim lastRecord then .error .decryptPadding
      else .ok blockLen

def eceAes128gcmUnpad (lastRecord : Bool) (block : Bytes) : Except EceError Bytes :=
  match aes128gcmUnpadLoop lastRecord block block.length with
  | .error error => .error error
  | .ok blockLen => .ok (block.take blockLen)

def eceWebpushAes128gcmGenerateInfo (ssl : OpenSsl Scalar Point) (recvKey senderKey : EcKey Scalar Point) (pre : Bytes) :
    Except EceError Bytes :=
  match ssl.point2oct recvKey.pubKey, ssl.point2oct senderKey.pubKey with
  | some recvPubKey, some senderPubKey => .ok (pre ++ recvPubKey ++ senderPubKey)
  | _, _ => .error .encodePublicKey

-- ece_aes128gcm_derive_key_and_nonce: the key and the nonce.
def eceAes128gcmDeriveKeyAndNonce (ssl : OpenSsl Scalar Point) (salt ikm : Bytes) : Except EceError (Bytes × Bytes) := do
  let key ← eceHkdfSha256 ssl salt ikm eceAes128gcmKeyInfo eceAesKeyLength
  let nonce ← eceHkdfSha256 ssl salt ikm eceAes128gcmNonceInfo eceNonceLength
  return (key, nonce)

def eceWebpushAes128gcmDeriveKeyAndNonce (ssl : OpenSsl Scalar Point) (mode : EceMode)
    (localKey remoteKey : EcKey Scalar Point) (authSecret salt : Bytes) : Except EceError (Bytes × Bytes) :=
  match eceComputeSecret ssl localKey remoteKey with
  | none => .error .computeSecret
  | some sharedSecret => do
      let (recvKey, senderKey) :=
        match mode with
        | .encrypt => (remoteKey, localKey)
        | .decrypt => (localKey, remoteKey)
      let ikmInfo ← eceWebpushAes128gcmGenerateInfo ssl recvKey senderKey eceWebpushAes128gcmIkmInfoPrefix
      let ikm ← eceHkdfSha256 ssl authSecret sharedSecret ikmInfo eceWebpushIkmLength
      eceAes128gcmDeriveKeyAndNonce ssl salt ikm

theorem derive_aes128gcm_modes (ssl : OpenSsl Scalar Point) (recv sender : Scalar) (recvPoint senderPoint : Point)
    (agreed : ssl.ecdhComputeKey recvPoint sender = ssl.ecdhComputeKey senderPoint recv) (authSecret salt : Bytes) :
    eceWebpushAes128gcmDeriveKeyAndNonce ssl .decrypt ⟨some recv, recvPoint⟩ ⟨none, senderPoint⟩ authSecret salt =
      eceWebpushAes128gcmDeriveKeyAndNonce ssl .encrypt ⟨some sender, senderPoint⟩ ⟨none, recvPoint⟩ authSecret salt := by
  simp only [eceWebpushAes128gcmDeriveKeyAndNonce, eceComputeSecret, Option.bind_some, agreed, eceWebpushAes128gcmGenerateInfo]

theorem pad_delim_nonzero (lastRecord : Bool) : eceAes128gcmPadDelim lastRecord ≠ 0 := by
  cases lastRecord <;> decide

theorem aes128gcm_updates_flatten (lastRecord : Bool) (blockPlaintext : Bytes) (blockPadLen : Nat) :
    (eceAes128gcmUpdates lastRecord blockPlaintext blockPadLen).flatten =
      blockPlaintext ++ eceAes128gcmPadDelim lastRecord :: List.replicate blockPadLen 0 := by
  rw [eceAes128gcmUpdates, List.flatten_cons, List.flatten_cons, List.flatten_replicate_singleton, List.singleton_append]

theorem unpad_loop_zeros (lastRecord : Bool) (text : Bytes) (delim : UInt8) (padLen zeros : Nat) (within : zeros ≤ padLen)
    (nonzero : delim ≠ 0) :
    aes128gcmUnpadLoop lastRecord (text ++ delim :: List.replicate padLen 0) (text.length + 1 + zeros) =
      if delim ≠ eceAes128gcmPadDelim lastRecord then .error .decryptPadding else .ok text.length := by
  induction zeros with
  | zero =>
      have found : (text ++ delim :: List.replicate padLen 0).getD text.length 0 = delim := by
        rw [List.getD_append_right _ _ _ _ (Nat.le_refl _), Nat.sub_self, List.getD_cons_zero]
      rw [Nat.add_zero, aes128gcmUnpadLoop, found, if_neg nonzero]
  | succ zeros ih =>
      have zero : (text ++ delim :: List.replicate padLen 0).getD (text.length + 1 + zeros) 0 = 0 := by
        rw [List.getD_append_right _ _ _ _ (by omega), Nat.add_assoc, Nat.add_sub_cancel_left, Nat.add_comm 1,
          List.getD_cons_succ, List.getD_replicate _ (by omega)]
      rw [← Nat.add_assoc, aes128gcmUnpadLoop, if_pos zero, ih (by omega)]

theorem aes128gcm_unpad_block (lastRecord : Bool) (blockPlaintext : Bytes) (blockPadLen : Nat) :
    eceAes128gcmUnpad lastRecord (eceAes128gcmUpdates lastRecord blockPlaintext blockPadLen).flatten = .ok blockPlaintext := by
  have found := unpad_loop_zeros lastRecord blockPlaintext (eceAes128gcmPadDelim lastRecord) blockPadLen blockPadLen
    (Nat.le_refl _) (pad_delim_nonzero lastRecord)
  have length : (blockPlaintext ++ eceAes128gcmPadDelim lastRecord :: List.replicate blockPadLen 0).length =
      blockPlaintext.length + 1 + blockPadLen := by
    rw [List.length_append, List.length_cons, List.length_replicate]
    omega
  rw [aes128gcm_updates_flatten, eceAes128gcmUnpad, length, found, if_neg (not_not_intro rfl)]
  simp only [List.take_left']

theorem unpad_loop_less (lastRecord : Bool) (block : Bytes) (length blockLen : Nat)
    (found : aes128gcmUnpadLoop lastRecord block length = .ok blockLen) : blockLen < length := by
  induction length with
  | zero => cases found
  | succ length ih =>
      rw [aes128gcmUnpadLoop] at found
      split at found
      · exact Nat.lt_succ_of_lt (ih found)
      · split at found
        · cases found
        · rw [← Except.ok.inj found]
          exact Nat.lt_succ_self length

-- The delimiter of a record that others follow is not that of the last one.
theorem unpad_loop_tells (block : Bytes) (length blockLen : Nat) (found : aes128gcmUnpadLoop false block length = .ok blockLen) :
    aes128gcmUnpadLoop true block length = .error .decryptPadding := by
  induction length with
  | zero => cases found
  | succ length ih =>
      rw [aes128gcmUnpadLoop] at found ⊢
      by_cases zero : block.getD length 0 = 0
      · rw [if_pos zero] at found ⊢
        exact ih found
      · rw [if_neg zero] at found ⊢
        by_cases delim : block.getD length 0 = eceAes128gcmPadDelim false
        · rw [if_pos (by rw [delim]; decide)]
        · rw [if_pos delim] at found
          cases found

theorem aes128gcm_unpad_tells (block text : Bytes) (unpadded : eceAes128gcmUnpad false block = .ok text) :
    eceAes128gcmUnpad true block = .error .decryptPadding := by
  rw [eceAes128gcmUnpad] at unpadded
  cases found : aes128gcmUnpadLoop false block block.length with
  | error error =>
      rw [found] at unpadded
      cases unpadded
  | ok blockLen => rw [eceAes128gcmUnpad, unpad_loop_tells block _ blockLen found]

def aes128gcmPadCap (maxBlockLen : Nat) : Nat := max 1 (maxBlockLen - 1)

theorem ece_min_block_pad (padLen maxBlockLen : Nat) :
    eceMinBlockPadLength padLen maxBlockLen = min padLen (aes128gcmPadCap maxBlockLen) := by
  unfold eceMinBlockPadLength aes128gcmPadCap
  dsimp only
  split <;> split <;> omega

theorem derive_aes128gcm_error (ssl : OpenSsl Scalar Point) (mode : EceMode) (localKey remoteKey : EcKey Scalar Point)
    (authSecret salt : Bytes) :
    eceWebpushAes128gcmDeriveKeyAndNonce ssl mode localKey remoteKey authSecret salt ≠ .error .encryptPadding := by
  unfold eceWebpushAes128gcmDeriveKeyAndNonce
  split
  · exact fun failed => by cases failed
  · apply bind_fails
    · rw [eceWebpushAes128gcmGenerateInfo]
      split <;> exact fun failed => by cases failed
    · intro ikmInfo
      refine bind_fails _ _ _ (hkdf_error _ _ _ _ _) fun ikm => ?_
      refine bind_fails _ _ _ (hkdf_error _ _ _ _ _) fun key => ?_
      refine bind_fails _ _ _ (hkdf_error _ _ _ _ _) fun nonce => ?_
      exact fun failed => by cases failed

def aes128gcmPadding : Padding where
  padSize := eceAes128gcmPadSize
  minBlockPadLength := eceMinBlockPadLength
  updates := eceAes128gcmUpdates
  unpad := eceAes128gcmUnpad
  padCap := aes128gcmPadCap
  padded := Nat.one_pos
  pad_capped padLen maxBlockLen _ := ece_min_block_pad padLen maxBlockLen
  cap_bound maxBlockLen positive := by
    rw [aes128gcmPadCap]
    omega
  updates_length lastRecord blockPlaintext blockPadLen := by
    rw [aes128gcm_updates_flatten, List.length_append, List.length_cons, List.length_replicate, eceAes128gcmPadSize]
    omega
  unpad_updates lastRecord blockPlaintext padLen maxBlockLen _ :=
    aes128gcm_unpad_block lastRecord blockPlaintext (eceMinBlockPadLength padLen maxBlockLen)
  unpad_length lastRecord block blockPlaintext _ unpadded := by
    rw [eceAes128gcmUnpad] at unpadded
    cases found : aes128gcmUnpadLoop lastRecord block block.length with
    | error error =>
        rw [found] at unpadded
        cases unpadded
    | ok blockLen =>
        rw [found] at unpadded
        have less := unpad_loop_less lastRecord block _ blockLen found
        rw [← Except.ok.inj unpadded, List.length_take, eceAes128gcmPadSize]
        omega

def aes128gcmScheme (Scalar Point : Type) : Scheme Scalar Point where
  toPadding := aes128gcmPadding
  needsTrailer := eceAes128gcmNeedsTrailer
  deriveKeyAndNonce := eceWebpushAes128gcmDeriveKeyAndNonce
  trailer_inside _ _ _ := rfl
  trailer_boundary _ _ _ := rfl
  derive_padding := derive_aes128gcm_error

end PushReceiver
