import PushReceiver.Delivery
import PushReceiver.DecryptRun
import PushReceiver.EncryptRun

set_option autoImplicit false

namespace PushReceiver

variable {Scalar Point : Type}

-- The updates of ece_aesgcm_encrypt_block: the padding length, one zero after the other, the plaintext.
def eceAesgcmUpdates (_lastRecord : Bool) (blockPlaintext : Bytes) (blockPadLen : Nat) : List Bytes :=
  writeUint16Be blockPadLen :: (List.replicate blockPadLen [0] ++ [blockPlaintext])

def aesgcmPadCap (maxBlockLen : Nat) : Nat := min 65535 (max 1 (maxBlockLen - 1))

def aesgcmUnpad (_lastRecord : Bool) (block : Bytes) : Except EceError Bytes :=
  match eceAesgcmUnpad block with
  | none => .error .decryptPadding
  | some blockPlaintext => .ok blockPlaintext

theorem aesgcm_updates_flatten (lastRecord : Bool) (blockPlaintext : Bytes) (blockPadLen : Nat) :
    (eceAesgcmUpdates lastRecord blockPlaintext blockPadLen).flatten = eceAesgcmBlock blockPlaintext blockPadLen := by
  rw [eceAesgcmUpdates, List.flatten_cons, List.flatten_append, List.flatten_replicate_singleton, eceAesgcmBlock,
    List.append_assoc, List.flatten_cons, List.flatten_nil, List.append_nil]

theorem aesgcm_unpad_length (block blockPlaintext : Bytes) (least : eceAesgcmPadSize ≤ block.length)
    (unpadded : eceAesgcmUnpad block = some blockPlaintext) : eceAesgcmPadSize + blockPlaintext.length ≤ block.length := by
  unfold eceAesgcmUnpad at unpadded
  dsimp only at unpadded
  split at unpadded
  · cases unpadded
  · split at unpadded
    · rw [← Option.some.inj unpadded, List.length_drop]
      omega
    · cases unpadded

theorem aesgcm_min_block_pad (padLen maxBlockLen : Nat) :
    eceAesgcmMinBlockPadLength padLen maxBlockLen = min padLen (aesgcmPadCap maxBlockLen) := by
  unfold eceAesgcmMinBlockPadLength eceMinBlockPadLength aesgcmPadCap
  dsimp only
  split <;> split <;> split <;> omega

theorem derive_aesgcm_error (ssl : OpenSsl Scalar Point) (mode : EceMode) (localKey remoteKey : EcKey Scalar Point)
    (authSecret salt : Bytes) :
    eceWebpushAesgcmDeriveKeyAndNonce ssl mode localKey remoteKey authSecret salt ≠ .error .encryptPadding := by
  have generates : ∀ recvKey senderKey pre,
      eceWebpushAesgcmGenerateInfo ssl recvKey senderKey pre ≠ .error .encryptPadding := by
    intro recvKey senderKey pre
    rw [eceWebpushAesgcmGenerateInfo]
    split <;> exact fun failed => by cases failed
  unfold eceWebpushAesgcmDeriveKeyAndNonce
  split
  · exact fun failed => by cases failed
  · refine bind_fails _ _ _ (hkdf_error _ _ _ _ _) fun ikm => ?_
    refine bind_fails _ _ _ (generates _ _ _) fun keyInfo => ?_
    refine bind_fails _ _ _ (generates _ _ _) fun nonceInfo => ?_
    refine bind_fails _ _ _ (hkdf_error _ _ _ _ _) fun key => ?_
    refine bind_fails _ _ _ (hkdf_error _ _ _ _ _) fun nonce => ?_
    exact fun failed => by cases failed

def aesgcmPadding : Padding where
  padSize := eceAesgcmPadSize
  minBlockPadLength := eceAesgcmMinBlockPadLength
  updates := eceAesgcmUpdates
  unpad := aesgcmUnpad
  padCap := aesgcmPadCap
  padded := Nat.two_pos
  pad_capped padLen maxBlockLen _ := aesgcm_min_block_pad padLen maxBlockLen
  cap_bound maxBlockLen positive := by
    rw [aesgcmPadCap]
    omega
  updates_length lastRecord blockPlaintext blockPadLen := by
    rw [aesgcm_updates_flatten, block_length]
  unpad_updates lastRecord blockPlaintext padLen maxBlockLen positive := by
    rw [aesgcm_updates_flatten, aesgcmUnpad, unpad_block _ _ (min_block_pad padLen maxBlockLen positive).2.2]
  unpad_length lastRecord block blockPlaintext least unpadded := by
    rw [aesgcmUnpad] at unpadded
    split at unpadded
    · cases unpadded
    · rename_i text found
      rw [← Except.ok.inj unpadded]
      exact aesgcm_unpad_length block text least found

def aesgcmScheme (Scalar Point : Type) : Scheme Scalar Point where
  toPadding := aesgcmPadding
  needsTrailer := eceAesgcmNeedsTrailer
  deriveKeyAndNonce := eceWebpushAesgcmDeriveKeyAndNonce
  trailer_inside rs length inside := by
    rw [eceAesgcmNeedsTrailer, decide_eq_false inside]
  trailer_boundary rs length boundary := by
    rw [eceAesgcmNeedsTrailer, eceAesgcmNeedsTrailer, boundary, Nat.zero_mod]
  derive_padding := derive_aesgcm_error

theorem aesgcm_counted (rs padLen plaintextLen : Nat) : (aesgcmScheme Scalar Point).Counted rs padLen plaintextLen := by
  refine .inr (.inl ?_)
  show eceAesgcmNeedsTrailer rs 0 = true
  rw [eceAesgcmNeedsTrailer, Nat.zero_mod]
  rfl

end PushReceiver
