import PushReceiver.DecryptRun
import PushReceiver.EncryptRun
import Mathlib.Data.List.Nodup
import Mathlib.Data.Nat.Bitwise

set_option autoImplicit false

namespace PushReceiver

variable {Scalar Point : Type}

-- The last record of a message is a full one or not, but never shorter than its overhead.
theorem stream_split (scheme : Scheme Scalar Point) (rs dataLen : Nat) (roomy : scheme.overhead < rs) (some_ : 0 < dataLen) :
    ∃ records tail, scheme.streamLength rs dataLen = records * rs + tail ∧ scheme.overhead ≤ tail ∧ tail ≤ rs := by
  have positive : 0 < rs - scheme.overhead := Nat.sub_pos_of_lt roomy
  have split_ : ∀ records carried, carried ≤ rs - scheme.overhead → dataLen = (rs - scheme.overhead) * records + carried →
      dataLen + scheme.overhead * (records + 1) = records * rs + (carried + scheme.overhead) := by
    intro records carried _ whole
    have blocks : (rs - scheme.overhead) * records + scheme.overhead * records = records * rs := by
      rw [← Nat.add_mul, Nat.sub_add_cancel (Nat.le_of_lt roomy), Nat.mul_comm]
    rw [Nat.mul_succ]
    omega
  rw [Scheme.streamLength, Scheme.recordsOf]
  split
  · have short := Nat.mod_lt dataLen positive
    exact ⟨dataLen / (rs - scheme.overhead), _, split_ _ _ (Nat.le_of_lt short) (Nat.div_add_mod _ _).symm,
      Nat.le_add_left _ _, by omega⟩
  · have short := Nat.mod_lt (dataLen - 1) positive
    have whole := Nat.div_add_mod (dataLen - 1) (rs - scheme.overhead)
    exact ⟨(dataLen - 1) / (rs - scheme.overhead), _,
      split_ _ ((dataLen - 1) % (rs - scheme.overhead) + 1) (by omega) (by omega), Nat.le_add_left _ _, by omega⟩

-- No block of such a length leaves a buffer of the size query's length, which is not empty.
theorem length_stays (padding : Padding) (rs records tail : Nat) (roomy : padding.overhead < rs)
    (least : padding.overhead ≤ tail) (most : tail ≤ rs) :
    padding.StaysInside rs (records * rs + tail) ∧ ecePlaintextMaxLength rs padding.padSize (records * rs + tail) ≠ 0 := by
  have overhead : padding.overhead = padding.padSize + eceTagLength := rfl
  have padded := padding.padded
  have blocks : eceTagLength * records ≤ records * rs := by
    rw [Nat.mul_comm records]
    exact Nat.mul_le_mul_right _ (by omega)
  rcases Nat.lt_or_eq_of_le most with short | rfl
  · have mod : (records * rs + tail) % rs = tail := by
      rw [Nat.mul_comm, Nat.mul_add_mod, Nat.mod_eq_of_lt short]
    have max := plaintext_max_length padding rs records tail roomy short
    rw [if_neg (by omega), Nat.mul_succ] at max
    refine ⟨.inr (.inr (.inr (.inr (.inr ?_)))), by omega⟩
    rw [mod]
    omega
  · have max := plaintext_max_length padding tail (records + 1) 0 roomy (by omega)
    have again : records * tail + tail = (records + 1) * tail + 0 := by rw [Nat.succ_mul, Nat.add_zero]
    rw [again]
    rw [if_pos rfl, Nat.mul_succ] at max
    refine ⟨.inr (.inr (.inr (.inl ?_))), by omega⟩
    rw [Nat.add_zero, Nat.mul_mod_left]

theorem stream_stays (scheme : Scheme Scalar Point) (rs dataLen : Nat) (roomy : scheme.overhead < rs) (some_ : 0 < dataLen) :
    scheme.StaysInside rs (scheme.streamLength rs dataLen) ∧
      ecePlaintextMaxLength rs scheme.padSize (scheme.streamLength rs dataLen) ≠ 0 := by
  obtain ⟨records, tail, whole, least, most⟩ := stream_split scheme rs dataLen roomy some_
  rw [whole]
  exact length_stays scheme.toPadding rs records tail roomy least most

-- The longest record of a message: a full one, or the only one.
theorem stream_record (scheme : Scheme Scalar Point) (rs dataLen : Nat) (roomy : scheme.overhead < rs) :
    min rs (scheme.streamLength rs dataLen) ≤ min rs (dataLen + scheme.overhead) := by
  rcases Nat.lt_or_ge dataLen (rs - scheme.overhead) with short | long
  · rw [Scheme.streamLength, records_last scheme rs dataLen roomy (.inl short), Nat.mul_one]
  · omega

-- What is encrypted is decrypted into any buffer of the length the size query gives.
theorem sealing_decrypted (scheme : Scheme Scalar Point) (ssl : OpenSsl Scalar Point) (lawful : ssl.Lawful)
    (streaming : ssl.Streaming) (key nonce : Bytes) (rs records padLen dataLen : Nat) (roomy : scheme.overhead < rs)
    (bounded : min rs (dataLen + scheme.overhead) ≤ intMax + eceTagLength) (some_ : 0 < dataLen)
    (stream plaintext buffer : Bytes) (length : stream.length = scheme.streamLength rs dataLen)
    (sealing : scheme.Sealing ssl key nonce rs records 0 stream plaintext padLen)
    (room : ecePlaintextMaxLength rs scheme.padSize stream.length ≤ buffer.length) :
    written (scheme.decryptInto ssl key nonce rs stream buffer) = .ok plaintext := by
  obtain ⟨stays, positive⟩ := stream_stays scheme rs dataLen roomy some_
  have record := stream_record scheme rs dataLen roomy
  rw [← length] at stays positive record
  have marked := sealing_marked scheme.toPadding ssl lawful key nonce rs records 0 padLen stream plaintext
    (Nat.le_trans record bounded) sealing
  rw [decrypt_into_read scheme.toPadding ssl streaming key nonce rs stream buffer roomy stays positive room,
    Records.read_marked 0 stream plaintext marked (by omega) stream.length (Nat.le_refl _)]
  rfl

-- A message cut behind one of its records ends in a record that was not sealed as the last one.
theorem sealing_truncated (scheme : Scheme Scalar Point) (ssl : OpenSsl Scalar Point) (lawful : ssl.Lawful)
    (streaming : ssl.Streaming) (key nonce : Bytes) (rs records padLen : Nat) (roomy : scheme.overhead < rs)
    (bounded : rs ≤ intMax + eceTagLength) (stream plaintext buffer : Bytes)
    (sealing : scheme.Sealing ssl key nonce rs records 0 stream plaintext padLen) (error : EceError)
    (tells : ∀ block text, scheme.unpad false block = .ok text → scheme.unpad true block = .error error)
    (kept : Nat) (some_ : 0 < kept) (cut : kept * rs < stream.length)
    (room : ecePlaintextMaxLength rs scheme.padSize (kept * rs) ≤ buffer.length) :
    written (scheme.decryptInto ssl key nonce rs (stream.take (kept * rs)) buffer) = .error (.code error) := by
  have overhead : scheme.overhead = scheme.padSize + eceTagLength := rfl
  have length : (stream.take (kept * rs)).length = kept * rs := List.length_take_of_le (Nat.le_of_lt cut)
  have max := plaintext_max_length scheme.toPadding rs kept 0 roomy (by omega)
  rw [if_pos rfl, Nat.add_zero, ← Nat.mul_comm kept, ← Nat.mul_sub] at max
  have positive : 0 < kept * (rs - eceTagLength) := Nat.mul_pos some_ (by omega)
  have marked := sealing_marked scheme.toPadding ssl lawful key nonce rs records 0 padLen stream plaintext
    (Nat.le_trans (Nat.min_le_left _ _) bounded) sealing
  have reads := Records.read_truncated 0 stream plaintext marked (by omega) error
    (by
      intro counter record text opens
      rw [Padding.openRecord] at opens ⊢
      split at opens
      · cases opens
      · rename_i long
        rw [if_neg long]
        cases opened : eceDecryptRecord ssl key (eceGenerateIv nonce counter) record with
        | none =>
            rw [opened] at opens
            cases opens
        | some block =>
            rw [opened] at opens
            dsimp only at opens ⊢
            split at opens
            · cases opens
            · rename_i least
              rw [if_neg least]
              exact tells block text opens)
    kept some_ cut (kept * rs) (Nat.le_refl _)
  rw [decrypt_into_read scheme.toPadding ssl streaming key nonce rs _ buffer roomy
      (.inr (.inr (.inr (.inl (by rw [length, Nat.mul_mod_left]))))) (by rw [length, max]; omega) (by rwa [length]),
    length, reads]
  rfl

theorem read_uint64_bounded (bytes : Bytes) : readUint64Be bytes < 2 ^ 64 := by
  have folded : ∀ (bytes : Bytes) (value : Nat),
      bytes.foldl (fun value byte => value * 256 + byte.toNat) value < (value + 1) * 256 ^ bytes.length := by
    intro bytes
    induction bytes with
    | nil => exact fun value => by simp
    | cons byte rest ih =>
        intro value
        have small := byte.toNat_lt
        refine Nat.lt_of_lt_of_le (ih (value * 256 + byte.toNat)) ?_
        rw [List.length_cons, Nat.pow_succ, ← Nat.mul_assoc, Nat.mul_right_comm]
        exact Nat.mul_le_mul_right _ (by omega)
  have length : (bytes.take 8).length ≤ 8 := by
    rw [List.length_take]
    omega
  calc readUint64Be bytes < (0 + 1) * 256 ^ (bytes.take 8).length := folded (bytes.take 8) 0
    _ ≤ (0 + 1) * 256 ^ 8 := Nat.mul_le_mul_left _ (Nat.pow_le_pow_right (by decide) length)
    _ = 2 ^ 64 := by decide

theorem write_uint64_injective (first second : Nat) (firstBounded : first < 2 ^ 64) (secondBounded : second < 2 ^ 64)
    (same : writeUint64Be first = writeUint64Be second) : first = second := by
  simp only [writeUint64Be, List.cons.injEq, ← UInt8.toNat_inj, UInt8.toNat_ofNat', Nat.shiftRight_eq_div_pow, and_true] at same
  omega

-- One nonce gives every sequence number an IV of its own.
theorem iv_injective (nonce : Bytes) (first second : Nat) (firstBounded : first < 2 ^ 64) (secondBounded : second < 2 ^ 64)
    (same : eceGenerateIv nonce first = eceGenerateIv nonce second) : first = second := by
  have mask := read_uint64_bounded (nonce.drop (eceNonceLength - 8))
  have masked := write_uint64_injective _ _ (Nat.xor_lt_two_pow mask firstBounded) (Nat.xor_lt_two_pow mask secondBounded)
    (List.append_cancel_left same)
  exact Nat.xor_right_injective masked

theorem ivs_distinct (nonce : Bytes) (records : Nat) (bounded : records ≤ 2 ^ 64) :
    ((List.range records).map (eceGenerateIv nonce)).Nodup := by
  refine List.Nodup.map_on ?_ List.nodup_range
  intro first firstIn second secondIn same
  rw [List.mem_range] at firstIn secondIn
  exact iv_injective nonce first second (by omega) (by omega) same

end PushReceiver
