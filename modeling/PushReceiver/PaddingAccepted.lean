import PushReceiver.EncryptRun

set_option autoImplicit false

namespace PushReceiver

variable {Scalar Point : Type}

-- Blocks full of padding take this much of it for each plaintext byte they are left with, and
-- the last block may take it once more.
def Scheme.Accepts (scheme : Scheme Scalar Point) (rs padLen plaintextLen : Nat) : Prop :=
  scheme.padCap (rs - scheme.overhead) = rs - scheme.overhead ∨
    padLen ≤ (plaintextLen / (rs - scheme.overhead - scheme.padCap (rs - scheme.overhead)) + 1) *
      scheme.padCap (rs - scheme.overhead)

instance (scheme : Scheme Scalar Point) (rs padLen plaintextLen : Nat) : Decidable (scheme.Accepts rs padLen plaintextLen) :=
  inferInstanceAs (Decidable (_ ∨ _))

theorem encrypt_record_error (padding : Padding) (ssl : OpenSsl Scalar Point) (key iv : Bytes) (lastRecord : Bool)
    (blockPlaintext : Bytes) (blockPadLen ciphertextStart recordEnd : Nat) (buffer : Bytes) :
    padding.encryptRecord ssl key iv lastRecord blockPlaintext blockPadLen ciphertextStart recordEnd buffer ≠
      .error (.code .encryptPadding) := by
  have stored : ∀ (buffer : Bytes) offset bytes, store buffer offset bytes ≠ .error (.code .encryptPadding) := by
    intro buffer offset bytes
    rw [store]
    split <;> exact fun failed => by cases failed
  have updated : ∀ updates offset, encryptUpdates buffer.length offset updates ≠ .error (.code .encryptPadding) := by
    intro updates
    induction updates with
    | nil => exact fun offset failed => by cases failed
    | cons update rest ih =>
        intro offset
        rw [encryptUpdates]
        split
        · exact fun failed => by cases failed
        · split
          · exact fun failed => by cases failed
          · exact ih _
  rw [Padding.encryptRecord]
  split
  · rename_i fault failed
    intro same
    exact updated _ _ (by rw [failed, Except.error.inj same])
  · split
    · exact fun failed => by cases failed
    · rename_i block tag _
      cases first : store buffer ciphertextStart block with
      | error fault =>
          intro same
          exact stored _ _ _ (by rw [first]; exact same)
      | ok filled => exact stored filled _ tag

-- A full block moves the bound with the padding and the plaintext it takes.
theorem accepts_later (cap maxBlockLen padLen plaintextLen blockPadLen blockPlaintextLen : Nat)
    (bounded : cap ≤ maxBlockLen) (least : blockPadLen = min padLen cap) (plaintext : blockPlaintextLen ≤ plaintextLen)
    (full : blockPlaintextLen + blockPadLen = maxBlockLen) :
    (cap = maxBlockLen ∨ padLen ≤ (plaintextLen / (maxBlockLen - cap) + 1) * cap) ↔
      (cap = maxBlockLen ∨
        padLen - blockPadLen ≤ ((plaintextLen - blockPlaintextLen) / (maxBlockLen - cap) + 1) * cap) := by
  rcases Nat.lt_or_ge padLen cap with few | many
  · have most : cap ≤ (plaintextLen / (maxBlockLen - cap) + 1) * cap := Nat.le_mul_of_pos_left cap (Nat.succ_pos _)
    exact ⟨fun _ => .inr (by omega), fun _ => .inr (by omega)⟩
  · rcases Nat.lt_or_eq_of_le bounded with below | same
    · have records : plaintextLen / (maxBlockLen - cap) = (plaintextLen - blockPlaintextLen) / (maxBlockLen - cap) + 1 := by
        rw [Nat.div_eq_sub_div (by omega) (by omega)]
        congr 2
        omega
      rw [records, Nat.succ_mul ((plaintextLen - blockPlaintextLen) / (maxBlockLen - cap) + 1)]
      exact or_congr_right (by omega)
    · exact ⟨fun _ => .inl same, fun _ => .inl same⟩

theorem encrypt_run_padding (scheme : Scheme Scalar Point) (ssl : OpenSsl Scalar Point) (key nonce : Bytes)
    (rs maxCiphertextLen : Nat) (roomy : scheme.overhead < rs) (fuel padLen : Nat) (rest : Bytes) (ciphertextStart counter : Nat)
    (buffer : Bytes)
    (enough : scheme.needsTrailer rs 0 = true → ciphertextStart % rs = 0 ∧
      ciphertextStart + scheme.streamLength rs (rest.length + padLen) ≤ maxCiphertextLen) :
    (scheme.encryptRecords ssl key nonce rs maxCiphertextLen fuel padLen rest ciphertextStart counter buffer =
        .error (.code .encryptPadding) → ¬ scheme.Accepts rs padLen rest.length) ∧
      ∀ length next, scheme.encryptRecords ssl key nonce rs maxCiphertextLen fuel padLen rest ciphertextStart counter buffer =
        .ok (length, next) → scheme.Accepts rs padLen rest.length := by
  have positive : 0 < rs - scheme.overhead := Nat.sub_pos_of_lt roomy
  obtain ⟨some_, bounded⟩ := scheme.cap_bound _ positive
  induction fuel generalizing padLen rest ciphertextStart counter buffer with
  | zero => exact ⟨fun failed => (by cases failed), fun _ _ done => (by cases done)⟩
  | succ fuel ih =>
      obtain ⟨blockPadLen, blockPlaintextLen, recordEnd, lastRecord, turn⟩ :=
        encrypt_turn scheme ssl key nonce rs maxCiphertextLen fuel padLen rest ciphertextStart counter buffer roomy
      have plaintext := turn.plaintext
      have room := turn.room
      have least : blockPadLen = min padLen (scheme.padCap (rs - scheme.overhead)) := by
        rw [← turn.least, scheme.pad_capped padLen _ positive]
      by_cases cramped : lastRecord = false ∧ blockPlaintextLen + blockPadLen < rs - scheme.overhead
      · rw [turn.refuses cramped.1 cramped.2]
        refine ⟨fun _ => ?_, fun _ _ done => by cases done⟩
        have exhausted : blockPlaintextLen = rest.length := turn.filled.resolve_right (Nat.ne_of_lt cramped.2)
        have more : blockPadLen ≠ padLen := by
          intro noPadding
          have noTrailer : scheme.needsTrailer rs recordEnd = false := by
            cases trailer : scheme.needsTrailer rs 0 with
            | false =>
                by_cases boundary : recordEnd % rs = 0
                · rw [scheme.trailer_boundary rs recordEnd boundary, trailer]
                · exact scheme.trailer_inside rs recordEnd boundary
            | true =>
                obtain ⟨aligned, fits⟩ := enough trailer
                rw [Scheme.streamLength, records_last scheme rs _ roomy (.inl (by omega)), Nat.mul_one] at fits
                apply scheme.trailer_inside
                rw [turn.ends, record_end _ _ _ (by omega), Nat.add_mod, aligned, Nat.zero_add, Nat.mod_mod,
                  Nat.mod_eq_of_lt (by omega)]
                have padded := scheme.padded
                have overhead : scheme.overhead = scheme.padSize + eceTagLength := rfl
                omega
          have last := turn.last.mpr ⟨noPadding, exhausted, noTrailer⟩
          rw [cramped.1] at last
          cases last
        rw [Scheme.Accepts, not_or]
        refine ⟨by omega, ?_⟩
        rw [Nat.div_eq_of_lt (by omega)]
        omega
      · cases stored : scheme.encryptRecord ssl key (eceGenerateIv nonce counter) lastRecord (rest.take blockPlaintextLen)
          blockPadLen ciphertextStart recordEnd buffer with
        | error fault =>
            rw [turn.fails cramped fault stored]
            refine ⟨fun failed => ?_, fun _ _ done => by cases done⟩
            rw [Except.error.inj failed] at stored
            exact absurd stored (encrypt_record_error _ _ _ _ _ _ _ _ _ _)
        | ok next =>
            rw [turn.continues cramped next stored]
            cases lastRecord with
            | true =>
                obtain ⟨noPadding, _, _⟩ := turn.last.mp rfl
                rw [if_pos rfl]
                refine ⟨fun failed => (by cases failed), fun _ _ _ => .inr ?_⟩
                exact Nat.le_trans (by omega) (Nat.le_mul_of_pos_left _ (Nat.succ_pos _))
            | false =>
                have full : blockPlaintextLen + blockPadLen = rs - scheme.overhead := by
                  rw [not_and, Nat.not_lt] at cramped
                  exact Nat.le_antisymm room (cramped rfl)
                have later := accepts_later _ _ padLen rest.length blockPadLen blockPlaintextLen bounded least plaintext full
                rw [if_neg Bool.false_ne_true, Scheme.Accepts, later, ← List.length_drop]
                have padding := turn.padding
                have left : (rest.drop blockPlaintextLen).length + (padLen - blockPadLen) =
                    rest.length + padLen - (rs - scheme.overhead) := by
                  rw [List.length_drop]
                  omega
                refine ih (padLen - blockPadLen) (rest.drop blockPlaintextLen) recordEnd (counter + 1) next fun trailer => ?_
                obtain ⟨aligned, fits⟩ := enough trailer
                have records := records_full scheme rs (rest.length + padLen) roomy
                  (by rcases Nat.lt_or_eq_of_le (show rs - scheme.overhead ≤ rest.length + padLen by omega) with more | same
                      · exact .inl more
                      · exact .inr ⟨same.symm, trailer⟩)
                rw [Scheme.streamLength, records, Nat.mul_succ] at fits
                have boundary : recordEnd = ciphertextStart + rs := by
                  rw [turn.ends, record_end _ _ _ (by omega)]
                  omega
                rw [boundary, Nat.add_mod_right, left, Scheme.streamLength]
                exact ⟨aligned, by omega⟩

-- A padding is refused only when there is not enough plaintext to hide it in, and never
-- encrypted then.
theorem padding_accepted (scheme : Scheme Scalar Point) (target : Target) (ssl : OpenSsl Scalar Point)
    (senderPrivKey recvPubKey : EcKey Scalar Point) (authSecret salt : Bytes) (rs padLen : Nat) (plaintext buffer : Bytes) :
    (scheme.encryptPlaintext target ssl senderPrivKey recvPubKey authSecret salt rs padLen plaintext buffer =
        .error (.code .encryptPadding) → ¬ scheme.Accepts rs padLen plaintext.length) ∧
      ∀ length next, scheme.encryptPlaintext target ssl senderPrivKey recvPubKey authSecret salt rs padLen plaintext buffer =
        .ok (length, next) → scheme.Accepts rs padLen plaintext.length := by
  rcases encrypt_starts scheme target ssl senderPrivKey recvPubKey authSecret salt rs padLen plaintext buffer with
    ⟨error, failed, other⟩ | ⟨key, nonce, starts⟩
  · rw [failed]
    exact ⟨fun same => absurd (Fault.code.inj (Except.error.inj same)) other, fun _ _ done => by cases done⟩
  · obtain ⟨roomy, _, maxLength⟩ := max_length_records scheme target rs padLen plaintext.length starts.queried
    rw [starts.runs]
    apply encrypt_run_padding scheme ssl key nonce rs _ roomy
    intro trailer
    have most : scheme.overhead * scheme.recordsOf rs (plaintext.length + padLen) ≤
        scheme.overhead * scheme.countedRecords rs padLen plaintext.length :=
      Nat.mul_le_mul_left _ (counted_records scheme rs padLen plaintext.length starts.some_ (.inr (.inl trailer)))
    rw [maxLength, Scheme.streamLength, Nat.zero_add]
    exact ⟨Nat.zero_mod rs, Nat.add_le_add_left most _⟩

end PushReceiver
