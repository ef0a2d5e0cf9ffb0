import PushReceiver.DecryptBounds

set_option autoImplicit false

namespace PushReceiver

variable {Scalar Point : Type}

theorem updates_inside (bufferLen : Nat) (updates : List Bytes) (offset : Nat)
    (inside : offset + updates.flatten.length ≤ bufferLen) :
    encryptUpdates bufferLen offset updates = .ok () ∨ encryptUpdates bufferLen offset updates = .error (.code .encrypt) := by
  induction updates generalizing offset with
  | nil => exact .inl rfl
  | cons update rest ih =>
      rw [List.flatten_cons, List.length_append] at inside
      rw [encryptUpdates]
      by_cases large : intMax < update.length
      · exact .inr (if_pos large)
      · rw [if_neg large, if_neg (by omega)]
        exact ih (offset + update.length) (by omega)

-- A record that fits is left behind what is written already, or the cipher refuses it.
theorem encrypt_record_inside (padding : Padding) (ssl : OpenSsl Scalar Point) (lawful : ssl.Lawful) (key iv : Bytes)
    (lastRecord : Bool) (blockPlaintext : Bytes) (blockPadLen ciphertextStart recordEnd : Nat) (buffer : Bytes)
    (whole : recordEnd = ciphertextStart + (blockPlaintext.length + blockPadLen + padding.overhead))
    (inside : recordEnd ≤ buffer.length) :
    (padding.encryptRecord ssl key iv lastRecord blockPlaintext blockPadLen ciphertextStart recordEnd buffer =
        .error (.code .encrypt) ∧
      (encryptUpdates buffer.length ciphertextStart (padding.updates lastRecord blockPlaintext blockPadLen) ≠ .ok () ∨
        ssl.gcmEncrypt key iv (padding.updates lastRecord blockPlaintext blockPadLen).flatten = none)) ∨
      ∃ block tag next, ssl.gcmEncrypt key iv (padding.updates lastRecord blockPlaintext blockPadLen).flatten = some (block, tag) ∧
        padding.encryptRecord ssl key iv lastRecord blockPlaintext blockPadLen ciphertextStart recordEnd buffer = .ok next ∧
        (block ++ tag).length = blockPlaintext.length + blockPadLen + padding.overhead ∧ next.length = buffer.length ∧
        next.take recordEnd = buffer.take ciphertextStart ++ (block ++ tag) := by
  have overhead : padding.overhead = padding.padSize + eceTagLength := rfl
  have length := padding.updates_length lastRecord blockPlaintext blockPadLen
  rw [Padding.encryptRecord]
  rcases updates_inside buffer.length (padding.updates lastRecord blockPlaintext blockPadLen) ciphertextStart
    (by omega) with done | refused
  · rw [done]
    cases encrypted : ssl.gcmEncrypt key iv (padding.updates lastRecord blockPlaintext blockPadLen).flatten with
    | none => exact .inl ⟨rfl, .inr rfl⟩
    | some record =>
        obtain ⟨block, tag⟩ := record
        obtain ⟨blockLength, tagLength, _⟩ := lawful.opens _ _ _ _ _ encrypted
        obtain ⟨filled, stored, filledLength, through, _⟩ := store_inside buffer ciphertextStart block (by omega)
        obtain ⟨next, tagged, nextLength, tagThrough, _⟩ := store_inside filled (ciphertextStart + block.length) tag (by omega)
        have recordStart : recordEnd - eceTagLength = ciphertextStart + block.length := by omega
        have recordStop : recordEnd = ciphertextStart + block.length + tag.length := by omega
        refine .inr ⟨block, tag, next, rfl, ?_, ?_, by rw [nextLength, filledLength], ?_⟩
        · simp only [stored, recordStart]
          exact tagged
        · rw [List.length_append]
          omega
        · rw [recordStop, tagThrough, through, List.append_assoc]
  · exact .inl ⟨by rw [refused], .inl (by rw [refused]; exact fun done => by cases done)⟩

-- What the encryption of a text is made of: record after record, each sealed under the IV of its
-- sequence number, and the padding they carry.
inductive Padding.Sealing (padding : Padding) (ssl : OpenSsl Scalar Point) (key nonce : Bytes) (rs : Nat) :
    Nat → Nat → Bytes → Bytes → Nat → Prop where
  | last (counter blockPadLen maxBlockLen : Nat) (block tag text : Bytes) (positive : 0 < maxBlockLen)
      (least : padding.minBlockPadLength blockPadLen maxBlockLen = blockPadLen)
      (short : (block ++ tag).length ≤ rs)
      (encrypted : ssl.gcmEncrypt key (eceGenerateIv nonce counter) (padding.updates true text blockPadLen).flatten =
        some (block, tag)) :
      Padding.Sealing padding ssl key nonce rs 1 counter (block ++ tag) text blockPadLen
  | full (records counter padLen blockPadLen maxBlockLen : Nat) (block tag rest text others : Bytes) (positive : 0 < maxBlockLen)
      (least : padding.minBlockPadLength padLen maxBlockLen = blockPadLen)
      (whole : (block ++ tag).length = rs)
      (encrypted : ssl.gcmEncrypt key (eceGenerateIv nonce counter) (padding.updates false text blockPadLen).flatten =
        some (block, tag))
      (later : Padding.Sealing padding ssl key nonce rs records (counter + 1) rest others (padLen - blockPadLen)) :
      Padding.Sealing padding ssl key nonce rs (records + 1) counter (block ++ tag ++ rest) (text ++ others) padLen

theorem record_opens (padding : Padding) (ssl : OpenSsl Scalar Point) (lawful : ssl.Lawful) (key nonce : Bytes)
    (lastRecord : Bool) (counter padLen maxBlockLen : Nat) (block tag text : Bytes) (positive : 0 < maxBlockLen)
    (small : block.length ≤ intMax)
    (encrypted : ssl.gcmEncrypt key (eceGenerateIv nonce counter)
      (padding.updates lastRecord text (padding.minBlockPadLength padLen maxBlockLen)).flatten = some (block, tag)) :
    padding.openRecord ssl key nonce lastRecord counter (block ++ tag) = .ok text := by
  obtain ⟨blockLength, tagLength, opens⟩ := lawful.opens _ _ _ _ _ encrypted
  have length := padding.updates_length lastRecord text (padding.minBlockPadLength padLen maxBlockLen)
  have padded := padding.padded
  rw [Padding.openRecord, List.length_append, tagLength, Nat.add_sub_cancel, if_neg (by omega),
    decrypt_record_tag ssl key _ block tag tagLength small, opens]
  simp only [if_neg (show ¬ block.length < padding.padSize by omega)]
  exact padding.unpad_updates lastRecord text padLen maxBlockLen positive

theorem sealed_opens (padding : Padding) (ssl : OpenSsl Scalar Point) (lawful : ssl.Lawful) (key nonce : Bytes)
    (lastRecord : Bool) (counter padLen maxBlockLen : Nat) (block tag text : Bytes)
    (positive : 0 < maxBlockLen) (bounded : (block ++ tag).length ≤ intMax + eceTagLength)
    (encrypted : ssl.gcmEncrypt key (eceGenerateIv nonce counter)
      (padding.updates lastRecord text (padding.minBlockPadLength padLen maxBlockLen)).flatten = some (block, tag)) :
    padding.openRecord ssl key nonce lastRecord counter (block ++ tag) = .ok text := by
  obtain ⟨_, tagLength, _⟩ := lawful.opens _ _ _ _ _ encrypted
  rw [List.length_append] at bounded
  exact record_opens padding ssl lawful key nonce lastRecord counter padLen maxBlockLen block tag text positive (by omega)
    encrypted

theorem sealing_marked (padding : Padding) (ssl : OpenSsl Scalar Point) (lawful : ssl.Lawful) (key nonce : Bytes) (rs : Nat)
    (records counter padLen : Nat) (stream text : Bytes) (bounded : min rs stream.length ≤ intMax + eceTagLength)
    (sealing : padding.Sealing ssl key nonce rs records counter stream text padLen) :
    Records.Marked (padding.openRecord ssl key nonce) rs counter stream text := by
  induction sealing with
  | last counter blockPadLen maxBlockLen block tag text positive least short encrypted =>
      rw [← least] at encrypted
      obtain ⟨_, tagLength, _⟩ := lawful.opens _ _ _ _ _ encrypted
      refine .last counter (block ++ tag) text ?_ short
        (sealed_opens padding ssl lawful key nonce true counter blockPadLen maxBlockLen block tag text positive
          (by rwa [Nat.min_eq_right short] at bounded) encrypted)
      intro empty
      rw [(List.append_eq_nil_iff.mp empty).2] at tagLength
      cases tagLength
  | full records counter padLen blockPadLen maxBlockLen block tag rest text others positive least whole encrypted later ih =>
      rw [← least] at encrypted
      have record : rs ≤ intMax + eceTagLength := by
        rw [List.length_append, whole] at bounded
        omega
      exact .full counter (block ++ tag) rest text others whole
        (sealed_opens padding ssl lawful key nonce false counter padLen maxBlockLen block tag text positive (whole ▸ record)
          encrypted) (ih (Nat.le_trans (Nat.min_le_left _ _) record))

-- The length of the records that carry `dataLen` bytes of plaintext and padding.
def Scheme.recordsOf (scheme : Scheme Scalar Point) (rs dataLen : Nat) : Nat :=
  if scheme.needsTrailer rs 0 = true then dataLen / (rs - scheme.overhead) + 1 else (dataLen - 1) / (rs - scheme.overhead) + 1

def Scheme.streamLength (scheme : Scheme Scalar Point) (rs dataLen : Nat) : Nat :=
  dataLen + scheme.overhead * scheme.recordsOf rs dataLen

theorem records_last (scheme : Scheme Scalar Point) (rs dataLen : Nat) (roomy : scheme.overhead < rs)
    (least : dataLen < rs - scheme.overhead ∨ (dataLen = rs - scheme.overhead ∧ scheme.needsTrailer rs 0 = false)) :
    scheme.recordsOf rs dataLen = 1 := by
  rw [Scheme.recordsOf]
  split
  · rename_i trailer
    rcases least with short | ⟨_, none⟩
    · rw [Nat.div_eq_of_lt short]
    · rw [none] at trailer
      cases trailer
  · rw [Nat.div_eq_of_lt (by omega)]

theorem records_full (scheme : Scheme Scalar Point) (rs dataLen : Nat) (roomy : scheme.overhead < rs)
    (more : rs - scheme.overhead < dataLen ∨ (dataLen = rs - scheme.overhead ∧ scheme.needsTrailer rs 0 = true)) :
    scheme.recordsOf rs dataLen = scheme.recordsOf rs (dataLen - (rs - scheme.overhead)) + 1 := by
  have positive : 0 < rs - scheme.overhead := Nat.sub_pos_of_lt roomy
  rw [Scheme.recordsOf, Scheme.recordsOf]
  split
  · rw [Nat.div_eq_sub_div positive (by omega)]
  · rename_i trailer
    have longer : rs - scheme.overhead < dataLen := more.resolve_right fun boundary => trailer boundary.2
    rw [Nat.div_eq_sub_div positive (by omega), Nat.sub_right_comm]

theorem record_end (maxCiphertextLen ciphertextStart recordLen : Nat)
    (enough : ciphertextStart + recordLen ≤ maxCiphertextLen) :
    ciphertextEnd maxCiphertextLen ciphertextStart recordLen = ciphertextStart + recordLen := by
  rw [ciphertextEnd]
  split <;> omega

-- What one turn of the loop takes, and how it goes on.
structure EncryptTurn (scheme : Scheme Scalar Point) (ssl : OpenSsl Scalar Point) (key nonce : Bytes)
    (rs maxCiphertextLen fuel padLen : Nat) (rest : Bytes) (ciphertextStart counter : Nat) (buffer : Bytes)
    (blockPadLen blockPlaintextLen recordEnd : Nat) (lastRecord : Bool) : Prop where
  least : scheme.minBlockPadLength padLen (rs - scheme.overhead) = blockPadLen
  padding : blockPadLen ≤ padLen
  plaintext : blockPlaintextLen ≤ rest.length
  room : blockPlaintextLen + blockPadLen ≤ rs - scheme.overhead
  filled : blockPlaintextLen = rest.length ∨ blockPlaintextLen + blockPadLen = rs - scheme.overhead
  ends : recordEnd = ciphertextEnd maxCiphertextLen ciphertextStart (blockPlaintextLen + blockPadLen + scheme.overhead)
  last : lastRecord = true ↔
    blockPadLen = padLen ∧ blockPlaintextLen = rest.length ∧ scheme.needsTrailer rs recordEnd = false
  refuses : lastRecord = false → blockPlaintextLen + blockPadLen < rs - scheme.overhead →
    scheme.encryptRecords ssl key nonce rs maxCiphertextLen (fuel + 1) padLen rest ciphertextStart counter buffer =
      .error (.code .encryptPadding)
  fails : ¬ (lastRecord = false ∧ blockPlaintextLen + blockPadLen < rs - scheme.overhead) → ∀ fault,
    scheme.encryptRecord ssl key (eceGenerateIv nonce counter) lastRecord (rest.take blockPlaintextLen) blockPadLen
      ciphertextStart recordEnd buffer = .error fault →
    scheme.encryptRecords ssl key nonce rs maxCiphertextLen (fuel + 1) padLen rest ciphertextStart counter buffer = .error fault
  continues : ¬ (lastRecord = false ∧ blockPlaintextLen + blockPadLen < rs - scheme.overhead) → ∀ next,
    scheme.encryptRecord ssl key (eceGenerateIv nonce counter) lastRecord (rest.take blockPlaintextLen) blockPadLen
      ciphertextStart recordEnd buffer = .ok next →
    scheme.encryptRecords ssl key nonce rs maxCiphertextLen (fuel + 1) padLen rest ciphertextStart counter buffer =
      if lastRecord then .ok (recordEnd, next)
      else scheme.encryptRecords ssl key nonce rs maxCiphertextLen fuel (padLen - blockPadLen) (rest.drop blockPlaintextLen)
        recordEnd (counter + 1) next

theorem encrypt_turn (scheme : Scheme Scalar Point) (ssl : OpenSsl Scalar Point) (key nonce : Bytes)
    (rs maxCiphertextLen fuel padLen : Nat) (rest : Bytes) (ciphertextStart counter : Nat) (buffer : Bytes)
    (roomy : scheme.overhead < rs) :
    ∃ blockPadLen blockPlaintextLen recordEnd lastRecord, EncryptTurn scheme ssl key nonce rs maxCiphertextLen fuel padLen rest
      ciphertextStart counter buffer blockPadLen blockPlaintextLen recordEnd lastRecord := by
  obtain ⟨padding, within⟩ := scheme.pad_bound padLen (rs - scheme.overhead) (Nat.sub_pos_of_lt roomy)
  have turn := Scheme.encryptRecords.eq_2 scheme ssl key nonce rs maxCiphertextLen padLen rest ciphertextStart counter buffer fuel
  rw [Nat.succ_eq_add_one] at turn
  generalize padded : scheme.minBlockPadLength padLen (rs - scheme.overhead) = blockPadLen at *
  generalize taken : (if rest.length ≤ rs - scheme.overhead - blockPadLen then rest.length
    else rs - scheme.overhead - blockPadLen) = blockPlaintextLen at *
  generalize ends : ciphertextEnd maxCiphertextLen ciphertextStart (blockPlaintextLen + blockPadLen + scheme.overhead) =
    recordEnd at *
  generalize decided : decide (padLen - blockPadLen = 0 ∧ rest.length ≤ blockPlaintextLen ∧
    scheme.needsTrailer rs recordEnd = false) = lastRecord at *
  have plaintext : blockPlaintextLen ≤ rest.length ∧ blockPlaintextLen + blockPadLen ≤ rs - scheme.overhead ∧
      (blockPlaintextLen = rest.length ∨ blockPlaintextLen + blockPadLen = rs - scheme.overhead) := by
    rw [← taken]
    split <;> omega
  obtain ⟨least, room, filled⟩ := plaintext
  refine ⟨blockPadLen, blockPlaintextLen, recordEnd, lastRecord,
    padded, padding, least, room, filled, ends.symm, ?_, ?_, ?_, ?_⟩
  · rw [← decided, decide_eq_true_iff]
    constructor
    · rintro ⟨noPadding, exhausted, noTrailer⟩
      exact ⟨by omega, by omega, noTrailer⟩
    · rintro ⟨noPadding, exhausted, noTrailer⟩
      exact ⟨by omega, by omega, noTrailer⟩
  · intro notLast cramped
    rw [turn, if_pos ⟨notLast, cramped⟩]
  · intro goesOn fault failed
    rw [turn, if_neg goesOn, failed]
  · intro goesOn next encrypted
    rw [turn, if_neg goesOn, encrypted]

-- A run with room for all its records fails with a code, or leaves a sealing of its plaintext.
structure Encrypted (scheme : Scheme Scalar Point) (ssl : OpenSsl Scalar Point) (key nonce : Bytes) (rs padLen : Nat)
    (rest : Bytes) (ciphertextStart counter : Nat) (buffer : Bytes) (stream next : Bytes) : Prop where
  kept : next.length = buffer.length
  appended : next.take (ciphertextStart + stream.length) = buffer.take ciphertextStart ++ stream
  length : stream.length = scheme.streamLength rs (rest.length + padLen)
  isSealing : scheme.Sealing ssl key nonce rs (scheme.recordsOf rs (rest.length + padLen)) counter stream rest padLen

theorem encrypt_run (scheme : Scheme Scalar Point) (ssl : OpenSsl Scalar Point) (lawful : ssl.Lawful) (key nonce : Bytes)
    (rs maxCiphertextLen : Nat) (roomy : scheme.overhead < rs) (fuel padLen : Nat) (rest : Bytes) (ciphertextStart counter : Nat)
    (buffer : Bytes) (some_ : 0 < rest.length + padLen ∨ scheme.needsTrailer rs 0 = true) (aligned : ciphertextStart % rs = 0)
    (enough : ciphertextStart + scheme.streamLength rs (rest.length + padLen) ≤ maxCiphertextLen)
    (inside : maxCiphertextLen ≤ buffer.length) :
    (∃ error, scheme.encryptRecords ssl key nonce rs maxCiphertextLen fuel padLen rest ciphertextStart counter buffer =
        .error (.code error)) ∨
      ∃ stream next, scheme.encryptRecords ssl key nonce rs maxCiphertextLen fuel padLen rest ciphertextStart counter buffer =
          .ok (ciphertextStart + stream.length, next) ∧
        Encrypted scheme ssl key nonce rs padLen rest ciphertextStart counter buffer stream next := by
  have positive : 0 < rs - scheme.overhead := Nat.sub_pos_of_lt roomy
  induction fuel generalizing padLen rest ciphertextStart counter buffer with
  | zero => exact .inl ⟨.encrypt, rfl⟩
  | succ fuel ih =>
      obtain ⟨blockPadLen, blockPlaintextLen, recordEnd, lastRecord, turn⟩ :=
        encrypt_turn scheme ssl key nonce rs maxCiphertextLen fuel padLen rest ciphertextStart counter buffer roomy
      have padding := turn.padding
      have plaintext := turn.plaintext
      have room := turn.room
      have recordLen : scheme.streamLength rs (rest.length + padLen) =
          rest.length + padLen + scheme.overhead * scheme.recordsOf rs (rest.length + padLen) := rfl
      have someRecord : scheme.overhead ≤ scheme.overhead * scheme.recordsOf rs (rest.length + padLen) := by
        apply Nat.le_mul_of_pos_right
        rw [Scheme.recordsOf]
        split <;> exact Nat.succ_pos _
      have whole : recordEnd = ciphertextStart + (blockPlaintextLen + blockPadLen + scheme.overhead) := by
        rw [turn.ends]
        apply record_end
        omega
      have taken : (rest.take blockPlaintextLen).length = blockPlaintextLen := List.length_take_of_le plaintext
      by_cases cramped : lastRecord = false ∧ blockPlaintextLen + blockPadLen < rs - scheme.overhead
      · exact .inl ⟨.encryptPadding, turn.refuses cramped.1 cramped.2⟩
      · rcases encrypt_record_inside scheme.toPadding ssl lawful key (eceGenerateIv nonce counter) lastRecord
          (rest.take blockPlaintextLen) blockPadLen ciphertextStart recordEnd buffer (by rw [taken]; exact whole) (by omega) with
          ⟨refused, _⟩ | ⟨block, tag, next, encrypted, stored, recordLength, kept, appended⟩
        · exact .inl ⟨.encrypt, turn.fails cramped _ refused⟩
        · rw [taken] at recordLength
          have goesOn := turn.continues cramped next stored
          cases lastRecord with
          | true =>
              obtain ⟨rfl, rfl, noTrailer⟩ := turn.last.mp rfl
              have one : scheme.recordsOf rs (rest.length + blockPadLen) = 1 := by
                apply records_last scheme rs _ roomy
                rcases Nat.lt_or_eq_of_le room with short | boundary
                · exact .inl short
                · refine .inr ⟨boundary, ?_⟩
                  rw [← scheme.trailer_boundary rs recordEnd, noTrailer]
                  rw [whole, boundary, Nat.sub_add_cancel (Nat.le_of_lt roomy), Nat.add_mod_right, aligned]
              have length : (block ++ tag).length = scheme.streamLength rs (rest.length + blockPadLen) := by
                rw [recordLength, Scheme.streamLength, one, Nat.mul_one]
              refine .inr ⟨block ++ tag, next, ?_, kept, ?_, length, ?_⟩
              · rw [goesOn, if_pos rfl, whole, recordLength]
              · rw [recordLength, ← whole, appended]
              · rw [one]
                rw [List.take_length] at encrypted
                exact .last counter blockPadLen _ block tag rest positive turn.least (by omega) encrypted
          | false =>
              have full : blockPlaintextLen + blockPadLen = rs - scheme.overhead := by
                rw [not_and, Nat.not_lt] at cramped
                exact Nat.le_antisymm room (cramped rfl)
              have boundary : recordEnd = ciphertextStart + rs := by omega
              have more : rs - scheme.overhead < rest.length + padLen ∨
                  (rest.length + padLen = rs - scheme.overhead ∧ scheme.needsTrailer rs 0 = true) := by
                rcases Nat.lt_or_ge (rs - scheme.overhead) (rest.length + padLen) with longer | most
                · exact .inl longer
                · refine .inr ⟨by omega, ?_⟩
                  have notLast : ¬ (blockPadLen = padLen ∧ blockPlaintextLen = rest.length ∧
                      scheme.needsTrailer rs recordEnd = false) := fun last => by cases turn.last.mpr last
                  rw [← scheme.trailer_boundary rs recordEnd (by rw [boundary, Nat.add_mod_right, aligned])]
                  by_contra none
                  exact notLast ⟨by omega, by omega, Bool.eq_false_of_not_eq_true none⟩
              have records := records_full scheme rs (rest.length + padLen) roomy more
              have left : (rest.drop blockPlaintextLen).length + (padLen - blockPadLen) =
                  rest.length + padLen - (rs - scheme.overhead) := by
                rw [List.length_drop]
                omega
              have remaining : scheme.streamLength rs (rest.length + padLen) =
                  rs + scheme.streamLength rs (rest.length + padLen - (rs - scheme.overhead)) := by
                rw [Scheme.streamLength, Scheme.streamLength, records, Nat.mul_succ]
                omega
              rw [if_neg Bool.false_ne_true] at goesOn
              rw [goesOn]
              rcases ih (padLen - blockPadLen) (rest.drop blockPlaintextLen) recordEnd (counter + 1) next
                (by rcases more with longer | ⟨_, trailer⟩
                    · exact .inl (by omega)
                    · exact .inr trailer)
                (by rw [boundary, Nat.add_mod_right, aligned])
                (by rw [left]; omega) (by rw [kept]; exact inside) with failed | ⟨stream, last, done, later⟩
              · exact .inl failed
              · have recordIsRs : (block ++ tag).length = rs := by omega
                have total : ciphertextStart + (block ++ tag ++ stream).length = recordEnd + stream.length := by
                  rw [List.length_append, recordIsRs, boundary]
                  omega
                refine .inr ⟨block ++ tag ++ stream, last, by rw [total]; exact done, by rw [later.kept, kept], ?_, ?_, ?_⟩
                · rw [total, later.appended, appended, List.append_assoc (buffer.take ciphertextStart)]
                · rw [List.length_append, recordIsRs, later.length, left, remaining]
                · rw [records, ← left]
                  have sealing := Padding.Sealing.full _ counter padLen blockPadLen _ block tag stream _ _ positive turn.least
                    recordIsRs encrypted later.isSealing
                  rwa [List.take_append_drop] at sealing

-- A turn that is not the last one fills its block, so the loop ends within this many turns.
theorem encrypt_records_enough (scheme : Scheme Scalar Point) (ssl : OpenSsl Scalar Point) (key nonce : Bytes)
    (rs maxCiphertextLen : Nat) (roomy : scheme.overhead < rs) (fuel extra padLen : Nat) (rest : Bytes)
    (ciphertextStart counter : Nat) (buffer : Bytes) (enough : padLen + rest.length < fuel) :
    scheme.encryptRecords ssl key nonce rs maxCiphertextLen (fuel + extra) padLen rest ciphertextStart counter buffer =
      scheme.encryptRecords ssl key nonce rs maxCiphertextLen fuel padLen rest ciphertextStart counter buffer := by
  induction fuel generalizing padLen rest ciphertextStart counter buffer with
  | zero => cases enough
  | succ fuel ih =>
      obtain ⟨padding, within⟩ := scheme.pad_bound padLen (rs - scheme.overhead) (Nat.sub_pos_of_lt roomy)
      rw [Nat.succ_add_eq_add_succ, Nat.add_succ]
      simp only [Scheme.encryptRecords]
      generalize scheme.minBlockPadLength padLen (rs - scheme.overhead) = blockPadLen at *
      generalize taken : (if rest.length ≤ rs - scheme.overhead - blockPadLen then rest.length
        else rs - scheme.overhead - blockPadLen) = blockPlaintextLen at *
      have plaintext : blockPlaintextLen ≤ rest.length := by
        rw [← taken]
        split <;> omega
      generalize ciphertextEnd maxCiphertextLen ciphertextStart (blockPlaintextLen + blockPadLen + scheme.overhead) = recordEnd
      generalize decide (padLen - blockPadLen = 0 ∧ rest.length ≤ blockPlaintextLen ∧
        scheme.needsTrailer rs recordEnd = false) = lastRecord
      split
      · rfl
      · rename_i goesOn
        cases scheme.encryptRecord ssl key (eceGenerateIv nonce counter) lastRecord (rest.take blockPlaintextLen) blockPadLen
          ciphertextStart recordEnd buffer with
        | error fault => rfl
        | ok next =>
            dsimp only
            cases lastRecord with
            | true => rfl
            | false =>
                rw [not_and, Nat.not_lt] at goesOn
                have full := goesOn rfl
                rw [if_neg Bool.false_ne_true, if_neg Bool.false_ne_true]
                apply ih
                rw [List.length_drop]
                omega

-- The size query counts the records of a message that ends inside a record, or has a trailer,
-- or comes out even; it asks the plaintext, not the ciphertext, for its record boundary.
def Scheme.Counted (scheme : Scheme Scalar Point) (rs padLen plaintextLen : Nat) : Prop :=
  plaintextLen % rs ≠ 0 ∨ scheme.needsTrailer rs 0 = true ∨ (plaintextLen + padLen) % (rs - scheme.overhead) = 0

instance (scheme : Scheme Scalar Point) (rs padLen plaintextLen : Nat) : Decidable (scheme.Counted rs padLen plaintextLen) :=
  inferInstanceAs (Decidable (_ ∨ _ ∨ _))

def Scheme.countedRecords (scheme : Scheme Scalar Point) (rs padLen plaintextLen : Nat) : Nat :=
  if plaintextLen % rs ≠ 0 ∨ scheme.needsTrailer rs plaintextLen = true then
    (plaintextLen + padLen) / (rs - scheme.overhead) + 1
  else (plaintextLen + padLen) / (rs - scheme.overhead)

theorem max_length_records (scheme : Scheme Scalar Point) (target : Target) (rs padLen plaintextLen : Nat)
    (some_ : scheme.ciphertextMaxLength target rs padLen plaintextLen ≠ 0) :
    scheme.overhead < rs ∧ scheme.overhead * scheme.countedRecords rs padLen plaintextLen ≤ target.sizeMaxValue ∧
      scheme.ciphertextMaxLength target rs padLen plaintextLen =
        plaintextLen + padLen + scheme.overhead * scheme.countedRecords rs padLen plaintextLen := by
  have positive : 0 < scheme.overhead := Nat.add_pos_left scheme.padded _
  unfold Scheme.ciphertextMaxLength at some_ ⊢
  rw [Scheme.countedRecords]
  dsimp only at some_ ⊢
  generalize (if plaintextLen % rs ≠ 0 ∨ scheme.needsTrailer rs plaintextLen = true then
    (plaintextLen + padLen) / (rs - scheme.overhead) + 1 else (plaintextLen + padLen) / (rs - scheme.overhead)) =
      numRecords at *
  split at some_
  · exact absurd rfl some_
  · rename_i roomy
    rw [if_neg roomy]
    split at some_
    · exact absurd rfl some_
    · rename_i fits
      rw [if_neg fits]
      split at some_
      · exact absurd rfl some_
      · rename_i counted
        rw [Nat.not_lt, Nat.le_div_iff_mul_le positive, Nat.mul_comm] at counted
        rw [if_neg (by rwa [Nat.not_lt, Nat.le_div_iff_mul_le positive, Nat.mul_comm])]
        exact ⟨Nat.lt_of_not_le roomy, by omega, rfl⟩

theorem counted_records (scheme : Scheme Scalar Point) (rs padLen plaintextLen : Nat) (some_ : 0 < plaintextLen)
    (counted : scheme.Counted rs padLen plaintextLen) :
    scheme.recordsOf rs (plaintextLen + padLen) ≤ scheme.countedRecords rs padLen plaintextLen := by
  rw [Scheme.recordsOf, Scheme.countedRecords]
  have fewer : (plaintextLen + padLen - 1) / (rs - scheme.overhead) ≤ (plaintextLen + padLen) / (rs - scheme.overhead) :=
    Nat.div_le_div_right (Nat.sub_le _ _)
  by_cases inside : plaintextLen % rs = 0
  · by_cases trailer : scheme.needsTrailer rs 0 = true
    · rw [if_pos trailer, if_pos (.inr (by rwa [scheme.trailer_boundary rs plaintextLen inside]))]
    · have even := (counted.resolve_left (not_not_intro inside)).resolve_left trailer
      have none : ¬ (plaintextLen % rs ≠ 0 ∨ scheme.needsTrailer rs plaintextLen = true) := by
        rw [scheme.trailer_boundary rs plaintextLen inside]
        exact not_or.mpr ⟨not_not_intro inside, trailer⟩
      rw [if_neg trailer, if_neg none]
      exact Nat.div_lt_div_of_lt_of_dvd (Nat.dvd_of_mod_eq_zero even) (by omega)
  · have spare : plaintextLen % rs ≠ 0 ∨ scheme.needsTrailer rs plaintextLen = true := .inl inside
    rw [if_pos spare]
    split <;> omega

-- A message that is not counted right lacks the space of one record's tag and padding.
theorem uncounted_records (scheme : Scheme Scalar Point) (rs padLen plaintextLen : Nat)
    (uncounted : ¬ scheme.Counted rs padLen plaintextLen) :
    scheme.recordsOf rs (plaintextLen + padLen) = scheme.countedRecords rs padLen plaintextLen + 1 ∧
      (plaintextLen + padLen) % (rs - scheme.overhead) ≠ 0 ∧ scheme.needsTrailer rs 0 = false := by
  simp only [Scheme.Counted, not_or, not_not, Bool.not_eq_true] at uncounted
  obtain ⟨boundary, noTrailer, uneven⟩ := uncounted
  refine ⟨?_, uneven, noTrailer⟩
  rw [Scheme.recordsOf, Scheme.countedRecords, scheme.trailer_boundary rs plaintextLen boundary, noTrailer,
    if_neg Bool.false_ne_true, if_neg (by simp [boundary])]
  congr 1
  generalize plaintextLen + padLen = dataLen at *
  generalize rs - scheme.overhead = maxBlockLen at *
  rcases Nat.eq_zero_or_pos maxBlockLen with rfl | positive
  · rw [Nat.div_zero, Nat.div_zero]
  · have rest := Nat.mod_lt dataLen positive
    have whole := Nat.div_add_mod dataLen maxBlockLen
    rw [Nat.div_eq_iff positive]
    have product : dataLen / maxBlockLen * maxBlockLen = maxBlockLen * (dataLen / maxBlockLen) := Nat.mul_comm _ _
    omega

theorem updates_outcome (bufferLen : Nat) (updates : List Bytes) (offset : Nat) (within : offset ≤ bufferLen) :
    encryptUpdates bufferLen offset updates = .error (.code .encrypt) ∨
      encryptUpdates bufferLen offset updates = .error .overrun ∧ bufferLen < offset + updates.flatten.length ∨
      encryptUpdates bufferLen offset updates = .ok () ∧ offset + updates.flatten.length ≤ bufferLen := by
  induction updates generalizing offset with
  | nil => exact .inr (.inr ⟨rfl, within⟩)
  | cons update rest ih =>
      rw [List.flatten_cons, List.length_append, encryptUpdates, ← Nat.add_assoc]
      by_cases large : intMax < update.length
      · exact .inl (if_pos large)
      · rw [if_neg large]
        by_cases outside : bufferLen < offset + update.length
        · exact .inr (.inl ⟨if_pos outside, Nat.lt_add_right _ outside⟩)
        · rw [if_neg outside]
          exact ih (offset + update.length) (Nat.le_of_not_lt outside)

-- Where the end of a record is the end of the space, its tag may land on its own block.
theorem encrypt_record_outcome (padding : Padding) (ssl : OpenSsl Scalar Point) (lawful : ssl.Lawful) (key iv : Bytes)
    (lastRecord : Bool) (blockPlaintext : Bytes) (blockPadLen ciphertextStart recordEnd : Nat) (buffer : Bytes)
    (within : ciphertextStart ≤ buffer.length) (tagged : eceTagLength ≤ recordEnd) (inside : recordEnd ≤ buffer.length) :
    padding.encryptRecord ssl key iv lastRecord blockPlaintext blockPadLen ciphertextStart recordEnd buffer =
        .error (.code .encrypt) ∨
      padding.encryptRecord ssl key iv lastRecord blockPlaintext blockPadLen ciphertextStart recordEnd buffer =
          .error .overrun ∧ buffer.length < ciphertextStart + (padding.padSize + blockPadLen + blockPlaintext.length) ∨
      (∃ next, padding.encryptRecord ssl key iv lastRecord blockPlaintext blockPadLen ciphertextStart recordEnd buffer =
          .ok next ∧ next.length = buffer.length) ∧
        ciphertextStart + (padding.padSize + blockPadLen + blockPlaintext.length) ≤ buffer.length := by
  have length := padding.updates_length lastRecord blockPlaintext blockPadLen
  rw [Padding.encryptRecord]
  rcases updates_outcome buffer.length (padding.updates lastRecord blockPlaintext blockPadLen) ciphertextStart within with
    refused | ⟨outside, long⟩ | ⟨done, fits⟩
  · exact .inl (by rw [refused])
  · exact .inr (.inl ⟨by rw [outside], by rwa [length] at long⟩)
  · rw [done]
    cases encrypted : ssl.gcmEncrypt key iv (padding.updates lastRecord blockPlaintext blockPadLen).flatten with
    | none => exact .inl rfl
    | some record =>
        obtain ⟨block, tag⟩ := record
        obtain ⟨blockLength, tagLength, _⟩ := lawful.opens _ _ _ _ _ encrypted
        obtain ⟨filled, stored, filledLength, _⟩ := store_inside buffer ciphertextStart block (by omega)
        obtain ⟨next, sealed, nextLength, _⟩ := store_inside filled (recordEnd - eceTagLength) tag (by omega)
        refine .inr (.inr ⟨⟨next, ?_, by rw [nextLength, filledLength]⟩, by rwa [length] at fits⟩)
        simp only [stored]
        exact sealed

-- A run that lacks the overhead of one record: the last record ends where the space ends, if
-- the block with its padding delimiter fits behind that end.
theorem encrypt_run_clipped (scheme : Scheme Scalar Point) (ssl : OpenSsl Scalar Point) (lawful : ssl.Lawful) (key nonce : Bytes)
    (rs maxCiphertextLen : Nat) (roomy : scheme.overhead < rs) (fuel padLen : Nat) (rest : Bytes) (ciphertextStart counter : Nat)
    (buffer : Bytes) (aligned : ciphertextStart % rs = 0)
    (uneven : (rest.length + padLen) % (rs - scheme.overhead) ≠ 0) (within : ciphertextStart ≤ maxCiphertextLen)
    (tagged : eceTagLength ≤ maxCiphertextLen) (inside : maxCiphertextLen ≤ buffer.length)
    (lacks : maxCiphertextLen + scheme.overhead = ciphertextStart + scheme.streamLength rs (rest.length + padLen)) :
    (∃ error, scheme.encryptRecords ssl key nonce rs maxCiphertextLen fuel padLen rest ciphertextStart counter buffer =
        .error (.code error)) ∨
      scheme.encryptRecords ssl key nonce rs maxCiphertextLen fuel padLen rest ciphertextStart counter buffer = .error .overrun ∧
        buffer.length < maxCiphertextLen + scheme.padSize ∨
      (∃ next, scheme.encryptRecords ssl key nonce rs maxCiphertextLen fuel padLen rest ciphertextStart counter buffer =
          .ok (maxCiphertextLen, next) ∧ next.length = buffer.length) ∧ maxCiphertextLen + scheme.padSize ≤ buffer.length := by
  have overhead : scheme.overhead = scheme.padSize + eceTagLength := rfl
  induction fuel generalizing padLen rest ciphertextStart counter buffer with
  | zero => exact .inl ⟨.encrypt, rfl⟩
  | succ fuel ih =>
      obtain ⟨blockPadLen, blockPlaintextLen, recordEnd, lastRecord, turn⟩ :=
        encrypt_turn scheme ssl key nonce rs maxCiphertextLen fuel padLen rest ciphertextStart counter buffer roomy
      have padding := turn.padding
      have plaintext := turn.plaintext
      have room := turn.room
      have taken : (rest.take blockPlaintextLen).length = blockPlaintextLen := List.length_take_of_le plaintext
      by_cases cramped : lastRecord = false ∧ blockPlaintextLen + blockPadLen < rs - scheme.overhead
      · exact .inl ⟨.encryptPadding, turn.refuses cramped.1 cramped.2⟩
      · rcases Nat.lt_or_ge (rs - scheme.overhead) (rest.length + padLen) with longer | most
        · -- more than one block is left
          have records := records_full scheme rs (rest.length + padLen) roomy (.inl longer)
          have least : scheme.overhead ≤ scheme.overhead *
              scheme.recordsOf rs (rest.length + padLen - (rs - scheme.overhead)) := by
            apply Nat.le_mul_of_pos_right
            rw [Scheme.recordsOf]
            split <;> exact Nat.succ_pos _
          rw [Scheme.streamLength, records, Nat.mul_succ] at lacks
          have whole : recordEnd = ciphertextStart + (blockPlaintextLen + blockPadLen + scheme.overhead) := by
            rw [turn.ends, record_end _ _ _ (by omega)]
          have notLast : lastRecord = false := by
            cases lastRecord with
            | false => rfl
            | true =>
                obtain ⟨noPadding, exhausted, _⟩ := turn.last.mp rfl
                omega
          subst notLast
          have full : blockPlaintextLen + blockPadLen = rs - scheme.overhead := by
            rw [not_and, Nat.not_lt] at cramped
            exact Nat.le_antisymm room (cramped rfl)
          rcases encrypt_record_outcome scheme.toPadding ssl lawful key (eceGenerateIv nonce counter) false
            (rest.take blockPlaintextLen) blockPadLen ciphertextStart recordEnd buffer (by omega) (by omega) (by omega) with
            refused | ⟨_, outside⟩ | ⟨⟨next, stored, kept⟩, _⟩
          · exact .inl ⟨.encrypt, turn.fails cramped _ refused⟩
          · omega
          · have left : (rest.drop blockPlaintextLen).length + (padLen - blockPadLen) =
                rest.length + padLen - (rs - scheme.overhead) := by
              rw [List.length_drop]
              omega
            have boundary : recordEnd = ciphertextStart + rs := by omega
            rw [turn.continues cramped next stored, if_neg Bool.false_ne_true, ← kept]
            apply ih
            · rw [boundary, Nat.add_mod_right, aligned]
            · rwa [left, ← Nat.mod_eq_sub_mod (Nat.le_of_lt longer)]
            · omega
            · rwa [kept]
            · rw [left, Scheme.streamLength]
              omega
        · -- the last block is not full
          have short : rest.length + padLen < rs - scheme.overhead := by
            refine Nat.lt_of_le_of_ne most fun boundary => uneven ?_
            rw [boundary, Nat.mod_self]
          rw [Scheme.streamLength, records_last scheme rs _ roomy (.inl short), Nat.mul_one] at lacks
          have isLast : lastRecord = true := by
            cases lastRecord with
            | true => rfl
            | false => exact absurd ⟨rfl, by omega⟩ cramped
          subst isLast
          obtain ⟨noPadding, exhausted, _⟩ := turn.last.mp rfl
          have atEnd : recordEnd = maxCiphertextLen := by
            rw [turn.ends, ciphertextEnd, if_pos (by omega)]
          subst atEnd
          rcases encrypt_record_outcome scheme.toPadding ssl lawful key (eceGenerateIv nonce counter) true
            (rest.take blockPlaintextLen) blockPadLen ciphertextStart recordEnd buffer (by omega) tagged inside with
            refused | ⟨overrun, outside⟩ | ⟨⟨next, stored, kept⟩, fits⟩
          · exact .inl ⟨.encrypt, turn.fails cramped _ refused⟩
          · exact .inr (.inl ⟨turn.fails cramped _ overrun, by omega⟩)
          · exact .inr (.inr ⟨⟨next, by rw [turn.continues cramped next stored, if_pos rfl], kept⟩, by omega⟩)

-- What ece_webpush_encrypt_plaintext checks before it starts on the records.
structure Scheme.Starts (scheme : Scheme Scalar Point) (target : Target) (ssl : OpenSsl Scalar Point)
    (senderPrivKey recvPubKey : EcKey Scalar Point) (authSecret salt : Bytes) (rs padLen : Nat) (plaintext buffer : Bytes)
    (key nonce : Bytes) : Prop where
  authLength : authSecret.length = eceWebpushAuthSecretLength
  saltLength : salt.length = eceSaltLength
  some_ : 0 < plaintext.length
  queried : scheme.ciphertextMaxLength target rs padLen plaintext.length ≠ 0
  room : scheme.ciphertextMaxLength target rs padLen plaintext.length ≤ buffer.length
  derived : scheme.deriveKeyAndNonce ssl .encrypt senderPrivKey recvPubKey authSecret salt = .ok (key, nonce)
  runs : scheme.encryptPlaintext target ssl senderPrivKey recvPubKey authSecret salt rs padLen plaintext buffer =
    scheme.encryptRecords ssl key nonce rs (scheme.ciphertextMaxLength target rs padLen plaintext.length)
      (padLen + plaintext.length + 1) padLen plaintext 0 0 buffer

theorem encrypt_starts (scheme : Scheme Scalar Point) (target : Target) (ssl : OpenSsl Scalar Point)
    (senderPrivKey recvPubKey : EcKey Scalar Point) (authSecret salt : Bytes) (rs padLen : Nat) (plaintext buffer : Bytes) :
    (∃ error, scheme.encryptPlaintext target ssl senderPrivKey recvPubKey authSecret salt rs padLen plaintext buffer =
        .error (.code error) ∧ error ≠ .encryptPadding) ∨
      ∃ key nonce, scheme.Starts target ssl senderPrivKey recvPubKey authSecret salt rs padLen plaintext buffer key nonce := by
  by_cases secretLength : authSecret.length ≠ eceWebpushAuthSecretLength
  · exact .inl ⟨_, if_pos secretLength, by decide⟩
  by_cases saltLength : salt.length ≠ eceSaltLength
  · exact .inl ⟨.invalidSalt, by rw [Scheme.encryptPlaintext, if_neg secretLength, if_pos saltLength], by decide⟩
  by_cases empty : plaintext.length = 0
  · exact .inl ⟨.zeroPlaintext, by rw [Scheme.encryptPlaintext, if_neg secretLength, if_neg saltLength, if_pos empty], by decide⟩
  by_cases none : scheme.ciphertextMaxLength target rs padLen plaintext.length = 0
  · exact .inl ⟨.invalidRs, by
      rw [Scheme.encryptPlaintext, if_neg secretLength, if_neg saltLength, if_neg empty]
      exact if_pos none, by decide⟩
  by_cases small : buffer.length < scheme.ciphertextMaxLength target rs padLen plaintext.length
  · exact .inl ⟨.outOfMemory, by
      rw [Scheme.encryptPlaintext, if_neg secretLength, if_neg saltLength, if_neg empty]
      dsimp only
      rw [if_neg none, if_pos small], by decide⟩
  cases derived : scheme.deriveKeyAndNonce ssl .encrypt senderPrivKey recvPubKey authSecret salt with
  | error error =>
      refine .inl ⟨error, ?_, fun same => scheme.derive_padding _ _ _ _ _ _ (same ▸ derived)⟩
      rw [Scheme.encryptPlaintext, if_neg secretLength, if_neg saltLength, if_neg empty]
      dsimp only
      rw [if_neg none, if_neg small, derived]
  | ok keyAndNonce =>
      obtain ⟨key, nonce⟩ := keyAndNonce
      refine .inr ⟨key, nonce, not_not.mp secretLength, not_not.mp saltLength, Nat.pos_of_ne_zero empty, none,
        Nat.le_of_not_lt small, derived, ?_⟩
      rw [Scheme.encryptPlaintext, if_neg secretLength, if_neg saltLength, if_neg empty]
      dsimp only
      rw [if_neg none, if_neg small, derived]

-- What an encryption leaves in the caller's buffer.
structure Scheme.Encryption (scheme : Scheme Scalar Point) (target : Target) (ssl : OpenSsl Scalar Point)
    (senderPrivKey recvPubKey : EcKey Scalar Point) (authSecret salt : Bytes) (rs padLen : Nat) (plaintext buffer : Bytes)
    (key nonce stream next : Bytes) : Prop where
  authLength : authSecret.length = eceWebpushAuthSecretLength
  saltLength : salt.length = eceSaltLength
  derived : scheme.deriveKeyAndNonce ssl .encrypt senderPrivKey recvPubKey authSecret salt = .ok (key, nonce)
  written : next.take stream.length = stream
  kept : next.length = buffer.length
  roomy : scheme.overhead < rs
  length : stream.length = scheme.streamLength rs (plaintext.length + padLen)
  bounded : stream.length ≤ scheme.ciphertextMaxLength target rs padLen plaintext.length
  counted : scheme.overhead * scheme.recordsOf rs (plaintext.length + padLen) ≤ target.sizeMaxValue
  isSealing : scheme.Sealing ssl key nonce rs (scheme.recordsOf rs (plaintext.length + padLen)) 0 stream plaintext padLen

theorem encrypt_plaintext_counted (scheme : Scheme Scalar Point) (target : Target) (ssl : OpenSsl Scalar Point)
    (lawful : ssl.Lawful) (senderPrivKey recvPubKey : EcKey Scalar Point) (authSecret salt : Bytes) (rs padLen : Nat)
    (plaintext buffer : Bytes) (counted : scheme.Counted rs padLen plaintext.length) :
    (∃ error, scheme.encryptPlaintext target ssl senderPrivKey recvPubKey authSecret salt rs padLen plaintext buffer =
        .error (.code error)) ∨
      ∃ key nonce stream next,
        scheme.encryptPlaintext target ssl senderPrivKey recvPubKey authSecret salt rs padLen plaintext buffer =
          .ok (stream.length, next) ∧
        scheme.Encryption target ssl senderPrivKey recvPubKey authSecret salt rs padLen plaintext buffer key nonce stream next := by
  rcases encrypt_starts scheme target ssl senderPrivKey recvPubKey authSecret salt rs padLen plaintext buffer with
    ⟨error, failed, _⟩ | ⟨key, nonce, starts⟩
  · exact .inl ⟨error, failed⟩
  · obtain ⟨roomy, representable, maxLength⟩ := max_length_records scheme target rs padLen plaintext.length starts.queried
    have most : scheme.overhead * scheme.recordsOf rs (plaintext.length + padLen) ≤
        scheme.overhead * scheme.countedRecords rs padLen plaintext.length :=
      Nat.mul_le_mul_left _ (counted_records scheme rs padLen plaintext.length starts.some_ counted)
    have fits : scheme.streamLength rs (plaintext.length + padLen) ≤
        scheme.ciphertextMaxLength target rs padLen plaintext.length := by
      rw [maxLength, Scheme.streamLength]
      exact Nat.add_le_add_left most _
    rcases encrypt_run scheme ssl lawful key nonce rs (scheme.ciphertextMaxLength target rs padLen plaintext.length) roomy
      (padLen + plaintext.length + 1) padLen plaintext 0 0 buffer (.inl (Nat.add_pos_left starts.some_ _)) (Nat.zero_mod rs)
      (by rwa [Nat.zero_add]) starts.room with ⟨error, failed⟩ | ⟨stream, next, done, encrypted⟩
    · exact .inl ⟨error, by rw [starts.runs, failed]⟩
    · have appended := encrypted.appended
      rw [Nat.zero_add, List.take_zero, List.nil_append] at appended
      exact .inr ⟨key, nonce, stream, next, by rw [starts.runs, done, Nat.zero_add], starts.authLength, starts.saltLength,
        starts.derived, appended, encrypted.kept, roomy, encrypted.length, by rw [encrypted.length]; exact fits,
        Nat.le_trans most representable, encrypted.isSealing⟩

-- A message that is not counted right comes out one record's overhead short, if the buffer has
-- the space its last block takes behind the length the size query asks for.
theorem encrypt_plaintext_uncounted (scheme : Scheme Scalar Point) (target : Target) (ssl : OpenSsl Scalar Point)
    (lawful : ssl.Lawful) (senderPrivKey recvPubKey : EcKey Scalar Point) (authSecret salt : Bytes) (rs padLen : Nat)
    (plaintext buffer : Bytes) (uncounted : ¬ scheme.Counted rs padLen plaintext.length) :
    (∃ error, scheme.encryptPlaintext target ssl senderPrivKey recvPubKey authSecret salt rs padLen plaintext buffer =
        .error (.code error)) ∨
      scheme.encryptPlaintext target ssl senderPrivKey recvPubKey authSecret salt rs padLen plaintext buffer = .error .overrun ∧
        buffer.length < scheme.ciphertextMaxLength target rs padLen plaintext.length + scheme.padSize ∨
      (∃ next, scheme.encryptPlaintext target ssl senderPrivKey recvPubKey authSecret salt rs padLen plaintext buffer =
          .ok (scheme.ciphertextMaxLength target rs padLen plaintext.length, next) ∧ next.length = buffer.length) ∧
        scheme.ciphertextMaxLength target rs padLen plaintext.length + scheme.overhead =
          scheme.streamLength rs (plaintext.length + padLen) ∧
        scheme.ciphertextMaxLength target rs padLen plaintext.length + scheme.padSize ≤ buffer.length := by
  rcases encrypt_starts scheme target ssl senderPrivKey recvPubKey authSecret salt rs padLen plaintext buffer with
    ⟨error, failed, _⟩ | ⟨key, nonce, starts⟩
  · exact .inl ⟨error, failed⟩
  · obtain ⟨roomy, _, maxLength⟩ := max_length_records scheme target rs padLen plaintext.length starts.queried
    obtain ⟨records, uneven, _⟩ := uncounted_records scheme rs padLen plaintext.length uncounted
    have lacks : scheme.ciphertextMaxLength target rs padLen plaintext.length + scheme.overhead =
        scheme.streamLength rs (plaintext.length + padLen) := by
      rw [maxLength, Scheme.streamLength, records, Nat.mul_succ, Nat.add_assoc]
    have tagged : eceTagLength ≤ scheme.ciphertextMaxLength target rs padLen plaintext.length := by
      have boundary : plaintext.length % rs = 0 := by
        by_contra inside
        exact uncounted (.inl inside)
      have longer := Nat.le_of_dvd starts.some_ (Nat.dvd_of_mod_eq_zero boundary)
      have overhead : scheme.overhead = scheme.padSize + eceTagLength := rfl
      omega
    rw [starts.runs]
    rcases encrypt_run_clipped scheme ssl lawful key nonce rs (scheme.ciphertextMaxLength target rs padLen plaintext.length) roomy
      (padLen + plaintext.length + 1) padLen plaintext 0 0 buffer (Nat.zero_mod rs) uneven (Nat.zero_le _) tagged
      starts.room (by rw [lacks, Nat.zero_add]) with failed | overran | ⟨clipped, fits⟩
    · exact .inl failed
    · exact .inr (.inl overran)
    · exact .inr (.inr ⟨clipped, lacks, fits⟩)

end PushReceiver
