import PushReceiver.Scheme

set_option autoImplicit false

namespace PushReceiver

variable {Scalar Point : Type}

-- A GCM message is as long as its plaintext, whoever made it.
structure OpenSsl.Streaming (ssl : OpenSsl Scalar Point) : Prop where
  decrypted : ∀ key iv ciphertext tag block, ssl.gcmDecrypt key iv ciphertext tag = some block →
    block.length = ciphertext.length

-- What a record carries, without the buffer it is decrypted into.
def Padding.openRecord (padding : Padding) (ssl : OpenSsl Scalar Point) (key nonce : Bytes) (lastRecord : Bool) (counter : Nat)
    (record : Bytes) : Except EceError Bytes :=
  if record.length ≤ eceTagLength then .error .shortBlock
  else
    match eceDecryptRecord ssl key (eceGenerateIv nonce counter) record with
    | none => .error .decrypt
    | some block =>
        if record.length - eceTagLength < padding.padSize then .error .decryptPadding
        else padding.unpad lastRecord block

-- The bytes a caller finds in the buffer, up to the length that is stored.
def written (result : Except Fault (Nat × Bytes)) : Except Fault Bytes := result.map fun stored => stored.2.take stored.1

theorem decrypted_length (ssl : OpenSsl Scalar Point) (streaming : ssl.Streaming) (key iv record block : Bytes)
    (decrypted : eceDecryptRecord ssl key iv record = some block) : block.length = record.length - eceTagLength := by
  unfold eceDecryptRecord at decrypted
  dsimp only at decrypted
  split at decrypted
  · cases decrypted
  · rw [streaming.decrypted _ _ _ _ _ decrypted, List.length_take_of_le (Nat.sub_le _ _)]

theorem store_inside (buffer : Bytes) (offset : Nat) (bytes : Bytes) (inside : offset + bytes.length ≤ buffer.length) :
    ∃ next, store buffer offset bytes = .ok next ∧ next.length = buffer.length ∧
      next.take (offset + bytes.length) = buffer.take offset ++ bytes ∧ next.take offset = buffer.take offset := by
  have written := Store.write_inside buffer offset bytes inside
  refine ⟨_, ?_, Store.write_length _ _ _ _ written, Store.write_through _ _ _ _ written,
    Store.write_before _ _ _ _ _ (Nat.le_refl offset) written⟩
  rw [store, written]

-- A record whose block fits into the buffer ends the loop with its own error, or leaves its text
-- behind the text that is there.
theorem decrypt_record_inside (padding : Padding) (ssl : OpenSsl Scalar Point) (streaming : ssl.Streaming) (key nonce : Bytes)
    (lastRecord : Bool) (counter : Nat) (record : Bytes) (plaintextStart : Nat) (buffer : Bytes)
    (fits : record.length ≤ eceTagLength ∨ plaintextStart + (record.length - eceTagLength) ≤ buffer.length) :
    (∃ error, padding.openRecord ssl key nonce lastRecord counter record = .error error ∧
        padding.decryptRecord ssl key nonce lastRecord counter record plaintextStart buffer = .error (.code error)) ∨
      ∃ text next, padding.openRecord ssl key nonce lastRecord counter record = .ok text ∧
        padding.decryptRecord ssl key nonce lastRecord counter record plaintextStart buffer = .ok (text.length, next) ∧
        padding.overhead + text.length ≤ record.length ∧ next.length = buffer.length ∧
        next.take (plaintextStart + text.length) = buffer.take plaintextStart ++ text := by
  have overhead : padding.overhead = padding.padSize + eceTagLength := rfl
  rw [Padding.openRecord, Padding.decryptRecord]
  by_cases short : record.length ≤ eceTagLength
  · exact .inl ⟨.shortBlock, if_pos short, if_pos short⟩
  · have inside := fits.resolve_left short
    rw [if_neg short, if_neg short]
    dsimp only
    rw [if_neg (fun outside => absurd outside.2 (Nat.not_lt.mpr inside))]
    cases decrypted : eceDecryptRecord ssl key (eceGenerateIv nonce counter) record with
    | none => exact .inl ⟨.decrypt, rfl, rfl⟩
    | some block =>
        have blockLength := decrypted_length ssl streaming _ _ record block decrypted
        obtain ⟨filled, stored, filledLength, _, before⟩ := store_inside buffer plaintextStart block (by omega)
        simp only [stored]
        by_cases bare : record.length - eceTagLength < padding.padSize
        · exact .inl ⟨.decryptPadding, if_pos bare, if_pos bare⟩
        · rw [if_neg bare, if_neg bare]
          cases unpadded : padding.unpad lastRecord block with
          | error error => exact .inl ⟨error, rfl, rfl⟩
          | ok text =>
              have textLength := padding.unpad_length _ _ _ (by omega) unpadded
              obtain ⟨next, moved, nextLength, through, _⟩ := store_inside filled plaintextStart text (by omega)
              refine .inr ⟨text, next, rfl, ?_, by omega, by rw [nextLength, filledLength], by rw [through, before]⟩
              simp only [moved]

theorem decrypt_record_outside (padding : Padding) (ssl : OpenSsl Scalar Point) (key nonce : Bytes) (lastRecord : Bool)
    (counter : Nat) (record : Bytes) (plaintextStart : Nat) (buffer : Bytes) (long : eceTagLength < record.length)
    (small : record.length - eceTagLength ≤ intMax)
    (outside : buffer.length < plaintextStart + (record.length - eceTagLength)) :
    padding.decryptRecord ssl key nonce lastRecord counter record plaintextStart buffer = .error .overrun := by
  rw [Padding.decryptRecord, if_neg (Nat.not_le.mpr long)]
  exact if_pos ⟨small, outside⟩

-- A record that is decrypted fitted, and left its text behind the text that is there.
theorem decrypt_record_done (padding : Padding) (ssl : OpenSsl Scalar Point) (streaming : ssl.Streaming) (key nonce : Bytes)
    (lastRecord : Bool) (counter : Nat) (record : Bytes) (plaintextStart : Nat) (buffer : Bytes) (blockLen : Nat) (next : Bytes)
    (done : padding.decryptRecord ssl key nonce lastRecord counter record plaintextStart buffer = .ok (blockLen, next)) :
    ∃ text, padding.openRecord ssl key nonce lastRecord counter record = .ok text ∧ blockLen = text.length ∧
      padding.overhead + text.length ≤ record.length ∧
      next.take (plaintextStart + text.length) = buffer.take plaintextStart ++ text := by
  by_cases fits : record.length ≤ eceTagLength ∨ plaintextStart + (record.length - eceTagLength) ≤ buffer.length
  · rcases decrypt_record_inside padding ssl streaming key nonce lastRecord counter record plaintextStart buffer fits with
      ⟨error, _, stops⟩ | ⟨text, other, opens, goesOn, textLength, _, appended⟩
    · rw [stops] at done
      cases done
    · rw [goesOn] at done
      obtain ⟨rfl, rfl⟩ := Prod.mk.inj (Except.ok.inj done)
      exact ⟨text, opens, rfl, textLength, appended⟩
  · obtain ⟨long, outside⟩ := not_or.mp fits
    rw [Padding.decryptRecord, if_neg long] at done
    dsimp only at done
    split at done
    · cases done
    · have refused : eceDecryptRecord ssl key (eceGenerateIv nonce counter) record = none := by
        rw [eceDecryptRecord]
        exact if_pos (by omega)
      rw [refused] at done
      cases done

-- The end of the block that reaches farthest into the buffer, when no record carries more
-- padding than it must: `records` full records and one of `tail` bytes are left.
def Padding.reach (padding : Padding) (rs tail : Nat) : Nat → Nat
  | 0 => tail - eceTagLength
  | records + 1 => max (rs - eceTagLength) (rs - padding.overhead + Padding.reach padding rs tail records)

theorem decrypt_records_stop (padding : Padding) (ssl : OpenSsl Scalar Point) (key nonce : Bytes) (rs fuel plaintextStart
    counter : Nat) (buffer : Bytes) :
    padding.decryptRecords ssl key nonce rs fuel [] plaintextStart counter buffer = .ok (plaintextStart, buffer) := by
  cases fuel with
  | zero => rfl
  | succ fuel => exact if_pos rfl

theorem decrypt_records_inside (padding : Padding) (ssl : OpenSsl Scalar Point) (streaming : ssl.Streaming) (key nonce : Bytes)
    (rs fuel records tail : Nat) (rest : Bytes) (plaintextStart counter : Nat) (buffer : Bytes)
    (length : rest.length = records * rs + tail) (short : tail < rs)
    (inside : plaintextStart + padding.reach rs tail records ≤ buffer.length) :
    padding.decryptRecords ssl key nonce rs fuel rest plaintextStart counter buffer ≠ .error .overrun := by
  induction fuel generalizing records rest plaintextStart counter buffer with
  | zero => exact fun overrun => by cases overrun
  | succ fuel ih =>
      rw [Padding.decryptRecords]
      by_cases empty : rest.length = 0
      · rw [if_pos empty]
        exact fun overrun => by cases overrun
      · rw [if_neg empty]
        have fits : (rest.take rs).length ≤ eceTagLength ∨
            plaintextStart + ((rest.take rs).length - eceTagLength) ≤ buffer.length := by
          rw [List.length_take]
          cases records with
          | zero =>
              simp only [Padding.reach] at inside
              omega
          | succ records =>
              rw [Nat.succ_mul] at length
              simp only [Padding.reach] at inside
              omega
        rcases decrypt_record_inside padding ssl streaming key nonce (decide (rest.length ≤ rs)) counter (rest.take rs)
          plaintextStart buffer fits with ⟨error, _, stops⟩ | ⟨text, next, _, goesOn, textLength, kept, _⟩
        · rw [stops]
          exact fun overrun => by cases overrun
        · simp only [goesOn]
          rw [List.length_take] at textLength
          cases records with
          | zero =>
              rw [List.drop_eq_nil_of_le (by omega), decrypt_records_stop]
              exact fun overrun => by cases overrun
          | succ records =>
              rw [Nat.succ_mul] at length
              simp only [Padding.reach] at inside
              apply ih records
              · rw [List.length_drop]
                omega
              · rw [kept]
                omega

theorem reach_short (padding : Padding) (rs tail records : Nat) (short : tail ≤ eceTagLength) :
    padding.reach rs tail (records + 1) = records * (rs - padding.overhead) + (rs - eceTagLength) := by
  have overhead : padding.overhead = padding.padSize + eceTagLength := rfl
  induction records with
  | zero =>
      rw [Padding.reach, Padding.reach, Nat.sub_eq_zero_of_le short, Nat.zero_mul]
      omega
  | succ records ih =>
      rw [Padding.reach, ih, Nat.succ_mul]
      omega

theorem reach_bound (padding : Padding) (rs tail records : Nat) :
    padding.reach rs tail records ≤ records * (rs - eceTagLength) + (tail - eceTagLength) := by
  have overhead : padding.overhead = padding.padSize + eceTagLength := rfl
  induction records with
  | zero => exact Nat.le_add_left _ _
  | succ records ih =>
      rw [Padding.reach, Nat.succ_mul]
      omega

theorem plaintext_max_length (padding : Padding) (rs records tail : Nat) (roomy : padding.overhead < rs) (short : tail < rs) :
    ecePlaintextMaxLength rs padding.padSize (records * rs + tail) =
      records * rs + tail - eceTagLength * (if tail = 0 then records else records + 1) := by
  have overhead : padding.overhead = padding.padSize + eceTagLength := rfl
  have mod : (records * rs + tail) % rs = tail := by
    rw [Nat.mul_comm, Nat.mul_add_mod, Nat.mod_eq_of_lt short]
  have div : (records * rs + tail) / rs = records := by
    rw [Nat.mul_comm, Nat.mul_add_div (by omega), Nat.div_eq_of_lt short, Nat.add_zero]
  rw [ecePlaintextMaxLength]
  simp only [mod, div]
  rw [if_neg (by omega)]
  generalize (if tail = 0 then records else records + 1) = numRecords
  split
  · rename_i fewer
    rw [Nat.div_lt_iff_lt_mul (by decide), Nat.mul_comm numRecords] at fewer
    exact (Nat.sub_eq_zero_of_le (Nat.le_of_lt fewer)).symm
  · rfl

-- The lengths a ciphertext can have without a block that leaves the plaintext buffer. A last
-- record of fewer bytes than a tag takes a whole tag off the buffer.
def Padding.StaysInside (padding : Padding) (rs length : Nat) : Prop :=
  rs ≤ padding.overhead ∨ intMax < rs - eceTagLength ∨ length < rs ∨ length % rs = 0 ∨
    length ≤ eceTagLength * (length / rs + 1) ∨ eceTagLength ≤ length % rs + (length / rs - 1) * padding.padSize

theorem reach_stays (padding : Padding) (rs records tail : Nat) (roomy : padding.overhead < rs) (short : tail < rs)
    (stays : tail = 0 ∨ records = 0 ∨ eceTagLength ≤ tail + (records - 1) * padding.padSize) :
    padding.reach rs tail records ≤ ecePlaintextMaxLength rs padding.padSize (records * rs + tail) ∨
      ecePlaintextMaxLength rs padding.padSize (records * rs + tail) = 0 := by
  have overhead : padding.overhead = padding.padSize + eceTagLength := rfl
  have bound := reach_bound padding rs tail records
  have blocks : records * (rs - eceTagLength) + eceTagLength * records = records * rs := by
    rw [Nat.mul_comm eceTagLength, ← Nat.mul_add, Nat.sub_add_cancel (by omega)]
  rw [plaintext_max_length padding rs records tail roomy short]
  by_cases exact_ : tail = 0
  · rw [if_pos exact_]
    omega
  · rw [if_neg exact_, Nat.mul_succ]
    rcases Nat.lt_or_ge tail eceTagLength with below | above
    · cases records with
      | zero => omega
      | succ records =>
          have padded : eceTagLength ≤ tail + records * padding.padSize := by
            rcases stays with zero | zero | enough
            · exact absurd zero exact_
            · cases zero
            · exact enough
          have lost : records * (rs - padding.overhead) + records * padding.padSize = records * (rs - eceTagLength) := by
            rw [← Nat.mul_add]
            congr 1
            omega
          rw [reach_short padding rs tail records (Nat.le_of_lt below)]
          simp only [Nat.succ_mul, Nat.mul_succ] at blocks ⊢
          omega
    · omega

theorem decrypt_records_outside (padding : Padding) (ssl : OpenSsl Scalar Point) (streaming : ssl.Streaming) (key nonce : Bytes)
    (rs fuel records tail : Nat) (roomy : padding.overhead < rs) (small : rs - eceTagLength ≤ intMax)
    (bare : ∀ counter record, record.length = rs → ∃ text,
      padding.openRecord ssl key nonce false counter record = .ok text ∧ text.length = rs - padding.overhead)
    (rest : Bytes) (plaintextStart counter : Nat) (buffer : Bytes) (length : rest.length = (records + 1) * rs + tail)
    (some_ : 0 < tail) (short : tail ≤ eceTagLength) (enough : records < fuel)
    (outside : buffer.length < plaintextStart + padding.reach rs tail (records + 1)) :
    padding.decryptRecords ssl key nonce rs fuel rest plaintextStart counter buffer = .error .overrun := by
  have overhead : padding.overhead = padding.padSize + eceTagLength := rfl
  induction fuel generalizing records rest plaintextStart counter buffer with
  | zero => cases enough
  | succ fuel ih =>
      rw [Nat.succ_mul] at length
      have record : (rest.take rs).length = rs := List.length_take_of_le (by omega)
      have more : decide (rest.length ≤ rs) = false := decide_eq_false (by omega)
      rw [Padding.decryptRecords, if_neg (by omega), more]
      rcases Nat.lt_or_ge buffer.length (plaintextStart + (rs - eceTagLength)) with leaves | fits
      · rw [decrypt_record_outside padding ssl key nonce false counter (rest.take rs) plaintextStart buffer (by omega)
          (by omega) (by rwa [record])]
      · obtain ⟨bareText, bareOpens, bareLength⟩ := bare counter (rest.take rs) record
        rcases decrypt_record_inside padding ssl streaming key nonce false counter (rest.take rs) plaintextStart buffer
          (.inr (by rwa [record])) with ⟨error, fails, _⟩ | ⟨text, next, opens, goesOn, _, kept, _⟩
        · rw [bareOpens] at fails
          cases fails
        · rw [bareOpens] at opens
          obtain rfl := Except.ok.inj opens
          simp only [goesOn]
          cases records with
          | zero =>
              simp only [Padding.reach] at outside
              omega
          | succ records =>
              rw [Padding.reach] at outside
              apply ih records
              · rw [List.length_drop]
                omega
              · omega
              · rw [kept]
                omega

-- A block without padding, and a cipher under which every message opens to one.
def Padding.bareBlock (padding : Padding) (length : Nat) : Bytes :=
  (padding.updates false (List.replicate (length - padding.padSize) 0) 0).flatten

def Padding.bareSsl (padding : Padding) : OpenSsl Unit Unit where
  oct2priv _ := some ()
  pointMul _ := some ()
  oct2key _ := some ()
  point2oct _ := some []
  ecdhComputeKey _ _ := some []
  hkdf _ _ _ outputLen := some (List.replicate outputLen 0)
  gcmEncrypt _ _ _ := none
  gcmDecrypt _ _ ciphertext _ := if ciphertext.length < padding.padSize then none else some (padding.bareBlock ciphertext.length)

theorem bare_block_length (padding : Padding) (length : Nat) (least : padding.padSize ≤ length) :
    (padding.bareBlock length).length = length := by
  rw [Padding.bareBlock, padding.updates_length, List.length_replicate]
  omega

theorem bare_streaming (padding : Padding) : padding.bareSsl.Streaming where
  decrypted key iv ciphertext tag block opened := by
    simp only [Padding.bareSsl] at opened
    split at opened
    · cases opened
    · rename_i least
      rw [← Option.some.inj opened, bare_block_length padding _ (Nat.le_of_not_lt least)]

theorem bare_opens (padding : Padding) (rs : Nat) (roomy : padding.overhead < rs) (small : rs - eceTagLength ≤ intMax)
    (key nonce : Bytes) (counter : Nat) (record : Bytes) (whole : record.length = rs) :
    ∃ text, padding.openRecord padding.bareSsl key nonce false counter record = .ok text ∧
      text.length = rs - padding.overhead := by
  have overhead : padding.overhead = padding.padSize + eceTagLength := rfl
  have blockLength : (record.take (rs - eceTagLength)).length = rs - eceTagLength := List.length_take_of_le (by omega)
  have opened : eceDecryptRecord padding.bareSsl key (eceGenerateIv nonce counter) record =
      some (padding.bareBlock (rs - eceTagLength)) := by
    rw [eceDecryptRecord]
    simp only [whole, Padding.bareSsl, blockLength]
    rw [if_neg (by omega), if_neg (by omega)]
  have noPadding : padding.minBlockPadLength 0 1 = 0 := Nat.le_zero.mp (padding.pad_bound 0 1 Nat.one_pos).1
  have unpadded := padding.unpad_updates false (List.replicate (rs - eceTagLength - padding.padSize) 0) 0 1 Nat.one_pos
  rw [noPadding] at unpadded
  refine ⟨List.replicate (rs - eceTagLength - padding.padSize) 0, ?_, ?_⟩
  · rw [Padding.openRecord, whole, if_neg (by omega), opened]
    simp only [if_neg (show ¬ rs - eceTagLength < padding.padSize by omega)]
    exact unpadded
  · rw [List.length_replicate]
    omega

-- A record too long for one call of the cipher is refused before the cipher writes it.
theorem decrypt_records_large (padding : Padding) (ssl : OpenSsl Scalar Point) (key nonce : Bytes) (rs : Nat)
    (ciphertext buffer : Bytes) (large : intMax < rs - eceTagLength) (records : rs ≤ ciphertext.length) :
    padding.decryptRecords ssl key nonce rs ciphertext.length ciphertext 0 0 buffer = .error (.code .decrypt) := by
  obtain ⟨fuel, turns⟩ : ∃ fuel, ciphertext.length = fuel + 1 := ⟨ciphertext.length - 1, by omega⟩
  have record : (ciphertext.take rs).length = rs := List.length_take_of_le records
  have refused : eceDecryptRecord ssl key (eceGenerateIv nonce 0) (ciphertext.take rs) = none := by
    rw [eceDecryptRecord]
    simp only [record, if_pos large]
  rw [turns, Padding.decryptRecords, if_neg (by omega), Padding.decryptRecord, record, if_neg (by omega)]
  dsimp only
  rw [if_neg (fun within => absurd within.1 (Nat.not_le.mpr large)), refused]

theorem max_reached (padding : Padding) (rs length : Nat) (roomy : padding.overhead < rs)
    (small : rs - eceTagLength ≤ intMax ∨ length < rs) (stays : padding.StaysInside rs length)
    (positive : ecePlaintextMaxLength rs padding.padSize length ≠ 0) :
    padding.reach rs (length % rs) (length / rs) ≤ ecePlaintextMaxLength rs padding.padSize length := by
  have overhead : padding.overhead = padding.padSize + eceTagLength := rfl
  have short := Nat.mod_lt length (show 0 < rs by omega)
  have whole : length = length / rs * rs + length % rs := by
    rw [Nat.mul_comm]
    exact (Nat.div_add_mod _ _).symm
  have max := plaintext_max_length padding rs (length / rs) (length % rs) roomy short
  have reaches := reach_stays padding rs (length / rs) (length % rs) roomy short
  rw [← whole] at max reaches
  by_cases exact_ : length % rs = 0
  · exact (reaches (.inl exact_)).resolve_right positive
  · rw [if_neg exact_] at max
    refine (reaches ?_).resolve_right positive
    rcases stays with cramped | tooLarge | one | zero | none | padded
    · omega
    · exact .inr (.inl (Nat.div_eq_of_lt (small.resolve_left (Nat.not_le.mpr tooLarge))))
    · exact .inr (.inl (Nat.div_eq_of_lt one))
    · exact .inl zero
    · omega
    · exact .inr (.inr padded)

theorem decrypt_into_inside (padding : Padding) (ssl : OpenSsl Scalar Point) (streaming : ssl.Streaming) (key nonce : Bytes)
    (rs : Nat) (ciphertext buffer : Bytes) (stays : padding.StaysInside rs ciphertext.length) :
    padding.decryptInto ssl key nonce rs ciphertext buffer ≠ .error .overrun := by
  have overhead : padding.overhead = padding.padSize + eceTagLength := rfl
  by_cases large : intMax < rs - eceTagLength ∧ rs ≤ ciphertext.length
  · rw [Padding.decryptInto, decrypt_records_large padding ssl key nonce rs ciphertext buffer large.1 large.2]
    split
    · exact fun overrun => by cases overrun
    · split <;> exact fun overrun => by cases overrun
  · rcases Nat.lt_or_ge padding.overhead rs with roomy | cramped
    · rw [Padding.decryptInto]
      split
      · exact fun overrun => by cases overrun
      · rename_i positive
        split
        · exact fun overrun => by cases overrun
        · have reached := max_reached padding rs ciphertext.length roomy (by omega) stays positive
          apply decrypt_records_inside padding ssl streaming key nonce rs _ (ciphertext.length / rs) (ciphertext.length % rs)
            ciphertext 0 0 buffer
          · rw [Nat.mul_comm]
            exact (Nat.div_add_mod _ _).symm
          · exact Nat.mod_lt _ (by omega)
          · omega
    · have nothing : ecePlaintextMaxLength rs padding.padSize ciphertext.length = 0 := if_pos (by omega)
      rw [Padding.decryptInto, nothing, if_pos rfl]
      exact fun overrun => by cases overrun

-- On every other length that cipher leaves the buffer, whatever the ciphertext is.
theorem bare_overruns (padding : Padding) (rs length : Nat) (key nonce ciphertext buffer : Bytes)
    (leaves : ¬ padding.StaysInside rs length) (whole : ciphertext.length = length)
    (buffered : buffer.length = ecePlaintextMaxLength rs padding.padSize length) :
    padding.decryptInto padding.bareSsl key nonce rs ciphertext buffer = .error .overrun := by
  have overhead : padding.overhead = padding.padSize + eceTagLength := rfl
  simp only [Padding.StaysInside, not_or, Nat.not_le, Nat.not_lt] at leaves
  obtain ⟨roomy, small, records, exact_, some_, lost⟩ := leaves
  have short := Nat.mod_lt length (show 0 < rs by omega)
  have split_ : length = length / rs * rs + length % rs := by
    rw [Nat.mul_comm]
    exact (Nat.div_add_mod _ _).symm
  have max := plaintext_max_length padding rs (length / rs) (length % rs) roomy short
  rw [← split_, if_neg exact_] at max
  obtain ⟨before, more⟩ : ∃ before, length / rs = before + 1 := ⟨length / rs - 1, by
    have := Nat.div_pos records (show 0 < rs by omega)
    omega⟩
  rw [more] at split_ max some_ lost
  have reached := reach_short padding rs (length % rs) before (by omega)
  have lostPadding : before * (rs - padding.overhead) + before * padding.padSize = before * (rs - eceTagLength) := by
    rw [← Nat.mul_add]
    congr 1
    omega
  have blocks : before * (rs - eceTagLength) + eceTagLength * before = before * rs := by
    rw [Nat.mul_comm eceTagLength, ← Nat.mul_add, Nat.sub_add_cancel (by omega)]
  simp only [Nat.succ_mul, Nat.mul_succ] at split_ max some_ lost
  rw [Padding.decryptInto, whole, buffered, if_neg (by omega), if_neg (Nat.lt_irrefl _)]
  apply decrypt_records_outside padding padding.bareSsl (bare_streaming padding) key nonce rs length before (length % rs)
    roomy small (bare_opens padding rs roomy small key nonce)
  · rw [whole, Nat.succ_mul]
    exact split_
  · exact Nat.pos_of_ne_zero exact_
  · omega
  · have := Nat.le_mul_of_pos_right before (show 0 < rs by omega)
    omega
  · rw [buffered, reached, max]
    simp only [Nat.add_sub_cancel] at lost
    omega

-- Where no buffer is asked for, no block is decrypted either.
theorem query_positive (padding : Padding) (rs length : Nat) (leaves : ¬ padding.StaysInside rs length) :
    ecePlaintextMaxLength rs padding.padSize length ≠ 0 := by
  intro nothing
  have overruns := bare_overruns padding rs length [] [] (List.replicate length 0) [] leaves List.length_replicate
    nothing.symm
  rw [Padding.decryptInto, List.length_replicate, if_pos nothing] at overruns
  cases overruns

-- Decryption into a buffer of the length the size query gives stays inside that buffer for
-- every cipher and every ciphertext of a length exactly when the length is one of these.
theorem decrypt_stays_inside_iff (padding : Padding) (rs length : Nat) :
    (∀ (Scalar Point : Type) (ssl : OpenSsl Scalar Point), ssl.Streaming → ∀ key nonce ciphertext buffer : Bytes,
      ciphertext.length = length → buffer.length = ecePlaintextMaxLength rs padding.padSize length →
      padding.decryptInto ssl key nonce rs ciphertext buffer ≠ .error .overrun) ↔ padding.StaysInside rs length := by
  constructor
  · intro always
    by_contra leaves
    exact always Unit Unit padding.bareSsl (bare_streaming padding) [] [] (List.replicate length 0)
      (List.replicate (ecePlaintextMaxLength rs padding.padSize length) 0) List.length_replicate List.length_replicate
      (bare_overruns padding rs length [] [] _ _ leaves List.length_replicate List.length_replicate)
  · intro stays Scalar Point ssl streaming key nonce ciphertext buffer length _
    exact decrypt_into_inside padding ssl streaming key nonce rs ciphertext buffer (by rwa [length])

end PushReceiver
