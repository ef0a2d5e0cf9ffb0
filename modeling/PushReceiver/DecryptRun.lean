import PushReceiver.DecryptBounds

set_option autoImplicit false

namespace PushReceiver

variable {Scalar Point : Type}

-- What the caller reads after an outcome of the records, behind what the buffer held before.
def delivered (before : Bytes) (result : Except EceError Bytes) : Except Fault Bytes :=
  (result.mapError Fault.code).map (before ++ ·)

theorem delivered_later (before text : Bytes) (result : Except EceError Bytes) :
    delivered (before ++ text) result = delivered before (result.map (text ++ ·)) := by
  cases result with
  | error error => rfl
  | ok others => exact congrArg Except.ok (List.append_assoc before text others)

-- As long as every block fits, the loop on the buffer reads the records one after the other.
theorem decrypt_records_read (padding : Padding) (ssl : OpenSsl Scalar Point) (streaming : ssl.Streaming) (key nonce : Bytes)
    (rs fuel records tail : Nat) (rest : Bytes) (plaintextStart counter : Nat) (buffer : Bytes)
    (length : rest.length = records * rs + tail) (short : tail < rs)
    (inside : plaintextStart + padding.reach rs tail records ≤ buffer.length) :
    written (padding.decryptRecords ssl key nonce rs fuel rest plaintextStart counter buffer) =
      delivered (buffer.take plaintextStart) (Records.read (padding.openRecord ssl key nonce) rs fuel counter rest) := by
  induction fuel generalizing records rest plaintextStart counter buffer with
  | zero => exact congrArg Except.ok (List.append_nil _).symm
  | succ fuel ih =>
      rw [Padding.decryptRecords, Records.read]
      by_cases empty : rest.length = 0
      · rw [if_pos empty, if_pos empty]
        exact congrArg Except.ok (List.append_nil _).symm
      · rw [if_neg empty, if_neg empty]
        have fits : (rest.take rs).length ≤ eceTagLength ∨
            plaintextStart + ((rest.take rs).length - eceTagLength) ≤ buffer.length := by
          rw [List.length_take]
          cases records with
          | zero =>
              simp only [Padding.reach] at inside
              omega
          | succ records =>
              rw [Nat.succ_mul] at length
              simp only [Padding.reach] at inside
              omega
        rcases decrypt_record_inside padding ssl streaming key nonce (decide (rest.length ≤ rs)) counter (rest.take rs)
          plaintextStart buffer fits with ⟨error, fails, stops⟩ | ⟨text, next, opens, goesOn, textLength, kept, appended⟩
        · rw [stops, fails]
          rfl
        · simp only [goesOn]
          rw [opens]
          have step : (Except.ok text >>= fun text => do
                let others ← Records.read (padding.openRecord ssl key nonce) rs fuel (counter + 1) (rest.drop rs)
                return text ++ others) =
              (Records.read (padding.openRecord ssl key nonce) rs fuel (counter + 1) (rest.drop rs)).map (text ++ ·) := by
            cases Records.read (padding.openRecord ssl key nonce) rs fuel (counter + 1) (rest.drop rs) <;> rfl
          rw [step, ← delivered_later, ← appended]
          rw [List.length_take] at textLength
          cases records with
          | zero =>
              rw [List.drop_eq_nil_of_le (by omega), decrypt_records_stop]
              have stopped : Records.read (padding.openRecord ssl key nonce) rs fuel (counter + 1) [] = .ok [] := by
                cases fuel <;> rfl
              rw [stopped]
              exact congrArg Except.ok (List.append_nil _).symm
          | succ records =>
              rw [Nat.succ_mul] at length
              simp only [Padding.reach] at inside
              apply ih records
              · rw [List.length_drop]
                omega
              · rw [kept]
                omega

theorem read_large (padding : Padding) (ssl : OpenSsl Scalar Point) (key nonce : Bytes) (rs : Nat) (ciphertext : Bytes)
    (large : intMax < rs - eceTagLength) (records : rs ≤ ciphertext.length) :
    Records.read (padding.openRecord ssl key nonce) rs ciphertext.length 0 ciphertext = .error .decrypt := by
  obtain ⟨fuel, turns⟩ : ∃ fuel, ciphertext.length = fuel + 1 := ⟨ciphertext.length - 1, by omega⟩
  have record : (ciphertext.take rs).length = rs := List.length_take_of_le records
  have refused : ∀ lastRecord, padding.openRecord ssl key nonce lastRecord 0 (ciphertext.take rs) = .error .decrypt := by
    intro lastRecord
    rw [Padding.openRecord, record, if_neg (by omega), eceDecryptRecord]
    simp only [record, if_pos large]
  rw [turns, Records.read, if_neg (by omega), refused]
  rfl

theorem decrypt_into_read (padding : Padding) (ssl : OpenSsl Scalar Point) (streaming : ssl.Streaming) (key nonce : Bytes)
    (rs : Nat) (ciphertext buffer : Bytes) (roomy : padding.overhead < rs) (stays : padding.StaysInside rs ciphertext.length)
    (positive : ecePlaintextMaxLength rs padding.padSize ciphertext.length ≠ 0)
    (room : ecePlaintextMaxLength rs padding.padSize ciphertext.length ≤ buffer.length) :
    written (padding.decryptInto ssl key nonce rs ciphertext buffer) =
      (Records.read (padding.openRecord ssl key nonce) rs ciphertext.length 0 ciphertext).mapError .code := by
  rw [Padding.decryptInto, if_neg positive, if_neg (Nat.not_lt.mpr room)]
  by_cases large : intMax < rs - eceTagLength ∧ rs ≤ ciphertext.length
  · rw [decrypt_records_large padding ssl key nonce rs ciphertext buffer large.1 large.2,
      read_large padding ssl key nonce rs ciphertext large.1 large.2]
    rfl
  · have reached := max_reached padding rs ciphertext.length roomy (by omega) stays positive
    rw [decrypt_records_read padding ssl streaming key nonce rs _
      (ciphertext.length / rs) (ciphertext.length % rs) ciphertext 0 0 buffer
      (by rw [Nat.mul_comm]; exact (Nat.div_add_mod _ _).symm) (Nat.mod_lt _ (by omega)) (by omega)]
    cases Records.read (padding.openRecord ssl key nonce) rs ciphertext.length 0 ciphertext <;> rfl

-- Every record takes its overhead off the length, whether or not it fits.
theorem decrypt_records_length (padding : Padding) (ssl : OpenSsl Scalar Point) (streaming : ssl.Streaming) (key nonce : Bytes)
    (rs : Nat) (positive : 0 < rs) (fuel : Nat) (rest : Bytes) (plaintextStart counter : Nat) (buffer : Bytes) (stop : Nat)
    (next : Bytes) (enough : rest.length ≤ fuel)
    (done : padding.decryptRecords ssl key nonce rs fuel rest plaintextStart counter buffer = .ok (stop, next)) :
    stop + padding.overhead * ((rest.length + (rs - 1)) / rs) ≤ plaintextStart + rest.length := by
  have overhead : padding.overhead = padding.padSize + eceTagLength := rfl
  induction fuel generalizing rest plaintextStart counter buffer with
  | zero =>
      rw [Padding.decryptRecords] at done
      obtain ⟨rfl, _⟩ := Prod.mk.inj (Except.ok.inj done)
      rw [Nat.le_zero.mp enough, Nat.div_eq_of_lt (by omega), Nat.mul_zero]
  | succ fuel ih =>
      rw [Padding.decryptRecords] at done
      by_cases empty : rest.length = 0
      · rw [if_pos empty] at done
        obtain ⟨rfl, _⟩ := Prod.mk.inj (Except.ok.inj done)
        rw [empty, Nat.div_eq_of_lt (by omega), Nat.mul_zero]
      · rw [if_neg empty] at done
        cases decrypted : padding.decryptRecord ssl key nonce (decide (rest.length ≤ rs)) counter (rest.take rs)
            plaintextStart buffer with
        | error fault =>
            rw [decrypted] at done
            cases done
        | ok stored =>
            obtain ⟨blockLen, filled⟩ := stored
            rw [decrypted] at done
            obtain ⟨text, _, rfl, least, _⟩ := decrypt_record_done padding ssl streaming key nonce _ counter (rest.take rs)
              plaintextStart buffer blockLen filled decrypted
            have later := ih (rest.drop rs) (plaintextStart + text.length) (counter + 1) filled
              (by rw [List.length_drop]; omega) done
            rw [List.length_drop] at later
            rw [List.length_take] at least
            have records : (rest.length + (rs - 1)) / rs = (rest.length - rs + (rs - 1)) / rs + 1 := by
              rcases Nat.lt_or_ge rest.length rs with below | above
              · rw [Nat.sub_eq_zero_of_le (Nat.le_of_lt below), Nat.zero_add, Nat.div_eq_of_lt (show rs - 1 < rs by omega),
                  Nat.div_eq_iff positive]
                omega
              · rw [← Nat.add_div_right _ positive]
                congr 1
                omega
            rw [records, Nat.mul_succ]
            omega

-- A loop that gets to its end has read the records one after the other.
theorem decrypt_records_done (padding : Padding) (ssl : OpenSsl Scalar Point) (streaming : ssl.Streaming) (key nonce : Bytes)
    (rs fuel : Nat) (rest : Bytes) (plaintextStart counter : Nat) (buffer : Bytes) (stop : Nat) (next : Bytes)
    (done : padding.decryptRecords ssl key nonce rs fuel rest plaintextStart counter buffer = .ok (stop, next)) :
    ∃ text, Records.read (padding.openRecord ssl key nonce) rs fuel counter rest = .ok text ∧
      next.take stop = buffer.take plaintextStart ++ text := by
  induction fuel generalizing rest plaintextStart counter buffer with
  | zero =>
      rw [Padding.decryptRecords] at done
      obtain ⟨rfl, rfl⟩ := Prod.mk.inj (Except.ok.inj done)
      exact ⟨[], rfl, (List.append_nil _).symm⟩
  | succ fuel ih =>
      rw [Padding.decryptRecords] at done
      rw [Records.read]
      by_cases empty : rest.length = 0
      · rw [if_pos empty] at done ⊢
        obtain ⟨rfl, rfl⟩ := Prod.mk.inj (Except.ok.inj done)
        exact ⟨[], rfl, (List.append_nil _).symm⟩
      · rw [if_neg empty] at done ⊢
        cases decrypted : padding.decryptRecord ssl key nonce (decide (rest.length ≤ rs)) counter (rest.take rs)
            plaintextStart buffer with
        | error fault =>
            rw [decrypted] at done
            cases done
        | ok stored =>
            obtain ⟨blockLen, filled⟩ := stored
            rw [decrypted] at done
            obtain ⟨text, opens, rfl, _, appended⟩ := decrypt_record_done padding ssl streaming key nonce _ counter
              (rest.take rs) plaintextStart buffer blockLen filled decrypted
            obtain ⟨others, later, written⟩ := ih (rest.drop rs) (plaintextStart + text.length) (counter + 1) filled done
            refine ⟨text ++ others, ?_, by rw [written, appended, List.append_assoc]⟩
            rw [opens, later]
            rfl

theorem decrypt_into_done (padding : Padding) (ssl : OpenSsl Scalar Point) (streaming : ssl.Streaming) (key nonce : Bytes)
    (rs : Nat) (ciphertext buffer text : Bytes)
    (done : written (padding.decryptInto ssl key nonce rs ciphertext buffer) = .ok text) :
    ecePlaintextMaxLength rs padding.padSize ciphertext.length ≠ 0 ∧
      ecePlaintextMaxLength rs padding.padSize ciphertext.length ≤ buffer.length ∧
      Records.read (padding.openRecord ssl key nonce) rs ciphertext.length 0 ciphertext = .ok text := by
  rw [Padding.decryptInto] at done
  by_cases none : ecePlaintextMaxLength rs padding.padSize ciphertext.length = 0
  · rw [if_pos none] at done
    cases done
  by_cases small : buffer.length < ecePlaintextMaxLength rs padding.padSize ciphertext.length
  · rw [if_neg none, if_pos small] at done
    cases done
  rw [if_neg none, if_neg small] at done
  cases decrypted : padding.decryptRecords ssl key nonce rs ciphertext.length ciphertext 0 0 buffer with
  | error fault =>
      rw [decrypted] at done
      cases done
  | ok stored =>
      obtain ⟨stop, next⟩ := stored
      obtain ⟨read, reads, appended⟩ := decrypt_records_done padding ssl streaming key nonce rs _ ciphertext 0 0 buffer stop next
        decrypted
      rw [decrypted] at done
      have stored : next.take stop = text := Except.ok.inj done
      rw [appended, List.take_zero, List.nil_append] at stored
      exact ⟨none, Nat.le_of_not_lt small, by rw [reads, stored]⟩

theorem decrypt_into_length (padding : Padding) (ssl : OpenSsl Scalar Point) (streaming : ssl.Streaming) (key nonce : Bytes)
    (rs : Nat) (positive : 0 < rs) (ciphertext buffer text : Bytes)
    (done : written (padding.decryptInto ssl key nonce rs ciphertext buffer) = .ok text) :
    text.length + padding.overhead * ((ciphertext.length + (rs - 1)) / rs) ≤ ciphertext.length := by
  cases decrypted : padding.decryptInto ssl key nonce rs ciphertext buffer with
  | error fault =>
      rw [decrypted] at done
      cases done
  | ok stored =>
      obtain ⟨stop, next⟩ := stored
      rw [decrypted] at done
      obtain rfl := Except.ok.inj done
      rw [Padding.decryptInto] at decrypted
      split at decrypted
      · cases decrypted
      · split at decrypted
        · cases decrypted
        · have length := decrypt_records_length padding ssl streaming key nonce rs positive _ ciphertext 0 0 buffer stop next
            (Nat.le_refl _) decrypted
          rw [List.length_take]
          omega

end PushReceiver
