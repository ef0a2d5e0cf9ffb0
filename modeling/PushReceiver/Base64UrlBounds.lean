import PushReceiver.Base64Url
import PushReceiver.Encrypt
import PushReceiver.Library.Store

set_option autoImplicit false

namespace PushReceiver

inductive EncodePolicy where
  | omitPadding
  | includePadding
deriving DecidableEq, Repr

-- Why the loop of ece_base64url_decode stops early: a write outside the caller's buffer, or a
-- quantum that is refused.
inductive UrlFault where
  | overrun
  | invalid
deriving DecidableEq, Repr

-- A quantum is stored when all of its characters are known.
def storeQuantum (base64 : Bytes) (offset : Nat) (binary : Bytes) : Except UrlFault Bytes :=
  match eceBase64urlDecodeQuantum base64 with
  | none => .error .invalid
  | some quantum =>
      match Store.write binary offset quantum with
      | none => .error .overrun
      | some binary => .ok binary

def storeQuanta : Bytes → Nat → Bytes → Except UrlFault Bytes
  | chr0 :: chr1 :: chr2 :: chr3 :: rest, offset, binary =>
      match storeQuantum [chr0, chr1, chr2, chr3] offset binary with
      | .error fault => .error fault
      | .ok binary => storeQuanta rest (offset + 3) binary
  | rest, offset, binary => storeQuantum rest offset binary

-- ece_base64url_decode into the caller's buffer: the result and the buffer, which no one reads
-- after a failure, or none for a write outside it.
def eceBase64urlDecodeInto (base64 : Bytes) (paddingPolicy : DecodePolicy) (binary : Bytes) : Option (Nat × Bytes) :=
  if base64 = [] then some (0, binary)
  else
    let padLen := eceBase64urlDecodePadLength base64 paddingPolicy
    if padLen = 3 then some (0, binary)
    else
      let base64 := base64.take (base64.length - padLen)
      let requiredBinaryLen := eceBase64urlBinaryLength base64.length
      if binary.length = 0 then some (requiredBinaryLen, binary)
      else if binary.length < requiredBinaryLen then some (0, binary)
      else
        match storeQuanta base64 0 binary with
        | .error .overrun => none
        | .error .invalid => some (0, binary)
        | .ok binary => some (requiredBinaryLen, binary)

def eceBase64urlBase64Length (target : Target) (binaryLen : Nat) : Nat :=
  if target.sizeMaxValue / 4 < binaryLen / 3 then 0
  else
    let baseLen := binaryLen / 3 * 4
    let finalLen :=
      match binaryLen % 3 with
      | 1 => 2
      | 2 => 3
      | _ => 0
    if target.sizeMaxValue - baseLen < finalLen then 0 else baseLen + finalLen

def eceBase64urlEncodePadLength (paddingPolicy : EncodePolicy) (base64Len : Nat) : Nat :=
  match paddingPolicy, base64Len % 4 with
  | .includePadding, 2 => 2
  | .includePadding, 3 => 1
  | _, _ => 0

-- ece_base64url_encode into the caller's buffer; the quanta and the padding are written one
-- behind the other.
def eceBase64urlEncodeInto (target : Target) (binary : Bytes) (paddingPolicy : EncodePolicy) (base64 : Bytes) :
    Option (Nat × Bytes) :=
  if binary = [] then some (0, base64)
  else
    let base64Len := eceBase64urlBase64Length target binary.length
    if base64Len = 0 then some (0, base64)
    else
      let padLen := eceBase64urlEncodePadLength paddingPolicy base64Len
      if target.sizeMaxValue - base64Len < padLen then some (0, base64)
      else
        let requiredBase64Len := base64Len + padLen
        if base64.length = 0 then some (requiredBase64Len, base64)
        else if base64.length < requiredBase64Len then some (0, base64)
        else
          (Store.write base64 0 (eceBase64urlEncode binary ++ List.replicate padLen trailingChar)).map fun base64 =>
            (requiredBase64Len, base64)

-- Every character is in the table.
def KnownText (base64 : Bytes) : Prop := ∀ chr ∈ base64, eceBase64urlDecodeByte chr ≠ 64

instance (base64 : Bytes) : Decidable (KnownText base64) := inferInstanceAs (Decidable (∀ chr ∈ base64, _))

-- The characters that are read before a quantum no longer fits a buffer of this length.
def reachedText (base64 : Bytes) (binaryLen : Nat) : Bytes := base64.take ((binaryLen / 3 + 1) * 4)

theorem known_text (base64 : Bytes) : (∀ chr ∈ base64, ∃ group, urlValue chr = some group) ↔ KnownText base64 := by
  have each : ∀ chr, (∃ group, urlValue chr = some group) ↔ eceBase64urlDecodeByte chr ≠ 64 := by
    intro chr
    rw [urlValue]
    split
    · simp_all
    · simp_all
  simp only [each, KnownText]

theorem quantum_known (base64 : Bytes) (whole : base64.length = 4) :
    (∃ quantum, eceBase64urlDecodeQuantum base64 = some quantum) ↔ KnownText base64 := by
  rw [decode_quantum base64 (Nat.le_of_eq whole), Radix64.decode_some_iff, known_text]
  exact and_iff_right (by rw [whole]; decide)

theorem quantum_length (base64 quantum : Bytes) (short : base64.length ≤ 4)
    (decoded : eceBase64urlDecodeQuantum base64 = some quantum) : quantum.length = base64.length * 3 / 4 := by
  rw [decode_quantum base64 short] at decoded
  exact Radix64.decode_length urlValue base64 quantum decoded

theorem quantum_three (chr0 chr1 chr2 chr3 : UInt8) (quantum : Bytes)
    (decoded : eceBase64urlDecodeQuantum [chr0, chr1, chr2, chr3] = some quantum) : quantum.length = 3 := by
  simpa using quantum_length [chr0, chr1, chr2, chr3] quantum (Nat.le_refl 4) decoded

theorem last_quantum (rest : Bytes)
    (short : ∀ chr0 chr1 chr2 chr3 more, rest = chr0 :: chr1 :: chr2 :: chr3 :: more → False) : rest.length < 4 := by
  match rest with
  | [] | [_] | [_, _] | [_, _, _] => simp
  | chr0 :: chr1 :: chr2 :: chr3 :: more => exact absurd rfl (short chr0 chr1 chr2 chr3 more)

theorem known_append (base64 more : Bytes) : KnownText (base64 ++ more) ↔ KnownText base64 ∧ KnownText more :=
  List.forall_mem_append

theorem reached_first (chr0 chr1 chr2 chr3 : UInt8) (rest : Bytes) (binaryLen : Nat) (short : binaryLen < 3) :
    reachedText (chr0 :: chr1 :: chr2 :: chr3 :: rest) binaryLen = [chr0, chr1, chr2, chr3] := by
  rw [reachedText, Nat.div_eq_of_lt short]
  rfl

theorem reached_later (chr0 chr1 chr2 chr3 : UInt8) (rest : Bytes) (binaryLen : Nat) :
    reachedText (chr0 :: chr1 :: chr2 :: chr3 :: rest) (binaryLen + 3) =
      [chr0, chr1, chr2, chr3] ++ reachedText rest binaryLen := by
  have count : ((binaryLen + 3) / 3 + 1) * 4 = (binaryLen / 3 + 1) * 4 + 4 := by omega
  rw [reachedText, count]
  rfl

theorem reached_whole (chr0 chr1 chr2 chr3 : UInt8) (rest : Bytes) (binaryLen : Nat) :
    ∃ more, reachedText (chr0 :: chr1 :: chr2 :: chr3 :: rest) binaryLen = [chr0, chr1, chr2, chr3] ++ more := by
  refine ⟨rest.take (binaryLen / 3 * 4), ?_⟩
  rw [reachedText, Nat.succ_mul]
  rfl

theorem store_quantum (base64 : Bytes) (offset : Nat) (binary quantum : Bytes)
    (decoded : eceBase64urlDecodeQuantum base64 = some quantum) (inside : offset + quantum.length ≤ binary.length) :
    storeQuantum base64 offset binary = .ok (binary.take offset ++ quantum ++ binary.drop (offset + quantum.length)) := by
  rw [storeQuantum, decoded]
  simp only [Store.write_inside binary offset quantum inside]

theorem store_outside (base64 : Bytes) (offset : Nat) (binary quantum : Bytes)
    (decoded : eceBase64urlDecodeQuantum base64 = some quantum) (outside : binary.length < offset + quantum.length) :
    storeQuantum base64 offset binary = .error .overrun := by
  rw [storeQuantum, decoded]
  simp only [(Store.write_refused binary offset quantum).mpr outside]

-- A text of one character more than whole quanta, whose query says that it decodes to nothing:
-- every quantum is stored before the last character is refused.
theorem store_dangling (base64 : Bytes) (dangling : base64.length % 4 = 1) (offset : Nat) (binary : Bytes)
    (within : offset ≤ binary.length) :
    (∃ fault, storeQuanta base64 offset binary = .error fault) ∧
      (storeQuanta base64 offset binary = .error .overrun ↔
        binary.length < offset + base64.length / 4 * 3 ∧ KnownText (reachedText base64 (binary.length - offset))) := by
  induction base64 using eceBase64urlDecodeQuanta.induct generalizing offset binary with
  | case1 chr0 chr1 chr2 chr3 rest failed =>
      have refused : storeQuanta (chr0 :: chr1 :: chr2 :: chr3 :: rest) offset binary = .error .invalid := by
        rw [storeQuanta, storeQuantum, failed]
      refine ⟨⟨_, refused⟩, ?_⟩
      rw [refused]
      constructor
      · intro same
        cases same
      · rintro ⟨_, known⟩
        have first : KnownText [chr0, chr1, chr2, chr3] := by
          obtain ⟨more, reached⟩ := reached_whole chr0 chr1 chr2 chr3 rest (binary.length - offset)
          rw [reached, known_append] at known
          exact known.1
        obtain ⟨quantum, decoded⟩ := (quantum_known _ rfl).mpr first
        rw [failed] at decoded
        cases decoded
  | case2 chr0 chr1 chr2 chr3 rest quantum decoded ih =>
      have first : KnownText [chr0, chr1, chr2, chr3] := (quantum_known _ rfl).mp ⟨quantum, decoded⟩
      have three : quantum.length = 3 := quantum_three chr0 chr1 chr2 chr3 quantum decoded
      have shape : (chr0 :: chr1 :: chr2 :: chr3 :: rest).length = rest.length + 4 := rfl
      rw [shape] at dangling ⊢
      rcases Nat.lt_or_ge binary.length (offset + 3) with outside | inside
      · have overrun : storeQuanta (chr0 :: chr1 :: chr2 :: chr3 :: rest) offset binary = .error .overrun := by
          rw [storeQuanta, store_outside _ offset binary quantum decoded (by omega)]
        refine ⟨⟨_, overrun⟩, ?_⟩
        rw [overrun, reached_first _ _ _ _ _ _ (by omega)]
        exact iff_of_true rfl ⟨by omega, first⟩
      · have stored := store_quantum _ offset binary quantum decoded (by omega)
        have size := Store.write_length binary _ offset quantum (Store.write_inside binary offset quantum (by omega))
        obtain ⟨fault, same⟩ := ih (by omega) (offset + 3) _ (by rw [size]; exact inside)
        rw [size] at same
        obtain ⟨spare, left⟩ : ∃ spare, binary.length - offset = spare + 3 := ⟨binary.length - offset - 3, by omega⟩
        rw [storeQuanta, stored, left, reached_later, known_append, and_iff_right first]
        rw [show binary.length - (offset + 3) = spare by omega] at same
        refine ⟨fault, same.trans ?_⟩
        rw [show offset + 3 + rest.length / 4 * 3 = offset + (rest.length + 4) / 4 * 3 by omega]
  | case3 rest short =>
      have few := last_quantum rest short
      have single : rest.length = 1 := by omega
      obtain ⟨chr, rfl⟩ := List.length_eq_one_iff.mp single
      have refused : storeQuanta [chr] offset binary = .error .invalid := by
        rw [storeQuanta, storeQuantum, decode_quantum [chr] (Nat.le_add_left 1 3)]
        · rfl
        · exact short
      refine ⟨⟨_, refused⟩, ?_⟩
      rw [refused]
      refine iff_of_false (by decide) fun both => Nat.not_lt.mpr within ?_
      simpa using both.1

-- A text of any other length stays inside a buffer of the queried length.
theorem store_decoded (base64 : Bytes) (offset : Nat) (binary : Bytes)
    (inside : offset + base64.length * 3 / 4 ≤ binary.length) :
    (∀ bytes, eceBase64urlDecodeQuanta base64 = some bytes →
      ∃ next, Store.write binary offset bytes = some next ∧ storeQuanta base64 offset binary = .ok next) ∧
    (eceBase64urlDecodeQuanta base64 = none → storeQuanta base64 offset binary = .error .invalid) := by
  induction base64 using eceBase64urlDecodeQuanta.induct generalizing offset binary with
  | case1 chr0 chr1 chr2 chr3 rest failed =>
      rw [eceBase64urlDecodeQuanta, failed, storeQuanta, storeQuantum, failed]
      exact ⟨by simp, by simp⟩
  | case2 chr0 chr1 chr2 chr3 rest quantum decoded ih =>
      have three : quantum.length = 3 := quantum_three chr0 chr1 chr2 chr3 quantum decoded
      have shape : (chr0 :: chr1 :: chr2 :: chr3 :: rest).length = rest.length + 4 := rfl
      rw [shape] at inside
      have written := Store.write_inside binary offset quantum (by omega)
      have size := Store.write_length binary _ offset quantum written
      have stored := store_quantum _ offset binary quantum decoded (by omega)
      obtain ⟨accepted, refused⟩ := ih (offset + 3) _ (by rw [size]; omega)
      rw [eceBase64urlDecodeQuanta, decoded, storeQuanta, stored]
      constructor
      · intro bytes read
        obtain ⟨others, later, rfl⟩ := Option.map_eq_some_iff.mp read
        obtain ⟨next, followed, same⟩ := accepted others later
        rw [← three, Store.write_joined binary _ offset quantum others written] at followed
        exact ⟨next, followed, same⟩
      · intro read
        exact refused (Option.map_eq_none_iff.mp read)
  | case3 rest short =>
      have few := last_quantum rest short
      rw [eceBase64urlDecodeQuanta, storeQuanta]
      · constructor
        · intro bytes read
          have size := quantum_length rest bytes (Nat.le_of_lt few) read
          exact ⟨_, Store.write_inside binary offset bytes (by omega), store_quantum rest offset binary bytes read (by omega)⟩
        · intro read
          rw [storeQuantum, read]
      · exact short
      · exact short

theorem pad_length_whole (base64 : Bytes) (paddingPolicy : DecodePolicy) (whole : base64.length % 4 = 0) :
    eceBase64urlDecodePadLength base64 paddingPolicy ≤ 2 := by
  have trailing : (if base64.getLast? = some 61 then (if base64.dropLast.getLast? = some 61 then 2 else 1) else 0) ≤ 2 := by
    split
    · split <;> decide
    · decide
  cases paddingPolicy with
  | requirePadding => simpa only [eceBase64urlDecodePadLength, whole, ne_eq, not_true_eq_false, if_false] using trailing
  | ignorePadding => simpa only [eceBase64urlDecodePadLength, whole, if_true] using trailing
  | rejectPadding => exact Nat.zero_le 2

theorem pad_length_short (base64 : Bytes) (paddingPolicy : DecodePolicy) (some_ : base64.length % 4 ≠ 0) :
    eceBase64urlDecodePadLength base64 paddingPolicy = if paddingPolicy = .requirePadding then 3 else 0 := by
  cases paddingPolicy with
  | requirePadding => simp [eceBase64urlDecodePadLength, some_]
  | ignorePadding => simp [eceBase64urlDecodePadLength, some_]
  | rejectPadding => rfl

-- The padding is cut from whole quanta only, and leaves no single character behind.
theorem pad_length_dangling (base64 : Bytes) (paddingPolicy : DecodePolicy)
    (padded : eceBase64urlDecodePadLength base64 paddingPolicy ≠ 3) :
    (base64.length - eceBase64urlDecodePadLength base64 paddingPolicy) % 4 = 1 ↔
      paddingPolicy ≠ .requirePadding ∧ base64.length % 4 = 1 := by
  by_cases whole : base64.length % 4 = 0
  · have bound := pad_length_whole base64 paddingPolicy whole
    omega
  · have pad := pad_length_short base64 paddingPolicy whole
    by_cases required : paddingPolicy = .requirePadding
    · rw [if_pos required] at pad
      exact absurd pad padded
    · rw [if_neg required] at pad
      rw [pad, Nat.sub_zero]
      exact (and_iff_right required).symm

theorem pad_length_refused (base64 : Bytes) (paddingPolicy : DecodePolicy)
    (padded : eceBase64urlDecodePadLength base64 paddingPolicy = 3) : paddingPolicy = .requirePadding := by
  by_cases whole : base64.length % 4 = 0
  · have bound := pad_length_whole base64 paddingPolicy whole
    omega
  · rw [pad_length_short base64 paddingPolicy whole] at padded
    by_contra other
    rw [if_neg other] at padded
    cases padded

theorem dangling_kept (base64 : Bytes) (paddingPolicy : DecodePolicy) (dangling : base64.length % 4 = 1)
    (other : paddingPolicy ≠ .requirePadding) :
    base64.take (base64.length - eceBase64urlDecodePadLength base64 paddingPolicy) = base64 := by
  rw [pad_length_short base64 paddingPolicy (by omega), if_neg other, Nat.sub_zero, List.take_length]

theorem store_whole (base64 binary : Bytes) (whole : base64.length % 4 ≠ 1)
    (inside : ¬ binary.length < eceBase64urlBinaryLength base64.length) : storeQuanta base64 0 binary ≠ .error .overrun := by
  rw [binary_length base64.length whole] at inside
  obtain ⟨accepted, refused⟩ := store_decoded base64 0 binary (by omega)
  cases read : eceBase64urlDecodeQuanta base64 with
  | none =>
      rw [refused read]
      decide
  | some bytes =>
      obtain ⟨next, _, stored⟩ := accepted bytes read
      rw [stored]
      intro same
      cases same

theorem decode_into_overruns (base64 : Bytes) (paddingPolicy : DecodePolicy) (binary : Bytes) :
    eceBase64urlDecodeInto base64 paddingPolicy binary = none ↔
      paddingPolicy ≠ .requirePadding ∧ base64.length % 4 = 1 ∧ binary ≠ [] ∧
        binary.length < base64.length / 4 * 3 ∧ KnownText (reachedText base64 binary.length) := by
  rw [eceBase64urlDecodeInto]
  by_cases empty : base64 = []
  · rw [if_pos empty, empty]
    simp
  rw [if_neg empty]
  dsimp only
  by_cases padded : eceBase64urlDecodePadLength base64 paddingPolicy = 3
  · rw [if_pos padded]
    have required := pad_length_refused base64 paddingPolicy padded
    simp [required]
  rw [if_neg padded, ← and_assoc, ← pad_length_dangling base64 paddingPolicy padded]
  have size := List.length_take_of_le (Nat.sub_le base64.length (eceBase64urlDecodePadLength base64 paddingPolicy))
  by_cases none_ : binary.length = 0
  · rw [if_pos none_]
    simp [List.eq_nil_of_length_eq_zero none_]
  rw [if_neg none_]
  have present : binary ≠ [] := fun same => none_ (by rw [same]; rfl)
  by_cases dangling : (base64.length - eceBase64urlDecodePadLength base64 paddingPolicy) % 4 = 1
  · obtain ⟨other, single⟩ := (pad_length_dangling base64 paddingPolicy padded).mp dangling
    have zero : eceBase64urlBinaryLength base64.length = 0 := by simp only [eceBase64urlBinaryLength, single]
    obtain ⟨⟨fault, failed⟩, overrun⟩ := store_dangling base64 single 0 binary (Nat.zero_le _)
    rw [dangling_kept base64 paddingPolicy single other, zero, if_neg (Nat.not_lt_zero _), and_iff_right dangling,
      and_iff_right present]
    rw [Nat.zero_add, Nat.sub_zero] at overrun
    rw [← overrun, failed]
    cases fault with
    | overrun => simp
    | invalid => simp
  · refine iff_of_false ?_ fun both => dangling both.1
    split
    · simp
    · rename_i inside
      have kept := store_whole _ binary (by rw [size]; exact dangling) inside
      split
      · rename_i overrun
        exact absurd overrun kept
      · simp
      · simp

theorem store_quantum_length (base64 : Bytes) (offset : Nat) (binary next : Bytes)
    (stored : storeQuantum base64 offset binary = .ok next) : next.length = binary.length := by
  unfold storeQuantum at stored
  split at stored
  · cases stored
  · split at stored
    · cases stored
    · rename_i written
      obtain rfl := Except.ok.inj stored
      exact Store.write_length _ _ _ _ written

theorem store_quanta_length (base64 : Bytes) (offset : Nat) (binary next : Bytes)
    (stored : storeQuanta base64 offset binary = .ok next) : next.length = binary.length := by
  induction base64, offset, binary using storeQuanta.induct with
  | case1 chr0 chr1 chr2 chr3 rest offset binary fault failed =>
      rw [storeQuanta, failed] at stored
      cases stored
  | case2 chr0 chr1 chr2 chr3 rest offset binary middle first ih =>
      rw [storeQuanta, first] at stored
      rw [ih stored, store_quantum_length _ offset binary middle first]
  | case3 rest offset binary short =>
      rw [storeQuanta] at stored
      · exact store_quantum_length rest offset binary next stored
      · exact short

theorem store_quanta_agrees (base64 binary : Bytes)
    (inside : ¬ binary.length < eceBase64urlBinaryLength base64.length) :
    (∀ next, storeQuanta base64 0 binary = .ok next →
      eceBase64urlDecodeQuanta base64 = some (next.take (eceBase64urlBinaryLength base64.length))) ∧
    ∀ fault, storeQuanta base64 0 binary = .error fault → eceBase64urlDecodeQuanta base64 = none := by
  by_cases dangling : base64.length % 4 = 1
  · obtain ⟨⟨fault, failed⟩, _⟩ := store_dangling base64 dangling 0 binary (Nat.zero_le _)
    refine ⟨fun next stored => ?_, fun fault failed => ?_⟩
    · rw [failed] at stored
      cases stored
    · rw [decode_quanta, Radix64.decode, if_pos dangling]
  · rw [binary_length base64.length dangling] at inside ⊢
    obtain ⟨accepted, refused⟩ := store_decoded base64 0 binary (by omega)
    cases read : eceBase64urlDecodeQuanta base64 with
    | none =>
        refine ⟨fun next stored => ?_, fun fault failed => rfl⟩
        rw [refused read] at stored
        cases stored
    | some bytes =>
        obtain ⟨next, written, stored⟩ := accepted bytes read
        rw [decode_quanta] at read
        have through := Store.write_through binary next 0 bytes written
        rw [Nat.zero_add, Radix64.decode_length urlValue base64 bytes read, List.take_zero, List.nil_append] at through
        rw [stored]
        refine ⟨fun other same => ?_, fun fault failed => ?_⟩
        · rw [← Except.ok.inj same, through]
        · cases failed

-- What the caller reads back is what the decoder over lists returns.
theorem decode_into_refines (base64 : Bytes) (paddingPolicy : DecodePolicy) (binary next : Bytes) (result : Nat)
    (returned : eceBase64urlDecodeInto base64 paddingPolicy binary = some (result, next)) :
    eceBase64urlDecode base64 paddingPolicy binary.length = (result, next.take result) := by
  rw [eceBase64urlDecodeInto] at returned
  rw [eceBase64urlDecode]
  by_cases empty : base64 = []
  · rw [if_pos empty] at returned ⊢
    cases returned
    rfl
  rw [if_neg empty] at returned ⊢
  dsimp only at returned ⊢
  by_cases padded : eceBase64urlDecodePadLength base64 paddingPolicy = 3
  · rw [if_pos padded] at returned ⊢
    cases returned
    rfl
  rw [if_neg padded] at returned ⊢
  generalize base64.take (base64.length - eceBase64urlDecodePadLength base64 paddingPolicy) = text at returned ⊢
  by_cases none_ : binary.length = 0
  · rw [if_pos none_] at returned ⊢
    obtain rfl := List.eq_nil_of_length_eq_zero none_
    cases returned
    rw [List.take_nil]
  rw [if_neg none_] at returned ⊢
  by_cases small : binary.length < eceBase64urlBinaryLength text.length
  · rw [if_pos small] at returned ⊢
    cases returned
    rfl
  rw [if_neg small] at returned ⊢
  obtain ⟨accepted, refused⟩ := store_quanta_agrees text binary small
  cases stored : storeQuanta text 0 binary with
  | error fault =>
      rw [refused fault stored]
      rw [stored] at returned
      cases fault with
      | overrun => cases returned
      | invalid =>
          cases returned
          rfl
  | ok last =>
      rw [accepted last stored]
      rw [stored] at returned
      cases returned
      rfl

theorem decode_into_length (base64 : Bytes) (paddingPolicy : DecodePolicy) (binary next : Bytes) (result : Nat)
    (returned : eceBase64urlDecodeInto base64 paddingPolicy binary = some (result, next)) : next.length = binary.length := by
  rw [eceBase64urlDecodeInto] at returned
  dsimp only at returned
  split_ifs at returned
  all_goals try (cases returned; rfl)
  split at returned
  · cases returned
  · cases returned
    rfl
  · rename_i stored
    obtain ⟨_, rfl⟩ := Prod.mk.inj (Option.some.inj returned)
    exact store_quanta_length _ 0 binary _ stored

-- What an encoder writes under one policy, a decoder reads under another: text without padding
-- is not read by a decoder that requires it, nor padding by one that rejects it.
def Agrees : EncodePolicy → DecodePolicy → Nat → Prop
  | .omitPadding, .requirePadding, binaryLen => binaryLen % 3 = 0
  | .includePadding, .rejectPadding, binaryLen => binaryLen % 3 = 0
  | _, _, _ => True

instance (encodePolicy : EncodePolicy) (decodePolicy : DecodePolicy) (binaryLen : Nat) :
    Decidable (Agrees encodePolicy decodePolicy binaryLen) := by
  cases encodePolicy <;> cases decodePolicy <;> unfold Agrees <;> infer_instance

def urlAlphabet : Radix64.Alphabet where
  symbol := base64Char true
  value := urlValue
  value_symbol := by decide +kernel

theorem url_symbol_plain : ∀ group < 64, urlAlphabet.symbol group ≠ trailingChar := by decide

theorem url_encode_plain (binary : Bytes) : trailingChar ∉ eceBase64urlEncode binary := by
  rw [url_encode_refines]
  intro member
  obtain ⟨group, bound, same⟩ := Radix64.encode_symbols urlAlphabet binary _ member
  exact url_symbol_plain group bound same.symm

theorem url_encode_length (binary : Bytes) : (eceBase64urlEncode binary).length = (binary.length * 4 + 2) / 3 := by
  rw [url_encode_refines, Radix64.encode_length]

theorem url_encode_decodes (binary : Bytes) : eceBase64urlDecodeQuanta (eceBase64urlEncode binary) = some binary := by
  rw [decode_quanta, url_encode_refines]
  exact Radix64.decode_encode urlAlphabet binary

theorem padding_unread (base64 : Bytes) (padded : trailingChar ∈ base64) : eceBase64urlDecodeQuanta base64 = none := by
  cases read : eceBase64urlDecodeQuanta base64 with
  | none => rfl
  | some bytes =>
      rw [decode_quanta] at read
      obtain ⟨group, known⟩ := ((Radix64.decode_some_iff urlValue base64).mp ⟨bytes, read⟩).2 trailingChar padded
      have unknown : urlValue trailingChar = none := by decide
      rw [unknown] at known
      cases known

theorem encoded_length (binaryLen : Nat) :
    (binaryLen * 4 + 2) / 3 = binaryLen / 3 * 4 + (if binaryLen % 3 = 0 then 0 else binaryLen % 3 + 1) := by
  have whole := Nat.div_add_mod binaryLen 3
  have shape : binaryLen % 3 = 0 ∨ binaryLen % 3 = 1 ∨ binaryLen % 3 = 2 := by omega
  rcases shape with left | left | left
  all_goals
    simp [left]
    omega

theorem base64_length (target : Target) (binaryLen : Nat) (counted : eceBase64urlBase64Length target binaryLen ≠ 0) :
    eceBase64urlBase64Length target binaryLen = (binaryLen * 4 + 2) / 3 := by
  rw [encoded_length]
  rw [eceBase64urlBase64Length] at counted ⊢
  have shape : binaryLen % 3 = 0 ∨ binaryLen % 3 = 1 ∨ binaryLen % 3 = 2 := by omega
  rcases shape with left | left | left
  all_goals
    simp only [left] at counted ⊢
    split_ifs at counted ⊢ <;> simp_all

theorem base64_length_bounded (target : Target) (binaryLen : Nat) :
    eceBase64urlBase64Length target binaryLen ≤ target.sizeMaxValue := by
  rw [eceBase64urlBase64Length]
  dsimp only
  split_ifs <;> omega

theorem base64_length_refused (target : Target) (binaryLen : Nat) (counted : eceBase64urlBase64Length target binaryLen = 0) :
    binaryLen = 0 ∨ target.sizeMaxValue < (binaryLen * 4 + 2) / 3 := by
  rw [encoded_length]
  rw [eceBase64urlBase64Length] at counted
  have shape : binaryLen % 3 = 0 ∨ binaryLen % 3 = 1 ∨ binaryLen % 3 = 2 := by omega
  rcases shape with left | left | left
  all_goals
    simp only [left] at counted
    split_ifs at counted <;> simp [left] <;> omega

theorem encode_pad_length (paddingPolicy : EncodePolicy) (binaryLen : Nat) :
    eceBase64urlEncodePadLength paddingPolicy ((binaryLen * 4 + 2) / 3) =
      if paddingPolicy = .includePadding then (3 - binaryLen % 3) % 3 else 0 := by
  have shape : binaryLen % 3 = 0 ∨ binaryLen % 3 = 1 ∨ binaryLen % 3 = 2 := by omega
  rw [encoded_length]
  rcases shape with left | left | left
  all_goals
    cases paddingPolicy <;> simp [eceBase64urlEncodePadLength, left, Nat.mul_add_mod_self_right]

-- The text that an encoder writes.
def paddedText (binary : Bytes) (paddingPolicy : EncodePolicy) : Bytes :=
  eceBase64urlEncode binary ++
    List.replicate (if paddingPolicy = .includePadding then (3 - binary.length % 3) % 3 else 0) trailingChar

-- There is nothing to encode, or no room for the text: it has more characters than a size_t counts,
-- or the buffer is shorter. A buffer of no bytes asks for the length only.
def NoText (target : Target) (binary : Bytes) (paddingPolicy : EncodePolicy) (base64 : Bytes) : Prop :=
  binary = [] ∨ target.sizeMaxValue < (paddedText binary paddingPolicy).length ∨
    base64 ≠ [] ∧ base64.length < (paddedText binary paddingPolicy).length

-- The encoder stays inside every buffer, whatever its length.
theorem encode_into (target : Target) (binary : Bytes) (paddingPolicy : EncodePolicy) (base64 : Bytes) :
    ∃ result next, eceBase64urlEncodeInto target binary paddingPolicy base64 = some (result, next) ∧
      (NoText target binary paddingPolicy base64 ∧ result = 0 ∨
        ¬ NoText target binary paddingPolicy base64 ∧ result = (paddedText binary paddingPolicy).length ∧
          (base64 ≠ [] → next.take result = paddedText binary paddingPolicy)) := by
  rw [eceBase64urlEncodeInto]
  dsimp only
  split
  · rename_i empty
    exact ⟨_, _, rfl, .inl ⟨.inl empty, rfl⟩⟩
  rename_i present
  have size : (eceBase64urlEncode binary).length = (binary.length * 4 + 2) / 3 := url_encode_length binary
  split
  · rename_i uncounted
    refine ⟨_, _, rfl, .inl ⟨.inr (.inl ?_), rfl⟩⟩
    have refused := base64_length_refused target binary.length uncounted
    rw [paddedText, List.length_append, size]
    have counted : binary.length ≠ 0 := fun same => present (List.eq_nil_of_length_eq_zero same)
    omega
  rename_i counted
  have bounded := base64_length_bounded target binary.length
  rw [base64_length target binary.length counted] at bounded ⊢
  rw [encode_pad_length, NoText, paddedText]
  generalize (if paddingPolicy = .includePadding then (3 - binary.length % 3) % 3 else 0) = padLen
  have written : (eceBase64urlEncode binary ++ List.replicate padLen trailingChar).length =
      (binary.length * 4 + 2) / 3 + padLen := by
    rw [List.length_append, size, List.length_replicate]
  rw [written]
  split
  · exact ⟨_, _, rfl, .inl ⟨.inr (.inl (by omega)), rfl⟩⟩
  rename_i representable
  have counts : ¬ target.sizeMaxValue < (binary.length * 4 + 2) / 3 + padLen := by omega
  split
  · rename_i none_
    have query : base64 = [] := List.eq_nil_of_length_eq_zero none_
    refine ⟨_, _, rfl, .inr ⟨?_, rfl, fun buffered => absurd query buffered⟩⟩
    rintro (empty | long | ⟨buffered, _⟩)
    · exact present empty
    · exact counts long
    · exact buffered query
  rename_i buffered
  have some_ : base64 ≠ [] := fun query => buffered (by rw [query]; rfl)
  split
  · rename_i short
    exact ⟨_, _, rfl, .inl ⟨.inr (.inr ⟨some_, short⟩), rfl⟩⟩
  rename_i room
  obtain ⟨next, stored⟩ : ∃ next, Store.write base64 0 (eceBase64urlEncode binary ++ List.replicate padLen trailingChar) =
      some next := ⟨_, Store.write_inside base64 0 _ (by omega)⟩
  have through := Store.write_through base64 _ 0 _ stored
  rw [Nat.zero_add, List.take_zero, List.nil_append, written] at through
  rw [stored]
  refine ⟨_, _, rfl, .inr ⟨?_, rfl, fun _ => through⟩⟩
  rintro (empty | long | ⟨_, short⟩)
  · exact present empty
  · exact counts long
  · exact room short

theorem trailing_pad (base64 : Bytes) (plain : trailingChar ∉ base64) (padLen : Nat) (few : padLen ≤ 2) :
    (if (base64 ++ List.replicate padLen trailingChar).getLast? = some 61 then
      (if (base64 ++ List.replicate padLen trailingChar).dropLast.getLast? = some 61 then 2 else 1) else 0) = padLen := by
  have last : base64.getLast? ≠ some 61 := fun same => plain (List.mem_of_getLast? same)
  obtain rfl | rfl | rfl : padLen = 0 ∨ padLen = 1 ∨ padLen = 2 := by omega
  · simp [last]
  · simp [last, trailingChar]
  · simp [trailingChar, List.replicate]

theorem decode_into_text (base64 text : Bytes) (paddingPolicy : DecodePolicy) (present : base64 ≠ [])
    (padded : eceBase64urlDecodePadLength base64 paddingPolicy ≠ 3)
    (cut : base64.take (base64.length - eceBase64urlDecodePadLength base64 paddingPolicy) = text) (bytes : Bytes)
    (decoded : eceBase64urlDecodeQuanta text = some bytes) (buffer : Bytes) (some_ : bytes ≠ [])
    (room : bytes.length ≤ buffer.length) :
    ∃ next, eceBase64urlDecodeInto base64 paddingPolicy buffer = some (bytes.length, next) ∧ next.take bytes.length = bytes := by
  have size : bytes.length = eceBase64urlBinaryLength text.length := by
    rw [decode_quanta] at decoded
    rw [Radix64.decode_length urlValue text bytes decoded,
      binary_length text.length ((Radix64.decode_some_iff urlValue text).mp ⟨bytes, decoded⟩).1]
  have counted : 0 < bytes.length := List.length_pos_iff.mpr some_
  have dangling : text.length % 4 ≠ 1 := by
    rw [decode_quanta] at decoded
    exact ((Radix64.decode_some_iff urlValue text).mp ⟨bytes, decoded⟩).1
  have inside : 0 + text.length * 3 / 4 ≤ buffer.length := by
    rw [← binary_length text.length dangling, ← size, Nat.zero_add]
    exact room
  obtain ⟨next, written, stored⟩ := (store_decoded text 0 buffer inside).1 bytes decoded
  have through := Store.write_through buffer next 0 bytes written
  rw [Nat.zero_add, List.take_zero, List.nil_append] at through
  refine ⟨next, ?_, through⟩
  rw [eceBase64urlDecodeInto, if_neg present]
  dsimp only
  rw [if_neg padded, cut, ← size, if_neg (by omega), if_neg (by omega), stored]

-- A decoder that refuses a text leaves the buffer to be thrown away.
theorem decode_into_nothing (base64 : Bytes) (paddingPolicy : DecodePolicy) (buffer : Bytes) (whole : base64.length % 4 = 0)
    (none_ : eceBase64urlDecodeQuanta (base64.take (base64.length - eceBase64urlDecodePadLength base64 paddingPolicy)) = none)
    (present : buffer ≠ []) :
    ∃ next, eceBase64urlDecodeInto base64 paddingPolicy buffer = some (0, next) := by
  cases returned : eceBase64urlDecodeInto base64 paddingPolicy buffer with
  | none =>
      obtain ⟨_, single, _⟩ := (decode_into_overruns base64 paddingPolicy buffer).mp returned
      omega
  | some pair =>
      obtain ⟨result, next⟩ := pair
      have refines := decode_into_refines base64 paddingPolicy buffer next result returned
      have counted : buffer.length ≠ 0 := fun same => present (List.eq_nil_of_length_eq_zero same)
      rw [eceBase64urlDecode] at refines
      dsimp only at refines
      rw [none_, if_neg counted] at refines
      split_ifs at refines
      all_goals
        obtain ⟨rfl, _⟩ := Prod.mk.inj refines
        exact ⟨next, rfl⟩

theorem padded_text_length (binary : Bytes) (paddingPolicy : EncodePolicy) :
    (paddedText binary paddingPolicy).length % 4 =
      if paddingPolicy = .includePadding ∨ binary.length % 3 = 0 then 0 else binary.length % 3 + 1 := by
  rw [paddedText, List.length_append, url_encode_length, List.length_replicate, encoded_length]
  have shape : binary.length % 3 = 0 ∨ binary.length % 3 = 1 ∨ binary.length % 3 = 2 := by omega
  rcases shape with left | left | left
  all_goals
    cases paddingPolicy <;> simp [left] <;> omega

theorem pad_length_trailing (base64 : Bytes) (padLen : Nat) (few : padLen ≤ 2) (plain : trailingChar ∉ base64)
    (whole : (base64 ++ List.replicate padLen trailingChar).length % 4 = 0) (paddingPolicy : DecodePolicy)
    (accepted : paddingPolicy ≠ .rejectPadding) :
    eceBase64urlDecodePadLength (base64 ++ List.replicate padLen trailingChar) paddingPolicy = padLen := by
  have trailing := trailing_pad base64 plain padLen few
  cases paddingPolicy with
  | requirePadding => simpa only [eceBase64urlDecodePadLength, whole, ne_eq, not_true_eq_false, if_false] using trailing
  | ignorePadding => simpa only [eceBase64urlDecodePadLength, whole, if_true] using trailing
  | rejectPadding => exact absurd rfl accepted

-- A decoder under an agreeing policy cuts off what the encoder appended.
theorem padded_text_cut (binary : Bytes) (encodePolicy : EncodePolicy) (decodePolicy : DecodePolicy)
    (agrees : Agrees encodePolicy decodePolicy binary.length) :
    eceBase64urlDecodePadLength (paddedText binary encodePolicy) decodePolicy =
      if encodePolicy = .includePadding then (3 - binary.length % 3) % 3 else 0 := by
  have shape := padded_text_length binary encodePolicy
  by_cases whole : encodePolicy = .includePadding ∨ binary.length % 3 = 0
  · rw [if_pos whole] at shape
    by_cases rejected : decodePolicy = .rejectPadding
    · have left : encodePolicy = .includePadding → binary.length % 3 = 0 := by
        rintro rfl
        rw [rejected] at agrees
        exact agrees
      rw [rejected, eceBase64urlDecodePadLength]
      split
      · rename_i included
        rw [left included]
      · rfl
    · refine pad_length_trailing _ _ ?_ (url_encode_plain binary) shape decodePolicy rejected
      split <;> omega
  · obtain ⟨excluded, left⟩ := not_or.mp whole
    rw [if_neg whole] at shape
    rw [pad_length_short _ decodePolicy (by omega), if_neg excluded]
    refine if_neg fun required => left ?_
    cases encodePolicy with
    | omitPadding =>
        rw [required] at agrees
        exact agrees
    | includePadding => exact absurd rfl excluded

theorem disagreed (encodePolicy : EncodePolicy) (decodePolicy : DecodePolicy) (binaryLen : Nat)
    (disagrees : ¬ Agrees encodePolicy decodePolicy binaryLen) :
    binaryLen % 3 ≠ 0 ∧ (encodePolicy = .omitPadding ∧ decodePolicy = .requirePadding ∨
      encodePolicy = .includePadding ∧ decodePolicy = .rejectPadding) := by
  cases encodePolicy <;> cases decodePolicy <;> simp_all [Agrees]

theorem padded_text_refused (binary : Bytes) (encodePolicy : EncodePolicy) (decodePolicy : DecodePolicy)
    (disagrees : ¬ Agrees encodePolicy decodePolicy binary.length) (buffer : Bytes) (present : buffer ≠ []) :
    ∃ last, eceBase64urlDecodeInto (paddedText binary encodePolicy) decodePolicy buffer = some (0, last) := by
  have shape := padded_text_length binary encodePolicy
  obtain ⟨left, ⟨rfl, rfl⟩ | ⟨rfl, rfl⟩⟩ := disagreed encodePolicy decodePolicy binary.length disagrees
  · refine ⟨buffer, ?_⟩
    rw [if_neg (by simpa using left)] at shape
    have refused : eceBase64urlDecodePadLength (paddedText binary .omitPadding) .requirePadding = 3 := by
      rw [pad_length_short _ _ (by omega), if_pos rfl]
    rw [eceBase64urlDecodeInto, refused]
    simp
  · rw [if_pos (.inl rfl)] at shape
    refine decode_into_nothing _ _ buffer shape ?_ present
    rw [eceBase64urlDecodePadLength, Nat.sub_zero, List.take_length]
    refine padding_unread _ (List.mem_append_right _ ?_)
    rw [if_pos rfl]
    exact List.mem_replicate.mpr ⟨by omega, rfl⟩

-- The encoder never leaves its buffer, and returns the length of the text, or zero where there is
-- none; what it writes, a decoder reads back, into a buffer of the length of the original, just
-- when the two policies agree.
theorem url_round_trip (target : Target) (binary : Bytes) (encodePolicy : EncodePolicy) (base64 : Bytes) :
    ∃ result next, eceBase64urlEncodeInto target binary encodePolicy base64 = some (result, next) ∧
      (result = 0 ↔ NoText target binary encodePolicy base64) ∧
      (result ≠ 0 → result = (paddedText binary encodePolicy).length ∧
        (base64 ≠ [] → ∀ decodePolicy buffer, binary.length ≤ buffer.length →
          ∃ last, eceBase64urlDecodeInto (next.take result) decodePolicy buffer =
              some (if Agrees encodePolicy decodePolicy binary.length then binary.length else 0, last) ∧
            (Agrees encodePolicy decodePolicy binary.length → last.take binary.length = binary))) := by
  obtain ⟨result, next, encoded, ⟨noText, rfl⟩ | ⟨hasText, length, text⟩⟩ := encode_into target binary encodePolicy base64
  · exact ⟨0, next, encoded, ⟨fun _ => noText, fun _ => rfl⟩, fun some_ => absurd rfl some_⟩
  have empty : binary ≠ [] := fun empty => hasText (.inl empty)
  have counted : 0 < binary.length := List.length_pos_iff.mpr empty
  have present : paddedText binary encodePolicy ≠ [] := by
    intro same
    have size := congrArg List.length same
    rw [paddedText, List.length_append, url_encode_length, List.length_nil] at size
    omega
  have positive : result ≠ 0 := by
    rw [length]
    exact Nat.ne_of_gt (List.length_pos_iff.mpr present)
  refine ⟨result, next, encoded, iff_of_false positive hasText, fun _ => ⟨length, fun buffered decodePolicy buffer room => ?_⟩⟩
  rw [text buffered]
  by_cases agrees : Agrees encodePolicy decodePolicy binary.length
  · rw [if_pos agrees]
    have pad := padded_text_cut binary encodePolicy decodePolicy agrees
    have cut : (paddedText binary encodePolicy).take ((paddedText binary encodePolicy).length -
        eceBase64urlDecodePadLength (paddedText binary encodePolicy) decodePolicy) = eceBase64urlEncode binary := by
      rw [pad, paddedText, List.length_append, List.length_replicate, Nat.add_sub_cancel, List.take_left]
    have padded : eceBase64urlDecodePadLength (paddedText binary encodePolicy) decodePolicy ≠ 3 := by
      rw [pad]
      split <;> omega
    obtain ⟨last, returned, read⟩ :=
      decode_into_text _ _ decodePolicy present padded cut binary (url_encode_decodes binary) buffer empty room
    exact ⟨last, returned, fun _ => read⟩
  · rw [if_neg agrees]
    have spare : buffer ≠ [] := List.length_pos_iff.mp (Nat.lt_of_lt_of_le counted room)
    obtain ⟨last, returned⟩ := padded_text_refused binary encodePolicy decodePolicy agrees buffer spare
    exact ⟨last, returned, fun same => absurd same agrees⟩

end PushReceiver
