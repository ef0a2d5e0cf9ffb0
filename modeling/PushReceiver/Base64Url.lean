import PushReceiver.Base64

set_option autoImplicit false

namespace PushReceiver

inductive DecodePolicy where
  | requirePadding
  | ignorePadding
  | rejectPadding
deriving DecidableEq, Repr

def eceBase64urlDecodeTable : List Nat := [
  64, 64, 64, 64, 64, 64, 64, 64, 64, 64, 64, 64, 64, 64, 64, 64, 64, 64, 64,
  64, 64, 64, 64, 64, 64, 64, 64, 64, 64, 64, 64, 64, 64, 64, 64, 64, 64, 64,
  64, 64, 64, 64, 64, 64, 64, 62, 64, 64, 52, 53, 54, 55, 56, 57, 58, 59, 60,
  61, 64, 64, 64, 64, 64, 64, 64, 0,  1,  2,  3,  4,  5,  6,  7,  8,  9,  10,
  11, 12, 13, 14, 15, 16, 17, 18, 19, 20, 21, 22, 23, 24, 25, 64, 64, 64, 64,
  63, 64, 26, 27, 28, 29, 30, 31, 32, 33, 34, 35, 36, 37, 38, 39, 40, 41, 42,
  43, 44, 45, 46, 47, 48, 49, 50, 51, 64, 64, 64, 64]

-- ECE_BASE64URL_INVALID_CHAR is 64, ECE_BASE64URL_INVALID_PADDING is 3.
def eceBase64urlDecodeByte (b : UInt8) : Nat := if 128 ≤ b then 64 else eceBase64urlDecodeTable.getD b.toNat 64

def eceBase64urlDecodePadLength (base64 : Bytes) (paddingPolicy : DecodePolicy) : Nat :=
  let trailing :=
    if base64.getLast? = some 61 then (if base64.dropLast.getLast? = some 61 then 2 else 1) else 0
  match paddingPolicy with
  | .requirePadding => if base64.length % 4 ≠ 0 then 3 else trailing
  | .ignorePadding => if base64.length % 4 = 0 then trailing else 0
  | .rejectPadding => 0

def eceBase64urlBinaryLength (base64Len : Nat) : Nat :=
  match base64Len % 4 with
  | 1 => 0
  | 2 => base64Len / 4 * 3 + 1
  | 3 => base64Len / 4 * 3 + 2
  | _ => base64Len / 4 * 3

-- The 24 bits of a quantum, or none when one of its characters is not in the table.
def eceBase64urlQuantum : Bytes → Nat → Option Nat
  | [], quantum => some quantum
  | chr :: rest, quantum =>
      let b := eceBase64urlDecodeByte chr
      if b = 64 then none else eceBase64urlQuantum rest ((quantum <<< 6) ||| b)

def eceBase64urlDecodeQuantum (base64 : Bytes) : Option Bytes :=
  match eceBase64urlQuantum base64 0 with
  | none => none
  | some quantum =>
      match base64.length with
      | 0 => some []
      | 2 => some [UInt8.ofNat ((quantum >>> 4) &&& 0xff)]
      | 3 => some [UInt8.ofNat ((quantum >>> 10) &&& 0xff), UInt8.ofNat ((quantum >>> 2) &&& 0xff)]
      | 4 =>
          some [UInt8.ofNat ((quantum >>> 16) &&& 0xff), UInt8.ofNat ((quantum >>> 8) &&& 0xff),
            UInt8.ofNat (quantum &&& 0xff)]
      | _ => none

def eceBase64urlDecodeQuanta : Bytes → Option Bytes
  | chr0 :: chr1 :: chr2 :: chr3 :: rest =>
      match eceBase64urlDecodeQuantum [chr0, chr1, chr2, chr3] with
      | none => none
      | some binary => (eceBase64urlDecodeQuanta rest).map (binary ++ ·)
  | rest => eceBase64urlDecodeQuantum rest

-- ece_base64url_decode: its result, zero for a failure, and what it writes to `binary`.
def eceBase64urlDecode (base64 : Bytes) (paddingPolicy : DecodePolicy) (binaryLen : Nat) : Nat × Bytes :=
  if base64 = [] then (0, [])
  else
    let padLen := eceBase64urlDecodePadLength base64 paddingPolicy
    if padLen = 3 then (0, [])
    else
      let base64 := base64.take (base64.length - padLen)
      let requiredBinaryLen := eceBase64urlBinaryLength base64.length
      if binaryLen = 0 then (requiredBinaryLen, [])
      else if binaryLen < requiredBinaryLen then (0, [])
      else
        match eceBase64urlDecodeQuanta base64 with
        | none => (0, [])
        | some binary => (requiredBinaryLen, binary)

def eceBase64urlEncodeTable : Bytes := ascii "ABCDEFGHIJKLMNOPQRSTUVWXYZabcdefghijklmnopqrstuvwxyz0123456789-_"

def eceBase64urlEncodeChar (bits : Nat) : UInt8 := eceBase64urlEncodeTable.getD (bits &&& 0x3f) 0

-- ece_base64url_encode with ECE_BASE64URL_OMIT_PADDING and an output buffer that is large enough.
def eceBase64urlEncode : Bytes → Bytes
  | [] => []
  | [a] =>
      let quantum := a.toNat
      [eceBase64urlEncodeChar (quantum >>> 2), eceBase64urlEncodeChar (quantum <<< 4)]
  | [a, b] =>
      let quantum := (a.toNat <<< 8) ||| b.toNat
      [eceBase64urlEncodeChar (quantum >>> 10), eceBase64urlEncodeChar (quantum >>> 4), eceBase64urlEncodeChar (quantum <<< 2)]
  | a :: b :: c :: rest =>
      let quantum := (((a.toNat <<< 8) ||| b.toNat) <<< 8) ||| c.toNat
      eceBase64urlEncodeChar (quantum >>> 18) :: eceBase64urlEncodeChar (quantum >>> 12) ::
        eceBase64urlEncodeChar (quantum >>> 6) :: eceBase64urlEncodeChar quantum :: eceBase64urlEncode rest

def urlValue (chr : UInt8) : Option Nat :=
  if eceBase64urlDecodeByte chr = 64 then none else some (eceBase64urlDecodeByte chr)

theorem url_value_bound (chr : UInt8) (group : Nat) (known : urlValue chr = some group) : group < 64 := by
  have table : ∀ index : Fin 256, ∀ group ∈ urlValue (UInt8.ofNat index.val), group < 64 := by decide +kernel
  have found := table ⟨chr.toNat, chr.toNat_lt⟩ group
  rw [UInt8.ofNat_toNat, known] at found
  exact found rfl

theorem url_value_char (chr : UInt8) (group : Nat) (known : urlValue chr = some group) : charValue chr = some group := by
  have table : ∀ index : Fin 256, ∀ group ∈ urlValue (UInt8.ofNat index.val),
      charValue (UInt8.ofNat index.val) = some group := by
    decide +kernel
  have found := table ⟨chr.toNat, chr.toNat_lt⟩ group
  rw [UInt8.ofNat_toNat, known] at found
  exact found rfl

def joined (sextets : List Nat) (quantum : Nat) : Nat := sextets.foldl (fun quantum group => quantum * 64 + group) quantum

theorem quantum_step (quantum group : Nat) (bound : group < 64) : (quantum <<< 6) ||| group = quantum * 64 + group := by
  rw [← Nat.shiftLeft_add_eq_or_of_lt bound, Nat.shiftLeft_eq]

theorem quantum_joined (base64 : Bytes) (quantum : Nat) :
    eceBase64urlQuantum base64 quantum = (Radix64.values urlValue base64).map fun sextets => joined sextets quantum := by
  induction base64 generalizing quantum with
  | nil => rfl
  | cons chr rest ih =>
      cases known : urlValue chr with
      | none =>
          have unknown : eceBase64urlDecodeByte chr = 64 := by
            by_contra valid
            rw [urlValue, if_neg valid] at known
            cases known
          rw [Radix64.values_unknown urlValue chr rest known]
          simp [eceBase64urlQuantum, unknown]
      | some group =>
          have bound := url_value_bound chr group known
          have valid : eceBase64urlDecodeByte chr ≠ 64 ∧ eceBase64urlDecodeByte chr = group := by
            by_cases unknown : eceBase64urlDecodeByte chr = 64
            · rw [urlValue, if_pos unknown] at known
              cases known
            · rw [urlValue, if_neg unknown] at known
              exact ⟨unknown, Option.some.inj known⟩
          rw [Radix64.values_cons urlValue chr rest group known]
          simp only [eceBase64urlQuantum]
          rw [if_neg valid.1, valid.2, quantum_step quantum group bound, ih, Option.map_map]
          rfl

theorem low_byte (n : Nat) : n &&& 0xff = n % 256 := Nat.and_two_pow_sub_one_eq_mod n 8

theorem quantum_pair (p q : Nat) (boundP : p < 64) (boundQ : q < 64) :
    (joined [p, q] 0 >>> 4) &&& 0xff = p * 4 + q / 16 := by
  simp only [joined, List.foldl, low_byte, Nat.shiftRight_eq_div_pow]
  omega

theorem quantum_triple (p q r : Nat) (boundP : p < 64) (boundQ : q < 64) (boundR : r < 64) :
    (joined [p, q, r] 0 >>> 10) &&& 0xff = p * 4 + q / 16 ∧ (joined [p, q, r] 0 >>> 2) &&& 0xff = q % 16 * 16 + r / 4 := by
  simp only [joined, List.foldl, low_byte, Nat.shiftRight_eq_div_pow]
  omega

theorem quantum_full (p q r s : Nat) (boundP : p < 64) (boundQ : q < 64) (boundR : r < 64) (boundS : s < 64) :
    (joined [p, q, r, s] 0 >>> 16) &&& 0xff = p * 4 + q / 16 ∧
      (joined [p, q, r, s] 0 >>> 8) &&& 0xff = q % 16 * 16 + r / 4 ∧ joined [p, q, r, s] 0 &&& 0xff = r % 4 * 64 + s := by
  simp only [joined, List.foldl, low_byte, Nat.shiftRight_eq_div_pow]
  omega

theorem values_bound (base64 : Bytes) (sextets : List Nat) (read : Radix64.values urlValue base64 = some sextets) :
    ∀ group ∈ sextets, group < 64 := by
  induction base64 generalizing sextets with
  | nil =>
      obtain rfl := Option.some.inj read
      simp
  | cons chr rest ih =>
      cases known : urlValue chr with
      | none =>
          rw [Radix64.values_unknown urlValue chr rest known] at read
          cases read
      | some group =>
          rw [Radix64.values_cons urlValue chr rest group known] at read
          obtain ⟨others, readRest, rfl⟩ := Option.map_eq_some_iff.mp read
          intro other member
          rcases List.mem_cons.mp member with rfl | later
          · exact url_value_bound chr other known
          · exact ih others readRest other later

theorem decode_quantum (base64 : Bytes) (short : base64.length ≤ 4) :
    eceBase64urlDecodeQuantum base64 = Radix64.decode urlValue base64 := by
  rw [eceBase64urlDecodeQuantum, quantum_joined, Radix64.decode]
  cases read : Radix64.values urlValue base64 with
  | none => simp
  | some sextets =>
      have bound := values_bound base64 sextets read
      rw [← Radix64.values_length urlValue base64 sextets read] at short ⊢
      fun_cases Radix64.octets sextets with
      | case1 => rfl
      | case2 p => rfl
      | case3 p q =>
          have first := quantum_pair p q (bound p (by simp)) (bound q (by simp))
          simp [Radix64.octets, first]
      | case4 p q r =>
          obtain ⟨first, second⟩ := quantum_triple p q r (bound p (by simp)) (bound q (by simp)) (bound r (by simp))
          simp [Radix64.octets, first, second]
      | case5 p q r s more =>
          obtain rfl : more = [] := by
            apply List.eq_nil_of_length_eq_zero
            simp only [List.length_cons] at short
            omega
          obtain ⟨first, second, third⟩ :=
            quantum_full p q r s (bound p (by simp)) (bound q (by simp)) (bound r (by simp)) (bound s (by simp))
          simp [Radix64.octets, first, second, third]

theorem decode_quanta (base64 : Bytes) : eceBase64urlDecodeQuanta base64 = Radix64.decode urlValue base64 := by
  induction base64 using eceBase64urlDecodeQuanta.induct with
  | case1 chr0 chr1 chr2 chr3 rest failed =>
      rw [eceBase64urlDecodeQuanta, failed, Radix64.decode_first, ← decode_quantum _ (by simp), failed]
      rfl
  | case2 chr0 chr1 chr2 chr3 rest binary decoded ih =>
      rw [eceBase64urlDecodeQuanta, decoded, Radix64.decode_first, ← decode_quantum _ (by simp), decoded, ← ih]
      rfl
  | case3 rest short =>
      have within : rest.length ≤ 4 := by
        match rest with
        | [] | [_] | [_, _] | [_, _, _] => simp
        | chr0 :: chr1 :: chr2 :: chr3 :: more => exact absurd rfl (short chr0 chr1 chr2 chr3 more)
      rw [eceBase64urlDecodeQuanta, decode_quantum rest within]
      exact short

theorem binary_length (base64Len : Nat) (whole : base64Len % 4 ≠ 1) : eceBase64urlBinaryLength base64Len = base64Len * 3 / 4 := by
  have shape : base64Len % 4 = 0 ∨ base64Len % 4 = 2 ∨ base64Len % 4 = 3 := by omega
  rcases shape with shape | shape | shape
  all_goals
    simp only [eceBase64urlBinaryLength, shape]
    omega

theorem plain_pad_length (base64 : Bytes) (plain : 61 ∉ base64) : eceBase64urlDecodePadLength base64 .ignorePadding = 0 := by
  have last : base64.getLast? ≠ some 61 := fun same => plain (List.mem_of_getLast? same)
  rw [eceBase64urlDecodePadLength, if_neg last]
  exact ite_self 0

theorem url_decode_full (base64 : Bytes) (plain : 61 ∉ base64) (binaryLen : Nat) (positive : 0 < binaryLen) (binary : Bytes)
    (full : eceBase64urlDecode base64 .ignorePadding binaryLen = (binaryLen, binary)) :
    Radix64.decode urlValue base64 = some binary ∧ binary.length = binaryLen := by
  have written : binaryLen ≠ 0 := Nat.ne_of_gt positive
  rw [eceBase64urlDecode, plain_pad_length base64 plain] at full
  simp only [Nat.sub_zero, List.take_length, if_neg written, decode_quanta] at full
  split at full
  · exact absurd (congrArg Prod.fst full).symm written
  · rw [if_neg (by decide)] at full
    split at full
    · exact absurd (congrArg Prod.fst full).symm written
    · cases decoded : Radix64.decode urlValue base64 with
      | none =>
          rw [decoded] at full
          exact absurd (congrArg Prod.fst full).symm written
      | some other =>
          rw [decoded] at full
          obtain ⟨required, rfl⟩ := Prod.mk.inj full
          have whole := ((Radix64.decode_some_iff urlValue base64).mp ⟨other, decoded⟩).1
          rw [binary_length base64.length whole] at required
          rw [Radix64.decode_length urlValue base64 other decoded, required]
          exact ⟨rfl, rfl⟩

theorem octet_step (quantum : Nat) (octet : UInt8) : (quantum <<< 8) ||| octet.toNat = quantum * 256 + octet.toNat := by
  rw [← Nat.shiftLeft_add_eq_or_of_lt octet.toNat_lt, Nat.shiftLeft_eq]

theorem encode_char (bits : Nat) : eceBase64urlEncodeChar bits = base64Char true (bits % 64) := by
  rw [eceBase64urlEncodeChar, show bits &&& 0x3f = bits % 64 from Nat.and_two_pow_sub_one_eq_mod bits 6]
  rfl

theorem url_encode_refines (binary : Bytes) : eceBase64urlEncode binary = (base64Alphabet true).encode binary := by
  induction binary using eceBase64urlEncode.induct with
  | case1 => rfl
  | case2 a =>
      have bound := a.toNat_lt
      have first : a.toNat >>> 2 % 64 = a.toNat / 4 := by
        rw [Nat.shiftRight_eq_div_pow]
        omega
      have second : a.toNat <<< 4 % 64 = a.toNat % 4 * 16 := by
        rw [Nat.shiftLeft_eq]
        omega
      simp only [eceBase64urlEncode, encode_char, first, second]
      rfl
  | case3 a b =>
      have boundA := a.toNat_lt
      have boundB := b.toNat_lt
      have first : (a.toNat * 256 + b.toNat) >>> 10 % 64 = a.toNat / 4 := by
        rw [Nat.shiftRight_eq_div_pow]
        omega
      have second : (a.toNat * 256 + b.toNat) >>> 4 % 64 = a.toNat % 4 * 16 + b.toNat / 16 := by
        rw [Nat.shiftRight_eq_div_pow]
        omega
      have third : (a.toNat * 256 + b.toNat) <<< 2 % 64 = b.toNat % 16 * 4 := by
        rw [Nat.shiftLeft_eq]
        omega
      simp only [eceBase64urlEncode, encode_char, octet_step, first, second, third]
      rfl
  | case4 a b c rest ih =>
      have boundA := a.toNat_lt
      have boundB := b.toNat_lt
      have boundC := c.toNat_lt
      have first : ((a.toNat * 256 + b.toNat) * 256 + c.toNat) >>> 18 % 64 = a.toNat / 4 := by
        rw [Nat.shiftRight_eq_div_pow]
        omega
      have second : ((a.toNat * 256 + b.toNat) * 256 + c.toNat) >>> 12 % 64 = a.toNat % 4 * 16 + b.toNat / 16 := by
        rw [Nat.shiftRight_eq_div_pow]
        omega
      have third : ((a.toNat * 256 + b.toNat) * 256 + c.toNat) >>> 6 % 64 = b.toNat % 16 * 4 + c.toNat / 64 := by
        rw [Nat.shiftRight_eq_div_pow]
        omega
      have fourth : ((a.toNat * 256 + b.toNat) * 256 + c.toNat) % 64 = c.toNat % 64 := by omega
      simp only [eceBase64urlEncode, encode_char, octet_step, first, second, third, fourth, ih]
      rfl

end PushReceiver
