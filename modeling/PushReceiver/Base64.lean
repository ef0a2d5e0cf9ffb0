import PushReceiver.Cpp
import PushReceiver.Library.Radix64

set_option autoImplicit false

namespace PushReceiver

def base64Chars (url : Bool) : Bytes :=
  if url then ascii "ABCDEFGHIJKLMNOPQRSTUVWXYZabcdefghijklmnopqrstuvwxyz0123456789-_"
  else ascii "ABCDEFGHIJKLMNOPQRSTUVWXYZabcdefghijklmnopqrstuvwxyz0123456789+/"

def base64Char (url : Bool) (index : Nat) : UInt8 := (base64Chars url).getD index 0

def trailingChar : UInt8 := 61

def posOfChar (chr : UInt8) : Except Exception Nat :=
  if 65 ≤ chr ∧ chr ≤ 90 then .ok (chr.toNat - 65)
  else if 97 ≤ chr ∧ chr ≤ 122 then .ok (chr.toNat - 97 + (90 - 65) + 1)
  else if 48 ≤ chr ∧ chr ≤ 57 then .ok (chr.toNat - 48 + (90 - 65) + (122 - 97) + 2)
  else if chr = 43 ∨ chr = 45 then .ok 62
  else if chr = 47 ∨ chr = 95 then .ok 63
  else .error (.runtimeError "Input is not valid base64-encoded data.")

def base64Encode (url : Bool) : Bytes → Bytes
  | [] => []
  | [a] =>
      [base64Char url ((a.toNat &&& 0xfc) >>> 2), base64Char url ((a.toNat &&& 0x03) <<< 4), trailingChar, trailingChar]
  | [a, b] =>
      [base64Char url ((a.toNat &&& 0xfc) >>> 2),
        base64Char url (((a.toNat &&& 0x03) <<< 4) + ((b.toNat &&& 0xf0) >>> 4)),
        base64Char url ((b.toNat &&& 0x0f) <<< 2), trailingChar]
  | a :: b :: c :: rest =>
      base64Char url ((a.toNat &&& 0xfc) >>> 2) ::
        base64Char url (((a.toNat &&& 0x03) <<< 4) + ((b.toNat &&& 0xf0) >>> 4)) ::
        base64Char url (((b.toNat &&& 0x0f) <<< 2) + ((c.toNat &&& 0xc0) >>> 6)) ::
        base64Char url (c.toNat &&& 0x3f) :: base64Encode url rest

def firstByte (pos0 pos1 : Nat) : UInt8 := UInt8.ofNat ((pos0 <<< 2) + ((pos1 &&& 0x30) >>> 4))

def secondByte (pos1 pos2 : Nat) : UInt8 := UInt8.ofNat (((pos1 &&& 0x0f) <<< 4) + ((pos2 &&& 0x3c) >>> 2))

def thirdByte (pos2 pos3 : Nat) : UInt8 := UInt8.ofNat (((pos2 &&& 0x03) <<< 6) + pos3)

-- The while loop of decode, one chunk at a time. The second character of a chunk is looked at
-- first; an equal sign in the third or fourth place hides the rest of its chunk.
def decodeChunks : Bytes → Except Exception Bytes
  | [] => .ok []
  | [_] => .error .outOfRange
  | [chr0, chr1] => do
      let pos1 ← posOfChar chr1
      let pos0 ← posOfChar chr0
      return [firstByte pos0 pos1]
  | [chr0, chr1, chr2] => do
      let pos1 ← posOfChar chr1
      let pos0 ← posOfChar chr0
      if chr2 = trailingChar then return [firstByte pos0 pos1]
      let pos2 ← posOfChar chr2
      return [firstByte pos0 pos1, secondByte pos1 pos2]
  | chr0 :: chr1 :: chr2 :: chr3 :: rest => do
      let pos1 ← posOfChar chr1
      let pos0 ← posOfChar chr0
      if chr2 = trailingChar then return firstByte pos0 pos1 :: (← decodeChunks rest)
      let pos2 ← posOfChar chr2
      if chr3 = trailingChar then return firstByte pos0 pos1 :: secondByte pos1 pos2 :: (← decodeChunks rest)
      let pos3 ← posOfChar chr3
      return firstByte pos0 pos1 :: secondByte pos1 pos2 :: thirdByte pos2 pos3 :: (← decodeChunks rest)

-- base64_decode with remove_linebreaks set.
def base64Decode (encoded : Bytes) : Except Exception Bytes := decodeChunks (encoded.filter (· ≠ 10))

def charValue (chr : UInt8) : Option Nat := (posOfChar chr).toOption

def base64Alphabet (url : Bool) : Radix64.Alphabet where
  symbol := base64Char url
  value := charValue
  value_symbol := by
    have table : ∀ group : Fin 64, charValue (base64Char url group.val) = some group.val := by
      cases url <;> decide +kernel
    exact fun group bound => table ⟨group, bound⟩

theorem char_bound (chr : UInt8) (position : Nat) (known : posOfChar chr = .ok position) : position < 64 := by
  have table : ∀ index : Fin 256, ∀ position ∈ charValue (UInt8.ofNat index.val), position < 64 := by decide +kernel
  have found := table ⟨chr.toNat, chr.toNat_lt⟩ position
  rw [UInt8.ofNat_toNat, charValue, known] at found
  exact found rfl

theorem group_bits (n : Fin 256) :
    (n.val &&& 0xfc) >>> 2 = n.val / 4 ∧ (n.val &&& 0x03) <<< 4 = n.val % 4 * 16 ∧ (n.val &&& 0xf0) >>> 4 = n.val / 16 ∧
      (n.val &&& 0x0f) <<< 2 = n.val % 16 * 4 ∧ (n.val &&& 0xc0) >>> 6 = n.val / 64 ∧ n.val &&& 0x3f = n.val % 64 := by
  revert n
  decide +kernel

theorem octet_bits (n : Fin 64) :
    n.val <<< 2 = n.val * 4 ∧ (n.val &&& 0x30) >>> 4 = n.val / 16 ∧ (n.val &&& 0x0f) <<< 4 = n.val % 16 * 16 ∧
      (n.val &&& 0x3c) >>> 2 = n.val / 4 ∧ (n.val &&& 0x03) <<< 6 = n.val % 4 * 64 := by
  revert n
  decide +kernel

theorem first_byte (pos0 pos1 : Nat) (bound0 : pos0 < 64) (bound1 : pos1 < 64) :
    firstByte pos0 pos1 = UInt8.ofNat (pos0 * 4 + pos1 / 16) := by
  obtain ⟨shifted, _⟩ := octet_bits ⟨pos0, bound0⟩
  obtain ⟨_, high, _⟩ := octet_bits ⟨pos1, bound1⟩
  rw [firstByte, shifted, high]

theorem second_byte (pos1 pos2 : Nat) (bound1 : pos1 < 64) (bound2 : pos2 < 64) :
    secondByte pos1 pos2 = UInt8.ofNat (pos1 % 16 * 16 + pos2 / 4) := by
  obtain ⟨_, _, low, _⟩ := octet_bits ⟨pos1, bound1⟩
  obtain ⟨_, _, _, high, _⟩ := octet_bits ⟨pos2, bound2⟩
  rw [secondByte, low, high]

theorem third_byte (pos2 pos3 : Nat) (bound2 : pos2 < 64) :
    thirdByte pos2 pos3 = UInt8.ofNat (pos2 % 4 * 64 + pos3) := by
  obtain ⟨_, _, _, _, low⟩ := octet_bits ⟨pos2, bound2⟩
  rw [thirdByte, low]

theorem base64_encode_refines (url : Bool) (bytes : Bytes) :
    base64Encode url bytes =
      (base64Alphabet url).encode bytes ++ List.replicate ((3 - bytes.length % 3) % 3) trailingChar := by
  induction bytes using base64Encode.induct with
  | case1 => rfl
  | case2 a =>
      obtain ⟨high, low, _⟩ := group_bits ⟨a.toNat, a.toNat_lt⟩
      simp only [base64Encode, high, low, Radix64.Alphabet.encode, Radix64.groups]
      rfl
  | case3 a b =>
      obtain ⟨high, low, _⟩ := group_bits ⟨a.toNat, a.toNat_lt⟩
      obtain ⟨_, _, middle, last, _⟩ := group_bits ⟨b.toNat, b.toNat_lt⟩
      simp only [base64Encode, high, low, middle, last, Radix64.Alphabet.encode, Radix64.groups]
      rfl
  | case4 a b c rest ih =>
      obtain ⟨high, low, _⟩ := group_bits ⟨a.toNat, a.toNat_lt⟩
      obtain ⟨_, _, middle, last, _⟩ := group_bits ⟨b.toNat, b.toNat_lt⟩
      obtain ⟨_, _, _, _, top, bottom⟩ := group_bits ⟨c.toNat, c.toNat_lt⟩
      have chunks : (a :: b :: c :: rest).length % 3 = rest.length % 3 := by
        simp only [List.length_cons]
        omega
      simp only [base64Encode, high, low, middle, last, top, bottom, ih, chunks, Radix64.Alphabet.encode, Radix64.groups]
      rfl

theorem to_option_bind {α β : Type} (result : Except Exception α) (next : α → Except Exception β) :
    (result >>= next).toOption = result.toOption.bind fun value => (next value).toOption := by
  cases result with
  | error exception => rfl
  | ok value => rfl

theorem value_bound (chr : UInt8) (position : Nat) (known : charValue chr = some position) : position < 64 := by
  cases found : posOfChar chr with
  | error exception =>
      rw [charValue, found] at known
      cases known
  | ok other =>
      rw [charValue, found] at known
      obtain rfl := Option.some.inj known
      exact char_bound chr other found

theorem char_value (chr : UInt8) : (posOfChar chr).toOption = charValue chr := rfl

-- A known character stands for a group of six bits.
theorem bind_value {β : Type} (chr : UInt8) (first second : Nat → Option β)
    (agree : ∀ position < 64, first position = second position) : (charValue chr).bind first = (charValue chr).bind second := by
  apply Option.bind_congr
  intro position known
  exact agree position (value_bound chr position known)

-- Without an equal sign the liberal decoder is the decoder of the alphabet, an exception a failure.
theorem decode_chunks_plain (text : Bytes) (plain : trailingChar ∉ text) :
    (decodeChunks text).toOption = Radix64.decode charValue text := by
  induction text using decodeChunks.induct with
  | case1 => rfl
  | case2 chr => rfl
  | case3 chr0 chr1 =>
      rw [Radix64.decode_pair]
      simp only [decodeChunks, to_option_bind, char_value]
      rw [Option.bind_comm]
      apply bind_value
      intro pos0 bound0
      apply bind_value
      intro pos1 bound1
      rw [first_byte pos0 pos1 bound0 bound1]
      rfl
  | case4 chr0 chr1 chr2 =>
      have kept : chr2 ≠ trailingChar := fun same => plain (by simp [same])
      rw [Radix64.decode_triple]
      simp only [decodeChunks, if_neg kept, to_option_bind, char_value]
      rw [Option.bind_comm]
      apply bind_value
      intro pos0 bound0
      apply bind_value
      intro pos1 bound1
      apply bind_value
      intro pos2 bound2
      rw [first_byte pos0 pos1 bound0 bound1, second_byte pos1 pos2 bound1 bound2]
      rfl
  | case5 chr0 chr1 chr2 chr3 rest ih =>
      have kept2 : chr2 ≠ trailingChar := fun same => plain (by simp [same])
      have kept3 : chr3 ≠ trailingChar := fun same => plain (by simp [same])
      have later := ih (fun member => plain (by simp [member]))
      rw [Radix64.decode_chunk, ← later]
      simp only [decodeChunks, if_neg kept2, if_neg kept3, to_option_bind, char_value]
      rw [Option.bind_comm]
      apply bind_value
      intro pos0 bound0
      apply bind_value
      intro pos1 bound1
      apply bind_value
      intro pos2 bound2
      apply bind_value
      intro pos3 bound3
      rw [first_byte pos0 pos1 bound0 bound1, second_byte pos1 pos2 bound1 bound2, third_byte pos2 pos3 bound2]
      cases (decodeChunks rest).toOption with
      | none => rfl
      | some bytes => rfl

theorem base64_symbol (url : Bool) (group : Nat) (bound : group < 64) :
    base64Char url group ≠ trailingChar ∧ base64Char url group ≠ 10 := by
  have table : ∀ group : Fin 64, base64Char url group.val ≠ trailingChar ∧ base64Char url group.val ≠ 10 := by
    cases url <;> decide +kernel
  exact table ⟨group, bound⟩

theorem encode_plain (url : Bool) (bytes : Bytes) :
    trailingChar ∉ (base64Alphabet url).encode bytes ∧ 10 ∉ (base64Alphabet url).encode bytes := by
  constructor
  · intro member
    obtain ⟨group, bound, same⟩ := Radix64.encode_symbols (base64Alphabet url) bytes _ member
    exact (base64_symbol url group bound).1 same.symm
  · intro member
    obtain ⟨group, bound, same⟩ := Radix64.encode_symbols (base64Alphabet url) bytes _ member
    exact (base64_symbol url group bound).2 same.symm

theorem except_ok {α : Type} (result : Except Exception α) (value : α) (ok : result.toOption = some value) :
    result = .ok value := by
  cases result with
  | error exception => cases ok
  | ok other => rw [Option.some.inj ok]

theorem base64_decode_plain (text : Bytes) (plain : trailingChar ∉ text) :
    (base64Decode text).toOption = Radix64.decode charValue (text.filter (· ≠ 10)) :=
  decode_chunks_plain _ fun member => plain (List.mem_filter.mp member).1

theorem base64_decode_stripped (url : Bool) (bytes : Bytes) :
    base64Decode ((base64Alphabet url).encode bytes) = .ok bytes := by
  obtain ⟨plain, oneLine⟩ := encode_plain url bytes
  have kept : ((base64Alphabet url).encode bytes).filter (· ≠ 10) = (base64Alphabet url).encode bytes :=
    List.filter_eq_self.mpr (each_differs _ 10 oneLine)
  apply except_ok
  rw [base64_decode_plain _ plain, kept]
  exact Radix64.decode_encode (base64Alphabet url) bytes

theorem decode_chunks_padded (text : Bytes) (whole : text.length % 4 ≠ 1) :
    decodeChunks (text ++ List.replicate ((4 - text.length % 4) % 4) trailingChar) = decodeChunks text := by
  induction text using decodeChunks.induct with
  | case1 => rfl
  | case2 chr => exact absurd rfl whole
  | case3 chr0 chr1 => rfl
  | case4 chr0 chr1 chr2 => rfl
  | case5 chr0 chr1 chr2 chr3 rest ih =>
      have shape : (chr0 :: chr1 :: chr2 :: chr3 :: rest).length % 4 = rest.length % 4 := by
        simp only [List.length_cons]
        omega
      rw [shape] at whole ⊢
      simp only [List.cons_append, decodeChunks, ih whole]

theorem base64_decode_encode (url : Bool) (bytes : Bytes) : base64Decode (base64Encode url bytes) = .ok bytes := by
  have length : ((base64Alphabet url).encode bytes).length = (bytes.length * 4 + 2) / 3 := Radix64.encode_length _ bytes
  have padding : (3 - bytes.length % 3) % 3 = (4 - ((base64Alphabet url).encode bytes).length % 4) % 4 := by
    rw [length]
    rcases (by omega : bytes.length % 3 = 0 ∨ bytes.length % 3 = 1 ∨ bytes.length % 3 = 2) with rest | rest | rest
    all_goals
      rw [rest]
      omega
  have oneLine : 10 ∉ List.replicate ((3 - bytes.length % 3) % 3) trailingChar := by
    intro member
    exact absurd (List.eq_of_mem_replicate member) (by decide)
  rw [← base64_decode_stripped url bytes, base64Decode, base64Decode, base64_encode_refines, List.filter_append,
    List.filter_eq_self.mpr (each_differs _ 10 oneLine), List.filter_eq_self.mpr (each_differs _ 10 (encode_plain url bytes).2),
    padding]
  exact decode_chunks_padded _ (by omega)

end PushReceiver
