import Mathlib.Data.List.Basic

set_option autoImplicit false

namespace Radix64

-- Three octets are four groups of six bits. A last chunk of one or two octets fills the low
-- bits of its last group with zeros, and needs no padding to be told from the others.
def groups : List UInt8 → List Nat
  | [] => []
  | [a] => [a.toNat / 4, a.toNat % 4 * 16]
  | [a, b] => [a.toNat / 4, a.toNat % 4 * 16 + b.toNat / 16, b.toNat % 16 * 4]
  | a :: b :: c :: rest =>
      a.toNat / 4 :: (a.toNat % 4 * 16 + b.toNat / 16) :: (b.toNat % 16 * 4 + c.toNat / 64) :: c.toNat % 64 :: groups rest

def octets : List Nat → List UInt8
  | [] => []
  | [_] => []
  | [p, q] => [UInt8.ofNat (p * 4 + q / 16)]
  | [p, q, r] => [UInt8.ofNat (p * 4 + q / 16), UInt8.ofNat (q % 16 * 16 + r / 4)]
  | p :: q :: r :: s :: rest =>
      UInt8.ofNat (p * 4 + q / 16) :: UInt8.ofNat (q % 16 * 16 + r / 4) :: UInt8.ofNat (r % 4 * 64 + s) :: octets rest

theorem octet_of (n : Nat) (octet : UInt8) (same : n = octet.toNat) : UInt8.ofNat n = octet := by
  rw [same, UInt8.ofNat_toNat]

theorem octets_groups (bytes : List UInt8) : octets (groups bytes) = bytes := by
  induction bytes using groups.induct with
  | case1 => rfl
  | case2 a =>
      have bound := a.toNat_lt
      simp only [groups, octets]
      rw [octet_of _ a (by omega)]
  | case3 a b =>
      have boundA := a.toNat_lt
      have boundB := b.toNat_lt
      simp only [groups, octets]
      rw [octet_of _ a (by omega), octet_of _ b (by omega)]
  | case4 a b c rest ih =>
      have boundA := a.toNat_lt
      have boundB := b.toNat_lt
      have boundC := c.toNat_lt
      simp only [groups, octets, ih]
      rw [octet_of _ a (by omega), octet_of _ b (by omega), octet_of _ c (by omega)]

theorem groups_bound (bytes : List UInt8) : ∀ group ∈ groups bytes, group < 64 := by
  induction bytes using groups.induct with
  | case1 => simp [groups]
  | case2 a =>
      have bound := a.toNat_lt
      intro group member
      simp only [groups, List.mem_cons, List.not_mem_nil, or_false] at member
      omega
  | case3 a b =>
      have boundA := a.toNat_lt
      have boundB := b.toNat_lt
      intro group member
      simp only [groups, List.mem_cons, List.not_mem_nil, or_false] at member
      omega
  | case4 a b c rest ih =>
      have boundA := a.toNat_lt
      have boundB := b.toNat_lt
      have boundC := c.toNat_lt
      intro group member
      simp only [groups, List.mem_cons] at member
      rcases member with first | second | third | fourth | later
      · omega
      · omega
      · omega
      · omega
      · exact ih group later

theorem groups_length (bytes : List UInt8) : (groups bytes).length = (bytes.length * 4 + 2) / 3 := by
  induction bytes using groups.induct with
  | case1 => rfl
  | case2 a => simp [groups]
  | case3 a b => simp [groups]
  | case4 a b c rest ih =>
      simp only [groups, List.length_cons, ih]
      omega

theorem octets_length (sextets : List Nat) : (octets sextets).length = sextets.length * 3 / 4 := by
  induction sextets using octets.induct with
  | case1 => rfl
  | case2 p => simp [octets]
  | case3 p q => simp [octets]
  | case4 p q r => simp [octets]
  | case5 p q r s rest ih =>
      simp only [octets, List.length_cons, ih]
      omega

def values (value : UInt8 → Option Nat) : List UInt8 → Option (List Nat)
  | [] => some []
  | symbol :: rest =>
      match value symbol, values value rest with
      | some group, some others => some (group :: others)
      | _, _ => none

-- A text of one symbol more than whole chunks is dangling: six bits make no octet.
def decode (value : UInt8 → Option Nat) (text : List UInt8) : Option (List UInt8) :=
  if text.length % 4 = 1 then none else (values value text).map octets

-- Several symbols may be read as one group, as a decoder does that is liberal about the two
-- standard alphabets.
structure Alphabet where
  symbol : Nat → UInt8
  value : UInt8 → Option Nat
  value_symbol : ∀ group < 64, value (symbol group) = some group

def Alphabet.encode (alphabet : Alphabet) (bytes : List UInt8) : List UInt8 := (groups bytes).map alphabet.symbol

variable (value : UInt8 → Option Nat)

theorem values_cons (symbol : UInt8) (rest : List UInt8) (group : Nat) (known : value symbol = some group) :
    values value (symbol :: rest) = (values value rest).map (group :: ·) := by
  rw [values, known]
  cases values value rest with
  | none => rfl
  | some others => rfl

theorem values_unknown (symbol : UInt8) (rest : List UInt8) (unknown : value symbol = none) :
    values value (symbol :: rest) = none := by
  rw [values, unknown]

theorem values_cons_some (symbol : UInt8) (rest : List UInt8) (sextets : List Nat) (read : values value (symbol :: rest) = some sextets) :
    ∃ group others, value symbol = some group ∧ values value rest = some others ∧ sextets = group :: others := by
  cases known : value symbol with
  | none =>
      rw [values_unknown value symbol rest known] at read
      cases read
  | some group =>
      rw [values_cons value symbol rest group known] at read
      obtain ⟨others, readRest, rfl⟩ := Option.map_eq_some_iff.mp read
      exact ⟨group, others, rfl, readRest, rfl⟩

theorem values_length (text : List UInt8) (sextets : List Nat) (read : values value text = some sextets) :
    sextets.length = text.length := by
  induction text generalizing sextets with
  | nil =>
      obtain rfl := Option.some.inj read
      rfl
  | cons symbol rest ih =>
      obtain ⟨group, others, _, readRest, rfl⟩ := values_cons_some value symbol rest sextets read
      rw [List.length_cons, List.length_cons, ih others readRest]

theorem values_some_iff (text : List UInt8) :
    (∃ sextets, values value text = some sextets) ↔ ∀ symbol ∈ text, ∃ group, value symbol = some group := by
  induction text with
  | nil => simp [values]
  | cons symbol rest ih =>
      cases known : value symbol with
      | none => simp [values_unknown value symbol rest known, known]
      | some group => simpa [values_cons value symbol rest group known, known] using ih

theorem decode_length (text bytes : List UInt8) (decoded : decode value text = some bytes) :
    bytes.length = text.length * 3 / 4 := by
  unfold decode at decoded
  split at decoded
  · cases decoded
  · obtain ⟨sextets, read, rfl⟩ := Option.map_eq_some_iff.mp decoded
    rw [octets_length, values_length value text sextets read]

theorem decode_pair (a b : UInt8) :
    decode value [a, b] = (value a).bind fun p => (value b).bind fun q => some [UInt8.ofNat (p * 4 + q / 16)] := by
  simp only [decode, values]
  cases value a <;> cases value b <;> rfl

theorem decode_triple (a b c : UInt8) :
    decode value [a, b, c] = (value a).bind fun p => (value b).bind fun q => (value c).bind fun r =>
      some [UInt8.ofNat (p * 4 + q / 16), UInt8.ofNat (q % 16 * 16 + r / 4)] := by
  simp only [decode, values]
  cases value a <;> cases value b <;> cases value c <;> rfl

theorem decode_chunk (a b c d : UInt8) (rest : List UInt8) :
    decode value (a :: b :: c :: d :: rest) = (value a).bind fun p => (value b).bind fun q =>
      (value c).bind fun r => (value d).bind fun s => (decode value rest).map fun bytes =>
        UInt8.ofNat (p * 4 + q / 16) :: UInt8.ofNat (q % 16 * 16 + r / 4) :: UInt8.ofNat (r % 4 * 64 + s) :: bytes := by
  have shape : (a :: b :: c :: d :: rest).length % 4 = rest.length % 4 := by
    simp only [List.length_cons]
    omega
  simp only [decode, shape, values]
  by_cases dangling : rest.length % 4 = 1
  · simp only [if_pos dangling]
    cases value a <;> cases value b <;> cases value c <;> cases value d <;> rfl
  · simp only [if_neg dangling]
    cases value a <;> cases value b <;> cases value c <;> cases value d <;> cases values value rest <;> rfl

theorem decode_first (a b c d : UInt8) (rest : List UInt8) :
    decode value (a :: b :: c :: d :: rest) =
      (decode value [a, b, c, d]).bind fun chunk => (decode value rest).map (chunk ++ ·) := by
  rw [decode_chunk, decode_chunk]
  cases value a <;> cases value b <;> cases value c <;> cases value d <;> rfl

theorem decode_some_iff (text : List UInt8) :
    (∃ bytes, decode value text = some bytes) ↔
      text.length % 4 ≠ 1 ∧ ∀ symbol ∈ text, ∃ group, value symbol = some group := by
  unfold decode
  split
  · rename_i dangling
    simp [dangling]
  · rename_i whole
    rw [← values_some_iff]
    simp [whole]

theorem values_extend (other : UInt8 → Option Nat) (extends_ : ∀ symbol group, value symbol = some group → other symbol = some group)
    (text : List UInt8) (sextets : List Nat) (read : values value text = some sextets) : values other text = some sextets := by
  induction text generalizing sextets with
  | nil => exact read
  | cons symbol rest ih =>
      obtain ⟨group, others, known, readRest, rfl⟩ := values_cons_some value symbol rest sextets read
      rw [values_cons other symbol rest group (extends_ symbol group known), ih others readRest]
      rfl

theorem decode_extend (other : UInt8 → Option Nat) (extends_ : ∀ symbol group, value symbol = some group → other symbol = some group)
    (text bytes : List UInt8) (decoded : decode value text = some bytes) : decode other text = some bytes := by
  unfold decode at decoded ⊢
  split at decoded
  · cases decoded
  · rename_i whole
    obtain ⟨sextets, read, rfl⟩ := Option.map_eq_some_iff.mp decoded
    rw [if_neg whole, values_extend value other extends_ text sextets read]
    rfl

variable (alphabet : Alphabet)

theorem values_symbols (sextets : List Nat) (bound : ∀ group ∈ sextets, group < 64) :
    values alphabet.value (sextets.map alphabet.symbol) = some sextets := by
  induction sextets with
  | nil => rfl
  | cons group rest ih =>
      have known := alphabet.value_symbol group (bound group List.mem_cons_self)
      rw [List.map_cons, values_cons alphabet.value _ _ group known,
        ih fun other member => bound other (List.mem_cons_of_mem group member)]
      rfl

theorem encode_length (bytes : List UInt8) : (alphabet.encode bytes).length = (bytes.length * 4 + 2) / 3 := by
  rw [Alphabet.encode, List.length_map, groups_length]

theorem encode_symbols (bytes : List UInt8) : ∀ symbol ∈ alphabet.encode bytes, ∃ group < 64, symbol = alphabet.symbol group := by
  intro symbol member
  obtain ⟨group, inside, rfl⟩ := List.mem_map.mp member
  exact ⟨group, groups_bound bytes group inside, rfl⟩

theorem decode_encode (bytes : List UInt8) : decode alphabet.value (alphabet.encode bytes) = some bytes := by
  have shape : ¬ (alphabet.encode bytes).length % 4 = 1 := by
    rw [encode_length]
    omega
  rw [decode, if_neg shape, Alphabet.encode, values_symbols alphabet _ (groups_bound bytes), Option.map_some, octets_groups]

-- The groups that octets fill: those behind the last octet hold zeros.
def Canonical : List Nat → Prop
  | [] => True
  | [_] => False
  | [p, q] => p < 64 ∧ q < 64 ∧ q % 16 = 0
  | [p, q, r] => p < 64 ∧ q < 64 ∧ r < 64 ∧ r % 4 = 0
  | p :: q :: r :: s :: rest => p < 64 ∧ q < 64 ∧ r < 64 ∧ s < 64 ∧ Canonical rest

theorem octet_value (n : Nat) (bound : n < 256) : (UInt8.ofNat n).toNat = n := UInt8.toNat_ofNat_of_lt' bound

theorem groups_octets (sextets : List Nat) (canonical : Canonical sextets) : groups (octets sextets) = sextets := by
  induction sextets using octets.induct with
  | case1 => rfl
  | case2 p => exact absurd canonical id
  | case3 p q =>
      obtain ⟨boundP, boundQ, zeros⟩ := canonical
      rw [octets, groups, octet_value _ (by omega), show (p * 4 + q / 16) / 4 = p by omega,
        show (p * 4 + q / 16) % 4 * 16 = q by omega]
  | case4 p q r =>
      obtain ⟨boundP, boundQ, boundR, zeros⟩ := canonical
      rw [octets, groups, octet_value _ (by omega), octet_value _ (by omega), show (p * 4 + q / 16) / 4 = p by omega,
        show (p * 4 + q / 16) % 4 * 16 + (q % 16 * 16 + r / 4) / 16 = q by omega,
        show (q % 16 * 16 + r / 4) % 16 * 4 = r by omega]
  | case5 p q r s rest ih =>
      obtain ⟨boundP, boundQ, boundR, boundS, others⟩ := canonical
      rw [octets, groups, ih others, octet_value _ (by omega), octet_value _ (by omega), octet_value _ (by omega),
        show (p * 4 + q / 16) / 4 = p by omega, show (p * 4 + q / 16) % 4 * 16 + (q % 16 * 16 + r / 4) / 16 = q by omega,
        show (q % 16 * 16 + r / 4) % 16 * 4 + (r % 4 * 64 + s) / 64 = r by omega, show (r % 4 * 64 + s) % 64 = s by omega]

theorem groups_canonical (bytes : List UInt8) : Canonical (groups bytes) := by
  induction bytes using groups.induct with
  | case1 => trivial
  | case2 a =>
      have bound := a.toNat_lt
      refine ⟨?_, ?_, ?_⟩ <;> omega
  | case3 a b =>
      have boundA := a.toNat_lt
      have boundB := b.toNat_lt
      refine ⟨?_, ?_, ?_, ?_⟩ <;> omega
  | case4 a b c rest ih =>
      have boundA := a.toNat_lt
      have boundB := b.toNat_lt
      have boundC := c.toNat_lt
      refine ⟨?_, ?_, ?_, ?_, ih⟩ <;> omega

-- One group short of whole chunks, the last one holds two zeros.
theorem canonical_short (sextets : List Nat) (short : sextets.length % 4 = 3) :
    Canonical sextets ↔ (∀ group ∈ sextets, group < 64) ∧ ∀ group, sextets.getLast? = some group → group % 4 = 0 := by
  induction sextets using octets.induct with
  | case1 => cases short
  | case2 p => cases short
  | case3 p q => cases short
  | case4 p q r => simp [Canonical, and_assoc]
  | case5 p q r s rest ih =>
      have shorter : rest.length % 4 = 3 := by
        simp only [List.length_cons] at short
        omega
      obtain ⟨first, others, rfl⟩ := List.exists_cons_of_ne_nil (fun empty : rest = [] => by rw [empty] at shorter; cases shorter)
      simp only [Canonical, ih shorter, List.forall_mem_cons, List.getLast?_cons_cons, and_assoc]

theorem groups_head (a : UInt8) (rest : List UInt8) : (groups (a :: rest)).head? = some (a.toNat / 4) := by
  cases rest with
  | nil => rfl
  | cons b rest =>
      cases rest with
      | nil => rfl
      | cons c rest => rfl

end Radix64
