import PushReceiver.Register

set_option autoImplicit false

namespace PushReceiver

theorem fid_encoded (first : UInt8) (rest : Bytes) :
    generateFirebaseFID (first :: rest) = (base64Alphabet true).encode (UInt8.ofNat (112 + first.toNat % 16) :: rest) := by
  unfold generateFirebaseFID
  dsimp only
  rw [base64_encode_refines, replace_all_append, replace_all_repeated, List.append_nil,
    replace_all_absent _ _ _ (encode_plain true _).1]

theorem url_char_iff (c : UInt8) : c ∈ base64Chars true ↔ ∃ group < 64, base64Char true group = c := by
  have size : (base64Chars true).length = 64 := by decide
  constructor
  · intro member
    obtain ⟨group, bound, same⟩ := List.mem_iff_getElem.mp member
    refine ⟨group, size ▸ bound, ?_⟩
    rw [base64Char, List.getD_eq_getElem?_getD, List.getElem?_eq_getElem bound, same]
    rfl
  · rintro ⟨group, bound, rfl⟩
    rw [base64Char, List.getD_eq_getElem?_getD, List.getElem?_eq_getElem (size ▸ bound)]
    exact List.getElem_mem _

theorem url_text (text : Bytes) (known : ∀ c ∈ text, c ∈ base64Chars true) :
    ∃ groups : List Nat, (∀ group ∈ groups, group < 64) ∧ text = groups.map (base64Char true) := by
  induction text with
  | nil => exact ⟨[], by simp, rfl⟩
  | cons c rest ih =>
      obtain ⟨here, others⟩ := List.forall_mem_cons.mp known
      obtain ⟨group, bound, rfl⟩ := (url_char_iff c).mp here
      obtain ⟨groups, bounds, rfl⟩ := ih others
      exact ⟨group :: groups, List.forall_mem_cons.mpr ⟨bound, bounds⟩, rfl⟩

theorem fid_first (group : Nat) (bound : group < 64) : base64Char true group ∈ ascii "cdef" ↔ 28 ≤ group ∧ group < 32 := by
  have table : ∀ group : Fin 64, base64Char true group.val ∈ ascii "cdef" ↔ 28 ≤ group.val ∧ group.val < 32 := by
    decide +kernel
  exact table ⟨group, bound⟩

theorem fid_last (group : Nat) (bound : group < 64) : base64Char true group ∈ ascii "AEIMQUYcgkosw048" ↔ group % 4 = 0 := by
  have table : ∀ group : Fin 64, base64Char true group.val ∈ ascii "AEIMQUYcgkosw048" ↔ group.val % 4 = 0 := by
    decide +kernel
  exact table ⟨group, bound⟩

-- The instance ids that can come out of seventeen random bytes, of which the first gives four bits.
theorem fid_generated_iff (text : Bytes) :
    (∃ random, random.length = 17 ∧ generateFirebaseFID random = text) ↔
      text.length = 23 ∧ (∀ c ∈ text, c ∈ base64Chars true) ∧ (∀ c, text.head? = some c → c ∈ ascii "cdef") ∧
        ∀ c, text.getLast? = some c → c ∈ ascii "AEIMQUYcgkosw048" := by
  constructor
  · rintro ⟨random, length, rfl⟩
    obtain ⟨first, rest, rfl⟩ := List.exists_cons_of_ne_nil (fun empty : random = [] => by rw [empty] at length; cases length)
    have mark : (UInt8.ofNat (112 + first.toNat % 16)).toNat = 112 + first.toNat % 16 := Radix64.octet_value _ (by omega)
    rw [fid_encoded, Radix64.Alphabet.encode]
    generalize UInt8.ofNat (112 + first.toNat % 16) = marked at mark ⊢
    have bounds := Radix64.groups_bound (marked :: rest)
    have groupsLength : (Radix64.groups (marked :: rest)).length = 23 := by
      rw [Radix64.groups_length]
      simp only [List.length_cons] at length ⊢
      omega
    have zeros := ((Radix64.canonical_short _ (by rw [groupsLength])).mp (Radix64.groups_canonical (marked :: rest))).2
    refine ⟨by rw [List.length_map, groupsLength], ?_, ?_, ?_⟩
    · intro c member
      obtain ⟨group, inside, rfl⟩ := List.mem_map.mp member
      exact (url_char_iff _).mpr ⟨group, bounds group inside, rfl⟩
    · intro c isHead
      rw [List.head?_map, Radix64.groups_head, Option.map_some] at isHead
      rw [← Option.some.inj isHead]
      exact (fid_first _ (by omega)).mpr (by omega)
    · intro c isLast
      rw [List.getLast?_map] at isLast
      obtain ⟨group, last, rfl⟩ := Option.map_eq_some_iff.mp isLast
      exact (fid_last group (bounds group (List.mem_of_getLast? last))).mpr (zeros group last)
  · rintro ⟨length, known, first, last⟩
    obtain ⟨groups, bounds, rfl⟩ := url_text text known
    rw [List.length_map] at length
    have canonical : Radix64.Canonical groups := (Radix64.canonical_short groups (by rw [length])).mpr ⟨bounds, fun group isLast =>
      (fid_last group (bounds group (List.mem_of_getLast? isLast))).mp
        (last _ (by rw [List.getLast?_map, isLast]; rfl))⟩
    have whole := Radix64.groups_octets groups canonical
    have size : (Radix64.octets groups).length = 17 := by rw [Radix64.octets_length, length]
    obtain ⟨octet, rest, isOctets⟩ := List.exists_cons_of_ne_nil
      (fun empty : Radix64.octets groups = [] => by rw [empty] at size; cases size)
    rw [isOctets] at whole size
    refine ⟨octet :: rest, size, ?_⟩
    have isHead : groups.head? = some (octet.toNat / 4) := by rw [← whole, Radix64.groups_head]
    have bound := octet.toNat_lt
    have marked := (fid_first (octet.toNat / 4) (by omega)).mp (first _ (by rw [List.head?_map, isHead]; rfl))
    have same : UInt8.ofNat (112 + octet.toNat % 16) = octet := Radix64.octet_of _ octet (by omega)
    rw [fid_encoded, same, Radix64.Alphabet.encode, whole]
    rfl

end PushReceiver
