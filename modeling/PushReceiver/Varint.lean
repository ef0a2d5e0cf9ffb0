import PushReceiver.Cpp
import PushReceiver.Library.Leb128

set_option autoImplicit false

namespace PushReceiver

-- UtilFunction::_EncodeVarint32, the bytes appended to `encoded`.
def encodeVarint32 (value : UInt32) : Bytes :=
  if 0x80 ≤ value then ((value &&& 0x7F) ||| 0x80).toUInt8 :: encodeVarint32 (value >>> 7) else [value.toUInt8]
termination_by value.toNat
decreasing_by
  rename_i large
  have bound : 128 ≤ value.toNat := large
  simp only [UInt32.toNat_shiftRight, UInt32.reduceToNat, Nat.reduceMod, Nat.shiftRight_eq_div_pow]
  omega

-- The do-while loop of UtilFunction::_DecodeVarint32 on the bytes from `offset` on.
def decodeVarint32Loop (target : Target) : Bytes → UInt32 → UInt32 → Nat → Option (UInt32 × Nat)
  | [], _, _, _ => none
  | byte :: rest, result, shift, varintLen =>
      let result := result ||| target.shl (byte &&& 0x7F).toUInt32 shift
      if byte &&& 0x80 ≠ 0 then decodeVarint32Loop target rest result (shift + 7) (varintLen + 1)
      else some (result, varintLen + 1)

-- UtilFunction::_DecodeVarint32. None is a return of false, which leaves `value` as it was.
def decodeVarint32 (target : Target) (data : Bytes) (offset : Nat) : Option (UInt32 × Nat) :=
  if data.length ≤ offset then none else decodeVarint32Loop target (data.drop offset) 0 0 0

theorem low_group (byte : UInt8) : (byte &&& 0x7F).toNat = byte.toNat % 128 := by
  rw [UInt8.toNat_and]
  exact Nat.and_two_pow_sub_one_eq_mod byte.toNat 7

theorem continuation_bit (byte : UInt8) : byte &&& 0x80 ≠ 0 ↔ 128 ≤ byte.toNat := by
  have table : ∀ i : Fin 256, i.val &&& 128 = i.val / 128 * 128 := by decide +kernel
  have bit : (byte &&& 0x80).toNat = byte.toNat / 128 * 128 := by
    rw [UInt8.toNat_and]
    exact table ⟨byte.toNat, byte.toNat_lt⟩
  rw [ne_eq, ← UInt8.toNat_inj, bit]
  simp only [UInt8.reduceToNat]
  omega

-- OR-ing a shifted group onto an accumulator that is still below the shift adds the group's
-- value; bits above the accumulator's width are lost.
theorem accumulate_group (target : Target) (result group shift : UInt32) (defined : shift.toNat < 32)
    (low : result.toNat < 2 ^ shift.toNat) :
    (result ||| target.shl group shift).toNat = (result.toNat + group.toNat * 2 ^ shift.toNat) % 4294967296 := by
  have within : shift < 32 := UInt32.lt_iff_toNat_lt.mpr defined
  have power : 2 ^ (32 - shift.toNat) * 2 ^ shift.toNat = 4294967296 := by
    rw [← Nat.pow_add, Nat.sub_add_cancel (Nat.le_of_lt defined)]
  have shifted : (group <<< shift).toNat = 2 ^ shift.toNat * (group.toNat % 2 ^ (32 - shift.toNat)) := by
    rw [UInt32.toNat_shiftLeft, Nat.mod_eq_of_lt defined, Nat.shiftLeft_eq, Nat.mul_comm group.toNat,
      ← Nat.mul_mod_mul_left, Nat.mul_comm (2 ^ shift.toNat) (2 ^ (32 - shift.toNat)), power]
  rw [target.shl_defined _ _ within, UInt32.toNat_or, shifted, Nat.or_comm,
    ← Nat.two_pow_add_eq_or_of_lt low, ← Nat.mul_mod_mul_left, Nat.mul_comm (2 ^ shift.toNat) (2 ^ (32 - shift.toNat)),
    power, Nat.mul_comm (2 ^ shift.toNat) group.toNat]
  -- The accumulator fits below the shift, so it never carries into the group.
  have spare : group.toNat * 2 ^ shift.toNat % 4294967296 + result.toNat < 4294967296 := by
    have multiple : group.toNat * 2 ^ shift.toNat % 4294967296 =
        2 ^ shift.toNat * (group.toNat % 2 ^ (32 - shift.toNat)) := by
      rw [← Nat.mul_mod_mul_left, Nat.mul_comm (2 ^ shift.toNat) (2 ^ (32 - shift.toNat)), power,
        Nat.mul_comm (2 ^ shift.toNat) group.toNat]
    have small : group.toNat % 2 ^ (32 - shift.toNat) + 1 ≤ 2 ^ (32 - shift.toNat) :=
      Nat.mod_lt _ (Nat.two_pow_pos _)
    have scaled := Nat.mul_le_mul_left (2 ^ shift.toNat) small
    rw [Nat.mul_comm (2 ^ shift.toNat) (2 ^ (32 - shift.toNat)), power, Nat.mul_add, Nat.mul_one] at scaled
    omega
  omega

theorem decode_loop_open (target : Target) (bytes : Bytes) (result shift : UInt32) (varintLen : Nat)
    (opened : Leb128.Open bytes) : decodeVarint32Loop target bytes result shift varintLen = none := by
  induction bytes generalizing result shift varintLen with
  | nil => rfl
  | cons byte rest ih =>
      obtain ⟨more, restOpened⟩ := (Leb128.open_cons byte rest).mp opened
      simp only [decodeVarint32Loop, if_pos ((continuation_bit byte).mpr more)]
      exact ih _ _ _ restOpened

theorem decode_loop_terminated (target : Target) (pfx suffix : Bytes) (result shift : UInt32) (varintLen : Nat)
    (terminated : Leb128.Terminated pfx) :
    ∃ value, decodeVarint32Loop target (pfx ++ suffix) result shift varintLen = some (value, varintLen + pfx.length) := by
  induction pfx generalizing result shift varintLen with
  | nil => exact terminated.elim
  | cons byte rest ih =>
      by_cases more : 128 ≤ byte.toNat
      · obtain ⟨value, decoded⟩ := ih (result ||| target.shl (byte &&& 0x7F).toUInt32 shift) (shift + 7) (varintLen + 1)
          ((Leb128.terminated_cons byte rest more).mp terminated)
        refine ⟨value, ?_⟩
        simp only [List.cons_append, decodeVarint32Loop, if_pos ((continuation_bit byte).mpr more), decoded,
          List.length_cons, Option.some.injEq, Prod.mk.injEq, true_and]
        omega
      · have single : rest = [] := by simpa [Leb128.Terminated, Nat.lt_of_not_le more] using terminated
        have last : ¬ byte &&& 0x80 ≠ 0 := fun bit => more ((continuation_bit byte).mp bit)
        simp [decodeVarint32Loop, last, single]

-- Below the 32nd bit nothing is lost, and the accumulator stays below the next shift.
theorem accumulate_within (target : Target) (result group shift : UInt32) (low : result.toNat < 2 ^ shift.toNat)
    (small : group.toNat < 128) (room : shift.toNat + 7 ≤ 32) :
    (result ||| target.shl group shift).toNat = result.toNat + group.toNat * 2 ^ shift.toNat ∧
      (result ||| target.shl group shift).toNat < 2 ^ (shift.toNat + 7) := by
  have bound : group.toNat * 2 ^ shift.toNat + 2 ^ shift.toNat ≤ 2 ^ (shift.toNat + 7) := by
    have scaled := Nat.mul_le_mul_right (2 ^ shift.toNat) (Nat.succ_le_of_lt small)
    rw [Nat.succ_mul] at scaled
    rw [Nat.pow_add, Nat.mul_comm (2 ^ shift.toNat) (2 ^ 7)]
    exact scaled
  have wide : 2 ^ (shift.toNat + 7) ≤ 4294967296 := Nat.pow_le_pow_right (show 0 < 2 by decide) room
  rw [accumulate_group target result group shift (by omega) low, Nat.mod_eq_of_lt (by omega)]
  exact ⟨rfl, by omega⟩

-- Five groups stay within shifts that C++ defines; the accumulated value is the sum modulo 2^32.
theorem decode_loop_value (target : Target) (pfx suffix : Bytes) (result shift : UInt32) (varintLen : Nat)
    (terminated : Leb128.Terminated pfx) (low : result.toNat < 2 ^ shift.toNat)
    (defined : shift.toNat + 7 * pfx.length ≤ 35) :
    decodeVarint32Loop target (pfx ++ suffix) result shift varintLen =
      some (UInt32.ofNat (result.toNat + 2 ^ shift.toNat * Leb128.value pfx), varintLen + pfx.length) := by
  induction pfx generalizing result shift varintLen with
  | nil => exact terminated.elim
  | cons byte rest ih =>
      rw [List.length_cons] at defined
      have group : (byte &&& 0x7F).toUInt32.toNat = byte.toNat % 128 := by
        rw [UInt8.toNat_toUInt32, low_group]
      by_cases more : 128 ≤ byte.toNat
      · have restTerminated := (Leb128.terminated_cons byte rest more).mp terminated
        have restNonempty := Leb128.terminated_nonempty rest restTerminated
        have nextShift : (shift + 7).toNat = shift.toNat + 7 := by
          rw [UInt32.toNat_add]
          simp only [UInt32.reduceToNat]
          omega
        obtain ⟨exactSum, nextLow⟩ := accumulate_within target result (byte &&& 0x7F).toUInt32 shift low
          (by rw [group]; exact Nat.mod_lt _ (by decide)) (by omega)
        simp only [List.cons_append, decodeVarint32Loop, if_pos ((continuation_bit byte).mpr more)]
        rw [ih _ (shift + 7) (varintLen + 1) restTerminated (by rwa [nextShift]) (by omega), exactSum, nextShift, group]
        simp only [Leb128.value, List.length_cons, Option.some.injEq, Prod.mk.injEq]
        constructor
        · congr 1
          rw [Nat.pow_add]
          ring
        · omega
      · have single : rest = [] := by simpa [Leb128.Terminated, Nat.lt_of_not_le more] using terminated
        have last : ¬ byte &&& 0x80 ≠ 0 := fun bit => more ((continuation_bit byte).mp bit)
        have accumulated := accumulate_group target result (byte &&& 0x7F).toUInt32 shift (by omega) low
        rw [group] at accumulated
        simp only [single, List.cons_append, List.nil_append, decodeVarint32Loop, if_neg last, List.length_cons,
          List.length_nil, Option.some.injEq, Prod.mk.injEq, and_true, Leb128.value]
        apply UInt32.toNat_inj.mp
        rw [accumulated, UInt32.toNat_ofNat']
        congr 1
        ring

theorem decode_open (target : Target) (bytes : Bytes) (opened : Leb128.Open bytes) :
    decodeVarint32 target bytes 0 = none := by
  unfold decodeVarint32
  split
  · rfl
  · exact decode_loop_open target _ 0 0 0 opened

theorem decode_terminated (target : Target) (pfx suffix : Bytes) (terminated : Leb128.Terminated pfx) :
    ∃ value, decodeVarint32 target (pfx ++ suffix) 0 = some (value, pfx.length) := by
  have positive := Leb128.terminated_nonempty pfx terminated
  obtain ⟨value, decoded⟩ := decode_loop_terminated target pfx suffix 0 0 0 terminated
  refine ⟨value, ?_⟩
  rw [decodeVarint32, if_neg (by simp only [List.length_append]; omega)]
  simpa using decoded

theorem decode_value (target : Target) (pfx suffix : Bytes) (terminated : Leb128.Terminated pfx)
    (short : pfx.length ≤ 5) :
    decodeVarint32 target (pfx ++ suffix) 0 = some (UInt32.ofNat (Leb128.value pfx), pfx.length) := by
  have positive := Leb128.terminated_nonempty pfx terminated
  rw [decodeVarint32, if_neg (by simp only [List.length_append]; omega), List.drop_zero,
    decode_loop_value target pfx suffix 0 0 0 terminated (by decide) (by simp; omega)]
  simp

theorem encode_varint_refines (value : UInt32) : encodeVarint32 value = Leb128.encode value.toNat := by
  generalize measured : value.toNat = n
  induction n using Nat.strongRecOn generalizing value with
  | ind n ih =>
      rw [encodeVarint32, Leb128.encode]
      by_cases large : 0x80 ≤ value
      · have bound : 128 ≤ value.toNat := large
        have shifted : (value >>> 7).toNat = n / 128 := by
          rw [UInt32.toNat_shiftRight, measured]
          simp [Nat.shiftRight_eq_div_pow]
        have group : ((value &&& 0x7F) ||| 0x80).toUInt8 = UInt8.ofNat (n % 128 + 128) := by
          apply UInt8.toNat_inj.mp
          rw [UInt32.toNat_toUInt8, UInt32.toNat_or, UInt32.toNat_and, measured, UInt8.toNat_ofNat']
          have low : n &&& 127 = n % 128 := Nat.and_two_pow_sub_one_eq_mod n 7
          have bounded : n % 128 < 2 ^ 7 := Nat.mod_lt _ (by decide)
          have high : n % 128 ||| 128 = n % 128 + 128 := by
            rw [Nat.or_comm, Nat.add_comm]
            exact (Nat.two_pow_add_eq_or_of_lt bounded 1).symm
          simp only [UInt32.reduceToNat, low, high]
        rw [if_pos large, if_neg (by omega), group, ih (n / 128) (by omega) (value >>> 7) shifted]
      · have bound : ¬ 128 ≤ value.toNat := large
        rw [if_neg large, if_pos (by omega)]
        congr 1
        apply UInt8.toNat_inj.mp
        rw [UInt32.toNat_toUInt8, measured, UInt8.toNat_ofNat']

theorem encoded_terminated (value : UInt32) : Leb128.Terminated (encodeVarint32 value) := by
  rw [encode_varint_refines]
  exact Leb128.terminated_encode _

theorem encoded_short (value : UInt32) : (encodeVarint32 value).length ≤ 5 := by
  rw [encode_varint_refines]
  apply Leb128.encode_length_upper _ 4
  exact Nat.lt_trans value.toNat_lt (by decide)

theorem encoded_value (value : UInt32) : Leb128.value (encodeVarint32 value) = value.toNat := by
  rw [encode_varint_refines, Leb128.value_encode]

end PushReceiver
