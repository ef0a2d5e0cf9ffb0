import PushReceiver.Varint

set_option autoImplicit false

namespace PushReceiver

-- A call of UtilFunction::_DecodeVarint32: what it leaves in its reference parameters, the places it
-- has read and the amounts it has shifted by, in order.
structure DecodeRun where
  returned : Bool
  value : UInt32
  varintLen : Nat
  reads : List Nat
  shifts : List UInt32
deriving DecidableEq, Repr

def decodeRunLoop (target : Target) (data : Nat → UInt8) (dataSize : Nat) (value : UInt32) (offset : Nat)
    (result shift : UInt32) (varintLen : Nat) : DecodeRun :=
  if dataSize ≤ offset then ⟨false, value, varintLen, [], []⟩
  else
    let byte := data offset
    let result := result ||| target.shl (byte &&& 0x7F).toUInt32 shift
    let rest :=
      if byte &&& 0x80 ≠ 0 then decodeRunLoop target data dataSize value (offset + 1) result (shift + 7) (varintLen + 1)
      else ⟨true, result, varintLen + 1, [], []⟩
    { rest with reads := offset :: rest.reads, shifts := shift :: rest.shifts }
termination_by dataSize - offset

-- `data` is the memory behind the pointer; what lies beyond dataSize does not belong to the buffer.
def decodeRun (target : Target) (data : Nat → UInt8) (dataSize offset : Nat) (value : UInt32) (varintLen : Nat) : DecodeRun :=
  if dataSize ≤ offset then ⟨false, value, varintLen, [], []⟩
  else decodeRunLoop target data dataSize value offset 0 0 0

def bytesFrom (data : Nat → UInt8) (dataSize offset : Nat) : Bytes := ((List.range dataSize).map data).drop offset

-- The bytes start with a varint of at most five bytes whose value has 32 bits.
def StartsWithVarint32 (bytes pfx : Bytes) : Prop :=
  pfx <+: bytes ∧ Leb128.Terminated pfx ∧ pfx.length ≤ 5 ∧ Leb128.value pfx < 4294967296

structure DecodesExactly (target : Target) (data : Nat → UInt8) (dataSize offset : Nat) (value : UInt32) (varintLen : Nat) :
    Prop where
  accepts : (decodeRun target data dataSize offset value varintLen).returned = true ↔
    ∃ pfx, StartsWithVarint32 (bytesFrom data dataSize offset) pfx
  decoded : ∀ pfx, StartsWithVarint32 (bytesFrom data dataSize offset) pfx →
    (decodeRun target data dataSize offset value varintLen).value.toNat = Leb128.value pfx ∧
      (decodeRun target data dataSize offset value varintLen).varintLen = pfx.length
  refused : (decodeRun target data dataSize offset value varintLen).returned = false →
    (decodeRun target data dataSize offset value varintLen).value = value
  shifts : ∀ shift ∈ (decodeRun target data dataSize offset value varintLen).shifts, shift < 32
  reads : ∀ index ∈ (decodeRun target data dataSize offset value varintLen).reads, index < dataSize

-- No sixth byte follows five with the continuation bit, and a fifth byte that ends the varint has
-- only the four bits that are left of the 32.
structure Fits32 (bytes : Bytes) : Prop where
  sixth : Leb128.Open (bytes.take 5) → bytes.length ≤ 5
  fifth : Leb128.Open (bytes.take 4) → ∀ byte, bytes[4]? = some byte → byte.toNat < 16 ∨ 128 ≤ byte.toNat

theorem bytes_from_end (data : Nat → UInt8) (dataSize offset : Nat) (beyond : dataSize ≤ offset) :
    bytesFrom data dataSize offset = [] :=
  List.drop_eq_nil_of_le (by simpa using beyond)

theorem bytes_from_step (data : Nat → UInt8) (dataSize offset : Nat) (within : offset < dataSize) :
    bytesFrom data dataSize offset = data offset :: bytesFrom data dataSize (offset + 1) := by
  rw [bytesFrom, List.drop_eq_getElem_cons (by simpa using within)]
  simp [bytesFrom]

-- What the loop leaves, in terms of the function on the bytes it finds in the buffer.
structure LoopRun (target : Target) (bytes : Bytes) (value : UInt32) (offset : Nat) (result shift : UInt32) (varintLen : Nat)
    (run : DecodeRun) : Prop where
  decoded : decodeVarint32Loop target bytes result shift varintLen =
    if run.returned then some (run.value, run.varintLen) else none
  refused : run.returned = false → run.value = value
  reads : run.reads = (List.range (Leb128.scanned bytes)).map (offset + ·)
  shifts : run.shifts = (List.range (Leb128.scanned bytes)).map fun round => shift + 7 * UInt32.ofNat round

theorem range_step {α : Type} (rounds : Nat) (item : Nat → α) :
    (List.range (rounds + 1)).map item = item 0 :: (List.range rounds).map fun round => item (round + 1) := by
  rw [List.range_succ_eq_map, List.map_cons, List.map_map]
  rfl

theorem run_loop (target : Target) (data : Nat → UInt8) (dataSize : Nat) (value : UInt32) (offset : Nat)
    (result shift : UInt32) (varintLen : Nat) :
    LoopRun target (bytesFrom data dataSize offset) value offset result shift varintLen
      (decodeRunLoop target data dataSize value offset result shift varintLen) := by
  induction bytes : bytesFrom data dataSize offset generalizing offset result shift varintLen with
  | nil =>
      have beyond : dataSize ≤ offset := by
        by_contra within
        rw [bytes_from_step data dataSize offset (Nat.lt_of_not_le within)] at bytes
        cases bytes
      rw [decodeRunLoop, if_pos beyond]
      exact ⟨rfl, fun _ => rfl, rfl, rfl⟩
  | cons byte rest ih =>
      have within : ¬ dataSize ≤ offset := by
        intro beyond
        rw [bytes_from_end data dataSize offset beyond] at bytes
        cases bytes
      rw [bytes_from_step data dataSize offset (Nat.lt_of_not_le within)] at bytes
      obtain ⟨rfl, left⟩ := List.cons.inj bytes
      rw [decodeRunLoop, if_neg within]
      dsimp only
      by_cases more : data offset &&& 0x80 ≠ 0
      · obtain ⟨decoded, refused, reads, shifts⟩ := ih (offset + 1)
          (result ||| target.shl (data offset &&& 0x7F).toUInt32 shift) (shift + 7) (varintLen + 1) left
        have longer : Leb128.scanned (data offset :: rest) = Leb128.scanned rest + 1 :=
          if_neg (Nat.not_lt.mpr ((continuation_bit (data offset)).mp more))
        rw [if_pos more]
        refine ⟨?_, refused, ?_, ?_⟩
        · rw [decodeVarint32Loop, ← decoded]
          exact if_pos more
        · rw [longer, range_step, reads]
          simp [Nat.add_assoc, Nat.add_comm 1]
        · have next : ∀ round, shift + 7 + 7 * UInt32.ofNat round = shift + 7 * UInt32.ofNat (round + 1) := by
            intro round
            rw [UInt32.ofNat_add]
            grind
          rw [longer, range_step, shifts]
          simp [next]
      · have single : Leb128.scanned (data offset :: rest) = 1 :=
          if_pos (Nat.lt_of_not_le fun high => more ((continuation_bit (data offset)).mpr high))
        rw [if_neg more]
        refine ⟨?_, ?_, ?_, ?_⟩
        · rw [decodeVarint32Loop]
          exact if_neg more
        · intro refused
          cases refused
        · rw [single]
          simp
        · rw [single]
          simp

-- The two models of _DecodeVarint32 agree.
theorem decode_run (target : Target) (data : Nat → UInt8) (dataSize offset : Nat) (value : UInt32) (varintLen : Nat) :
    decodeVarint32 target ((List.range dataSize).map data) offset =
      if (decodeRun target data dataSize offset value varintLen).returned then
        some ((decodeRun target data dataSize offset value varintLen).value,
          (decodeRun target data dataSize offset value varintLen).varintLen)
      else none := by
  rw [decodeVarint32, decodeRun, List.length_map, List.length_range]
  by_cases beyond : dataSize ≤ offset
  · rw [if_pos beyond, if_pos beyond]
    rfl
  · rw [if_neg beyond, if_neg beyond]
    exact (run_loop target data dataSize value offset 0 0 0).decoded

theorem run_spec (target : Target) (data : Nat → UInt8) (dataSize offset : Nat) (value : UInt32) (varintLen : Nat) :
    LoopRun target (bytesFrom data dataSize offset) value offset 0 0 0
      (decodeRun target data dataSize offset value varintLen) := by
  rw [decodeRun]
  by_cases beyond : dataSize ≤ offset
  · rw [if_pos beyond, bytes_from_end data dataSize offset beyond]
    exact ⟨rfl, fun _ => rfl, rfl, rfl⟩
  · rw [if_neg beyond]
    exact run_loop target data dataSize value offset 0 0 0

theorem shifts_defined (rounds : Nat) :
    (∀ shift ∈ (List.range rounds).map (fun round => (0 : UInt32) + 7 * UInt32.ofNat round), shift < 32) ↔ rounds ≤ 5 := by
  constructor
  · intro defined
    by_contra more
    have sixth := defined ((0 : UInt32) + 7 * UInt32.ofNat 5)
      (List.mem_map.mpr ⟨5, List.mem_range.mpr (Nat.lt_of_not_le more), rfl⟩)
    exact absurd sixth (by decide)
  · intro few shift member
    obtain ⟨round, within, rfl⟩ := List.mem_map.mp member
    have table : ∀ i : Fin 5, (0 : UInt32) + 7 * UInt32.ofNat i.val < 32 := by decide
    exact table ⟨round, Nat.lt_of_lt_of_le (List.mem_range.mp within) few⟩

theorem starts_terminated (pfx suffix other : Bytes) (terminated : Leb128.Terminated pfx) :
    StartsWithVarint32 (pfx ++ suffix) other ↔ other = pfx ∧ pfx.length ≤ 5 ∧ Leb128.value pfx < 4294967296 := by
  constructor
  · rintro ⟨⟨rest, same⟩, otherTerminated, short, small⟩
    obtain rfl := Leb128.terminated_unique other rest pfx suffix same otherTerminated terminated
    exact ⟨rfl, short, small⟩
  · rintro ⟨rfl, short, small⟩
    exact ⟨List.prefix_append other suffix, terminated, short, small⟩

theorem starts_open (bytes pfx : Bytes) (opened : Leb128.Open bytes) : ¬ StartsWithVarint32 bytes pfx := by
  rintro ⟨⟨suffix, rfl⟩, terminated, _⟩
  exact Leb128.terminated_not_open pfx suffix terminated opened

theorem fits_open (bytes : Bytes) (opened : Leb128.Open bytes) : Fits32 bytes ↔ bytes.length ≤ 5 := by
  constructor
  · intro fits
    exact fits.sixth (Leb128.open_take bytes opened 5)
  · intro short
    refine ⟨fun _ => short, fun _ byte found => .inr ?_⟩
    exact opened byte (List.mem_of_getElem? found)

theorem terminated_take (pfx suffix : Bytes) (terminated : Leb128.Terminated pfx) (count : Nat) :
    Leb128.Open ((pfx ++ suffix).take count) ↔ count < pfx.length := by
  constructor
  · intro opened
    by_contra whole
    rw [List.take_append, List.take_of_length_le (Nat.le_of_not_lt whole)] at opened
    exact Leb128.terminated_not_open pfx _ terminated opened
  · intro short
    rw [List.take_append_of_le_length (Nat.le_of_lt short)]
    exact Leb128.terminated_proper_prefix_open pfx terminated count short

-- The fifth byte holds the bits from the 28th on.
theorem fifth_value (front : Bytes) (byte : UInt8) (four : front.length = 4) (last : byte.toNat < 128) :
    Leb128.value (front ++ [byte]) < 4294967296 ↔ byte.toNat < 16 := by
  have bound := Leb128.value_bound front
  rw [Leb128.value_append, four]
  rw [four] at bound
  simp only [Leb128.value]
  omega

theorem five_split (pfx : Bytes) (five : pfx.length = 5) : ∃ front byte, front.length = 4 ∧ pfx = front ++ [byte] := by
  have nonempty : pfx ≠ [] := List.ne_nil_of_length_eq_add_one five
  refine ⟨pfx.dropLast, pfx.getLast nonempty, ?_, (List.dropLast_append_getLast nonempty).symm⟩
  rw [List.length_dropLast, five]

theorem fits_terminated (pfx suffix : Bytes) (terminated : Leb128.Terminated pfx) :
    Fits32 (pfx ++ suffix) ↔ pfx.length ≤ 5 ∧ Leb128.value pfx < 4294967296 := by
  by_cases five : pfx.length = 5
  · obtain ⟨front, byte, four, rfl⟩ := five_split pfx five
    have last := Leb128.terminated_end front byte terminated
    have isFifth : (front ++ [byte] ++ suffix)[4]? = some byte := by
      rw [List.append_assoc, List.getElem?_append_right (Nat.le_of_eq four), four]
      rfl
    have opened := terminated_take (front ++ [byte]) suffix terminated
    rw [fifth_value front byte four last]
    constructor
    · intro fits
      refine ⟨Nat.le_of_eq five, ?_⟩
      rcases fits.fifth ((opened 4).mpr (by omega)) byte isFifth with small | more
      · exact small
      · exact absurd last (Nat.not_lt.mpr more)
    · rintro ⟨_, small⟩
      refine ⟨fun sixth => ?_, fun _ other found => .inl ?_⟩
      · exact absurd ((opened 5).mp sixth) (by omega)
      · rw [isFifth] at found
        rwa [← Option.some.inj found]
  · have opened := terminated_take pfx suffix terminated
    constructor
    · intro fits
      have short : pfx.length ≤ 5 := by
        by_contra more
        have within := fits.sixth ((opened 5).mpr (Nat.lt_of_not_le more))
        rw [List.length_append] at within
        omega
      refine ⟨short, Nat.lt_of_lt_of_le (Leb128.value_bound pfx) ?_⟩
      exact Nat.le_trans (Nat.pow_le_pow_right (by decide) (show pfx.length ≤ 4 by omega)) (by decide)
    · rintro ⟨short, _⟩
      refine ⟨fun sixth => ?_, fun fourth => ?_⟩
      · exact absurd ((opened 5).mp sixth) (by omega)
      · exact absurd ((opened 4).mp fourth) (by omega)

theorem loop_returned (target : Target) (bytes : Bytes) (value : UInt32) (offset : Nat) (result shift : UInt32) (varintLen : Nat)
    (run : DecodeRun) (spec : LoopRun target bytes value offset result shift varintLen run) :
    run.returned = (decodeVarint32Loop target bytes result shift varintLen).isSome := by
  rw [spec.decoded]
  cases run.returned with
  | true => rfl
  | false => rfl

theorem reads_within (target : Target) (data : Nat → UInt8) (dataSize offset : Nat) (value : UInt32) (varintLen : Nat) :
    ∀ index ∈ (decodeRun target data dataSize offset value varintLen).reads, index < dataSize := by
  obtain ⟨_, _, reads, _⟩ := run_spec target data dataSize offset value varintLen
  intro index member
  rw [reads] at member
  obtain ⟨round, early, rfl⟩ := List.mem_map.mp member
  have scanned := Leb128.scanned_within (bytesFrom data dataSize offset)
  have length : (bytesFrom data dataSize offset).length = dataSize - offset := by simp [bytesFrom]
  rw [List.mem_range] at early
  omega

-- Without a last byte the scan is refused, and exact unless it shifts too far.
theorem exactly_open (target : Target) (data : Nat → UInt8) (dataSize offset : Nat) (value : UInt32) (varintLen : Nat)
    (opened : Leb128.Open (bytesFrom data dataSize offset)) :
    DecodesExactly target data dataSize offset value varintLen ↔ (bytesFrom data dataSize offset).length ≤ 5 := by
  have isReturned := loop_returned target _ value offset 0 0 0 _ (run_spec target data dataSize offset value varintLen)
  obtain ⟨_, refused, _, shifts⟩ := run_spec target data dataSize offset value varintLen
  rw [decode_loop_open target _ 0 0 0 opened] at isReturned
  rw [Leb128.scanned_open _ opened] at shifts
  rw [← shifts_defined, ← shifts]
  constructor
  · exact DecodesExactly.shifts
  · intro defined
    have none := fun pfx => starts_open (bytesFrom data dataSize offset) pfx opened
    have accepts : (decodeRun target data dataSize offset value varintLen).returned = true ↔
        ∃ pfx, StartsWithVarint32 (bytesFrom data dataSize offset) pfx := by
      rw [isReturned]
      exact iff_of_false Bool.false_ne_true (not_exists.mpr none)
    have within := reads_within target data dataSize offset value varintLen
    exact ⟨accepts, fun pfx starts => absurd starts (none pfx), refused, defined, within⟩

theorem exactly_terminated (target : Target) (data : Nat → UInt8) (dataSize offset : Nat) (value : UInt32) (varintLen : Nat)
    (pfx suffix : Bytes) (bytes : bytesFrom data dataSize offset = pfx ++ suffix) (terminated : Leb128.Terminated pfx) :
    DecodesExactly target data dataSize offset value varintLen ↔ pfx.length ≤ 5 ∧ Leb128.value pfx < 4294967296 := by
  have isReturned := loop_returned target _ value offset 0 0 0 _ (run_spec target data dataSize offset value varintLen)
  obtain ⟨decoded, refused, _, shifts⟩ := run_spec target data dataSize offset value varintLen
  rw [bytes] at decoded shifts
  rw [Leb128.scanned_terminated pfx suffix terminated] at shifts
  have returned : (decodeRun target data dataSize offset value varintLen).returned = true := by
    obtain ⟨found, some⟩ := decode_loop_terminated target pfx suffix 0 0 0 terminated
    rw [isReturned, bytes, some]
    rfl
  have starts := fun other => starts_terminated pfx suffix other terminated
  constructor
  · intro exactly
    obtain ⟨other, found⟩ := exactly.accepts.mp returned
    rw [bytes] at found
    exact ((starts other).mp found).2
  · rintro ⟨short, small⟩
    have result := decode_loop_value target pfx suffix 0 0 0 terminated (by decide) (by simp; omega)
    rw [result, returned] at decoded
    obtain ⟨isValue, isLength⟩ := Prod.mk.inj (Option.some.inj decoded)
    refine ⟨?_, ?_, refused, ?_, reads_within target data dataSize offset value varintLen⟩
    · rw [bytes]
      exact iff_of_true returned ⟨pfx, (starts pfx).mpr ⟨rfl, short, small⟩⟩
    · intro other found
      rw [bytes] at found
      obtain ⟨rfl, _⟩ := (starts other).mp found
      rw [← isValue, ← isLength]
      simp [UInt32.toNat_ofNat', Nat.mod_eq_of_lt small]
    · rw [shifts]
      exact (shifts_defined pfx.length).mpr short

theorem decodes_exactly_iff (target : Target) (data : Nat → UInt8) (dataSize offset : Nat) (value : UInt32) (varintLen : Nat) :
    DecodesExactly target data dataSize offset value varintLen ↔ Fits32 (bytesFrom data dataSize offset) := by
  rcases Leb128.open_or_terminated (bytesFrom data dataSize offset) with opened | ⟨pfx, suffix, bytes, terminated⟩
  · rw [fits_open _ opened, exactly_open target data dataSize offset value varintLen opened]
  · rw [bytes, fits_terminated pfx suffix terminated,
      exactly_terminated target data dataSize offset value varintLen pfx suffix bytes terminated]

-- Five bytes that stand for 2^32, which 32 bits do not hold.
def overflowing : Nat → UInt8 := fun index => [0x80, 0x80, 0x80, 0x80, 0x10].getD index 0

theorem overflow_accepted :
    (decodeRun .x64 overflowing 5 0 7 0).returned = true ∧ (decodeRun .x64 overflowing 5 0 7 0).value = 0 ∧
      ¬ DecodesExactly .x64 overflowing 5 0 7 0 := by
  have decoded : decodeVarint32 .x64 ((List.range 5).map overflowing) 0 = some (0, 5) := by decide +kernel
  rw [decode_run .x64 overflowing 5 0 7 0] at decoded
  split at decoded
  · rename_i returned
    obtain ⟨isValue, _⟩ := Prod.mk.inj (Option.some.inj decoded)
    refine ⟨returned, isValue, fun exactly => ?_⟩
    obtain ⟨pfx, starts⟩ := exactly.accepts.mp returned
    have terminated : Leb128.Terminated [0x80, 0x80, 0x80, 0x80, 0x10] := by decide
    have whole : bytesFrom overflowing 5 0 = [0x80, 0x80, 0x80, 0x80, 0x10] ++ [] := by decide
    rw [whole, starts_terminated _ [] pfx terminated] at starts
    exact absurd starts.2.2 (by decide)
  · cases decoded

end PushReceiver
