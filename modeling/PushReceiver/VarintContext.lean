import PushReceiver.Framing

set_option autoImplicit false

namespace PushReceiver

variable {σ : Type}

def ProperPrefix (part whole : Bytes) : Prop := part <+: whole ∧ part ≠ whole

-- GotMessageSize over a buffer that starts with the encoded size takes that size and leaves the rest;
-- over a part of it, it notes how much it has and waits.
structure SizeWhole (target : Target) (handlers : Handlers σ) (size : UInt32) : Prop where
  waits : ∀ client : Client σ, ProperPrefix client.bytesReadFromServer (encodeVarint32 size) →
    gotMessageSize target handlers client =
      .returns { client with sizePacketSoFar := toInt (1 + client.bytesReadFromServer.length) }
  takes : ∀ (client : Client σ) (after : Bytes), client.bytesReadFromServer = encodeVarint32 size ++ after →
    gotMessageSize target handlers client =
      let taken := { client with
        messageSize := size, bytesReadFromServer := after, sizePacketSoFar := 0, state := .mcsProtoBytes }
      if 0 < size then .returns taken else gotMessageBytes handlers taken
  -- The loop as a whole: as long as the size is not there in full, it asks for more and enters nothing.
  reads : ∀ (client : Client σ) (lead : Bytes) (entries : List Dispatch) (app : σ), Opening client lead entries app →
    ∀ (tag : UInt8) (part : Bytes), ProperPrefix part (encodeVarint32 size) →
      ∃ next, fed target handlers (loopHead target client) (lead ++ tag :: part) = .receives next ∧
        next.state ≠ .mcsProtoBytes ∧ next.dispatched = entries

structure RoundTripsInContext (target : Target) (value : UInt32) : Prop where
  decoded : ∀ before after, decodeVarint32 target (before ++ encodeVarint32 value ++ after) before.length =
    some (value, (encodeVarint32 value).length)
  bounded : 1 ≤ (encodeVarint32 value).length ∧ (encodeVarint32 value).length ≤ 5
  minimal : IsLeast {groups | 1 ≤ groups ∧ value.toNat < 2 ^ (7 * groups)} (encodeVarint32 value).length
  refused : ∀ before part, ProperPrefix part (encodeVarint32 value) →
    decodeVarint32 target (before ++ part) before.length = none
  frames : ∀ {σ : Type} (handlers : Handlers σ), SizeWhole target handlers value

theorem decode_context (target : Target) (before bytes : Bytes) :
    decodeVarint32 target (before ++ bytes) before.length = decodeVarint32 target bytes 0 := by
  have same : (before ++ bytes).length ≤ before.length ↔ bytes.length ≤ 0 := by
    rw [List.length_append]
    omega
  rw [decodeVarint32, decodeVarint32, if_congr same rfl rfl, List.drop_left, List.drop_zero]

theorem encoded_least (value : UInt32) :
    IsLeast {groups | 1 ≤ groups ∧ value.toNat < 2 ^ (7 * groups)} (encodeVarint32 value).length := by
  have least := Leb128.encode_length_least value.toNat
  rw [← encode_varint_refines] at least
  simpa only [Nat.pow_mul] using least

theorem decode_encoded (target : Target) (value : UInt32) (after : Bytes) :
    decodeVarint32 target (encodeVarint32 value ++ after) 0 = some (value, (encodeVarint32 value).length) := by
  rw [decode_value target _ after (encoded_terminated value) (encoded_short value)]
  rw [encoded_value, UInt32.ofNat_toNat]

theorem proper_prefix_open (value : UInt32) (part : Bytes) (proper : ProperPrefix part (encodeVarint32 value)) :
    Leb128.Open part ∧ part.length ≤ 4 := by
  obtain ⟨isPrefix, differs⟩ := proper
  have shorter : part.length < (encodeVarint32 value).length :=
    Nat.lt_of_le_of_ne isPrefix.length_le fun same => differs (isPrefix.eq_of_length same)
  have opened := Leb128.terminated_proper_prefix_open _ (encoded_terminated value) part.length shorter
  rw [← List.prefix_iff_eq_take.mp isPrefix] at opened
  have short := encoded_short value
  exact ⟨opened, by omega⟩

-- Before its size prefix has begun the loop waits for the rest of the header.
theorem tag_waits (target : Target) (handlers : Handlers σ) (client : Client σ) (lead : Bytes) (entries : List Dispatch) (app : σ)
    (opening : Opening client lead entries app) (tag : UInt8) :
    ∃ next, fed target handlers (loopHead target client) (lead ++ [tag]) = .receives next ∧
      next.state ≠ .mcsProtoBytes ∧ next.dispatched = entries := by
  have room : 3 ≤ target.maxSize := Nat.le_trans (by decide) (max_size_lower target)
  rcases opening.expects with ⟨state, rfl⟩ | ⟨state, version, _, rfl⟩
  · have need := need_tag target client state
    refine ⟨_, fed_short target handlers client [tag] (by omega) (by simp [need, opening.buffer]), ?_, opening.dispatched⟩
    exact fun body => absurd (state.symm.trans body) (by decide)
  · have need := need_version target client state
    refine ⟨_, fed_short target handlers client [version, tag] (by omega) (by simp [need, opening.buffer]), ?_,
      opening.dispatched⟩
    exact fun body => absurd (state.symm.trans body) (by decide)

-- The size is looked at after every second byte; one that is still open then asks for two more.
theorem odd_size_waits (target : Target) (handlers : Handlers σ) (client : Client σ) (lead : Bytes) (entries : List Dispatch)
    (app : σ) (opening : Opening client lead entries app) (tag : UInt8) (part : Bytes) (opened : Leb128.Open part)
    (odd : part.length % 2 = 1) (bounded : part.length + 2 < 2147483648) :
    ∃ waiting, fed target handlers (loopHead target client) (lead ++ tag :: part) = loopHead target waiting ∧
      AtSize waiting tag part entries app ∧ target.toSize (calculateMinBytesNeeded waiting) = part.length + 2 := by
  obtain ⟨sizing, atSize, fedPart⟩ := fed_size target handlers client lead entries app opening tag (part.length / 2) part
    (by omega) (Leb128.open_take part opened _) (by omega)
  obtain ⟨waiting, returned, atWaiting, need⟩ := size_open target handlers sizing tag part entries app atSize opened bounded
  refine ⟨waiting, ?_, atWaiting, need⟩
  rw [fedPart, returned]
  rfl

theorem open_size_waits (target : Target) (handlers : Handlers σ) (client : Client σ) (lead : Bytes) (entries : List Dispatch)
    (app : σ) (opening : Opening client lead entries app) (tag : UInt8) (part : Bytes) (opened : Leb128.Open part)
    (bounded : part.length + 2 < 2147483648) :
    ∃ next, fed target handlers (loopHead target client) (lead ++ tag :: part) = .receives next ∧
      next.state ≠ .mcsProtoBytes ∧ next.dispatched = entries := by
  have room := max_size_lower target
  by_cases odd : part.length % 2 = 1
  · obtain ⟨waiting, isFed, atSize, need⟩ := odd_size_waits target handlers client lead entries app opening tag part opened odd
      bounded
    have asks := head_requests target waiting (by rw [need, atSize.buffer]; omega) (by omega)
    refine ⟨_, isFed.trans asks, ?_, atSize.dispatched⟩
    exact fun body => absurd (atSize.state.symm.trans body) (by decide)
  · rcases List.eq_nil_or_concat' part with rfl | ⟨front, byte, rfl⟩
    · exact tag_waits target handlers client lead entries app opening tag
    · have frontOpen : Leb128.Open front := fun other member => opened other (List.mem_append_left _ member)
      rw [List.length_append, List.length_singleton] at odd bounded
      obtain ⟨waiting, isFed, atSize, need⟩ := odd_size_waits target handlers client lead entries app opening tag front frontOpen
        (by omega) (by omega)
      have waits := fed_short target handlers waiting [byte] (by omega) (by rw [need, atSize.buffer]; simp)
      have split : lead ++ tag :: (front ++ [byte]) = lead ++ tag :: front ++ [byte] := by simp
      refine ⟨waiting.compute.append [byte], ?_, ?_, atSize.dispatched⟩
      · rw [split, fed_append, isFed, waits]
      · exact fun body => absurd (atSize.state.symm.trans body) (by decide)

theorem size_whole (target : Target) (handlers : Handlers σ) (size : UInt32) : SizeWhole target handlers size where
  waits client proper := by
    rw [gotMessageSize, decode_open target _ (proper_prefix_open size _ proper).1]
  takes client after buffer := by
    rw [gotMessageSize, buffer, decode_encoded]
    dsimp only
    rw [List.drop_left]
  reads client lead entries app opening tag part proper := by
    obtain ⟨opened, short⟩ := proper_prefix_open size part proper
    exact open_size_waits target handlers client lead entries app opening tag part opened (by omega)

theorem varint_round_trips (target : Target) (value : UInt32) : RoundTripsInContext target value where
  decoded before after := by
    rw [List.append_assoc, decode_context]
    exact decode_encoded target value after
  bounded := ⟨Leb128.terminated_nonempty _ (encoded_terminated value), encoded_short value⟩
  minimal := encoded_least value
  refused before part proper := by
    rw [decode_context]
    exact decode_open target part (proper_prefix_open value part proper).1
  frames handlers := size_whole target handlers value

end PushReceiver
