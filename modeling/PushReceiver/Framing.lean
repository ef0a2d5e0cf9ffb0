import PushReceiver.Receiver

set_option autoImplicit false

namespace PushReceiver

variable {σ : Type}

-- A frame of the stream. Any varint of the body's length will do as its size prefix.
structure Frame where
  tag : UInt8
  sizePrefix : Bytes
  body : Bytes
  terminated : Leb128.Terminated sizePrefix
  short : sizePrefix.length ≤ 5
  declared : Leb128.value sizePrefix = body.length
  bounded : body.length < 2147483648

def Frame.wire (frame : Frame) : Bytes := frame.tag :: (frame.sizePrefix ++ frame.body)

def Frame.dispatch (frame : Frame) : Dispatch := ⟨frame.tag, UInt32.ofNat frame.body.length, frame.body⟩

-- The frame written with _EncodeVarint32, as SendLoginBuffer and SendHeartbeat write theirs.
def Frame.written (tag : UInt8) (body : Bytes) (bounded : body.length < 2147483648) : Frame where
  tag
  sizePrefix := encodeVarint32 (UInt32.ofNat body.length)
  body
  terminated := encoded_terminated _
  short := encoded_short _
  declared := by
    rw [encoded_value, UInt32.toNat_ofNat']
    omega
  bounded

-- The decoder reads a two or four byte prefix together with the byte after it.
def Frame.ReadsAhead (frame : Frame) : Prop := frame.sizePrefix.length % 2 = 0

instance (frame : Frame) : Decidable frame.ReadsAhead := inferInstanceAs (Decidable (frame.sizePrefix.length % 2 = 0))

-- What the handlers make of a sequence of frames, one after the other.
def Handlers.handleFrames (handlers : Handlers σ) : List (UInt8 × Bytes) → σ → Outcome σ
  | [], app => .returns app
  | (tag, body) :: rest, app =>
      match handlers.handle tag body app with
      | .returns next => handlers.handleFrames rest next
      | .throws exception next => .throws exception next

def fed (target : Target) (handlers : Handlers σ) (state : LoopState σ) (bytes : Bytes) : LoopState σ :=
  Reader.deliver (receiver target handlers) state (Reader.singles bytes)

def Accepted (version : UInt8) : Prop := 41 ≤ version.toNat ∨ version.toNat = 38

-- Where the loop stands between two requests: before a tag (with the version byte still ahead
-- of it on a fresh connection), inside a size prefix, or inside a body.
structure Opening (client : Client σ) (lead : Bytes) (entries : List Dispatch) (app : σ) : Prop where
  buffer : client.bytesReadFromServer = []
  dispatched : client.dispatched = entries
  app : client.app = app
  expects : (client.state = .mcsTagAndSize ∧ lead = []) ∨
    (client.state = .mcsVersionTagAndSize ∧ ∃ version, Accepted version ∧ lead = [version])

structure AtSize (client : Client σ) (tag : UInt8) (buffer : Bytes) (entries : List Dispatch) (app : σ) : Prop where
  state : client.state = .mcsSize
  messageTag : client.messageTag = tag
  buffer : client.bytesReadFromServer = buffer
  dispatched : client.dispatched = entries
  app : client.app = app

structure AtBody (client : Client σ) (tag : UInt8) (size : UInt32) (buffer : Bytes) (entries : List Dispatch) (app : σ) :
    Prop where
  state : client.state = .mcsProtoBytes
  messageTag : client.messageTag = tag
  messageSize : client.messageSize = size
  buffer : client.bytesReadFromServer = buffer
  dispatched : client.dispatched = entries
  app : client.app = app

theorem opening_fresh (app : σ) (version : UInt8) (accepted : Accepted version) :
    Opening (Client.fresh app) [version] [] app :=
  ⟨rfl, rfl, rfl, .inr ⟨rfl, version, accepted, rfl⟩⟩

theorem fed_append (target : Target) (handlers : Handlers σ) (state : LoopState σ) (left right : Bytes) :
    fed target handlers state (left ++ right) = fed target handlers (fed target handlers state left) right := by
  rw [fed, Reader.singles_append, Reader.deliver_append]
  rfl

theorem fed_spins (target : Target) (handlers : Handlers σ) (client : Client σ) (bytes : Bytes) :
    fed target handlers (.spins client) bytes = .spins client :=
  Reader.deliver_stopped (receiver target handlers) (Waiting target) (receiver_incremental target handlers)
    (.spins client) trivial rfl (Reader.singles bytes)

theorem fed_throws (target : Target) (handlers : Handlers σ) (exception : Exception) (client : Client σ) (bytes : Bytes) :
    fed target handlers (.throws exception client) bytes = .throws exception client :=
  Reader.deliver_stopped (receiver target handlers) (Waiting target) (receiver_incremental target handlers)
    (.throws exception client) trivial rfl (Reader.singles bytes)

theorem head_requests (target : Target) (client : Client σ)
    (short : client.bytesReadFromServer.length < target.toSize (calculateMinBytesNeeded client))
    (allocated : target.toSize (calculateMinBytesNeeded client) ≤ target.maxSize) :
    loopHead target client = .receives client.compute := by
  have request : requestLength target client.compute ≤ target.maxSize := Nat.le_trans (Nat.sub_le _ _) allocated
  rw [loopHead, if_neg (Nat.not_lt.mpr request)]
  exact if_pos short

theorem fed_within (target : Target) (handlers : Handlers σ) (client : Client σ) (chunk : Bytes)
    (waiting : loopHead target client = .receives client) (within : chunk.length ≤ requestLength target client) :
    fed target handlers (.receives client) chunk = (LoopState.receives client).resume target handlers (.bytes chunk) :=
  (Reader.absorb_singles (receiver target handlers) (Waiting target) (receiver_incremental target handlers)
    (.receives client) chunk waiting within).symm

-- A request answered in full, one byte at a time, hands the whole answer to ProcessData.
theorem fed_request (target : Target) (handlers : Handlers σ) (client : Client σ) (chunk : Bytes)
    (nonempty : chunk ≠ []) (allocated : target.toSize (calculateMinBytesNeeded client) ≤ target.maxSize)
    (full : client.bytesReadFromServer.length + chunk.length = target.toSize (calculateMinBytesNeeded client)) :
    fed target handlers (loopHead target client) chunk =
      proceed target (processData target handlers (client.compute.append chunk)) := by
  have positive : 0 < chunk.length := List.length_pos_iff.mpr nonempty
  have request : requestLength target client.compute = chunk.length := Nat.sub_eq_of_eq_add' full.symm
  have receives := head_requests target client (by omega) allocated
  have waiting := (head_receives target client client.compute receives).2.2.2
  rw [receives, fed_within target handlers client.compute chunk waiting (Nat.le_of_eq request.symm), LoopState.resume,
    received_full target handlers client.compute chunk positive (Nat.le_of_eq request)]

theorem fed_short (target : Target) (handlers : Handlers σ) (client : Client σ) (chunk : Bytes)
    (allocated : target.toSize (calculateMinBytesNeeded client) ≤ target.maxSize)
    (short : client.bytesReadFromServer.length + chunk.length < target.toSize (calculateMinBytesNeeded client)) :
    fed target handlers (loopHead target client) chunk = .receives (client.compute.append chunk) := by
  have request : chunk.length < requestLength target client.compute := Nat.lt_sub_of_add_lt (by rwa [Nat.add_comm] at short)
  have receives := head_requests target client (by omega) allocated
  have waiting := (head_receives target client client.compute receives).2.2.2
  rw [receives, fed_within target handlers client.compute chunk waiting (Nat.le_of_lt request)]
  exact resume_short target handlers client.compute chunk waiting request

theorem opening_tag (target : Target) (handlers : Handlers σ) (client : Client σ) (lead : Bytes)
    (entries : List Dispatch) (app : σ) (opening : Opening client lead entries app) (tag first : UInt8) :
    ∃ next, AtSize next tag [first] entries app ∧
      fed target handlers (loopHead target client) (lead ++ [tag, first]) =
        proceed target (gotMessageSize target handlers next) := by
  rcases opening.expects with ⟨state, noLead⟩ | ⟨state, version, accepted, isVersion⟩
  · have need := need_tag target client state
    have request := fed_request target handlers client [tag, first] (by simp)
      (by rw [need]; exact Nat.le_trans (by decide) (max_size_lower target)) (by rw [need, opening.buffer]; rfl)
    simp only [processData, Client.append, Client.compute, state, opening.buffer, gotMessageTag, List.nil_append] at request
    rw [noLead, List.nil_append, request]
    refine ⟨_, ?_, rfl⟩
    exact ⟨rfl, rfl, rfl, opening.dispatched, opening.app⟩
  · have need := need_version target client state
    have request := fed_request target handlers client [version, tag, first] (by simp)
      (by rw [need]; exact Nat.le_trans (by decide) (max_size_lower target)) (by rw [need, opening.buffer]; rfl)
    have passes : ¬ (version.toNat < kMCSVersion ∧ version.toNat ≠ 38) := by
      rintro ⟨below, other⟩
      rcases accepted with current | legacy
      · exact Nat.not_lt.mpr current below
      · exact other legacy
    simp only [processData, Client.append, Client.compute, state, opening.buffer, gotVersion, gotMessageTag,
      List.nil_append, if_neg passes] at request
    rw [isVersion, List.singleton_append, request]
    refine ⟨_, ?_, rfl⟩
    exact ⟨rfl, rfl, rfl, opening.dispatched, opening.app⟩

-- A prefix that is still open asks for one byte more than the prefix can be known to need.
theorem size_open (target : Target) (handlers : Handlers σ) (client : Client σ) (tag : UInt8) (front : Bytes)
    (entries : List Dispatch) (app : σ) (atSize : AtSize client tag front entries app) (opened : Leb128.Open front)
    (bounded : front.length + 2 < 2147483648) :
    ∃ next, gotMessageSize target handlers client = .returns next ∧ AtSize next tag front entries app ∧
      target.toSize (calculateMinBytesNeeded next) = front.length + 2 := by
  refine ⟨{ client with sizePacketSoFar := toInt (1 + client.bytesReadFromServer.length) }, ?_, ?_, ?_⟩
  · rw [gotMessageSize, atSize.buffer, decode_open target front opened]
  · exact ⟨atSize.state, atSize.messageTag, atSize.buffer, atSize.dispatched, atSize.app⟩
  · simp only [calculateMinBytesNeeded, atSize.state, atSize.buffer]
    rw [to_int_small _ (by omega) (by omega), to_size_small target _ (by omega) (by omega)]
    omega

theorem size_more (target : Target) (handlers : Handlers σ) (client : Client σ) (tag : UInt8) (front more : Bytes)
    (entries : List Dispatch) (app : σ) (atSize : AtSize client tag front entries app) (two : more.length = 2)
    (need : target.toSize (calculateMinBytesNeeded client) = front.length + 2)
    (bounded : front.length + 2 < 2147483648) :
    ∃ next, AtSize next tag (front ++ more) entries app ∧
      fed target handlers (loopHead target client) more = proceed target (gotMessageSize target handlers next) := by
  have nonempty : more ≠ [] := by
    rintro rfl
    cases two
  have request := fed_request target handlers client more nonempty
    (by rw [need]; exact Nat.le_trans (Nat.le_of_lt_succ bounded) (max_size_lower target))
    (by rw [need, atSize.buffer, two])
  simp only [processData, Client.append, Client.compute, atSize.state, atSize.buffer] at request
  refine ⟨_, ?_, request⟩
  exact ⟨rfl, atSize.messageTag, rfl, atSize.dispatched, atSize.app⟩

-- The prefix is decoded again from its first byte after every second byte.
theorem fed_size (target : Target) (handlers : Handlers σ) (client : Client σ) (lead : Bytes)
    (entries : List Dispatch) (app : σ) (opening : Opening client lead entries app) (tag : UInt8) (rounds : Nat)
    (bytes : Bytes) (odd : bytes.length = 2 * rounds + 1) (opened : Leb128.Open (bytes.take (2 * rounds - 1)))
    (bounded : bytes.length < 2147483648) :
    ∃ next, AtSize next tag bytes entries app ∧
      fed target handlers (loopHead target client) (lead ++ tag :: bytes) =
        proceed target (gotMessageSize target handlers next) := by
  induction rounds generalizing bytes with
  | zero =>
      obtain ⟨first, rfl⟩ := List.length_eq_one_iff.mp odd
      exact opening_tag target handlers client lead entries app opening tag first
  | succ rounds ih =>
      have frontLength : (bytes.take (2 * rounds + 1)).length = 2 * rounds + 1 := by
        rw [List.length_take]
        omega
      have moreLength : (bytes.drop (2 * rounds + 1)).length = 2 := by
        rw [List.length_drop]
        omega
      have frontOpen : Leb128.Open (bytes.take (2 * rounds + 1)) := by
        simpa only [Nat.mul_succ, Nat.add_succ_sub_one] using opened
      obtain ⟨before, atFront, fedFront⟩ := ih (bytes.take (2 * rounds + 1)) frontLength
        (Leb128.open_take _ frontOpen _) (by omega)
      obtain ⟨waiting, returned, atWaiting, need⟩ := size_open target handlers before tag _ entries app atFront frontOpen
        (by omega)
      obtain ⟨next, atNext, fedMore⟩ := size_more target handlers waiting tag _ (bytes.drop (2 * rounds + 1)) entries app
        atWaiting moreLength need (by omega)
      have joined : lead ++ tag :: bytes =
          lead ++ tag :: bytes.take (2 * rounds + 1) ++ bytes.drop (2 * rounds + 1) := by
        simp
      refine ⟨next, by simpa using atNext, ?_⟩
      rw [joined, fed_append, fedFront, returned]
      exact fedMore

-- GotMessageBytes is about to be called and makes this entry, whatever the handler does.
structure Entering (client : Client σ) (entry : Dispatch) (entries : List Dispatch) (app : σ) : Prop where
  messageTag : client.messageTag = entry.messageTag
  messageSize : client.messageSize = entry.messageSize
  bytes : client.bytesReadFromServer = entry.bytes
  dispatched : client.dispatched = entries
  app : client.app = app

theorem entering_returns (handlers : Handlers σ) (client : Client σ) (entry : Dispatch) (entries : List Dispatch)
    (app next : σ) (entering : Entering client entry entries app)
    (handled : handlers.handle entry.messageTag entry.bytes app = .returns next) :
    ∃ between, gotMessageBytes handlers client = .returns between ∧ Opening between [] (entries ++ [entry]) next := by
  rw [← entering.messageTag, ← entering.bytes, ← entering.app] at handled
  refine ⟨_, by simp only [gotMessageBytes, handled]; rfl, rfl, ?_, rfl, .inl ⟨rfl, rfl⟩⟩
  simp only [getNextMessage, Client.enter, entering.dispatched, entering.messageTag, entering.messageSize, entering.bytes]

theorem entering_throws (handlers : Handlers σ) (client : Client σ) (entry : Dispatch) (entries : List Dispatch)
    (app next : σ) (exception : Exception) (entering : Entering client entry entries app)
    (thrown : handlers.handle entry.messageTag entry.bytes app = .throws exception next) :
    ∃ stopped, gotMessageBytes handlers client = .throws exception stopped ∧ stopped.dispatched = entries ++ [entry] := by
  rw [← entering.messageTag, ← entering.bytes, ← entering.app] at thrown
  refine ⟨_, by simp only [gotMessageBytes, thrown]; rfl, ?_⟩
  simp only [Client.enter, entering.dispatched, entering.messageTag, entering.messageSize, entering.bytes]

theorem size_decoded (target : Target) (handlers : Handlers σ) (client : Client σ) (tag : UInt8) (pfx ahead : Bytes)
    (entries : List Dispatch) (app : σ) (atSize : AtSize client tag (pfx ++ ahead) entries app)
    (terminated : Leb128.Terminated pfx) (short : pfx.length ≤ 5) (positive : 0 < UInt32.ofNat (Leb128.value pfx)) :
    ∃ next, gotMessageSize target handlers client = .returns next ∧
      AtBody next tag (UInt32.ofNat (Leb128.value pfx)) ahead entries app := by
  simp only [gotMessageSize, atSize.buffer, decode_value target pfx ahead terminated short, if_pos positive,
    List.drop_left]
  exact ⟨_, rfl, rfl, atSize.messageTag, rfl, rfl, atSize.dispatched, atSize.app⟩

theorem size_decoded_empty (target : Target) (handlers : Handlers σ) (client : Client σ) (tag : UInt8)
    (pfx ahead : Bytes) (entries : List Dispatch) (app : σ) (atSize : AtSize client tag (pfx ++ ahead) entries app)
    (terminated : Leb128.Terminated pfx) (short : pfx.length ≤ 5) (empty : Leb128.value pfx = 0) :
    ∃ entering, gotMessageSize target handlers client = gotMessageBytes handlers entering ∧
      Entering entering ⟨tag, 0, ahead⟩ entries app := by
  have none : ¬ 0 < UInt32.ofNat (Leb128.value pfx) := by
    rw [empty]
    decide
  refine ⟨{ client with messageSize := 0, bytesReadFromServer := ahead, sizePacketSoFar := 0, state := .mcsProtoBytes },
    ?_, atSize.messageTag, rfl, rfl, atSize.dispatched, atSize.app⟩
  simp only [gotMessageSize, atSize.buffer, decode_value target pfx ahead terminated short, if_neg none, List.drop_left]
  rw [empty]
  rfl

theorem fed_body (target : Target) (handlers : Handlers σ) (client : Client σ) (tag : UInt8) (size : UInt32)
    (ahead rest : Bytes) (entries : List Dispatch) (app : σ) (atBody : AtBody client tag size ahead entries app)
    (nonempty : rest ≠ []) (full : ahead.length + rest.length = size.toNat) (bounded : size.toNat < 2147483648) :
    ∃ entering, fed target handlers (loopHead target client) rest = proceed target (gotMessageBytes handlers entering) ∧
      Entering entering ⟨tag, size, ahead ++ rest⟩ entries app := by
  have need : target.toSize (calculateMinBytesNeeded client) = size.toNat := by
    simp only [calculateMinBytesNeeded, atBody.state, atBody.messageSize]
    rw [to_int_small _ (by omega) (by omega), to_size_small target _ (by omega) (by omega), Int.toNat_natCast]
  have request := fed_request target handlers client rest nonempty
    (by rw [need]; exact Nat.le_trans (Nat.le_of_lt_succ bounded) (max_size_lower target))
    (by rw [need, atBody.buffer, full])
  simp only [processData, Client.append, Client.compute, atBody.state, atBody.buffer] at request
  exact ⟨_, request, atBody.messageTag, atBody.messageSize, rfl, atBody.dispatched, atBody.app⟩

theorem frame_size (frame : Frame) : (UInt32.ofNat frame.body.length).toNat = frame.body.length := by
  have bounded := frame.bounded
  rw [UInt32.toNat_ofNat']
  omega

theorem frame_size_positive (frame : Frame) (nonempty : 0 < frame.body.length) :
    0 < UInt32.ofNat (Leb128.value frame.sizePrefix) := by
  rw [frame.declared, UInt32.lt_iff_toNat_lt, frame_size]
  exact nonempty

theorem fed_prefix (target : Target) (handlers : Handlers σ) (client : Client σ) (lead : Bytes)
    (entries : List Dispatch) (app : σ) (opening : Opening client lead entries app) (frame : Frame) (ahead : Bytes)
    (odd : (frame.sizePrefix ++ ahead).length % 2 = 1) (single : ahead.length ≤ 1) :
    ∃ next, AtSize next frame.tag (frame.sizePrefix ++ ahead) entries app ∧
      fed target handlers (loopHead target client) (lead ++ frame.tag :: (frame.sizePrefix ++ ahead)) =
        proceed target (gotMessageSize target handlers next) := by
  have short := frame.short
  have nonempty := Leb128.terminated_nonempty frame.sizePrefix frame.terminated
  rw [List.length_append] at odd
  have opened : Leb128.Open ((frame.sizePrefix ++ ahead).take
      (2 * ((frame.sizePrefix.length + ahead.length) / 2) - 1)) := by
    rw [List.take_append_of_le_length (by omega)]
    exact Leb128.terminated_proper_prefix_open frame.sizePrefix frame.terminated _ (by omega)
  exact fed_size target handlers client lead entries app opening frame.tag
    ((frame.sizePrefix.length + ahead.length) / 2) (frame.sizePrefix ++ ahead)
    (by rw [List.length_append]; omega) opened (by rw [List.length_append]; omega)

theorem fed_frame_body (target : Target) (handlers : Handlers σ) (client : Client σ) (lead : Bytes)
    (entries : List Dispatch) (app : σ) (opening : Opening client lead entries app) (frame : Frame)
    (ahead rest : Bytes) (body : frame.body = ahead ++ rest) (nonempty : rest ≠ [])
    (odd : (frame.sizePrefix ++ ahead).length % 2 = 1) (single : ahead.length ≤ 1) :
    ∃ entering, fed target handlers (loopHead target client) (lead ++ frame.wire) =
        proceed target (gotMessageBytes handlers entering) ∧ Entering entering frame.dispatch entries app := by
  have restLength : 0 < rest.length := List.length_pos_iff.mpr nonempty
  have total_length : ahead.length + rest.length = frame.body.length := by rw [body, List.length_append]
  obtain ⟨sizing, atSize, fedPrefix⟩ := fed_prefix target handlers client lead entries app opening frame ahead odd single
  obtain ⟨loading, returned, atBody⟩ := size_decoded target handlers sizing frame.tag frame.sizePrefix ahead entries app
    atSize frame.terminated frame.short (frame_size_positive frame (by omega))
  rw [frame.declared] at atBody
  obtain ⟨entering, fedBody, atEntry⟩ := fed_body target handlers loading frame.tag _ ahead rest entries app atBody
    nonempty (by rw [frame_size, total_length]) (by rw [frame_size]; exact frame.bounded)
  refine ⟨entering, ?_, by simpa only [Frame.dispatch, body] using atEntry⟩
  have wire : lead ++ frame.wire = lead ++ frame.tag :: (frame.sizePrefix ++ ahead) ++ rest := by
    simp [Frame.wire, body]
  rw [wire, fed_append, fedPrefix, returned]
  exact fedBody

theorem fed_entering (target : Target) (handlers : Handlers σ) (client : Client σ) (lead : Bytes)
    (entries : List Dispatch) (app : σ) (opening : Opening client lead entries app) (frame : Frame)
    (inside : frame.ReadsAhead → 2 ≤ frame.body.length) :
    ∃ entering, fed target handlers (loopHead target client) (lead ++ frame.wire) =
        proceed target (gotMessageBytes handlers entering) ∧ Entering entering frame.dispatch entries app := by
  by_cases readsAhead : frame.ReadsAhead
  · have long := inside readsAhead
    cases body : frame.body with
    | nil => simp [body] at long
    | cons first rest =>
        have nonempty : rest ≠ [] := by
          rintro rfl
          simp [body] at long
        have odd : (frame.sizePrefix ++ [first]).length % 2 = 1 := by
          unfold Frame.ReadsAhead at readsAhead
          rw [List.length_append, List.length_singleton]
          omega
        exact fed_frame_body target handlers client lead entries app opening frame [first] rest
          (by rw [body]; rfl) nonempty odd (Nat.le_refl 1)
  · have odd : (frame.sizePrefix ++ []).length % 2 = 1 := by
      unfold Frame.ReadsAhead at readsAhead
      rw [List.append_nil]
      omega
    by_cases empty : frame.body = []
    · obtain ⟨sizing, atSize, fedPrefix⟩ := fed_prefix target handlers client lead entries app opening frame [] odd
        (Nat.zero_le 1)
      obtain ⟨entering, returned, atEntry⟩ := size_decoded_empty target handlers sizing frame.tag frame.sizePrefix []
        entries app atSize frame.terminated frame.short (by rw [frame.declared, empty]; rfl)
      refine ⟨entering, ?_, by simpa [Frame.dispatch, empty] using atEntry⟩
      have wire : frame.wire = frame.tag :: (frame.sizePrefix ++ []) := by rw [Frame.wire, empty]
      rw [wire, fedPrefix, returned]
    · exact fed_frame_body target handlers client lead entries app opening frame [] frame.body rfl empty odd
        (Nat.zero_le 1)

theorem fed_frame (target : Target) (handlers : Handlers σ) (client : Client σ) (lead : Bytes)
    (entries : List Dispatch) (app next : σ) (opening : Opening client lead entries app) (frame : Frame)
    (inside : frame.ReadsAhead → 2 ≤ frame.body.length)
    (handled : handlers.handle frame.tag frame.body app = .returns next) :
    ∃ between, fed target handlers (loopHead target client) (lead ++ frame.wire) = loopHead target between ∧
      Opening between [] (entries ++ [frame.dispatch]) next := by
  obtain ⟨entering, fedFrame, atEntry⟩ := fed_entering target handlers client lead entries app opening frame inside
  obtain ⟨between, returned, opened⟩ := entering_returns handlers entering frame.dispatch entries app next atEntry handled
  exact ⟨between, by rw [fedFrame, returned]; rfl, opened⟩

-- An exception leaves the loop behind the entry, and nothing is read any more.
theorem fed_frame_throws (target : Target) (handlers : Handlers σ) (client : Client σ) (lead : Bytes)
    (entries : List Dispatch) (app next : σ) (exception : Exception) (opening : Opening client lead entries app)
    (frame : Frame) (inside : frame.ReadsAhead → 2 ≤ frame.body.length)
    (thrown : handlers.handle frame.tag frame.body app = .throws exception next) (later : Bytes) :
    (fed target handlers (loopHead target client) (lead ++ frame.wire ++ later)).client.dispatched =
      entries ++ [frame.dispatch] := by
  obtain ⟨entering, fedFrame, atEntry⟩ := fed_entering target handlers client lead entries app opening frame inside
  obtain ⟨stopped, threw, made⟩ := entering_throws handlers entering frame.dispatch entries app next exception atEntry thrown
  rw [fed_append, fedFrame, threw, proceed, fed_throws]
  exact made

theorem fed_frames (target : Target) (handlers : Handlers σ) (client : Client σ) (lead : Bytes)
    (entries : List Dispatch) (app final : σ) (opening : Opening client lead entries app) (frames : List Frame)
    (nonempty : frames ≠ []) (inside : ∀ frame ∈ frames, frame.ReadsAhead → 2 ≤ frame.body.length)
    (handled : handlers.handleFrames (frames.map fun frame => (frame.tag, frame.body)) app = .returns final) :
    ∃ between, fed target handlers (loopHead target client) (lead ++ frames.flatMap Frame.wire) = loopHead target between ∧
      Opening between [] (entries ++ frames.map Frame.dispatch) final := by
  induction frames generalizing client lead entries app with
  | nil => exact absurd rfl nonempty
  | cons frame rest ih =>
      simp only [List.map_cons, Handlers.handleFrames] at handled
      cases first : handlers.handle frame.tag frame.body app with
      | throws exception next =>
          rw [first] at handled
          cases handled
      | returns next =>
          rw [first] at handled
          obtain ⟨here, fedFrame, opened⟩ := fed_frame target handlers client lead entries app next opening frame
            (inside frame List.mem_cons_self) first
          rw [List.flatMap_cons, ← List.append_assoc, fed_append, fedFrame]
          by_cases last : rest = []
          · subst last
            obtain rfl := Outcome.returns.inj handled
            exact ⟨here, rfl, by simpa using opened⟩
          · obtain ⟨between, fedRest, finished⟩ := ih here [] _ next opened last
              (fun other member => inside other (List.mem_cons_of_mem frame member)) handled
            exact ⟨between, fedRest, by simpa using finished⟩

theorem handle_frames_append (handlers : Handlers σ) (before after : List (UInt8 × Bytes)) (app : σ) :
    handlers.handleFrames (before ++ after) app =
      match handlers.handleFrames before app with
      | .returns next => handlers.handleFrames after next
      | .throws exception next => .throws exception next := by
  induction before generalizing app with
  | nil => rfl
  | cons frame rest ih =>
      obtain ⟨tag, body⟩ := frame
      simp only [List.cons_append, Handlers.handleFrames]
      cases handlers.handle tag body app with
      | returns next => exact ih next
      | throws exception next => rfl

theorem opening_receives (target : Target) (client : Client σ) (entries : List Dispatch) (app : σ)
    (opening : Opening client [] entries app) :
    loopHead target client = .receives client.compute ∧ client.state = .mcsTagAndSize := by
  have state : client.state = .mcsTagAndSize := by
    rcases opening.expects with ⟨state, _⟩ | ⟨_, version, _, impossible⟩
    · exact state
    · cases impossible
  have need := need_tag target client state
  have within := max_size_lower target
  refine ⟨?_, state⟩
  exact head_requests target client (by rw [need, opening.buffer]; exact Nat.zero_lt_two) (by omega)

-- The shortest encoding is only two or four bytes long when the body is longer than the byte read with it.
theorem written_inside (tag : UInt8) (body : Bytes) (bounded : body.length < 2147483648)
    (readsAhead : (Frame.written tag body bounded).ReadsAhead) : 2 ≤ body.length := by
  have size : (UInt32.ofNat body.length).toNat = body.length := frame_size (Frame.written tag body bounded)
  have prefixLength : (encodeVarint32 (UInt32.ofNat body.length)).length = (Leb128.encode body.length).length := by
    rw [encode_varint_refines, size]
  have positive := Leb128.terminated_nonempty _ (Leb128.terminated_encode body.length)
  have even : (Leb128.encode body.length).length % 2 = 0 := by rw [← prefixLength]; exact readsAhead
  have lower := Leb128.encode_length_lower body.length (by omega)
  have wide : 128 ^ 1 ≤ 128 ^ ((Leb128.encode body.length).length - 1) := Nat.pow_le_pow_right (by decide) (by omega)
  omega

end PushReceiver
