import PushReceiver.Framing
import PushReceiver.Segmentation
import PushReceiver.Stanza

set_option autoImplicit false

namespace PushReceiver

variable {σ : Type}

structure Message where
  tag : UInt8
  body : Bytes
  bounded : body.length < 2147483648

-- The layout of the buffers SendLoginBuffer and SendHeartbeat build, after the version byte.
def Message.wire (message : Message) : Bytes :=
  message.tag :: (encodeVarint32 (UInt32.ofNat message.body.length) ++ message.body)

def Message.dispatch (message : Message) : Dispatch :=
  ⟨message.tag, UInt32.ofNat message.body.length, message.body⟩

def Message.frame (message : Message) : Frame := Frame.written message.tag message.body message.bounded

theorem message_wire (messages : List Message) :
    messages.flatMap Message.wire = (messages.map Message.frame).flatMap Frame.wire := by
  rw [List.flatMap_map]
  rfl

theorem message_dispatch (messages : List Message) :
    messages.map Message.dispatch = (messages.map Message.frame).map Frame.dispatch := by
  rw [List.map_map]
  rfl

theorem receive_loop_fed (target : Target) (handlers : Handlers σ) (client : Client σ) (chunks : List Bytes)
    (respects : Reader.Respects (receiver target handlers) (loopHead target client) chunks) :
    receiveLoop target handlers client (chunks.map .bytes) =
      fed target handlers (loopHead target client) chunks.flatten := by
  rw [receive_loop_deliver]
  exact Reader.deliver_one_by_one (receiver target handlers) (Waiting target) (receiver_incremental target handlers)
    (loopHead target client) chunks (head_waiting target client) respects

def frameOf (message : Message) : UInt8 × Bytes := (message.tag, message.body)

-- The handlers see the frames of the stream one by one, and the loop ends between two frames.
theorem messages_received (target : Target) (handlers : Handlers σ) (app final : σ) (version : UInt8)
    (accepted : Accepted version) (messages : List Message) (nonempty : messages ≠ [])
    (handled : handlers.handleFrames (messages.map frameOf) app = .returns final) (chunks : List Bytes)
    (respects : Reader.Respects (receiver target handlers) (loopHead target (Client.fresh app)) chunks)
    (whole : chunks.flatten = version :: messages.flatMap Message.wire) :
    ∃ client, receiveLoop target handlers (Client.fresh app) (chunks.map .bytes) = .receives client ∧
      client.state = .mcsTagAndSize ∧ client.bytesReadFromServer = [] ∧
      client.dispatched = messages.map Message.dispatch ∧ client.app = final := by
  have inside : ∀ frame ∈ messages.map Message.frame, frame.ReadsAhead → 2 ≤ frame.body.length := by
    intro frame member readsAhead
    obtain ⟨message, _, rfl⟩ := List.mem_map.mp member
    exact written_inside message.tag message.body message.bounded readsAhead
  have handledFrames : handlers.handleFrames ((messages.map Message.frame).map fun frame => (frame.tag, frame.body)) app =
      .returns final := by
    rw [List.map_map]
    exact handled
  obtain ⟨client, fedAll, opened⟩ := fed_frames target handlers (Client.fresh app) [version] [] app final
    (opening_fresh app version accepted) (messages.map Message.frame) (by simpa using nonempty) inside handledFrames
  obtain ⟨receives, state⟩ := opening_receives target client _ final opened
  refine ⟨client.compute, ?_, state, opened.buffer, ?_, opened.app⟩
  · rw [receive_loop_fed target handlers (Client.fresh app) chunks respects, whole, message_wire, ← receives, ← fedAll]
    rfl
  · rw [message_dispatch]
    exact opened.dispatched

theorem mcs_round_trip (target : Target) (handlers : Handlers σ) (app : σ) (version : UInt8)
    (accepted : Accepted version) (messages : List Message) (nonempty : messages ≠ [])
    (returns : ∃ final, handlers.handleFrames (messages.map frameOf) app = .returns final) (chunks : List Bytes)
    (respects : Reader.Respects (receiver target handlers) (loopHead target (Client.fresh app)) chunks)
    (whole : chunks.flatten = version :: messages.flatMap Message.wire) :
    ∃ client, receiveLoop target handlers (Client.fresh app) (chunks.map .bytes) = .receives client ∧
      client.state = .mcsTagAndSize ∧ client.bytesReadFromServer = [] ∧
      client.dispatched = messages.map Message.dispatch := by
  obtain ⟨final, handled⟩ := returns
  obtain ⟨client, received, state, buffer, dispatched, _⟩ := messages_received target handlers app final version accepted
    messages nonempty handled chunks respects whole
  exact ⟨client, received, state, buffer, dispatched⟩

def stanzaBytesA : Bytes := [0x1A, 1, 0x66, 0x2A, 1, 0x63, 0x4A, 1, 0x61]

def stanzaBytesB : Bytes := [0x1A, 1, 0x66, 0x2A, 1, 0x63, 0x4A, 1, 0x62]

def loginBytes : Bytes := [0x0A, 1, 0x69]

def sampleEnvironment : Environment where
  parseLoginResponse bytes := if bytes = loginBytes then some ⟨0⟩ else none
  parseDataMessageStanza bytes :=
    if bytes = stanzaBytesA then some ⟨[], ascii "a", []⟩
    else if bytes = stanzaBytesB then some ⟨[], ascii "b", []⟩
    else none
  parseHeartbeatAck _ := none
  rawSubPrivKey := List.replicate 32 1
  authSecret := List.replicate 16 2
  decrypt _ := (-1, [])

def stanzaMessageA : Message := ⟨8, stanzaBytesA, by decide⟩

def stanzaMessageB : Message := ⟨8, stanzaBytesB, by decide⟩

def loginMessage : Message := ⟨3, loginBytes, by decide⟩

def sampleMessages : List Message := [stanzaMessageA, loginMessage, stanzaMessageB]

def sampleChunks : List Bytes := [[41, 8, 9], stanzaBytesA, [3, 3], loginBytes, [8, 9], stanzaBytesB]

theorem mcs_round_trip_session :
    ∃ client, receiveLoop .x64 sampleEnvironment.handlers (.fresh (App.loaded []))
        ([[38, 3], [3], [0x0A, 1], [0x69], [7, 0], [8], [9], [], stanzaBytesA].map .bytes) = .receives client ∧
      client.state = .mcsTagAndSize ∧ client.bytesReadFromServer = [] ∧
      client.dispatched = [⟨3, 3, loginBytes⟩, ⟨7, 0, []⟩, ⟨8, 9, stanzaBytesA⟩] :=
  mcs_round_trip .x64 sampleEnvironment.handlers (App.loaded []) 38 (.inr rfl)
    [loginMessage, ⟨7, [], by decide⟩, stanzaMessageA] (by simp) ⟨_, rfl⟩ _ (by decide)
    (by simp [Message.wire, encodeVarint32, loginMessage, loginBytes, stanzaMessageA, stanzaBytesA])

end PushReceiver
