import Mathlib.Data.List.Induction
import PushReceiver.RoundTrip

set_option autoImplicit false

namespace PushReceiver

-- The non-empty persistent id a frame brings, as a list of at most one.
def receivedId (env : Environment) (frame : UInt8 × Bytes) : List Bytes :=
  if frame.1 = dataMessageStanzaTag then
    match env.parseDataMessageStanza frame.2 with
    | none => []
    | some stanza => if stanza.persistentId = [] then [] else [stanza.persistentId]
  else []

def receivedIds (env : Environment) (frames : List (UInt8 × Bytes)) : List Bytes := frames.flatMap (receivedId env)

-- The frames behind the last LoginResponse, all of them when there is none.
def sinceLogin (frames : List (UInt8 × Bytes)) : List (UInt8 × Bytes) :=
  frames.foldl (fun since frame => if frame.1 = loginResponseTag then [] else since ++ [frame]) []

def WellFormed (env : Environment) (frame : UInt8 × Bytes) : Prop :=
  (frame.1 = loginResponseTag → ∃ response, env.parseLoginResponse frame.2 = some response) ∧
    (frame.1 = dataMessageStanzaTag → ∃ stanza salt rawSenderPubKey,
      env.parseDataMessageStanza frame.2 = some stanza ∧ scanAppData stanza.appData [] [] = .accepts salt rawSenderPubKey)

def lastPersistentId (app : App) : Option Bytes :=
  ((app.emitted.filter (·.name = "persistent_id")).getLast?).map (·.message)

-- Every id received so far is in m_PersistentIds, and the last event carries that list.
def IdsKept (env : Environment) (frames : List (UInt8 × Bytes)) (app : App) : Prop :=
  ∀ id ∈ receivedIds env frames, id ∈ app.persistentIds ∧ lastPersistentId app = some (join app.persistentIds (ascii ";"))

def ReceivedSinceLogin (env : Environment) (frames : List (UInt8 × Bytes)) : Prop :=
  ∀ id ∈ receivedIds env frames, id ∈ receivedIds env (sinceLogin frames)

theorem received_ids_append (env : Environment) (before after : List (UInt8 × Bytes)) :
    receivedIds env (before ++ after) = receivedIds env before ++ receivedIds env after :=
  List.flatMap_append

theorem received_ids_single (env : Environment) (frame : UInt8 × Bytes) :
    receivedIds env [frame] = receivedId env frame := by
  simp [receivedIds]

theorem since_login_append (frames : List (UInt8 × Bytes)) (frame : UInt8 × Bytes) :
    sinceLogin (frames ++ [frame]) = if frame.1 = loginResponseTag then [] else sinceLogin frames ++ [frame] := by
  simp [sinceLogin]

theorem handle_other (env : Environment) (frame : UInt8 × Bytes) (app : App) (notLogin : frame.1 ≠ loginResponseTag)
    (notStanza : frame.1 ≠ dataMessageStanzaTag) :
    ∃ next, env.handlers.handle frame.1 frame.2 app = .returns next ∧ next.persistentIds = app.persistentIds ∧
      next.emitted = app.emitted := by
  rw [Handlers.handle, if_neg notLogin]
  split
  · exact ⟨app, rfl, rfl, rfl⟩
  · split
    · simp only [Environment.handlers, handleHeartbeatAck]
      cases env.parseHeartbeatAck frame.2 with
      | none => exact ⟨app, rfl, rfl, rfl⟩
      | some ack => exact ⟨_, rfl, rfl, rfl⟩
    · exact ⟨app, rfl, rfl, rfl⟩

theorem last_after_message (app : App) (message : Bytes) : lastPersistentId (app.emit "message" message) = lastPersistentId app := by
  simp [lastPersistentId, App.emit]

theorem deliver_kept (env : Environment) (call : Option DecryptCall) (app : App) :
    (deliverMessage env call app).persistentIds = app.persistentIds ∧
      lastPersistentId (deliverMessage env call app) = lastPersistentId app := by
  unfold deliverMessage
  cases call with
  | none => exact ⟨rfl, rfl⟩
  | some call =>
      dsimp only
      split
      · exact ⟨rfl, last_after_message app _⟩
      · exact ⟨rfl, rfl⟩

theorem record_ids (app : App) (persistentId : Bytes) (nonempty : persistentId ≠ []) :
    (app.recordPersistentId persistentId).persistentIds = app.persistentIds ++ [persistentId] ∧
      lastPersistentId (app.recordPersistentId persistentId) =
        some (join (app.persistentIds ++ [persistentId]) (ascii ";")) := by
  rw [App.recordPersistentId, if_neg nonempty]
  exact ⟨rfl, by simp [lastPersistentId, App.emit]⟩

-- What a processed stanza does to the ids: a non-empty one is appended and the whole list emitted.
theorem stanza_ids (env : Environment) (frame : UInt8 × Bytes) (app : App) (tag : frame.1 = dataMessageStanzaTag)
    (wellFormed : WellFormed env frame) :
    ∃ next, env.handlers.handle frame.1 frame.2 app = .returns next ∧
      next.persistentIds = app.persistentIds ++ receivedId env frame ∧
      (receivedId env frame ≠ [] → lastPersistentId next = some (join next.persistentIds (ascii ";"))) ∧
      (receivedId env frame = [] → lastPersistentId next = lastPersistentId app) := by
  obtain ⟨stanza, salt, rawSenderPubKey, parsed, accepted⟩ := wellFormed.2 tag
  rw [handle_stanza env frame app tag, handleDataMessageStanzaTag, receivedId, if_pos tag, parsed]
  simp only [accepted]
  obtain ⟨ids, last⟩ := deliver_kept env (decryptCall env salt rawSenderPubKey stanza.rawData)
    (app.recordPersistentId stanza.persistentId)
  refine ⟨_, rfl, ?_⟩
  rw [ids, last]
  by_cases empty : stanza.persistentId = []
  · simp [empty, App.recordPersistentId]
  · obtain ⟨recorded, emitted⟩ := record_ids app stanza.persistentId empty
    simp [empty, recorded, emitted]

-- m_PersistentIds is the loaded list, or nothing after a LoginResponse, and the ids received since.
structure SessionInvariant (env : Environment) (loaded : List Bytes) (frames : List (UInt8 × Bytes)) (app : App) : Prop where
  ids : app.persistentIds = (if sinceLogin frames = frames then loaded else []) ++ receivedIds env (sinceLogin frames)
  last : receivedIds env (sinceLogin frames) ≠ [] → lastPersistentId app = some (join app.persistentIds (ascii ";"))

theorem session_step (env : Environment) (loaded : List Bytes) (frames : List (UInt8 × Bytes)) (frame : UInt8 × Bytes)
    (app : App) (invariant : SessionInvariant env loaded frames app) (wellFormed : WellFormed env frame) :
    ∃ next, env.handlers.handle frame.1 frame.2 app = .returns next ∧
      SessionInvariant env loaded (frames ++ [frame]) next := by
  by_cases login : frame.1 = loginResponseTag
  · obtain ⟨response, parsed⟩ := wellFormed.1 login
    refine ⟨{ app with persistentIds := [] }.sendHeartbeat response.lastStreamIdReceived, ?_, ?_⟩
    · rw [handle_login env frame app login, handleLoginResponseTag, parsed]
    · constructor
      · rw [since_login_append, if_pos login]
        simp [App.sendHeartbeat, receivedIds]
      · intro some_received
        rw [since_login_append, if_pos login] at some_received
        exact absurd rfl some_received
  · have since : sinceLogin (frames ++ [frame]) = sinceLogin frames ++ [frame] := by
      rw [since_login_append, if_neg login]
    have unbroken : sinceLogin frames ++ [frame] = frames ++ [frame] ↔ sinceLogin frames = frames :=
      List.append_left_inj [frame]
    by_cases stanza : frame.1 = dataMessageStanzaTag
    · obtain ⟨next, handled, ids, emitted, silent⟩ := stanza_ids env frame app stanza wellFormed
      refine ⟨next, handled, ?_, ?_⟩
      · simp only [ids, invariant.ids, since, unbroken, received_ids_append, received_ids_single, List.append_assoc]
      · intro received
        by_cases fresh : receivedId env frame = []
        · rw [since, received_ids_append, received_ids_single, fresh, List.append_nil] at received
          rw [silent fresh, ids, fresh, List.append_nil]
          exact invariant.last received
        · exact emitted fresh
    · obtain ⟨next, handled, ids, emitted⟩ := handle_other env frame app login stanza
      have nothing : receivedId env frame = [] := if_neg stanza
      refine ⟨next, handled, ?_, ?_⟩
      · simp only [ids, invariant.ids, since, unbroken, received_ids_append, received_ids_single, nothing, List.append_nil]
      · intro received
        rw [since, received_ids_append, received_ids_single, nothing, List.append_nil] at received
        rw [ids, lastPersistentId, emitted]
        exact invariant.last received

theorem session_run (env : Environment) (loaded : List Bytes) (frames : List (UInt8 × Bytes))
    (wellFormed : ∀ frame ∈ frames, WellFormed env frame) :
    ∃ app, env.handlers.handleFrames frames (App.loaded loaded) = .returns app ∧ SessionInvariant env loaded frames app := by
  induction frames using List.reverseRecOn with
  | nil => exact ⟨App.loaded loaded, rfl, by simp [App.loaded, sinceLogin, receivedIds], fun none => absurd rfl none⟩
  | append_singleton frames frame ih =>
      obtain ⟨app, handled, invariant⟩ := ih fun earlier member => wellFormed earlier (List.mem_append_left _ member)
      obtain ⟨next, stepped, kept⟩ := session_step env loaded frames frame app invariant (wellFormed frame (by simp))
      refine ⟨next, ?_, kept⟩
      rw [handle_frames_append, handled]
      simp only [Handlers.handleFrames, stepped]

theorem ids_kept_at (env : Environment) (loaded : List Bytes) (frames : List (UInt8 × Bytes)) (app : App)
    (invariant : SessionInvariant env loaded frames app) : IdsKept env frames app ↔ ReceivedSinceLogin env frames := by
  constructor
  · intro kept id member
    obtain ⟨inside, _⟩ := kept id member
    by_cases unbroken : sinceLogin frames = frames
    · rw [unbroken]
      exact member
    · rw [invariant.ids, if_neg unbroken, List.nil_append] at inside
      exact inside
  · intro since id member
    have later := since id member
    have held : id ∈ app.persistentIds := by
      rw [invariant.ids]
      exact List.mem_append_right _ later
    exact ⟨held, invariant.last (List.ne_nil_of_mem later)⟩

theorem ids_kept_iff (target : Target) (env : Environment) (loaded : List Bytes) (version : UInt8)
    (accepted : Accepted version) (messages : List Message) (nonempty : messages ≠ [])
    (wellFormed : ∀ message ∈ messages, WellFormed env (frameOf message)) (chunks : List Bytes)
    (respects : Reader.Respects (receiver target env.handlers) (loopHead target (Client.fresh (App.loaded loaded))) chunks)
    (whole : chunks.flatten = version :: messages.flatMap Message.wire) :
    ∃ client, receiveLoop target env.handlers (Client.fresh (App.loaded loaded)) (chunks.map .bytes) = .receives client ∧
      (IdsKept env (messages.map frameOf) client.app ↔ ReceivedSinceLogin env (messages.map frameOf)) := by
  have framesWellFormed : ∀ frame ∈ messages.map frameOf, WellFormed env frame := by
    intro frame member
    obtain ⟨message, inside, rfl⟩ := List.mem_map.mp member
    exact wellFormed message inside
  obtain ⟨app, handled, invariant⟩ := session_run env loaded (messages.map frameOf) framesWellFormed
  obtain ⟨client, received, _, _, _, isApp⟩ := messages_received target env.handlers (App.loaded loaded) app version
    accepted messages nonempty handled chunks respects whole
  refine ⟨client, received, ?_⟩
  rw [isApp]
  exact ids_kept_at env loaded (messages.map frameOf) app invariant

theorem sample_stanza (message : Message) (isStanza : message = stanzaMessageA ∨ message = stanzaMessageB) :
    WellFormed sampleEnvironment (frameOf message) := by
  rcases isStanza with rfl | rfl
  · exact ⟨nofun, fun _ => ⟨⟨[], ascii "a", []⟩, [], [], rfl, rfl⟩⟩
  · exact ⟨nofun, fun _ => ⟨⟨[], ascii "b", []⟩, [], [], rfl, rfl⟩⟩

theorem ids_kept_without_login :
    ∃ client, receiveLoop .x64 sampleEnvironment.handlers (Client.fresh (App.loaded []))
        ([[41, 8, 9], stanzaBytesA, [8, 9], stanzaBytesB].map .bytes) = .receives client ∧
      (IdsKept sampleEnvironment ([stanzaMessageA, stanzaMessageB].map frameOf) client.app ↔
        ReceivedSinceLogin sampleEnvironment ([stanzaMessageA, stanzaMessageB].map frameOf)) :=
  ids_kept_iff .x64 sampleEnvironment [] 41 (.inl (Nat.le_refl 41)) [stanzaMessageA, stanzaMessageB] (by simp)
    (by simp [sample_stanza]) _ (by decide)
    (by simp [Message.wire, encodeVarint32, stanzaMessageA, stanzaMessageB, stanzaBytesA, stanzaBytesB])

-- The id "a" was received after the LoginRequest, and the LoginResponse clears it.
theorem login_response_drops_id :
    ∃ client, receiveLoop .x64 sampleEnvironment.handlers (Client.fresh (App.loaded [])) (sampleChunks.map .bytes) =
        .receives client ∧
      sampleChunks.flatten = 41 :: sampleMessages.flatMap Message.wire ∧
      (∀ message ∈ sampleMessages, WellFormed sampleEnvironment (frameOf message)) ∧
      ascii "a" ∈ receivedIds sampleEnvironment (sampleMessages.map frameOf) ∧
      client.app.persistentIds = [ascii "b"] ∧ lastPersistentId client.app = some (ascii "b") ∧
      ¬ IdsKept sampleEnvironment (sampleMessages.map frameOf) client.app := by
  have wellFormed : ∀ message ∈ sampleMessages, WellFormed sampleEnvironment (frameOf message) := by
    have login : WellFormed sampleEnvironment (frameOf loginMessage) := ⟨fun _ => ⟨⟨0⟩, rfl⟩, nofun⟩
    simp [sampleMessages, sample_stanza, login]
  have whole : sampleChunks.flatten = 41 :: sampleMessages.flatMap Message.wire := by
    simp [Message.wire, encodeVarint32, sampleChunks, sampleMessages, stanzaMessageA, stanzaMessageB, loginMessage,
      stanzaBytesA, stanzaBytesB, loginBytes]
  obtain ⟨client, received, _, _, _, app⟩ := messages_received .x64 sampleEnvironment.handlers (App.loaded [])
    ⟨[ascii "b"], [⟨"persistent_id", ascii "a"⟩, ⟨"persistent_id", ascii "b"⟩], [0], []⟩ 41 (.inl (Nat.le_refl 41))
    sampleMessages (by simp [sampleMessages]) rfl sampleChunks (by decide) whole
  have lost : ascii "a" ∉ client.app.persistentIds := by
    rw [app]
    decide
  have brought : ascii "a" ∈ receivedIds sampleEnvironment (sampleMessages.map frameOf) := by decide
  refine ⟨client, received, whole, wellFormed, brought, ?_, ?_, fun kept => lost (kept _ brought).1⟩
  · rw [app]
  · rw [app]
    decide

end PushReceiver
