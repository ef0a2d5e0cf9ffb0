import PushReceiver.Harmless
import PushReceiver.TimedLoop

set_option autoImplicit false

namespace PushReceiver

variable {σ τ : Type}

def Outcome.map {α β : Type} (f : α → β) : Outcome α → Outcome β
  | .returns state => .returns (f state)
  | .throws exception state => .throws exception (f state)

-- The same parser with less behind its handlers.
def Client.forget (f : σ → τ) (client : Client σ) : Client τ := { client with app := f client.app }

def LoopState.forget (f : σ → τ) : LoopState σ → LoopState τ
  | .receives client => .receives (client.forget f)
  | .spins client => .spins (client.forget f)
  | .breaks client => .breaks (client.forget f)
  | .throws exception client => .throws exception (client.forget f)

-- The others do to the kept part what the handlers do to it.
def Handlers.Forgets (f : σ → τ) (handlers : Handlers σ) (others : Handlers τ) : Prop :=
  ∀ messageTag bytes app, others.handle messageTag bytes (f app) = (handlers.handle messageTag bytes app).map f

theorem forget_client (f : σ → τ) (state : LoopState σ) : (state.forget f).client = state.client.forget f := by
  cases state with
  | receives client => rfl
  | spins client => rfl
  | breaks client => rfl
  | throws exception client => rfl

theorem bytes_forget (f : σ → τ) (handlers : Handlers σ) (others : Handlers τ) (forgets : handlers.Forgets f others)
    (client : Client σ) :
    gotMessageBytes others (client.forget f) = (gotMessageBytes handlers client).map (Client.forget f) := by
  have same := forgets client.messageTag client.bytesReadFromServer client.app
  unfold gotMessageBytes
  dsimp only [Client.forget]
  rw [same]
  cases handlers.handle client.messageTag client.bytesReadFromServer client.app with
  | returns app => rfl
  | throws exception app => rfl

theorem size_forget (target : Target) (f : σ → τ) (handlers : Handlers σ) (others : Handlers τ)
    (forgets : handlers.Forgets f others) (client : Client σ) :
    gotMessageSize target others (client.forget f) = (gotMessageSize target handlers client).map (Client.forget f) := by
  unfold gotMessageSize
  dsimp only [Client.forget]
  cases decodeVarint32 target client.bytesReadFromServer 0 with
  | none => rfl
  | some found =>
      dsimp only
      split
      · rfl
      · exact bytes_forget f handlers others forgets { client with
          messageSize := found.1, bytesReadFromServer := client.bytesReadFromServer.drop found.2, sizePacketSoFar := 0,
          state := .mcsProtoBytes }

theorem tag_forget (target : Target) (f : σ → τ) (handlers : Handlers σ) (others : Handlers τ)
    (forgets : handlers.Forgets f others) (client : Client σ) :
    gotMessageTag target others (client.forget f) = (gotMessageTag target handlers client).map (Client.forget f) := by
  obtain ⟨state, sizePacketSoFar, tag, messageSize, minBytesNeeded, buffer, app, dispatched⟩ := client
  cases buffer with
  | nil => rfl
  | cons messageTag rest =>
      exact size_forget target f handlers others forgets
        ⟨.mcsSize, sizePacketSoFar, messageTag, messageSize, minBytesNeeded, rest, app, dispatched⟩

theorem version_forget (target : Target) (f : σ → τ) (handlers : Handlers σ) (others : Handlers τ)
    (forgets : handlers.Forgets f others) (client : Client σ) :
    gotVersion target others (client.forget f) = (gotVersion target handlers client).map (Client.forget f) := by
  obtain ⟨state, sizePacketSoFar, tag, messageSize, minBytesNeeded, buffer, app, dispatched⟩ := client
  cases buffer with
  | nil => rfl
  | cons version rest =>
      dsimp only [gotVersion, Client.forget]
      split
      · rfl
      · exact tag_forget target f handlers others forgets
          ⟨.mcsTagAndSize, sizePacketSoFar, tag, messageSize, minBytesNeeded, rest, app, dispatched⟩

theorem data_forget (target : Target) (f : σ → τ) (handlers : Handlers σ) (others : Handlers τ)
    (forgets : handlers.Forgets f others) (client : Client σ) :
    processData target others (client.forget f) = (processData target handlers client).map (Client.forget f) := by
  have isState : (client.forget f).state = client.state := rfl
  unfold processData
  rw [isState]
  cases client.state with
  | mcsVersionTagAndSize => exact version_forget target f handlers others forgets client
  | mcsTagAndSize => exact tag_forget target f handlers others forgets client
  | mcsSize => exact size_forget target f handlers others forgets client
  | mcsProtoBytes => exact bytes_forget f handlers others forgets client

theorem received_forget (target : Target) (f : σ → τ) (handlers : Handlers σ) (others : Handlers τ)
    (forgets : handlers.Forgets f others) (client : Client σ) (chunk : Bytes) :
    received target others (client.forget f) chunk = (received target handlers client chunk).map (Client.forget f) := by
  unfold received
  dsimp only [Client.forget]
  split
  · split
    · exact data_forget target f handlers others forgets (client.append chunk)
    · rfl
  · rfl

theorem head_forget (target : Target) (f : σ → τ) (client : Client σ) :
    loopHead target (client.forget f) = (loopHead target client).forget f := by
  have request : requestLength target (client.forget f).compute = requestLength target client.compute := rfl
  have buffer : (client.forget f).bytesReadFromServer = client.bytesReadFromServer := rfl
  have need : (client.forget f).compute.minBytesNeeded = client.compute.minBytesNeeded := rfl
  unfold loopHead
  rw [request, buffer, need]
  split
  · split
    · rfl
    · rfl
  · rfl

-- What the handlers keep to themselves the loop does not see.
theorem resume_forget (target : Target) (f : σ → τ) (handlers : Handlers σ) (others : Handlers τ)
    (forgets : handlers.Forgets f others) (state : LoopState σ) (result : Received) :
    (state.forget f).resume target others result = (state.resume target handlers result).forget f := by
  cases state with
  | receives client =>
      cases result with
      | socketError => rfl
      | bytes chunk =>
          dsimp only [LoopState.forget, LoopState.resume]
          rw [received_forget target f handlers others forgets client chunk]
          cases received target handlers client chunk with
          | returns next => exact head_forget target f next
          | throws exception next => rfl
  | spins client => rfl
  | breaks client => rfl
  | throws exception client => rfl

def decryptedMessages (env : Environment) : Option DecryptCall → List Bytes
  | none => []
  | some call => if (env.decrypt call).1 = eceOk then [(env.decrypt call).2] else []

-- What a DataMessageStanza brings to the "message" event, as a list of at most one.
def shownBy (env : Environment) (body : Bytes) : List Bytes :=
  match env.parseDataMessageStanza body with
  | none => []
  | some stanza => decryptedMessages env (passedToDecrypt env stanza)

def showStanza (env : Environment) (bytes : Bytes) (shown : List Bytes) : Outcome (List Bytes) :=
  match env.parseDataMessageStanza bytes with
  | none => .returns shown
  | some stanza =>
      match scanAppData stanza.appData [] [] with
      | .throws exception => .throws exception shown
      | _ => .returns (shown ++ shownBy env bytes)

-- The client with nothing behind its parser but what it has shown.
def screenHandlers (env : Environment) : Handlers (List Bytes) where
  handleLoginResponseTag bytes shown :=
    match env.parseLoginResponse bytes with
    | none => .throws (.runtimeError "Cannot parse LoginResponse") shown
    | some _ => .returns shown
  handleIqStanzaTag _ shown := .returns shown
  handleDataMessageStanzaTag := showStanza env
  handleHeartbeatAck _ shown := .returns shown

theorem deliver_shown (env : Environment) (call : Option DecryptCall) (app : App) :
    (deliverMessage env call app).messages = app.messages ++ decryptedMessages env call := by
  cases call with
  | none => exact (List.append_nil _).symm
  | some call =>
      rw [deliverMessage, decryptedMessages]
      split
      · simp [App.messages, App.emit]
      · exact (List.append_nil _).symm

theorem stanza_screened (env : Environment) (bytes : Bytes) (app : App) :
    showStanza env bytes app.messages = (handleDataMessageStanzaTag env bytes app).map App.messages := by
  unfold handleDataMessageStanzaTag showStanza
  cases parsed : env.parseDataMessageStanza bytes with
  | none => rfl
  | some stanza =>
      dsimp only
      rw [shownBy, parsed]
      dsimp only
      rw [passedToDecrypt]
      cases scanAppData stanza.appData [] [] with
      | throws exception => rfl
      | rejects => exact congrArg Outcome.returns (List.append_nil _)
      | accepts salt rawSenderPubKey =>
          dsimp only [Outcome.map]
          rw [deliver_shown, record_messages]

theorem screen_forgets (env : Environment) : env.handlers.Forgets App.messages (screenHandlers env) := by
  intro messageTag bytes app
  unfold Handlers.handle
  split
  · dsimp only [Environment.handlers, screenHandlers, handleLoginResponseTag]
    cases env.parseLoginResponse bytes with
    | none => rfl
    | some response => rfl
  · split
    · rfl
    · split
      · exact stanza_screened env bytes app
      · split
        · dsimp only [Environment.handlers, screenHandlers, handleHeartbeatAck]
          cases env.parseHeartbeatAck bytes with
          | none => rfl
          | some ack => rfl
        · rfl

def shownByEntry (env : Environment) (entry : Dispatch) : List Bytes :=
  if entry.messageTag = dataMessageStanzaTag then shownBy env entry.bytes else []

theorem stanza_shown (env : Environment) (bytes : Bytes) (shown : List Bytes) :
    (showStanza env bytes shown).state = shown ++ shownBy env bytes := by
  unfold showStanza
  rw [shownBy]
  cases env.parseDataMessageStanza bytes with
  | none => exact (List.append_nil shown).symm
  | some stanza =>
      dsimp only
      rw [passedToDecrypt]
      cases scanAppData stanza.appData [] [] with
      | throws exception => exact (List.append_nil shown).symm
      | rejects => rfl
      | accepts salt rawSenderPubKey => rfl

theorem handle_shown (env : Environment) (entry : Dispatch) (shown : List Bytes) :
    ((screenHandlers env).handle entry.messageTag entry.bytes shown).state = shown ++ shownByEntry env entry := by
  by_cases stanza : entry.messageTag = dataMessageStanzaTag
  · rw [shownByEntry, if_pos stanza, stanza]
    exact stanza_shown env entry.bytes shown
  · rw [shownByEntry, if_neg stanza, List.append_nil, Handlers.handle]
    split
    · dsimp only [screenHandlers]
      cases env.parseLoginResponse entry.bytes with
      | none => rfl
      | some response => rfl
    · split
      · rfl
      · split
        · rfl
        · rfl

theorem bytes_app (handlers : Handlers σ) (client : Client σ) :
    (gotMessageBytes handlers client).state.app =
      (handlers.handle client.messageTag client.bytesReadFromServer client.app).state := by
  unfold gotMessageBytes
  cases handlers.handle client.messageTag client.bytesReadFromServer client.app with
  | returns app => rfl
  | throws exception app => rfl

theorem screen_shown (target : Target) (env : Environment) (results : List Received) :
    (receiveLoop target (screenHandlers env) (Client.fresh []) results).client.app =
      (receiveLoop target (screenHandlers env) (Client.fresh []) results).client.dispatched.flatMap (shownByEntry env) := by
  induction results using List.reverseRecOn with
  | nil =>
      rw [receiveLoop, List.foldl_nil, head_dispatched]
      exact proceed_app target (.returns (Client.fresh []))
  | append_singleton results result ih =>
      rw [receive_loop_snoc]
      rcases resume_touches target (screenHandlers env) (receiveLoop target (screenHandlers env) (Client.fresh []) results) result
        with ⟨entries, app⟩ | ⟨waiting, chunk, entering, waits, _, entries, app, enters⟩
      · rw [entries, app, ih]
      · rw [waits] at ih
        have entry := handle_shown env ⟨entering.messageTag, entering.messageSize, entering.bytesReadFromServer⟩ entering.app
        have before : entering.app = entering.dispatched.flatMap (shownByEntry env) := by
          rw [app, entries]
          exact ih
        rw [enters, proceed_app, proceed_dispatched, bytes_app, bytes_entry, entry, before, List.flatMap_append]
        simp

-- A timer that fires shows nothing.
theorem wake_messages (app : App) (index : Nat) : (app.wake index).messages = app.messages := by
  unfold App.wake
  split
  · rfl
  · rfl

theorem wake_forgotten (client : Client App) (index : Nat) : (client.wake index).forget App.messages = client.forget App.messages := by
  rw [Client.forget, Client.forget, Client.wake, wake_messages]

def results (trace : List (LoopState App × LoopEvent)) : List Received :=
  trace.filterMap fun taken =>
    match taken.2 with
    | .result result => some result
    | .timer _ => none

-- However the timers fire in between, the parser, its entries and what is shown are those of the
-- client without timers that is given the same results.
theorem timed_loop_screened (target : Target) (env : Environment) (trace : List (LoopState App × LoopEvent))
    (state : LoopState App) (run : Transition.Run (timedLoop target env) trace state) :
    state.forget App.messages = receiveLoop target (screenHandlers env) (Client.fresh []) (results trace) := by
  induction run with
  | start state initial =>
      obtain ⟨persistentIds, rfl⟩ := initial
      exact (head_forget target App.messages _).symm
  | step trace state event next run taken ih =>
      cases taken with
      | result result =>
          rw [← resume_forget target App.messages env.handlers (screenHandlers env) (screen_forgets env) state result, ih,
            ← receive_loop_snoc]
          simp [results]
      | timer index pending =>
          have asleep : (state.wake index).forget App.messages = state.forget App.messages := by
            cases state with
            | receives client => exact congrArg LoopState.receives (wake_forgotten client index)
            | spins client => exact congrArg LoopState.spins (wake_forgotten client index)
            | breaks client => exact congrArg LoopState.breaks (wake_forgotten client index)
            | throws exception client => exact congrArg (LoopState.throws exception) (wake_forgotten client index)
          rw [asleep, ih]
          simp [results]

-- Which stanzas are entered depends on the results of Receive alone, whatever the timers do.
theorem entries_screened (target : Target) (env : Environment) (trace : List (LoopState App × LoopEvent))
    (state : LoopState App) (run : Transition.Run (timedLoop target env) trace state) :
    state.client.app.messages = state.client.dispatched.flatMap (shownByEntry env) ∧
      state.client.dispatched =
        (receiveLoop target (screenHandlers env) (Client.fresh []) (results trace)).client.dispatched := by
  have screened := timed_loop_screened target env trace state run
  have client := forget_client App.messages state
  rw [screened] at client
  have entries := congrArg Client.dispatched client
  have shown := congrArg Client.app client
  rw [screen_shown, entries] at shown
  exact ⟨shown.symm, entries.symm⟩

end PushReceiver
