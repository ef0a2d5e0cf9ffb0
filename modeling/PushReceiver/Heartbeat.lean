import PushReceiver.Entries
import PushReceiver.Stanza
import PushReceiver.Library.Transition

set_option autoImplicit false

namespace PushReceiver

abbrev heartbeatAckTag : UInt8 := MCSProtoTag.kHeartbeatAckTag.value

-- A detached thread of HandleHeartbeatAck wakes up and sends the value it captured.
def App.wake (app : App) (index : Nat) : App :=
  match app.heartbeatTimers[index]? with
  | none => app
  | some lastStreamIdReceived =>
      { app with heartbeatTimers := app.heartbeatTimers.eraseIdx index }.sendHeartbeat lastStreamIdReceived

def pingsOf (env : Environment) (frame : UInt8 × Bytes) : List Int :=
  if frame.1 = loginResponseTag then (env.parseLoginResponse frame.2).toList.map (·.lastStreamIdReceived) else []

def timersOf (env : Environment) (frame : UInt8 × Bytes) : List Int :=
  if frame.1 = heartbeatAckTag then (env.parseHeartbeatAck frame.2).toList.map (·.lastStreamIdReceived) else []

-- A connection on which frames arrive and timers fire. `framesReceived` and `countsAtSending` are
-- ghost state: the frames so far, and their number when each heartbeat was sent.
structure Heartbeats where
  app : App
  receiving : Bool
  framesReceived : Nat
  countsAtSending : List Nat
deriving DecidableEq, Repr

inductive HeartbeatEvent where
  | frame (tag : UInt8) (body : Bytes)
  | timer (index : Nat)
deriving DecidableEq, Repr

def Heartbeats.newCounts (session : Heartbeats) (app : App) (framesReceived : Nat) : List Nat :=
  session.countsAtSending ++ List.replicate (app.sentHeartbeats.length - session.app.sentHeartbeats.length) framesReceived

-- An exception of a handler leaves StartReceiver. The timers it has started go on.
def Heartbeats.receive (env : Environment) (session : Heartbeats) (tag : UInt8) (body : Bytes) : Heartbeats :=
  match env.handlers.handle tag body session.app with
  | .returns app => ⟨app, true, session.framesReceived + 1, session.newCounts app (session.framesReceived + 1)⟩
  | .throws _ app => ⟨app, false, session.framesReceived + 1, session.newCounts app (session.framesReceived + 1)⟩

def Heartbeats.wake (session : Heartbeats) (index : Nat) : Heartbeats :=
  { session with
    app := session.app.wake index
    countsAtSending := session.newCounts (session.app.wake index) session.framesReceived }

inductive HeartbeatStep (env : Environment) : Heartbeats → HeartbeatEvent → Heartbeats → Prop where
  | frame (session : Heartbeats) (tag : UInt8) (body : Bytes) (receiving : session.receiving = true) :
      HeartbeatStep env session (.frame tag body) (session.receive env tag body)
  | timer (session : Heartbeats) (index : Nat) (pending : index < session.app.heartbeatTimers.length) :
      HeartbeatStep env session (.timer index) (session.wake index)

structure Heartbeats.Opened (session : Heartbeats) : Prop where
  receiving : session.receiving = true
  noFrames : session.framesReceived = 0
  noCounts : session.countsAtSending = []
  noHeartbeats : session.app.sentHeartbeats = []
  noTimers : session.app.heartbeatTimers = []

def heartbeats (env : Environment) : Transition.System Heartbeats HeartbeatEvent where
  initial := Heartbeats.Opened
  step := HeartbeatStep env

def Acknowledges (session : Heartbeats) : Prop :=
  session.app.sentHeartbeats = session.countsAtSending.map Int.ofNat

instance (session : Heartbeats) : Decidable (Acknowledges session) :=
  inferInstanceAs (Decidable (session.app.sentHeartbeats = session.countsAtSending.map Int.ofNat))

-- The number the server puts into its frame is how many it has received itself. It has to be
-- the number of those the client has received at the time the heartbeat is sent.
def Coincides (env : Environment) (session : Heartbeats) : HeartbeatEvent → Prop
  | .frame tag body => tag = loginResponseTag → ∀ response, env.parseLoginResponse body = some response →
      response.lastStreamIdReceived = (session.framesReceived + 1 : Nat)
  | .timer index => ∀ captured, session.app.heartbeatTimers[index]? = some captured → captured = session.framesReceived

theorem record_heartbeats (app : App) (persistentId : Bytes) :
    (app.recordPersistentId persistentId).sentHeartbeats = app.sentHeartbeats ∧
      (app.recordPersistentId persistentId).heartbeatTimers = app.heartbeatTimers := by
  unfold App.recordPersistentId
  split
  · exact ⟨rfl, rfl⟩
  · exact ⟨rfl, rfl⟩

theorem deliver_heartbeats (env : Environment) (call : Option DecryptCall) (app : App) :
    (deliverMessage env call app).sentHeartbeats = app.sentHeartbeats ∧
      (deliverMessage env call app).heartbeatTimers = app.heartbeatTimers := by
  cases call with
  | none => exact ⟨rfl, rfl⟩
  | some call =>
      dsimp only [deliverMessage]
      split
      · exact ⟨rfl, rfl⟩
      · exact ⟨rfl, rfl⟩

theorem stanza_heartbeats (env : Environment) (body : Bytes) (app : App) :
    (handleDataMessageStanzaTag env body app).state.sentHeartbeats = app.sentHeartbeats ∧
      (handleDataMessageStanzaTag env body app).state.heartbeatTimers = app.heartbeatTimers := by
  unfold handleDataMessageStanzaTag
  cases env.parseDataMessageStanza body with
  | none => exact ⟨rfl, rfl⟩
  | some stanza =>
      dsimp only
      cases scanAppData stanza.appData [] [] with
      | throws exception => exact ⟨rfl, rfl⟩
      | rejects => exact ⟨rfl, rfl⟩
      | accepts salt rawSenderPubKey =>
          obtain ⟨sent, timers⟩ := deliver_heartbeats env (decryptCall env salt rawSenderPubKey stanza.rawData)
            (app.recordPersistentId stanza.persistentId)
          obtain ⟨recordedSent, recordedTimers⟩ := record_heartbeats app stanza.persistentId
          exact ⟨sent.trans recordedSent, timers.trans recordedTimers⟩

-- All a frame can do to the heartbeats, whether its handler returns or throws.
theorem handle_heartbeats (env : Environment) (tag : UInt8) (body : Bytes) (app : App) :
    (env.handlers.handle tag body app).state.sentHeartbeats = app.sentHeartbeats ++ pingsOf env (tag, body) ∧
      (env.handlers.handle tag body app).state.heartbeatTimers = app.heartbeatTimers ++ timersOf env (tag, body) := by
  by_cases login : tag = loginResponseTag
  · have other : tag ≠ heartbeatAckTag := by
      rw [login]
      decide
    rw [handle_login env (tag, body) app login, handleLoginResponseTag, pingsOf, timersOf, if_pos login, if_neg other]
    cases env.parseLoginResponse body with
    | none => simp [Outcome.state]
    | some response => simp [Outcome.state, App.sendHeartbeat]
  · rw [pingsOf, if_neg login, List.append_nil]
    by_cases ack : tag = heartbeatAckTag
    · rw [timersOf, if_pos ack, ack]
      change (handleHeartbeatAck env body app).state.sentHeartbeats = _ ∧
        (handleHeartbeatAck env body app).state.heartbeatTimers = _
      unfold handleHeartbeatAck
      cases env.parseHeartbeatAck body with
      | none => simp [Outcome.state]
      | some response => simp [Outcome.state]
    · rw [timersOf, if_neg ack, List.append_nil, Handlers.handle, if_neg login, if_neg ack]
      split
      · exact ⟨rfl, rfl⟩
      · split
        · exact stanza_heartbeats env body app
        · exact ⟨rfl, rfl⟩

theorem wake_heartbeats (app : App) (index : Nat) (pending : index < app.heartbeatTimers.length) :
    (app.wake index).sentHeartbeats = app.sentHeartbeats ++ [app.heartbeatTimers[index]] ∧
      (app.wake index).heartbeatTimers = app.heartbeatTimers.eraseIdx index := by
  rw [App.wake, List.getElem?_eq_getElem pending]
  exact ⟨rfl, rfl⟩

theorem receive_app (env : Environment) (session : Heartbeats) (tag : UInt8) (body : Bytes) :
    (session.receive env tag body).app = (env.handlers.handle tag body session.app).state ∧
      (session.receive env tag body).countsAtSending =
        session.newCounts (env.handlers.handle tag body session.app).state (session.framesReceived + 1) := by
  unfold Heartbeats.receive
  cases env.handlers.handle tag body session.app with
  | returns app => exact ⟨rfl, rfl⟩
  | throws exception app => exact ⟨rfl, rfl⟩

theorem new_counts (session : Heartbeats) (app : App) (framesReceived : Nat) (pings : List Int)
    (sent : app.sentHeartbeats = session.app.sentHeartbeats ++ pings) :
    session.newCounts app framesReceived = session.countsAtSending ++ List.replicate pings.length framesReceived := by
  rw [Heartbeats.newCounts, sent, List.length_append, Nat.add_sub_cancel_left]

-- What a step sends, and when all of it is the number of frames received.
structure Sends (env : Environment) (session : Heartbeats) (event : HeartbeatEvent) (next : Heartbeats) (pings : List Int)
    (framesReceived : Nat) : Prop where
  sent : next.app.sentHeartbeats = session.app.sentHeartbeats ++ pings
  counted : next.countsAtSending = session.countsAtSending ++ List.replicate pings.length framesReceived
  coincides : Coincides env session event ↔ ∀ ping ∈ pings, ping = framesReceived

theorem step_sends (env : Environment) (session : Heartbeats) (event : HeartbeatEvent) (next : Heartbeats)
    (taken : HeartbeatStep env session event next) : ∃ pings framesReceived, Sends env session event next pings framesReceived := by
  cases taken with
  | frame tag body receiving =>
      obtain ⟨app, counts⟩ := receive_app env session tag body
      have sent := (handle_heartbeats env tag body session.app).1
      refine ⟨pingsOf env (tag, body), session.framesReceived + 1, ?_, ?_, ?_⟩
      · rw [app, sent]
      · rw [counts, new_counts _ _ _ _ sent]
      · simp only [Coincides, pingsOf]
        by_cases login : tag = loginResponseTag
        · simp [login]
        · simp [login]
  | timer index pending =>
      have sent := (wake_heartbeats session.app index pending).1
      refine ⟨[session.app.heartbeatTimers[index]], session.framesReceived, sent, new_counts _ _ _ _ sent, ?_⟩
      simp [Coincides, pending]

theorem acknowledges_counted (session : Heartbeats) (acknowledges : Acknowledges session) :
    session.app.sentHeartbeats.length = session.countsAtSending.length := by
  rw [acknowledges, List.length_map]

theorem step_acknowledges (env : Environment) (session : Heartbeats) (event : HeartbeatEvent) (next : Heartbeats)
    (taken : HeartbeatStep env session event next)
    (counted : session.app.sentHeartbeats.length = session.countsAtSending.length) :
    next.app.sentHeartbeats.length = next.countsAtSending.length ∧
      (Acknowledges next ↔ Acknowledges session ∧ Coincides env session event) := by
  obtain ⟨pings, framesReceived, sends⟩ := step_sends env session event next taken
  constructor
  · simp [sends.sent, sends.counted, counted]
  · rw [Acknowledges, sends.sent, sends.counted, List.map_append, List.map_replicate, sends.coincides, Acknowledges]
    have numbers : pings = List.replicate pings.length (framesReceived : Int) ↔ ∀ ping ∈ pings, ping = framesReceived := by
      simp [List.eq_replicate_iff]
    constructor
    · intro same
      obtain ⟨before, now⟩ := List.append_inj same (by rw [counted, List.length_map])
      exact ⟨before, numbers.mp now⟩
    · rintro ⟨before, now⟩
      exact congr (congrArg _ before) (numbers.mpr now)

-- In every run, each heartbeat sent so far is the number of frames received before it exactly when
-- the numbers of the server's frames were the client's own at the steps taken.
theorem heartbeats_acknowledge_iff (env : Environment) (trace : List (Heartbeats × HeartbeatEvent)) (session : Heartbeats)
    (run : Transition.Run (heartbeats env) trace session) :
    Acknowledges session ↔ ∀ taken ∈ trace, Coincides env taken.1 taken.2 := by
  have decided := Transition.run_decides (heartbeats env) Acknowledges
    (fun session => session.app.sentHeartbeats.length = session.countsAtSending.length ∧ ¬ Acknowledges session)
    (Coincides env)
    (by
      intro session opened
      simp [Acknowledges, opened.noHeartbeats, opened.noCounts])
    (by
      intro session event next acknowledges coincides taken
      have counted := acknowledges_counted session acknowledges
      exact (step_acknowledges env session event next taken counted).2.mpr ⟨acknowledges, coincides⟩)
    (by
      intro session event next acknowledges differs taken
      have counted := acknowledges_counted session acknowledges
      obtain ⟨counts, iff⟩ := step_acknowledges env session event next taken counted
      exact ⟨counts, fun kept => differs (iff.mp kept).2⟩)
    (by
      intro session event next ⟨counted, wrong⟩ taken
      obtain ⟨counts, iff⟩ := step_acknowledges env session event next taken counted
      exact ⟨counts, fun kept => wrong (iff.mp kept).1⟩)
    trace session run
  rcases decided with ⟨acknowledges, coincide⟩ | ⟨⟨_, wrong⟩, taken, member, differs⟩
  · exact ⟨fun _ => coincide, fun _ => acknowledges⟩
  · exact ⟨fun acknowledges => absurd acknowledges wrong, fun coincide => absurd (coincide taken member) differs⟩

def firstLogin : Bytes := [0x0A, 1, 0x69, 0x30, 1]

def firstAck : Bytes := [0x10, 2]

def bareStanza : Bytes := [0x1A, 1, 0x66, 0x2A, 1, 0x63]

def heartbeatEnvironment : Environment where
  parseLoginResponse bytes := if bytes = firstLogin then some ⟨1⟩ else none
  parseDataMessageStanza bytes := if bytes = bareStanza then some ⟨[], [], []⟩ else none
  parseHeartbeatAck bytes := if bytes = firstAck then some ⟨2⟩ else none
  rawSubPrivKey := List.replicate 32 1
  authSecret := List.replicate 16 2
  decrypt _ := (-1, [])

def openedSession : Heartbeats := ⟨App.loaded [], true, 0, []⟩

def loggedIn : Heartbeats := ⟨{ App.loaded [] with sentHeartbeats := [1] }, true, 1, [1]⟩

theorem logged_in_run :
    Transition.Run (heartbeats heartbeatEnvironment) [(openedSession, .frame loginResponseTag firstLogin)] loggedIn :=
  .step [] openedSession _ loggedIn (.start openedSession ⟨rfl, rfl, rfl, rfl, rfl⟩) (.frame openedSession _ firstLogin rfl)

theorem login_acknowledged : Acknowledges loggedIn :=
  (heartbeats_acknowledge_iff heartbeatEnvironment _ loggedIn logged_in_run).mpr (by
    intro taken member
    rw [List.mem_singleton.mp member]
    intro _ response parsed
    cases parsed
    rfl)

def stanzaReceived : Heartbeats := loggedIn.receive heartbeatEnvironment dataMessageStanzaTag bareStanza

def ackReceived : Heartbeats := stanzaReceived.receive heartbeatEnvironment heartbeatAckTag firstAck

-- The server answers two frames of the client with 2, and a stanza is the third it has sent.
theorem stanza_unacknowledged :
    ∃ trace session, Transition.Run (heartbeats heartbeatEnvironment) trace session ∧
      session.app.sentHeartbeats = [1, 2] ∧ session.countsAtSending = [1, 3] ∧ ¬ Acknowledges session := by
  have stanza : Transition.Run (heartbeats heartbeatEnvironment) _ stanzaReceived :=
    .step _ loggedIn _ stanzaReceived logged_in_run (.frame loggedIn dataMessageStanzaTag bareStanza rfl)
  have ack : Transition.Run (heartbeats heartbeatEnvironment) _ ackReceived :=
    .step _ stanzaReceived _ ackReceived stanza (.frame stanzaReceived heartbeatAckTag firstAck rfl)
  have timer : Transition.Run (heartbeats heartbeatEnvironment) _ (ackReceived.wake 0) :=
    .step _ ackReceived _ _ ack (.timer ackReceived 0 (by decide))
  exact ⟨_, _, timer, by decide, by decide, by decide⟩

end PushReceiver
