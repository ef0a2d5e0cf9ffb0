import Mathlib.Data.List.Perm.Basic
import PushReceiver.Heartbeat

set_option autoImplicit false

namespace PushReceiver

-- The client, the server and what is in flight between them. `loginsHandled` is ghost state.
structure KeepAlive where
  session : Heartbeats
  pings : List Int
  inbound : List (UInt8 × Bytes)
  loginsHandled : Nat
deriving DecidableEq, Repr

inductive KeepAliveEvent where
  | sends (tag : UInt8) (body : Bytes)
  | replies (ping : Nat) (body : Bytes)
  | delivers (index : Nat)
  | fires (timer : Nat)
deriving DecidableEq, Repr

-- A step of the client puts the heartbeats it sends on the way to the server.
def KeepAlive.proceed (state : KeepAlive) (next : Heartbeats) : KeepAlive :=
  { state with
    session := next
    pings := state.pings ++ next.app.sentHeartbeats.drop state.session.app.sentHeartbeats.length }

def KeepAlive.deliver (env : Environment) (state : KeepAlive) (index : Nat) (frame : UInt8 × Bytes) : KeepAlive :=
  { state.proceed (state.session.receive env frame.1 frame.2) with
    inbound := state.inbound.eraseIdx index
    loginsHandled := state.loginsHandled + if frame.1 = loginResponseTag then 1 else 0 }

-- Messages may overtake each other in both directions. The server acknowledges a ping once, and
-- sends no other HeartbeatAck.
inductive KeepAliveStep (env : Environment) : KeepAlive → KeepAliveEvent → KeepAlive → Prop where
  | sends (state : KeepAlive) (tag : UInt8) (body : Bytes) (noAck : tag ≠ heartbeatAckTag)
      (parses : tag = loginResponseTag → ∃ response, env.parseLoginResponse body = some response) :
      KeepAliveStep env state (.sends tag body) { state with inbound := state.inbound ++ [(tag, body)] }
  | replies (state : KeepAlive) (ping : Nat) (body : Bytes) (ack : HeartbeatAck) (inFlight : ping < state.pings.length)
      (parses : env.parseHeartbeatAck body = some ack) :
      KeepAliveStep env state (.replies ping body)
        { state with pings := state.pings.eraseIdx ping, inbound := state.inbound ++ [(heartbeatAckTag, body)] }
  | delivers (state : KeepAlive) (index : Nat) (inFlight : index < state.inbound.length)
      (receiving : state.session.receiving = true) :
      KeepAliveStep env state (.delivers index) (state.deliver env index state.inbound[index])
  | fires (state : KeepAlive) (timer : Nat) (pending : timer < state.session.app.heartbeatTimers.length) :
      KeepAliveStep env state (.fires timer) (state.proceed (state.session.wake timer))

structure KeepAlive.Opened (state : KeepAlive) : Prop where
  session : state.session.Opened
  noPings : state.pings = []
  noFrames : state.inbound = []
  noLogins : state.loginsHandled = 0

def keepAlive (env : Environment) : Transition.System KeepAlive KeepAliveEvent where
  initial := KeepAlive.Opened
  step := KeepAliveStep env

def isAck (frame : UInt8 × Bytes) : Bool := frame.1 = heartbeatAckTag

def KeepAlive.underWay (state : KeepAlive) : Nat :=
  state.session.app.heartbeatTimers.length + state.pings.length + state.inbound.countP isAck

def FrameParses (env : Environment) (frame : UInt8 × Bytes) : Prop :=
  (frame.1 = loginResponseTag → ∃ response, env.parseLoginResponse frame.2 = some response) ∧
    (frame.1 = heartbeatAckTag → ∃ ack, env.parseHeartbeatAck frame.2 = some ack)

structure KeepAliveInvariant (env : Environment) (state : KeepAlive) : Prop where
  conserved : state.underWay = state.loginsHandled
  parse : ∀ frame ∈ state.inbound, FrameParses env frame

theorem pings_of_parsed (env : Environment) (frame : UInt8 × Bytes) (parses : FrameParses env frame) :
    (pingsOf env frame).length = if frame.1 = loginResponseTag then 1 else 0 := by
  unfold pingsOf
  split
  · rename_i login
    obtain ⟨response, parsed⟩ := parses.1 login
    simp [parsed]
  · rfl

theorem timers_of_parsed (env : Environment) (frame : UInt8 × Bytes) (parses : FrameParses env frame) :
    (timersOf env frame).length = [frame].countP isAck := by
  unfold timersOf
  by_cases isTag : frame.1 = heartbeatAckTag
  · obtain ⟨ack, parsed⟩ := parses.2 isTag
    simp [isAck, isTag, parsed]
  · simp [isAck, isTag]

theorem taken_counts {α : Type} (list : List α) (index : Nat) (bound : index < list.length) (counted : α → Bool) :
    [list[index]].countP counted + (list.eraseIdx index).countP counted = list.countP counted := by
  rw [← List.countP_append]
  exact (List.getElem_cons_eraseIdx_perm bound).countP_eq counted

theorem proceed_pings (state : KeepAlive) (next : Heartbeats) (pings : List Int)
    (sent : next.app.sentHeartbeats = state.session.app.sentHeartbeats ++ pings) :
    (state.proceed next).pings = state.pings ++ pings := by
  rw [KeepAlive.proceed, sent, List.drop_left]

-- An ack becomes a timer, a login a ping, and every other frame nothing.
theorem deliver_conserves (env : Environment) (state : KeepAlive) (index : Nat) (inFlight : index < state.inbound.length)
    (conserved : state.underWay = state.loginsHandled) (parses : FrameParses env state.inbound[index]) :
    (state.deliver env index state.inbound[index]).underWay = (state.deliver env index state.inbound[index]).loginsHandled := by
  obtain ⟨sent, timers⟩ := handle_heartbeats env state.inbound[index].1 state.inbound[index].2 state.session.app
  obtain ⟨app, _⟩ := receive_app env state.session state.inbound[index].1 state.inbound[index].2
  rw [← app] at sent timers
  have pings := proceed_pings state _ _ sent
  have taken := taken_counts state.inbound index inFlight isAck
  have newPings := pings_of_parsed env state.inbound[index] parses
  have newTimers := timers_of_parsed env state.inbound[index] parses
  simp only [KeepAlive.underWay, KeepAlive.deliver] at conserved ⊢
  rw [pings, List.length_append, newPings]
  have length : (state.session.receive env state.inbound[index].1 state.inbound[index].2).app.heartbeatTimers.length =
      state.session.app.heartbeatTimers.length + [state.inbound[index]].countP isAck := by
    rw [timers, List.length_append, newTimers]
  simp only [KeepAlive.proceed, length]
  omega

theorem fires_conserves (state : KeepAlive) (timer : Nat) (pending : timer < state.session.app.heartbeatTimers.length) :
    (state.proceed (state.session.wake timer)).underWay = state.underWay := by
  obtain ⟨sent, timers⟩ := wake_heartbeats state.session.app timer pending
  have pings := proceed_pings state (state.session.wake timer) _ sent
  have length := List.length_eraseIdx_add_one pending
  simp only [KeepAlive.underWay, pings, List.length_append, List.length_singleton]
  simp only [KeepAlive.proceed, Heartbeats.wake, timers]
  omega

theorem keep_alive_step (env : Environment) (state : KeepAlive) (event : KeepAliveEvent) (next : KeepAlive)
    (invariant : KeepAliveInvariant env state) (taken : KeepAliveStep env state event next) :
    KeepAliveInvariant env next := by
  obtain ⟨conserved, parse⟩ := invariant
  cases taken with
  | sends tag body noAck parses =>
      constructor
      · rw [← conserved]
        simp [KeepAlive.underWay, isAck, noAck]
      · intro frame member
        rcases List.mem_append.mp member with earlier | last
        · exact parse frame earlier
        · rw [List.mem_singleton.mp last]
          exact ⟨parses, fun isTag => absurd isTag noAck⟩
  | replies ping body ack inFlight parses =>
      constructor
      · have length := List.length_eraseIdx_add_one inFlight
        rw [← conserved]
        simp only [KeepAlive.underWay, List.countP_append, List.countP_singleton, isAck, decide_true, if_true]
        omega
      · intro frame member
        rcases List.mem_append.mp member with earlier | last
        · exact parse frame earlier
        · rw [List.mem_singleton.mp last]
          exact ⟨nofun, fun _ => ⟨ack, parses⟩⟩
  | delivers index inFlight receiving =>
      constructor
      · exact deliver_conserves env state index inFlight conserved (parse _ (List.getElem_mem inFlight))
      · intro frame member
        exact parse frame (List.mem_of_mem_eraseIdx member)
  | fires timer pending =>
      exact ⟨(fires_conserves state timer pending).trans conserved, parse⟩

theorem keep_alive_conserved (env : Environment) (trace : List (KeepAlive × KeepAliveEvent)) (state : KeepAlive)
    (run : Transition.Run (keepAlive env) trace state) : state.underWay = state.loginsHandled := by
  have kept := Transition.run_keeps (keepAlive env) (KeepAliveInvariant env)
    (by
      intro state opened
      constructor
      · simp [KeepAlive.underWay, opened.session.noTimers, opened.noPings, opened.noFrames, opened.noLogins]
      · simp [opened.noFrames])
    (keep_alive_step env) trace state run
  exact kept.conserved

def keepAliveOpened : KeepAlive := ⟨openedSession, [], [], 0⟩

def loginOnTheWay : KeepAlive := ⟨openedSession, [], [(loginResponseTag, firstLogin)], 0⟩

def pingOnTheWay : KeepAlive := loginOnTheWay.deliver heartbeatEnvironment 0 (loginResponseTag, firstLogin)

def ackOnTheWay : KeepAlive := { pingOnTheWay with pings := [], inbound := [(heartbeatAckTag, firstAck)] }

def timerStarted : KeepAlive := ackOnTheWay.deliver heartbeatEnvironment 0 (heartbeatAckTag, firstAck)

theorem timer_started_run : ∃ trace, Transition.Run (keepAlive heartbeatEnvironment) trace timerStarted := by
  have opened : Transition.Run (keepAlive heartbeatEnvironment) [] keepAliveOpened :=
    .start keepAliveOpened ⟨⟨rfl, rfl, rfl, rfl, rfl⟩, rfl, rfl, rfl⟩
  have sent : Transition.Run (keepAlive heartbeatEnvironment) _ loginOnTheWay :=
    .step _ keepAliveOpened _ loginOnTheWay opened
      (.sends keepAliveOpened loginResponseTag firstLogin (by decide) (fun _ => ⟨⟨1⟩, rfl⟩))
  have pinged : Transition.Run (keepAlive heartbeatEnvironment) _ pingOnTheWay :=
    .step _ loginOnTheWay _ pingOnTheWay sent (.delivers loginOnTheWay 0 (by decide) rfl)
  have acknowledged : Transition.Run (keepAlive heartbeatEnvironment) _ ackOnTheWay :=
    .step _ pingOnTheWay _ ackOnTheWay pinged (.replies pingOnTheWay 0 firstAck ⟨2⟩ (by decide) rfl)
  exact ⟨_, .step _ ackOnTheWay _ timerStarted acknowledged (.delivers ackOnTheWay 0 (by decide) rfl)⟩

theorem keep_alive_conserved_timer :
    timerStarted.session.app.heartbeatTimers = [2] ∧ timerStarted.underWay = timerStarted.loginsHandled := by
  obtain ⟨trace, run⟩ := timer_started_run
  exact ⟨rfl, keep_alive_conserved heartbeatEnvironment trace timerStarted run⟩

end PushReceiver
