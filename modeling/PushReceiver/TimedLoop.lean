import PushReceiver.Heartbeat

set_option autoImplicit false

namespace PushReceiver

-- StartReceiver's loop and the threads of the timers beside it.
inductive LoopEvent where
  | result (result : Received)
  | timer (index : Nat)
deriving DecidableEq, Repr

-- A timer touches nothing the parser works on.
def Client.wake (client : Client App) (index : Nat) : Client App := { client with app := client.app.wake index }

def LoopState.wake (index : Nat) : LoopState App → LoopState App
  | .receives client => .receives (client.wake index)
  | .spins client => .spins (client.wake index)
  | .breaks client => .breaks (client.wake index)
  | .throws exception client => .throws exception (client.wake index)

inductive TimedStep (target : Target) (env : Environment) : LoopState App → LoopEvent → LoopState App → Prop where
  | result (state : LoopState App) (result : Received) :
      TimedStep target env state (.result result) (state.resume target env.handlers result)
  | timer (state : LoopState App) (index : Nat) (pending : index < state.client.app.heartbeatTimers.length) :
      TimedStep target env state (.timer index) (state.wake index)

def timedLoop (target : Target) (env : Environment) : Transition.System (LoopState App) LoopEvent where
  initial state := ∃ persistentIds, state = loopHead target (Client.fresh (App.loaded persistentIds))
  step := TimedStep target env

-- The frames of the session are the entries of GotMessageBytes.
structure Represents (state : LoopState App) (session : Heartbeats) : Prop where
  app : session.app = state.client.app
  frames : session.framesReceived = state.client.dispatched.length
  stopped : session.receiving = false → ∃ exception client, state = .throws exception client

theorem wake_client (state : LoopState App) (index : Nat) : (state.wake index).client = state.client.wake index := by
  cases state with
  | receives client => rfl
  | spins client => rfl
  | breaks client => rfl
  | throws exception client => rfl

theorem resume_thrown (target : Target) (handlers : Handlers App) (exception : Exception) (client : Client App)
    (result : Received) : (LoopState.throws exception client).resume target handlers result = .throws exception client := rfl

theorem represents_initial (target : Target) (persistentIds : List Bytes) :
    Represents (loopHead target (Client.fresh (App.loaded persistentIds))) ⟨App.loaded persistentIds, true, 0, []⟩ := by
  refine ⟨?_, ?_, nofun⟩
  · exact (proceed_app target (.returns (Client.fresh (App.loaded persistentIds)))).symm
  · rw [head_dispatched]
    rfl

theorem represents_entered (target : Target) (env : Environment) (entering : Client App) (session : Heartbeats)
    (app : session.app = entering.app) (frames : session.framesReceived = entering.dispatched.length) :
    Represents (proceed target (gotMessageBytes env.handlers entering))
      (session.receive env entering.messageTag entering.bytesReadFromServer) := by
  unfold gotMessageBytes Heartbeats.receive
  rw [app]
  cases env.handlers.handle entering.messageTag entering.bytesReadFromServer entering.app with
  | returns next =>
      refine ⟨?_, ?_, nofun⟩
      · rw [proceed_app]
        rfl
      · rw [proceed_dispatched, frames]
        simp [Outcome.state, getNextMessage, Client.enter]
  | throws exception next =>
      refine ⟨rfl, ?_, fun _ => ⟨exception, _, rfl⟩⟩
      rw [proceed_dispatched, frames]
      simp [Outcome.state, Client.enter]

theorem represents_step (target : Target) (env : Environment) (state : LoopState App) (event : LoopEvent)
    (next : LoopState App) (session : Heartbeats) (represents : Represents state session)
    (taken : TimedStep target env state event next) :
    Represents next session ∨ ∃ event after, HeartbeatStep env session event after ∧ Represents next after := by
  obtain ⟨app, frames, stopped⟩ := represents
  cases taken with
  | result result =>
      rcases resume_touches target env.handlers state result with
        ⟨sameEntries, sameApp⟩ | ⟨waiting, chunk, entering, rfl, rfl, entries, sameApp, enters⟩
      · refine .inl ⟨by rw [sameApp, app], by rw [sameEntries, frames], ?_⟩
        intro left
        obtain ⟨exception, client, rfl⟩ := stopped left
        exact ⟨exception, client, resume_thrown target env.handlers exception client result⟩
      · have receiving : session.receiving = true := by
          cases looping : session.receiving with
          | true => rfl
          | false =>
              obtain ⟨exception, client, thrown⟩ := stopped looping
              cases thrown
        refine .inr ⟨.frame entering.messageTag entering.bytesReadFromServer, _, .frame session _ _ receiving, ?_⟩
        rw [enters]
        apply represents_entered
        · rw [app, sameApp]
          rfl
        · rw [frames, entries]
          rfl
  | timer index pending =>
      refine .inr ⟨.timer index, _, .timer session index (by rwa [app]), ?_⟩
      refine ⟨?_, ?_, ?_⟩
      · rw [wake_client, Heartbeats.wake, app]
        rfl
      · rw [wake_client]
        exact frames
      · intro left
        obtain ⟨exception, client, rfl⟩ := stopped left
        exact ⟨exception, client.wake index, rfl⟩

-- However the bytes come and the timers fire, the heartbeats are those of a session of frames.
theorem timed_loop_represented (target : Target) (env : Environment) (trace : List (LoopState App × LoopEvent))
    (state : LoopState App) (run : Transition.Run (timedLoop target env) trace state) :
    ∃ events session, Transition.Run (heartbeats env) events session ∧ Represents state session := by
  apply Transition.run_simulates (timedLoop target env) (heartbeats env) Represents _ _ trace state run
  · intro state ⟨persistentIds, opened⟩
    rw [opened]
    exact ⟨_, ⟨rfl, rfl, rfl, rfl, rfl⟩, represents_initial target persistentIds⟩
  · intro state event next session represents taken
    exact represents_step target env state event next session represents taken

end PushReceiver
