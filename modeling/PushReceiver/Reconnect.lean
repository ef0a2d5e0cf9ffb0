import Mathlib.Data.List.Induction
import PushReceiver.Harmless
import PushReceiver.Login
import PushReceiver.RoundTrip

set_option autoImplicit false

namespace PushReceiver

variable {σ : Type}

-- The entries of GotMessageBytes that StartReceiver makes while a stream arrives byte by byte;
-- receive_loop_fed gives the same for any other schedule.
def dispatchedOn (target : Target) (handlers : Handlers σ) (client : Client σ) (stream : Bytes) : List Dispatch :=
  (fed target handlers (loopHead target client) stream).client.dispatched.drop client.dispatched.length

-- The loop does not wait for a byte in this state: it goes round, or throws std::length_error.
def Wedged (target : Target) (client : Client σ) : Prop :=
  target.toSize (calculateMinBytesNeeded client) ≤ client.bytesReadFromServer.length ∨
    target.maxSize < target.toSize (calculateMinBytesNeeded client) - client.bytesReadFromServer.length

-- The version byte was refused, and what came with it is taken for the start of a version packet.
structure HalfVersion (client : Client σ) : Prop where
  state : client.state = .mcsVersionTagAndSize
  buffer : client.bytesReadFromServer.length = 2

def Unfinished (target : Target) (client : Client σ) : Prop := Wedged target client ∨ HalfVersion client

theorem empty_body_wedged (target : Target) (client : Client σ) (state : client.state = .mcsProtoBytes)
    (empty : client.messageSize = 0) : Wedged target client := by
  left
  simp only [calculateMinBytesNeeded, state, empty]
  rw [to_int_small _ (by decide) (by decide), to_size_small target _ (by decide) (by decide)]
  exact Nat.zero_le _

theorem bytes_throw (handlers : Handlers σ) (client left : Client σ) (exception : Exception)
    (threw : gotMessageBytes handlers client = .throws exception left) : ∃ app, left = { client.enter with app } := by
  unfold gotMessageBytes at threw
  cases handled : handlers.handle client.messageTag client.bytesReadFromServer client.app with
  | returns app =>
      rw [handled] at threw
      cases threw
  | throws other app =>
      rw [handled] at threw
      cases threw
      exact ⟨app, rfl⟩

theorem size_throws (target : Target) (handlers : Handlers σ) (client left : Client σ) (exception : Exception)
    (threw : gotMessageSize target handlers client = .throws exception left) : Wedged target left := by
  cases decoded : decodeVarint32 target client.bytesReadFromServer 0 with
  | none =>
      simp only [gotMessageSize, decoded] at threw
      cases threw
  | some found =>
      simp only [gotMessageSize, decoded] at threw
      by_cases positive : 0 < found.1
      · rw [if_pos positive] at threw
        cases threw
      · rw [if_neg positive] at threw
        obtain ⟨app, rfl⟩ := bytes_throw handlers _ left exception threw
        exact empty_body_wedged target _ rfl (UInt32.le_zero_iff.mp (UInt32.not_lt.mp positive))

theorem tag_throws (target : Target) (handlers : Handlers σ) (client left : Client σ) (exception : Exception)
    (threw : gotMessageTag target handlers client = .throws exception left) : Wedged target left := by
  unfold gotMessageTag at threw
  cases buffer : client.bytesReadFromServer with
  | nil =>
      rw [buffer] at threw
      cases threw
  | cons tag rest =>
      rw [buffer] at threw
      exact size_throws target handlers _ left exception threw

theorem version_throws (target : Target) (handlers : Handlers σ) (client left : Client σ) (exception : Exception)
    (held : 3 ≤ client.bytesReadFromServer.length) (threw : gotVersion target handlers client = .throws exception left) :
    Unfinished target left := by
  unfold gotVersion at threw
  cases buffer : client.bytesReadFromServer with
  | nil =>
      rw [buffer] at threw
      cases threw
  | cons version rest =>
      rw [buffer] at threw
      dsimp only at threw
      by_cases refused : version.toNat < kMCSVersion ∧ version.toNat ≠ 38
      · rw [if_pos refused] at threw
        cases threw
        by_cases two : rest.length = 2
        · exact .inr ⟨rfl, two⟩
        · refine .inl (.inl ?_)
          rw [need_version target _ rfl]
          rw [buffer, List.length_cons] at held
          exact Nat.lt_of_le_of_ne (Nat.le_of_succ_le_succ held) (Ne.symm two)
      · rw [if_neg refused] at threw
        exact .inl (tag_throws target handlers _ left exception threw)

-- ProcessData is called with the bytes that CalculateMinBytesNeeded asks for.
theorem data_throws (target : Target) (handlers : Handlers σ) (client left : Client σ) (exception : Exception)
    (held : target.toSize (calculateMinBytesNeeded client) ≤ client.bytesReadFromServer.length)
    (threw : processData target handlers client = .throws exception left) : Unfinished target left := by
  unfold processData at threw
  cases state : client.state with
  | mcsVersionTagAndSize =>
      rw [state] at threw
      rw [need_version target client state] at held
      exact version_throws target handlers client left exception held threw
  | mcsTagAndSize =>
      rw [state] at threw
      exact .inl (tag_throws target handlers client left exception threw)
  | mcsSize =>
      rw [state] at threw
      exact .inl (size_throws target handlers client left exception threw)
  | mcsProtoBytes =>
      rw [state] at threw
      obtain ⟨app, rfl⟩ := bytes_throw handlers client left exception threw
      exact .inl (.inl held)

theorem received_throws (target : Target) (handlers : Handlers σ) (client left : Client σ) (chunk : Bytes) (exception : Exception)
    (waiting : loopHead target client = .receives client)
    (threw : received target handlers client chunk = .throws exception left) : Unfinished target left := by
  have computed : client.minBytesNeeded = calculateMinBytesNeeded client := by
    obtain ⟨computed, _⟩ := head_receives target client client waiting
    exact congrArg Client.minBytesNeeded computed
  unfold received at threw
  split at threw
  · dsimp only at threw
    split at threw
    · rename_i full
      rw [computed] at full
      exact data_throws target handlers (client.append chunk) left exception full threw
    · cases threw
  · cases threw

theorem head_throws_wedged (target : Target) (client next : Client σ) (exception : Exception)
    (throws : loopHead target client = .throws exception next) : Wedged target next := by
  have oversized := head_throws target client next exception throws
  unfold loopHead at throws
  split at throws
  · cases throws
    exact .inr oversized
  · cases throws

theorem loop_waiting (target : Target) (handlers : Handlers σ) (client : Client σ) (results : List Received) :
    Waiting target (receiveLoop target handlers client results) := by
  induction results using List.reverseRecOn with
  | nil => exact head_waiting target client
  | append_singleton results result ih =>
      rw [receive_loop_snoc]
      cases result with
      | bytes chunk => exact resume_waiting target handlers _ chunk ih
      | socketError =>
          cases state : receiveLoop target handlers client results with
          | throws exception left => trivial
          | _ => trivial

-- However the first session went, an exception leaves the parser in the middle of something.
theorem session_unfinished (target : Target) (handlers : Handlers σ) (client left : Client σ) (exception : Exception)
    (results : List Received) (threw : receiveLoop target handlers client results = .throws exception left) :
    Unfinished target left := by
  induction results using List.reverseRecOn generalizing exception left with
  | nil => exact .inl (head_throws_wedged target client left exception threw)
  | append_singleton results result ih =>
      have waiting := loop_waiting target handlers client results
      rw [receive_loop_snoc] at threw
      cases state : receiveLoop target handlers client results with
      | receives before =>
          rw [state] at threw waiting
          cases result with
          | socketError => cases threw
          | bytes chunk =>
              cases outcome : received target handlers before chunk with
              | returns next =>
                  rw [LoopState.resume, outcome] at threw
                  exact .inl (head_throws_wedged target next left exception threw)
              | throws other next =>
                  rw [LoopState.resume, outcome] at threw
                  cases threw
                  exact received_throws target handlers before left chunk exception waiting outcome
      | spins before =>
          rw [state] at threw
          cases threw
      | breaks before =>
          rw [state] at threw
          cases threw
      | throws other before =>
          rw [state] at threw
          cases threw
          exact ih left exception state

theorem wedged_reads_nothing (target : Target) (handlers : Handlers σ) (client : Client σ) (wedged : Wedged target client)
    (stream : Bytes) : dispatchedOn target handlers client stream = [] := by
  have stopped : (receiver target handlers).request (loopHead target client) = 0 := by
    cases state : loopHead target client with
    | receives next =>
        obtain ⟨rfl, positive, allocated, _⟩ := head_receives target client next state
        rcases wedged with held | oversized
        · exact absurd (Nat.sub_eq_zero_of_le held) (Nat.ne_of_gt positive)
        · exact absurd allocated (Nat.not_le_of_lt oversized)
    | spins next => rfl
    | breaks next => rfl
    | throws exception next => rfl
  have kept : fed target handlers (loopHead target client) stream = loopHead target client :=
    Reader.deliver_stopped (receiver target handlers) (Waiting target) (receiver_incremental target handlers)
      (loopHead target client) (head_waiting target client) stopped (Reader.singles stream)
  rw [dispatchedOn, kept, head_dispatched, List.drop_length]

-- An IqStanza frame with an empty body behind the version byte.
def probe : Bytes := [41, 7, 0]

theorem fresh_dispatches (target : Target) (handlers : Handlers σ) (app next : σ)
    (handled : handlers.handle 7 [] app = .returns next) :
    dispatchedOn target handlers (Client.fresh app) probe = [⟨7, 0, []⟩] := by
  obtain ⟨between, received, opened⟩ := fed_frame target handlers (Client.fresh app) [41] [] app next
    (opening_fresh app 41 (.inl (Nat.le_refl 41))) (Frame.written 7 [] (by decide)) (written_inside 7 [] (by decide)) handled
  have wire : [41] ++ (Frame.written 7 [] (by decide)).wire = probe := by
    simp [Frame.wire, Frame.written, encodeVarint32, probe]
  rw [wire] at received
  rw [dispatchedOn, received, head_dispatched, opened.dispatched]
  rfl

theorem stopped_stays (target : Target) (handlers : Handlers σ) (client : Client σ) (exception : Exception) (stream : Bytes) :
    fed target handlers (.throws exception client) stream = .throws exception client :=
  Reader.deliver_stopped (receiver target handlers) (Waiting target) (receiver_incremental target handlers)
    (.throws exception client) trivial rfl (Reader.singles stream)

-- The first byte of the new stream completes the old version packet, as its size byte.
theorem half_version_silent (target : Target) (handlers : Handlers σ) (client : Client σ) (half : HalfVersion client) :
    dispatchedOn target handlers client probe = [] := by
  obtain ⟨version, tag, buffer⟩ := List.length_eq_two.mp half.buffer
  have need := need_version target client half.state
  have request := fed_request target handlers client [41] (by simp)
    (by rw [need]; exact Nat.le_trans (by decide) (max_size_lower target)) (by rw [need, buffer]; rfl)
  have whole : probe = [41] ++ [7, 0] := rfl
  simp only [processData, Client.append, Client.compute, half.state, buffer, gotVersion, gotMessageTag, List.cons_append,
    List.nil_append] at request
  rw [dispatchedOn, whole, fed_append, request]
  by_cases refused : version.toNat < kMCSVersion ∧ version.toNat ≠ 38
  · rw [if_pos refused, proceed, stopped_stays]
    exact List.drop_length
  · rw [if_neg refused]
    obtain ⟨loading, returned, atBody⟩ := size_decoded target handlers
      { client with
        state := .mcsSize
        messageTag := tag
        minBytesNeeded := calculateMinBytesNeeded client
        bytesReadFromServer := [41] }
      tag [41] [] client.dispatched client.app ⟨rfl, rfl, rfl, rfl, rfl⟩ (by decide) (by decide) (by decide)
    have needs : target.toSize (calculateMinBytesNeeded loading) = 41 := by
      simp only [calculateMinBytesNeeded, atBody.state, atBody.messageSize]
      rw [to_int_small _ (by decide) (by decide), to_size_small target _ (by decide) (by decide)]
      rfl
    have waits := fed_short target handlers loading [7, 0] (by rw [needs]; exact Nat.le_trans (by decide) (max_size_lower target))
      (by rw [needs, atBody.buffer]; decide)
    rw [returned, proceed, waits]
    exact (congrArg (List.drop client.dispatched.length) atBody.dispatched).trans List.drop_length

theorem unfinished_silent (target : Target) (handlers : Handlers σ) (client : Client σ) (unfinished : Unfinished target client) :
    dispatchedOn target handlers client probe = [] := by
  rcases unfinished with wedged | half
  · exact wedged_reads_nothing target handlers client wedged probe
  · exact half_version_silent target handlers client half

-- ConnectToServer emits an event, and leaves the parser as it is.
theorem connect_keeps_receiver (connection : Connection) (client : FcmClient) :
    ∃ app, (connectToServer connection client).client.receiver = { client.receiver with app } := by
  unfold connectToServer
  cases client.loginIds with
  | none => exact ⟨client.receiver.app, rfl⟩
  | some ids =>
      dsimp only
      split
      · split <;> exact ⟨_, rfl⟩
      · exact ⟨client.receiver.app, rfl⟩

theorem unfinished_app (target : Target) (client : Client σ) (app : σ) (unfinished : Unfinished target client) :
    Unfinished target { client with app } := by
  rcases unfinished with wedged | half
  · exact .inl wedged
  · exact .inr ⟨half.state, half.buffer⟩

-- The frames of a new session are those of a new client, whatever the stream brings.
def SessionForgotten (target : Target) (env : Environment) (used : FcmClient) (persistentIds : List Bytes) : Prop :=
  ∀ stream, dispatchedOn target env.handlers used.receiver stream =
    dispatchedOn target env.handlers (Client.fresh (App.loaded persistentIds)) stream

theorem session_inherited (target : Target) (env : Environment) (client : FcmClient) (results : List Received)
    (exception : Exception) (left : Client App)
    (ended : startReceiver target env.handlers true client.receiver results = .throws exception left)
    (connection : Connection) (persistentIds : List Bytes) :
    ¬ SessionForgotten target env (connectToServer connection { client with receiver := left }).client persistentIds := by
  intro forgotten
  obtain ⟨app, isReceiver⟩ := connect_keeps_receiver connection { client with receiver := left }
  have unfinished := unfinished_app target left app
    (session_unfinished target env.handlers client.receiver left exception results ended)
  have same := forgotten probe
  rw [isReceiver, unfinished_silent target env.handlers _ unfinished,
    fresh_dispatches target env.handlers (App.loaded persistentIds) (App.loaded persistentIds) rfl] at same
  cases same

def openConnection : Connection := ⟨true, fun _ => 1, fun _ => loginSerialized⟩

-- A LoginResponse that does not parse ends the first session.
theorem unparsed_login_inherited :
    ∃ left, startReceiver .x64 poisonEnvironment.handlers true loginClient.receiver ([[41, 3, 1], [9]].map .bytes) =
        .throws (.runtimeError "Cannot parse LoginResponse") left ∧
      ¬ SessionForgotten .x64 poisonEnvironment
        (connectToServer openConnection { loginClient with receiver := left }).client [] :=
  ⟨_, rfl, session_inherited .x64 poisonEnvironment loginClient ([[41, 3, 1], [9]].map .bytes) _ _ rfl openConnection []⟩

-- What the first session leaves when the server answers with version 5.
def refusedVersion : FcmClient :=
  { loginClient with receiver := { Client.fresh (App.loaded []) with minBytesNeeded := 3, bytesReadFromServer := [3, 0] } }

theorem refused_version_inherited :
    startReceiver .x64 poisonEnvironment.handlers true loginClient.receiver [.bytes [5, 3, 0]] =
        .throws (.runtimeError "Got version 5 but expected 41") refusedVersion.receiver ∧
      (connectToServer openConnection refusedVersion).returned = .ok true ∧
      dispatchedOn .x64 poisonEnvironment.handlers (connectToServer openConnection refusedVersion).client.receiver probe = [] ∧
      dispatchedOn .x64 poisonEnvironment.handlers (Client.fresh (App.loaded [])) probe = [⟨7, 0, []⟩] := by
  obtain ⟨request, requested⟩ := login_request_made refusedVersion (7, 8) (by decide +kernel)
  obtain ⟨app, isReceiver⟩ := connect_keeps_receiver openConnection refusedVersion
  refine ⟨rfl, ?_, ?_, ?_⟩
  · exact (connect_outcome openConnection refusedVersion (7, 8) request (by decide +kernel) requested rfl).1
  · rw [isReceiver]
    exact unfinished_silent .x64 poisonEnvironment.handlers _ (.inr ⟨rfl, rfl⟩)
  · exact fresh_dispatches .x64 poisonEnvironment.handlers (App.loaded []) (App.loaded []) rfl

end PushReceiver
