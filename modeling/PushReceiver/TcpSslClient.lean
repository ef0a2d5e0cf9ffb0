import PushReceiver.RoundTrip

set_option autoImplicit false

namespace PushReceiver

variable {σ : Type}

-- What the SSL_read calls of a connection yield, numbered from the first one on. The empty list
-- stands for a result of zero or less; a call never returns more bytes than it is asked for.
abbrev SslReads := Nat → Bytes

-- The do-while loop of CTCPSSLClient::Receive with bReadFully set, and the number of the next call.
def receiveFully (sslRead : SslReads) (size : Nat) (call : Nat) (data : Bytes) : Bytes × Nat :=
  let chunk := (sslRead call).take (size - data.length)
  if chunk = [] then (data, call + 1)
  else if (data ++ chunk).length < size then receiveFully sslRead size (call + 1) (data ++ chunk)
  else (data ++ chunk, call + 1)
termination_by size - data.length
decreasing_by
  rename_i nonempty more
  have progress : 0 < ((sslRead call).take (size - data.length)).length := List.length_pos_iff.mpr nonempty
  simp only [List.length_append] at more ⊢
  omega

-- CTCPSSLClient::Receive. m_eStatus is only changed by Connect and Disconnect.
def sslReceive (connected : Bool) (sslRead : SslReads) (size : Nat) (call : Nat) : Received × Nat :=
  if connected then
    let (data, next) := receiveFully sslRead size call []
    (.bytes data, next)
  else (.socketError, call)

-- The loop at its head, with the number of the next SSL_read call, or the way it was left.
inductive Status (σ : Type) where
  | looping (client : Client σ) (call : Nat)
  | left (outcome : LoopState σ)

def iterate (target : Target) (handlers : Handlers σ) (connected : Bool) (sslRead : SslReads) : Status σ → Status σ
  | .left outcome => .left outcome
  | .looping client call =>
      match loopHead target client with
      | .receives waiting =>
          match sslReceive connected sslRead (requestLength target waiting) call with
          | (.socketError, _) => .left (.breaks waiting)
          | (.bytes chunk, next) =>
              match received target handlers waiting chunk with
              | .returns client => .looping client next
              | .throws exception client => .left (.throws exception client)
      | .spins client => .looping client call
      | outcome => .left outcome

def iterations (target : Target) (handlers : Handlers σ) (connected : Bool) (sslRead : SslReads) (status : Status σ) :
    Nat → Status σ
  | 0 => status
  | rounds + 1 => iterate target handlers connected sslRead (iterations target handlers connected sslRead status rounds)

def Status.loopState (target : Target) : Status σ → LoopState σ
  | .looping client _ => loopHead target client
  | .left outcome => outcome

theorem receive_fully_within (sslRead : SslReads) (size : Nat) (call : Nat) (data : Bytes) (within : data.length ≤ size) :
    (receiveFully sslRead size call data).1.length ≤ size := by
  induction call, data using receiveFully.induct sslRead size with
  | case1 call data chunk failed =>
      rw [receiveFully, if_pos failed]
      exact within
  | case2 call data chunk nonempty more ih =>
      rw [receiveFully, if_neg nonempty, if_pos more]
      exact ih (Nat.le_of_lt more)
  | case3 call data chunk nonempty done =>
      rw [receiveFully, if_neg nonempty, if_neg done]
      have taken : ((sslRead call).take (size - data.length)).length ≤ size - data.length := List.length_take_le _ _
      simp only [List.length_append]
      omega

theorem receive_fully_failed (sslRead : SslReads) (size : Nat) (call : Nat) (data : Bytes) (failed : sslRead call = []) :
    receiveFully sslRead size call data = (data, call + 1) := by
  rw [receiveFully, failed, List.take_nil, if_pos rfl]

theorem iterate_idle (target : Target) (handlers : Handlers σ) (sslRead : SslReads) (client next : Client σ) (call : Nat)
    (idle : loopHead target client = .spins next) :
    iterate target handlers true sslRead (.looping client call) = .looping next call := by
  rw [iterate, idle]

-- A failed SSL_read looks to the loop like a read of no bytes, not like SOCKET_ERROR.
theorem iterate_failed (target : Target) (handlers : Handlers σ) (sslRead : SslReads) (client waiting : Client σ)
    (call : Nat) (receives : loopHead target client = .receives waiting) (failed : sslRead call = []) :
    iterate target handlers true sslRead (.looping client call) = .looping waiting (call + 1) := by
  simp only [iterate, receives, sslReceive, if_true, receive_fully_failed sslRead _ call [] failed,
    received_nothing target handlers waiting]

theorem iterate_oversized (target : Target) (handlers : Handlers σ) (sslRead : SslReads) (client : Client σ) (call : Nat)
    (oversized : target.maxSize < requestLength target client.compute) :
    iterate target handlers true sslRead (.looping client call) = .left (.throws .lengthError client.compute) := by
  have short : client.bytesReadFromServer.length < target.toSize client.compute.minBytesNeeded :=
    Nat.lt_of_sub_pos (Nat.lt_of_le_of_lt (Nat.zero_le _) oversized)
  rw [iterate, loopHead, if_pos short, if_pos oversized]

-- Receive over SSL_read is one of the schedules the loop is proved about.
theorem ssl_schedule (target : Target) (handlers : Handlers σ) (sslRead : SslReads) (client : Client σ) (call rounds : Nat) :
    ∃ chunks, Reader.Respects (receiver target handlers) (loopHead target client) chunks ∧
      (iterations target handlers true sslRead (.looping client call) rounds).loopState target =
        receiveLoop target handlers client (chunks.map .bytes) := by
  induction rounds with
  | zero => exact ⟨[], trivial, rfl⟩
  | succ rounds ih =>
      obtain ⟨chunks, respects, same⟩ := ih
      rw [iterations]
      cases status : iterations target handlers true sslRead (.looping client call) rounds with
      | left outcome =>
          rw [status] at same
          exact ⟨chunks, respects, same⟩
      | looping here next =>
          rw [status] at same
          cases state : loopHead target here with
          | receives waiting =>
              refine ⟨chunks ++ [(receiveFully sslRead (requestLength target waiting) next []).1], ?_, ?_⟩
              · rw [Reader.respects_append, ← receive_loop_deliver, ← same, Status.loopState, state]
                exact ⟨respects, .inr (receive_fully_within sslRead _ next [] (Nat.zero_le _)), trivial⟩
              · rw [List.map_append, receiveLoop, List.foldl_append, ← receiveLoop, ← same, Status.loopState, state]
                simp only [iterate, state, sslReceive, if_true, List.map_cons, List.map_nil, List.foldl_cons, List.foldl_nil,
                  LoopState.resume]
                cases received target handlers waiting (receiveFully sslRead (requestLength target waiting) next []).1 with
                | returns client => rfl
                | throws exception client => rfl
          | spins waiting =>
              refine ⟨chunks, respects, ?_⟩
              rw [← same, iterate_idle target handlers sslRead here waiting next state, Status.loopState, Status.loopState,
                state, head_spins_again target here waiting state]
          | breaks waiting =>
              refine ⟨chunks, respects, ?_⟩
              rw [← same, iterate, state]
              exact state.symm
          | throws exception waiting =>
              refine ⟨chunks, respects, ?_⟩
              rw [← same, iterate, state]
              exact state.symm

-- Once every SSL_read fails the loop can only be left by the allocation of a buffer longer than
-- max_size(), which the current state either asks for at once or never.
theorem failed_reads (target : Target) (handlers : Handlers σ) (sslRead : SslReads) (client : Client σ) (call rounds : Nat)
    (closed : ∀ later, call ≤ later → sslRead later = [])
    (allocated : requestLength target client.compute ≤ target.maxSize) :
    ∃ here next, iterations target handlers true sslRead (.looping client call) rounds = .looping here next ∧
      call ≤ next ∧ requestLength target here.compute = requestLength target client.compute := by
  induction rounds with
  | zero => exact ⟨client, call, rfl, Nat.le_refl call, rfl⟩
  | succ rounds ih =>
      obtain ⟨here, next, reached, later, request⟩ := ih
      rw [iterations, reached]
      cases state : loopHead target here with
      | receives waiting =>
          obtain ⟨rfl, _⟩ := head_receives target here waiting state
          exact ⟨here.compute, next + 1, iterate_failed target handlers sslRead here here.compute next state (closed next later),
            Nat.le_succ_of_le later, request⟩
      | spins waiting =>
          obtain ⟨rfl, _⟩ := spins_stuck target here waiting state
          exact ⟨here.compute, next, iterate_idle target handlers sslRead here here.compute next state, later, request⟩
      | breaks waiting => exact absurd state (head_never_breaks target here waiting)
      | throws exception waiting =>
          have oversized := head_throws target here waiting exception state
          rw [request] at oversized
          exact absurd allocated (Nat.not_le_of_lt oversized)

theorem leaves_iff_oversized (target : Target) (handlers : Handlers σ) (sslRead : SslReads) (client : Client σ) (call : Nat)
    (closed : ∀ later, call ≤ later → sslRead later = []) :
    (∃ rounds outcome, iterations target handlers true sslRead (.looping client call) rounds = .left outcome) ↔
      target.maxSize < target.toSize (calculateMinBytesNeeded client) - client.bytesReadFromServer.length := by
  constructor
  · rintro ⟨rounds, outcome, left⟩
    by_contra allocated
    obtain ⟨here, next, reached, _⟩ := failed_reads target handlers sslRead client call rounds closed
      (Nat.le_of_not_lt allocated)
    rw [reached] at left
    cases left
  · intro oversized
    exact ⟨1, .throws .lengthError client.compute,
      iterate_oversized target handlers sslRead client call oversized⟩

theorem oversized_body_leaves :
    ∃ rounds outcome, iterations .win32 silentHandlers true (fun _ => [])
      (.looping { Client.fresh () with state := .mcsProtoBytes, messageTag := 8, messageSize := 0xFFFFFFFF } 7) rounds =
        .left outcome :=
  (leaves_iff_oversized .win32 silentHandlers (fun _ => [])
    { Client.fresh () with state := .mcsProtoBytes, messageTag := 8, messageSize := 0xFFFFFFFF } 7
    (fun _ _ => rfl)).mpr (by decide)

theorem closed_connection_loops :
    ¬ ∃ rounds outcome, iterations .win32 silentHandlers true (fun _ => []) (.looping (Client.fresh ()) 0) rounds =
      .left outcome := by
  rintro ⟨rounds, outcome, left⟩
  obtain ⟨here, next, reached, _⟩ := failed_reads .win32 silentHandlers (fun _ => []) (Client.fresh ()) 0 rounds
    (fun _ _ => rfl) (by decide)
  rw [reached] at left
  cases left

end PushReceiver
