import PushReceiver.Client
import PushReceiver.Library.Reader

set_option autoImplicit false

namespace PushReceiver

variable {σ : Type}

-- The result of m_SecureTCPClient->Receive: SOCKET_ERROR, or the nBytesRead bytes at the start of `buf`.
inductive Received where
  | socketError
  | bytes (chunk : Bytes)
deriving DecidableEq, Repr

-- Where the while loop of StartReceiver stands: inside Receive, going round without reading,
-- or left by the break or by an exception.
inductive LoopState (σ : Type) where
  | receives (client : Client σ)
  | spins (client : Client σ)
  | breaks (client : Client σ)
  | throws (exception : Exception) (client : Client σ)
deriving DecidableEq, Repr

def LoopState.client : LoopState σ → Client σ
  | .receives client => client
  | .spins client => client
  | .breaks client => client
  | .throws _ client => client

-- The length of `buf`. The subtraction is reached only when the buffer is the smaller one.
def requestLength (target : Target) (client : Client σ) : Nat :=
  target.toSize client.minBytesNeeded - client.bytesReadFromServer.length

def Client.compute (client : Client σ) : Client σ :=
  { client with minBytesNeeded := calculateMinBytesNeeded client }

-- An iteration up to the call of Receive. The std::vector of `buf` throws std::length_error
-- above max_size(); smaller allocations are taken to succeed.
def loopHead (target : Target) (client : Client σ) : LoopState σ :=
  if client.bytesReadFromServer.length < target.toSize client.compute.minBytesNeeded then
    if target.maxSize < requestLength target client.compute then .throws .lengthError client.compute
    else .receives client.compute
  else .spins client.compute

-- The rest of the iteration after Receive has returned a count of at least zero.
def received (target : Target) (handlers : Handlers σ) (client : Client σ) (chunk : Bytes) : Outcome (Client σ) :=
  if 0 < chunk.length then
    let client := { client with bytesReadFromServer := client.bytesReadFromServer ++ chunk }
    if target.toSize client.minBytesNeeded ≤ client.bytesReadFromServer.length then
      processData target handlers client
    else .returns client
  else .returns client

def proceed (target : Target) : Outcome (Client σ) → LoopState σ
  | .returns client => loopHead target client
  | .throws exception client => .throws exception client

def LoopState.resume (target : Target) (handlers : Handlers σ) : LoopState σ → Received → LoopState σ
  | .receives client, .socketError => .breaks client
  | .receives client, .bytes chunk => proceed target (received target handlers client chunk)
  | stopped, _ => stopped

def receiveLoop (target : Target) (handlers : Handlers σ) (client : Client σ) (results : List Received) : LoopState σ :=
  results.foldl (LoopState.resume target handlers) (loopHead target client)

def startReceiver (target : Target) (handlers : Handlers σ) (connected : Bool) (client : Client σ)
    (results : List Received) : LoopState σ :=
  if connected then receiveLoop target handlers client results
  else .throws (.runtimeError "Not connected to server") client

-- The loop as a consumer of the inbound stream. Only a loop inside Receive asks for bytes.
def receiver (target : Target) (handlers : Handlers σ) : Reader.Consumer (LoopState σ) UInt8 where
  request
    | .receives client => requestLength target client
    | _ => 0
  absorb state chunk := state.resume target handlers (.bytes chunk)

def Waiting (target : Target) : LoopState σ → Prop
  | .receives client => loopHead target client = .receives client
  | _ => True

theorem need_version (target : Target) (client : Client σ) (state : client.state = .mcsVersionTagAndSize) :
    target.toSize (calculateMinBytesNeeded client) = 3 := by
  simp only [calculateMinBytesNeeded, state]
  exact to_size_small target _ (by decide) (by decide)

theorem need_tag (target : Target) (client : Client σ) (state : client.state = .mcsTagAndSize) :
    target.toSize (calculateMinBytesNeeded client) = 2 := by
  simp only [calculateMinBytesNeeded, state]
  exact to_size_small target _ (by decide) (by decide)

theorem compute_buffer (client : Client σ) : client.compute.bytesReadFromServer = client.bytesReadFromServer := rfl

theorem compute_compute (client : Client σ) : client.compute.compute = client.compute := rfl

theorem head_spins_again (target : Target) (client next : Client σ) (spins : loopHead target client = .spins next) :
    loopHead target next = .spins next := by
  unfold loopHead at spins
  split at spins
  · split at spins <;> cases spins
  · rename_i held
    cases spins
    rw [loopHead, compute_compute, compute_buffer, if_neg held]

theorem head_receives (target : Target) (client next : Client σ) (receives : loopHead target client = .receives next) :
    next = client.compute ∧ 0 < requestLength target next ∧ requestLength target next ≤ target.maxSize ∧
      loopHead target next = .receives next := by
  unfold loopHead at receives
  split at receives
  · rename_i short
    split at receives
    · cases receives
    · rename_i allocated
      cases receives
      refine ⟨rfl, Nat.sub_pos_of_lt short, Nat.le_of_not_lt allocated, ?_⟩
      rw [loopHead, compute_compute, compute_buffer, if_pos short, if_neg allocated]
  · cases receives

def Progresses (target : Target) (client : Client σ) : Prop :=
  client.bytesReadFromServer.length < target.toSize (calculateMinBytesNeeded client)

theorem spins_stuck (target : Target) (client next : Client σ) (idle : loopHead target client = .spins next) :
    next = client.compute ∧ ¬ Progresses target client := by
  unfold loopHead at idle
  split at idle
  · split at idle <;> cases idle
  · rename_i held
    cases idle
    exact ⟨rfl, held⟩

theorem head_throws (target : Target) (client next : Client σ) (exception : Exception)
    (throws : loopHead target client = .throws exception next) :
    target.maxSize < requestLength target client.compute := by
  unfold loopHead at throws
  split at throws
  · split at throws
    · assumption
    · cases throws
  · cases throws

theorem head_never_breaks (target : Target) (client next : Client σ) : loopHead target client ≠ .breaks next := by
  unfold loopHead
  split
  · split <;> exact nofun
  · exact nofun

theorem head_waiting (target : Target) (client : Client σ) : Waiting target (loopHead target client) := by
  cases state : loopHead target client with
  | receives next => exact (head_receives target client next state).2.2.2
  | spins next => trivial
  | breaks next => trivial
  | throws exception next => trivial

theorem resume_waiting (target : Target) (handlers : Handlers σ) (state : LoopState σ) (chunk : Bytes)
    (waiting : Waiting target state) : Waiting target (state.resume target handlers (.bytes chunk)) := by
  cases state with
  | receives client =>
      simp only [LoopState.resume]
      cases outcome : received target handlers client chunk with
      | returns next => exact head_waiting target next
      | throws exception next => trivial
  | spins client => exact waiting
  | breaks client => exact waiting
  | throws exception client => exact waiting

def Client.append (client : Client σ) (chunk : Bytes) : Client σ :=
  { client with bytesReadFromServer := client.bytesReadFromServer ++ chunk }

theorem append_append (client : Client σ) (left right : Bytes) :
    (client.append left).append right = client.append (left ++ right) := by
  simp [Client.append, List.append_assoc]

theorem request_append (target : Target) (client : Client σ) (chunk : Bytes) :
    requestLength target (client.append chunk) = requestLength target client - chunk.length := by
  simp only [requestLength, Client.append, List.length_append]
  omega

theorem received_nothing (target : Target) (handlers : Handlers σ) (client : Client σ) :
    received target handlers client [] = .returns client := rfl

theorem received_short (target : Target) (handlers : Handlers σ) (client : Client σ) (chunk : Bytes)
    (short : chunk.length < requestLength target client) :
    received target handlers client chunk = .returns (client.append chunk) := by
  unfold received
  split
  · rw [if_neg]
    · rfl
    · simp only [requestLength] at short
      simp only [List.length_append]
      omega
  · rename_i empty
    have nothing : chunk = [] := List.eq_nil_of_length_eq_zero (by omega)
    simp [nothing, Client.append]

theorem received_full (target : Target) (handlers : Handlers σ) (client : Client σ) (chunk : Bytes)
    (nonempty : 0 < chunk.length) (full : requestLength target client ≤ chunk.length) :
    received target handlers client chunk = processData target handlers (client.append chunk) := by
  simp only [requestLength] at full
  rw [received, if_pos nonempty, if_pos (by simp only [List.length_append]; omega)]
  rfl

theorem head_append (target : Target) (client : Client σ) (chunk : Bytes)
    (waiting : loopHead target client = .receives client) (short : chunk.length < requestLength target client) :
    loopHead target (client.append chunk) = .receives (client.append chunk) := by
  obtain ⟨computed, _, allocated, _⟩ := head_receives target client client waiting
  have same : (client.append chunk).compute = client.append chunk := by
    rw [computed]
    rfl
  simp only [requestLength] at short allocated
  rw [loopHead, same, if_pos (by simp only [Client.append, List.length_append]; omega), if_neg]
  simp only [requestLength, Client.append, List.length_append]
  omega

theorem resume_short (target : Target) (handlers : Handlers σ) (client : Client σ) (chunk : Bytes)
    (waiting : loopHead target client = .receives client) (short : chunk.length < requestLength target client) :
    (LoopState.receives client).resume target handlers (.bytes chunk) = .receives (client.append chunk) := by
  simp only [LoopState.resume, received_short target handlers client chunk short]
  exact head_append target client chunk waiting short

-- However a request is answered, in one piece or in two, ProcessData sees the same buffer.
theorem resume_joined (target : Target) (handlers : Handlers σ) (client : Client σ) (left right : Bytes)
    (waiting : loopHead target client = .receives client) (rightNonempty : right ≠ [])
    (leftShort : left.length < requestLength target client) :
    (LoopState.receives client).resume target handlers (.bytes (left ++ right)) =
      ((LoopState.receives client).resume target handlers (.bytes left)).resume target handlers (.bytes right) := by
  have leftWaits := head_append target client left waiting leftShort
  have rightLength : 0 < right.length := List.length_pos_iff.mpr rightNonempty
  rw [resume_short target handlers client left waiting leftShort]
  by_cases short : (left ++ right).length < requestLength target client
  · have rightShort : right.length < requestLength target (client.append left) := by
      rw [request_append]
      simp only [List.length_append] at short
      omega
    rw [resume_short target handlers client (left ++ right) waiting short,
      resume_short target handlers (client.append left) right leftWaits rightShort, append_append]
  · have full : requestLength target client ≤ (left ++ right).length := Nat.le_of_not_lt short
    have rightFull : requestLength target (client.append left) ≤ right.length := by
      rw [request_append]
      simp only [List.length_append] at full
      omega
    have nonempty : 0 < (left ++ right).length := by
      simp only [List.length_append]
      omega
    simp only [LoopState.resume, received_full target handlers client (left ++ right) nonempty full,
      received_full target handlers (client.append left) right rightLength rightFull, append_append]

theorem waiting_request (target : Target) (client : Client σ) (waiting : Waiting target (.receives client)) :
    0 < requestLength target client :=
  (head_receives target client client waiting).2.1

theorem receiver_incremental (target : Target) (handlers : Handlers σ) :
    Reader.Incremental (receiver target handlers) (Waiting target) where
  stopped state chunk waiting stopped := by
    cases state with
    | receives client => exact absurd stopped (Nat.ne_of_gt (waiting_request target client waiting))
    | spins client => rfl
    | breaks client => rfl
    | throws exception client => rfl
  idle state waiting := by
    cases state with
    | receives client => exact waiting
    | spins client => rfl
    | breaks client => rfl
    | throws exception client => rfl
  joined state left right waiting leftNonempty rightNonempty within := by
    cases state with
    | receives client =>
        have rightLength : 0 < right.length := List.length_pos_iff.mpr rightNonempty
        have leftShort : left.length < requestLength target client := by
          have total : (left ++ right).length ≤ requestLength target client := within
          simp only [List.length_append] at total
          omega
        exact resume_joined target handlers client left right waiting rightNonempty leftShort
    | spins client => rfl
    | breaks client => rfl
    | throws exception client => rfl
  remaining state chunk waiting short := by
    cases state with
    | receives client =>
        have resumed := resume_short target handlers client chunk waiting short
        simp only [receiver, resumed]
        exact request_append target client chunk
    | spins client => exact absurd short (Nat.not_lt_zero _)
    | breaks client => exact absurd short (Nat.not_lt_zero _)
    | throws exception client => exact absurd short (Nat.not_lt_zero _)
  stays state chunk waiting _ := resume_waiting target handlers state chunk waiting

end PushReceiver
