import PushReceiver.Segmentation
import PushReceiver.Library.Transition

set_option autoImplicit false

namespace PushReceiver

variable {σ : Type}

-- One iteration of the while loop that comes round to its head again. An insert that would pass
-- max_size() throws std::length_error and leaves the loop, as a throwing handler does.
inductive Iteration (target : Target) (handlers : Handlers σ) : Client σ → Bytes → Client σ → Prop where
  | reads {client waiting next : Client σ} {chunk : Bytes} (receives : loopHead target client = .receives waiting)
      (within : chunk.length ≤ requestLength target waiting)
      (fits : waiting.bytesReadFromServer.length + chunk.length ≤ target.maxSize)
      (returned : received target handlers waiting chunk = .returns next) : Iteration target handlers client chunk next
  | spins {client next : Client σ} (idle : loopHead target client = .spins next) :
      Iteration target handlers client [] next

def heads (target : Target) (handlers : Handlers σ) : Transition.System (Client σ) Bytes where
  initial client := ∃ app, client = Client.fresh app
  step := Iteration target handlers

-- The size read is 1 and the byte that came with its prefix is already the whole body.
def StallsOn (target : Target) (client : Client σ) (chunk : Bytes) : Prop :=
  client.state = .mcsSize ∧ ∃ varintLen, decodeVarint32 target (client.bytesReadFromServer ++ chunk) 0 = some (1, varintLen) ∧
    varintLen + 1 = (client.bytesReadFromServer ++ chunk).length

-- The first `tried` bytes were decoded without reaching the end of the prefix. Their number is
-- odd, so on a 64-bit target it never becomes one that the conversion to int would hide.
def SizeOpen (client : Client σ) : Prop :=
  ∃ tried, tried % 2 = 1 ∧ tried ≤ 2147483647 ∧ Leb128.Open (client.bytesReadFromServer.take tried) ∧
    tried ≤ client.bytesReadFromServer.length ∧ client.bytesReadFromServer.length ≤ tried + 1 ∧
    client.sizePacketSoFar = toInt (1 + tried)

def HeadInvariant (target : Target) (client : Client σ) : Prop :=
  match client.state with
  | .mcsVersionTagAndSize => client.bytesReadFromServer.length < 3
  | .mcsTagAndSize => client.bytesReadFromServer.length < 2
  | .mcsSize => SizeOpen client
  | .mcsProtoBytes => client.bytesReadFromServer.length < target.toSize (toInt client.messageSize.toNat)

-- At the last odd number an int can count, size_t wraps to the right number on a 32-bit target
-- and to one no vector can have on a 64-bit one.
theorem need_size (target : Target) (tried : Nat) (bounded : tried ≤ 2147483647) :
    (target.toSize (toInt (1 + tried) + 1) = tried + 2 ∧ (tried < 2147483647 ∨ target.maxSize = 2147483647)) ∨
      (tried = 2147483647 ∧ target.maxSize + 2147483648 < target.toSize (toInt (1 + tried) + 1)) := by
  by_cases small : tried < 2147483647
  · left
    rw [to_int_small _ (by omega) (by omega), to_size_small target _ (by omega) (by omega)]
    omega
  · have last : tried = 2147483647 := by omega
    subst last
    rcases target.width with narrow | wide
    · left
      refine ⟨?_, .inr (max_size_narrow target narrow)⟩
      simp only [Target.toSize, narrow]
      decide
    · right
      refine ⟨rfl, ?_⟩
      rw [max_size_wide target wide]
      simp only [Target.toSize, wide]
      decide

theorem invariant_fresh (target : Target) (app : σ) : HeadInvariant target (Client.fresh app) := by
  simp [HeadInvariant, Client.fresh]

theorem invariant_progresses (target : Target) (client : Client σ) (invariant : HeadInvariant target client) :
    Progresses target client := by
  unfold HeadInvariant at invariant
  unfold Progresses
  cases state : client.state with
  | mcsVersionTagAndSize =>
      rw [need_version target client state]
      simpa only [state] using invariant
  | mcsTagAndSize =>
      rw [need_tag target client state]
      simpa only [state] using invariant
  | mcsSize =>
      simp only [state] at invariant
      obtain ⟨tried, _, bounded, _, _, within, soFar⟩ := invariant
      simp only [calculateMinBytesNeeded, state, soFar]
      rcases need_size target tried bounded with ⟨exactly, _⟩ | ⟨last, beyond⟩
      · omega
      · omega
  | mcsProtoBytes =>
      simp only [state] at invariant
      simpa only [calculateMinBytesNeeded, state] using invariant

theorem body_need (target : Target) (size : UInt32) (positive : 0 < size) :
    0 < target.toSize (toInt size.toNat) ∧ (size ≠ 1 → 1 < target.toSize (toInt size.toNat)) ∧
      (size = 1 → target.toSize (toInt size.toNat) = 1) := by
  have above : 0 < size.toNat := UInt32.lt_iff_toNat_lt.mp positive
  have bound := size.toNat_lt
  have one : size = 1 ↔ size.toNat = 1 := by
    rw [← UInt32.toNat_inj]
    rfl
  by_cases small : size.toNat < 2147483648
  · rw [to_int_small _ (by omega) (by omega), to_size_small target _ (by omega) (by omega), ne_eq, one]
    omega
  · have converted := to_int_large size.toNat (by omega) (by omega)
    have wraps := to_size_negative target (toInt size.toNat) (by omega) (by omega)
    have wide : 4294967296 ≤ 2 ^ target.sizeBits := by
      rcases target.width with narrow | wide
      · rw [narrow]
        decide
      · rw [wide]
        decide
    rw [ne_eq, one]
    omega

theorem bytes_returns (handlers : Handlers σ) (client next : Client σ)
    (returned : gotMessageBytes handlers client = .returns next) :
    next.state = .mcsTagAndSize ∧ next.bytesReadFromServer = [] := by
  unfold gotMessageBytes at returned
  cases handled : handlers.handle client.messageTag client.bytesReadFromServer client.app with
  | returns app =>
      rw [handled] at returned
      obtain rfl := Outcome.returns.inj returned
      exact ⟨rfl, rfl⟩
  | throws exception app =>
      rw [handled] at returned
      cases returned

theorem invariant_between (target : Target) (client : Client σ) (state : client.state = .mcsTagAndSize)
    (empty : client.bytesReadFromServer = []) : HeadInvariant target client := by
  simp [HeadInvariant, state, empty]

theorem decoded_beyond_open (target : Target) (bytes : Bytes) (tried varintLen : Nat) (size : UInt32)
    (opened : Leb128.Open (bytes.take tried)) (decoded : decodeVarint32 target bytes 0 = some (size, varintLen)) :
    tried < varintLen := by
  rcases Leb128.open_or_terminated bytes with stillOpen | ⟨pfx, suffix, rfl, terminated⟩
  · rw [decode_open target bytes stillOpen] at decoded
    cases decoded
  · obtain ⟨found, again⟩ := decode_terminated target pfx suffix terminated
    rw [again] at decoded
    obtain ⟨_, rfl⟩ := Prod.mk.inj (Option.some.inj decoded)
    by_contra within
    have front : (pfx ++ suffix).take tried = pfx ++ suffix.take (tried - pfx.length) := by
      rw [List.take_append, List.take_of_length_le (by omega)]
    rw [front] at opened
    exact Leb128.terminated_not_open pfx _ terminated opened

theorem stalls_decoded (target : Target) (client : Client σ) (size : UInt32) (varintLen : Nat)
    (decoded : decodeVarint32 target client.bytesReadFromServer 0 = some (size, varintLen)) :
    StallsOn target client [] ↔
      client.state = .mcsSize ∧ size = 1 ∧ varintLen + 1 = client.bytesReadFromServer.length := by
  unfold StallsOn
  rw [List.append_nil, decoded]
  constructor
  · rintro ⟨state, _, again, single⟩
    obtain ⟨rfl, rfl⟩ := Prod.mk.inj (Option.some.inj again)
    exact ⟨state, rfl, single⟩
  · rintro ⟨state, rfl, single⟩
    exact ⟨state, varintLen, rfl, single⟩

theorem undecoded_returns (target : Target) (handlers : Handlers σ) (client next : Client σ)
    (state : client.state = .mcsSize) (odd : client.bytesReadFromServer.length % 2 = 1)
    (bounded : client.bytesReadFromServer.length ≤ 2147483647) (stillOpen : Leb128.Open client.bytesReadFromServer)
    (returned : gotMessageSize target handlers client = .returns next) :
    HeadInvariant target next ∧ ¬ StallsOn target client [] := by
  have undecoded := decode_open target client.bytesReadFromServer stillOpen
  rw [gotMessageSize, undecoded] at returned
  obtain rfl := Outcome.returns.inj returned
  constructor
  · simp only [HeadInvariant, state]
    exact ⟨client.bytesReadFromServer.length, odd, bounded, by simpa using stillOpen, Nat.le_refl _, Nat.le_succ _, rfl⟩
  · rintro ⟨_, varintLen, decoded, _⟩
    rw [List.append_nil, undecoded] at decoded
    cases decoded

theorem decoded_returns (target : Target) (handlers : Handlers σ) (client next : Client σ) (state : client.state = .mcsSize)
    (size : UInt32) (varintLen : Nat) (decoded : decodeVarint32 target client.bytesReadFromServer 0 = some (size, varintLen))
    (within : varintLen ≤ client.bytesReadFromServer.length) (leftOver : client.bytesReadFromServer.length ≤ varintLen + 1)
    (returned : gotMessageSize target handlers client = .returns next) :
    (HeadInvariant target next ∧ ¬ StallsOn target client []) ∨ (¬ Progresses target next ∧ StallsOn target client []) := by
  rw [stalls_decoded target client size varintLen decoded]
  simp only [gotMessageSize, decoded] at returned
  by_cases positive : 0 < size
  · rw [if_pos positive] at returned
    obtain rfl := Outcome.returns.inj returned
    obtain ⟨atLeast, beyondOne, exactOne⟩ := body_need target size positive
    by_cases stalls : size = 1 ∧ varintLen + 1 = client.bytesReadFromServer.length
    · refine .inr ⟨?_, state, stalls⟩
      simp only [Progresses, calculateMinBytesNeeded, exactOne stalls.1, List.length_drop, ← stalls.2,
        Nat.add_sub_cancel_left]
      exact Nat.lt_irrefl 1
    · refine .inl ⟨?_, fun again => stalls again.2⟩
      simp only [HeadInvariant, List.length_drop]
      by_cases one : size = 1
      · have exactly : varintLen + 1 ≠ client.bytesReadFromServer.length := fun single => stalls ⟨one, single⟩
        omega
      · have more := beyondOne one
        omega
  · rw [if_neg positive] at returned
    obtain ⟨between, empty⟩ := bytes_returns handlers _ next returned
    refine .inl ⟨invariant_between target next between empty, ?_⟩
    rintro ⟨_, rfl, _⟩
    exact positive (by decide)

-- One decoding attempt: the prefix stays open, or at most one byte is left over after it.
theorem size_returns (target : Target) (handlers : Handlers σ) (client next : Client σ)
    (state : client.state = .mcsSize) (odd : client.bytesReadFromServer.length % 2 = 1)
    (bounded : client.bytesReadFromServer.length ≤ 2147483647)
    (opened : Leb128.Open (client.bytesReadFromServer.take (client.bytesReadFromServer.length - 2)))
    (returned : gotMessageSize target handlers client = .returns next) :
    (HeadInvariant target next ∧ ¬ StallsOn target client []) ∨ (¬ Progresses target next ∧ StallsOn target client []) := by
  rcases Leb128.open_or_terminated client.bytesReadFromServer with stillOpen | ⟨pfx, suffix, split, terminated⟩
  · exact .inl (undecoded_returns target handlers client next state odd bounded stillOpen returned)
  · obtain ⟨size, decoded⟩ := decode_terminated target pfx suffix terminated
    rw [← split] at decoded
    have beyond := decoded_beyond_open target _ _ pfx.length size opened decoded
    have lengths : client.bytesReadFromServer.length = pfx.length + suffix.length := by rw [split, List.length_append]
    exact decoded_returns target handlers client next state size pfx.length decoded (by omega) (by omega) returned

theorem stalls_append (target : Target) (client : Client σ) (chunk : Bytes) :
    StallsOn target (client.compute.append chunk) [] ↔ StallsOn target client chunk := by
  unfold StallsOn
  rw [List.append_nil]
  exact Iff.rfl

theorem stalls_size (target : Target) (client : Client σ) (chunk : Bytes) (state : client.state ≠ .mcsSize) :
    ¬ StallsOn target client chunk :=
  fun stalls => state stalls.1

-- What is left over from a short answer still misses at least one byte.
theorem short_keeps (target : Target) (client : Client σ) (chunk : Bytes) (invariant : HeadInvariant target client)
    (allocated : requestLength target client.compute ≤ target.maxSize)
    (short : chunk.length < requestLength target client.compute) :
    HeadInvariant target (client.compute.append chunk) ∧ ¬ StallsOn target client chunk := by
  unfold HeadInvariant at invariant ⊢
  have total : (client.compute.append chunk).bytesReadFromServer.length =
      client.bytesReadFromServer.length + chunk.length := by
    simp only [Client.append, Client.compute, List.length_append]
  simp only [requestLength, Client.compute] at short allocated
  have sameState : (client.compute.append chunk).state = client.state := rfl
  rw [sameState]
  cases state : client.state with
  | mcsVersionTagAndSize =>
      have need := need_version target client state
      refine ⟨?_, stalls_size target client chunk (by simp [state])⟩
      simp only
      omega
  | mcsTagAndSize =>
      have need := need_tag target client state
      refine ⟨?_, stalls_size target client chunk (by simp [state])⟩
      simp only
      omega
  | mcsSize =>
      simp only [state] at invariant
      obtain ⟨tried, odd, bounded, opened, atLeast, within, soFar⟩ := invariant
      simp only [calculateMinBytesNeeded, state, soFar] at short allocated
      have fewer : client.bytesReadFromServer.length + chunk.length ≤ tried + 1 := by
        rcases need_size target tried bounded with ⟨exactly, _⟩ | ⟨last, beyond⟩
        · omega
        · omega
      have openedStill : Leb128.Open ((client.bytesReadFromServer ++ chunk).take tried) := by
        rwa [List.take_append_of_le_length atLeast]
      refine ⟨⟨tried, odd, bounded, openedStill, by omega, by omega, soFar⟩, ?_⟩
      rintro ⟨_, varintLen, decoded, single⟩
      have beyond := decoded_beyond_open target _ tried varintLen 1 openedStill decoded
      rw [List.length_append] at single
      omega
  | mcsProtoBytes =>
      refine ⟨?_, stalls_size target client chunk (by simp [state])⟩
      simp only [calculateMinBytesNeeded, state] at short
      simp only [Client.append, Client.compute, List.length_append]
      omega

theorem tag_returns (target : Target) (handlers : Handlers σ) (client next : Client σ) (tag first : UInt8)
    (buffer : client.bytesReadFromServer = [tag, first]) (returned : gotMessageTag target handlers client = .returns next) :
    HeadInvariant target next := by
  simp only [gotMessageTag, buffer] at returned
  rcases size_returns target handlers { client with messageTag := tag, bytesReadFromServer := [first], state := .mcsSize }
    next rfl rfl (Nat.le_add_left 1 _) Leb128.open_nil returned with ⟨kept, _⟩ | ⟨_, stalls⟩
  · exact kept
  · obtain ⟨_, varintLen, decoded, single⟩ := stalls
    have beyond := decoded_beyond_open target _ 0 varintLen 1 Leb128.open_nil decoded
    simp only [List.length_append, List.length_singleton, List.length_nil] at single
    omega

theorem full_keeps (target : Target) (handlers : Handlers σ) (client next : Client σ) (chunk : Bytes)
    (invariant : HeadInvariant target client) (within : chunk.length = requestLength target client.compute)
    (fits : client.bytesReadFromServer.length + chunk.length ≤ target.maxSize)
    (returned : processData target handlers (client.compute.append chunk) = .returns next) :
    (HeadInvariant target next ∧ ¬ StallsOn target client chunk) ∨ (¬ Progresses target next ∧ StallsOn target client chunk) := by
  have progresses := invariant_progresses target client invariant
  unfold Progresses at progresses
  unfold HeadInvariant at invariant
  have total : (client.compute.append chunk).bytesReadFromServer.length =
      client.bytesReadFromServer.length + chunk.length := by
    simp only [Client.append, Client.compute, List.length_append]
  have sameState : (client.compute.append chunk).state = client.state := rfl
  simp only [requestLength, Client.compute] at within
  unfold processData at returned
  rw [sameState] at returned
  cases state : client.state with
  | mcsVersionTagAndSize =>
      have need := need_version target client state
      simp only [state] at returned
      refine .inl ⟨?_, stalls_size target client chunk (by simp [state])⟩
      obtain ⟨version, tag, first, buffer⟩ := List.length_eq_three.mp
        (show (client.compute.append chunk).bytesReadFromServer.length = 3 by omega)
      simp only [gotVersion, buffer] at returned
      split at returned
      · cases returned
      · exact tag_returns target handlers _ next tag first rfl returned
  | mcsTagAndSize =>
      have need := need_tag target client state
      simp only [state] at returned
      refine .inl ⟨?_, stalls_size target client chunk (by simp [state])⟩
      obtain ⟨tag, first, buffer⟩ := List.length_eq_two.mp
        (show (client.compute.append chunk).bytesReadFromServer.length = 2 by omega)
      exact tag_returns target handlers _ next tag first buffer returned
  | mcsSize =>
      simp only [state] at invariant returned
      obtain ⟨tried, odd, bounded, opened, atLeast, _, soFar⟩ := invariant
      simp only [calculateMinBytesNeeded, state, soFar] at within
      have two : client.bytesReadFromServer.length + chunk.length = tried + 2 ∧ tried + 2 ≤ 2147483647 := by
        rcases need_size target tried bounded with ⟨exactly, room⟩ | ⟨last, beyond⟩
        · omega
        · omega
      have openedStill : Leb128.Open ((client.compute.append chunk).bytesReadFromServer.take
          ((client.compute.append chunk).bytesReadFromServer.length - 2)) := by
        rw [total, two.1]
        simp only [Client.append, Client.compute, Nat.add_sub_cancel]
        rwa [List.take_append_of_le_length atLeast]
      have result := size_returns target handlers (client.compute.append chunk) next (by rw [sameState, state])
        (by omega) (by omega) openedStill returned
      rwa [stalls_append] at result
  | mcsProtoBytes =>
      simp only [state] at returned
      obtain ⟨between, empty⟩ := bytes_returns handlers _ next returned
      exact .inl ⟨invariant_between target next between empty, stalls_size target client chunk (by simp [state])⟩

-- What an iteration does: it goes round without reading, keeps a part of what it asked for, or hands
-- the whole of it to ProcessData.
inductive IterationCase (target : Target) (handlers : Handlers σ) (client : Client σ) (chunk : Bytes) (next : Client σ) : Prop where
  | idle (stuck : ¬ Progresses target client) (nothing : chunk = []) (same : next = client.compute)
  | short (allocated : requestLength target client.compute ≤ target.maxSize)
      (less : chunk.length < requestLength target client.compute) (kept : next = client.compute.append chunk)
  | full (positive : 0 < chunk.length) (whole : chunk.length = requestLength target client.compute)
      (fits : client.bytesReadFromServer.length + chunk.length ≤ target.maxSize)
      (returned : processData target handlers (client.compute.append chunk) = .returns next)

theorem iteration_case (target : Target) (handlers : Handlers σ) (client next : Client σ) (chunk : Bytes)
    (iteration : Iteration target handlers client chunk next) : IterationCase target handlers client chunk next := by
  cases iteration with
  | spins idle =>
      obtain ⟨same, stuck⟩ := spins_stuck target client next idle
      exact .idle stuck rfl same
  | reads receives within fits returned =>
      obtain ⟨rfl, positive, allocated, _⟩ := head_receives target client _ receives
      by_cases less : chunk.length < requestLength target client.compute
      · rw [received_short target handlers client.compute chunk less] at returned
        exact .short allocated less (Outcome.returns.inj returned).symm
      · have whole := Nat.le_antisymm within (Nat.le_of_not_lt less)
        rw [received_full target handlers client.compute chunk (whole ▸ positive) (Nat.le_of_eq whole.symm)] at returned
        exact .full (whole ▸ positive) whole fits returned

theorem iteration_keeps (target : Target) (handlers : Handlers σ) (client next : Client σ) (chunk : Bytes)
    (invariant : HeadInvariant target client) (iteration : Iteration target handlers client chunk next) :
    (HeadInvariant target next ∧ ¬ StallsOn target client chunk) ∨ (¬ Progresses target next ∧ StallsOn target client chunk) := by
  cases iteration_case target handlers client next chunk iteration with
  | idle stuck => exact absurd (invariant_progresses target client invariant) stuck
  | short allocated less kept =>
      rw [kept]
      exact .inl (short_keeps target client chunk invariant allocated less)
  | full _ whole fits returned => exact full_keeps target handlers client next chunk invariant whole fits returned

theorem stuck_idle (target : Target) (handlers : Handlers σ) (client next : Client σ) (chunk : Bytes)
    (stuck : ¬ Progresses target client) (iteration : Iteration target handlers client chunk next) : next = client.compute := by
  cases iteration_case target handlers client next chunk iteration with
  | idle _ _ same => exact same
  | short _ less => exact absurd (Nat.lt_of_sub_pos (Nat.zero_lt_of_lt less)) stuck
  | full positive whole =>
      rw [whole] at positive
      exact absurd (Nat.lt_of_sub_pos positive) stuck

theorem stuck_iteration (target : Target) (handlers : Handlers σ) (client next : Client σ) (chunk : Bytes)
    (stuck : ¬ Progresses target client) (iteration : Iteration target handlers client chunk next) :
    ¬ Progresses target next := by
  rw [stuck_idle target handlers client next chunk stuck iteration]
  exact stuck

-- In every run, the head it has reached asks for a byte exactly when no step has stalled.
theorem loop_progresses_iff (target : Target) (handlers : Handlers σ) (trace : List (Client σ × Bytes)) (client : Client σ)
    (run : Transition.Run (heads target handlers) trace client) :
    (client.bytesReadFromServer.length < target.toSize (calculateMinBytesNeeded client)) ↔
      ∀ taken ∈ trace, ¬ StallsOn target taken.1 taken.2 := by
  have decided := Transition.run_decides (heads target handlers) (HeadInvariant target)
    (fun client => ¬ Progresses target client) (fun client chunk => ¬ StallsOn target client chunk)
    (by
      rintro _ ⟨app, rfl⟩
      exact invariant_fresh target app)
    (by
      intro client chunk next invariant goes iteration
      rcases iteration_keeps target handlers client next chunk invariant iteration with ⟨kept, _⟩ | ⟨_, stalls⟩
      · exact kept
      · exact absurd stalls goes)
    (by
      intro client chunk next invariant stalls iteration
      rcases iteration_keeps target handlers client next chunk invariant iteration with ⟨_, goes⟩ | ⟨stuck, _⟩
      · exact absurd goes stalls
      · exact stuck)
    (fun client chunk next => stuck_iteration target handlers client next chunk) trace client run
  rcases decided with ⟨kept, meets⟩ | ⟨stuck, taken, member, stalls⟩
  · exact ⟨fun _ => meets, fun _ => invariant_progresses target client kept⟩
  · exact ⟨fun progresses => absurd progresses stuck, fun meets => absurd (meets taken member) stalls⟩

def oneGroupRead : Client Unit :=
  { Client.fresh () with
    state := .mcsSize, sizePacketSoFar := 2, messageTag := 7, minBytesNeeded := 3, bytesReadFromServer := [0x81] }

def oneReadAhead : Client Unit :=
  { Client.fresh () with
    state := .mcsProtoBytes, messageTag := 7, messageSize := 1, minBytesNeeded := 3, bytesReadFromServer := [0x55] }

theorem one_group_run : Transition.Run (heads .win32 silentHandlers) [(Client.fresh (), [41, 7, 0x81])] oneGroupRead :=
  .step [] (Client.fresh ()) [41, 7, 0x81] oneGroupRead (.start (Client.fresh ()) ⟨(), rfl⟩)
    (.reads (show loopHead .win32 (Client.fresh ()) = .receives (Client.fresh ()).compute by decide)
      (by decide) (by decide) (by decide))

theorem loop_progresses_in_prefix :
    oneGroupRead.bytesReadFromServer.length < Target.win32.toSize (calculateMinBytesNeeded oneGroupRead) :=
  (loop_progresses_iff .win32 silentHandlers [(Client.fresh (), [41, 7, 0x81])] oneGroupRead one_group_run).mpr (by
    intro taken member
    rw [List.mem_singleton.mp member]
    exact stalls_size .win32 (Client.fresh ()) [41, 7, 0x81] (by decide))

-- The prefix 0x81 0x00 of size 1 is read together with the body 0x55: nothing is left to ask for.
theorem redundant_one_spins :
    ∃ trace client, Transition.Run (heads .win32 silentHandlers) trace client ∧
      ¬ client.bytesReadFromServer.length < Target.win32.toSize (calculateMinBytesNeeded client) ∧
      ∃ next, loopHead .win32 client = .spins next ∧ loopHead .win32 next = .spins next := by
  refine ⟨[(Client.fresh (), [41, 7, 0x81]), (oneGroupRead, [0x00, 0x55])], oneReadAhead, ?_, by decide,
    oneReadAhead.compute, by decide, by decide⟩
  exact .step [(Client.fresh (), [41, 7, 0x81])] oneGroupRead [0x00, 0x55] oneReadAhead one_group_run
    (.reads (show loopHead .win32 oneGroupRead = .receives oneGroupRead.compute by decide)
      (by decide) (by decide) (by decide))

end PushReceiver
