import PushReceiver.BodyPhase
import PushReceiver.Progress

set_option autoImplicit false

namespace PushReceiver

variable {σ : Type}

-- The size-prefix bytes that cannot be decoded, whatever comes behind them.
def undecoded (bytes : Bytes) : Bytes := bytes.takeWhile fun byte => decide (128 ≤ byte.toNat)

structure SizeBounded (target : Target) (client : Client σ) : Prop where
  held : client.state = .mcsSize → (undecoded client.bytesReadFromServer).length ≤ kSizePacketLenMax
  reported : client.state = .mcsSize → kSizePacketLenMax ≤ (undecoded client.bytesReadFromServer).length →
    ∀ waiting, loopHead target client ≠ .receives waiting

-- With this chunk, five bytes behind the tag have come that all have the continuation bit.
def FifthContinues (client : Client σ) (chunk : Bytes) : Prop :=
  client.state = .mcsSize ∧ 5 ≤ (undecoded (client.bytesReadFromServer ++ chunk)).length

theorem undecoded_lower (bytes : Bytes) (count : Nat) :
    count ≤ (undecoded bytes).length ↔ count ≤ bytes.length ∧ Leb128.Open (bytes.take count) := by
  induction bytes generalizing count with
  | nil => simp [undecoded, Leb128.open_nil]
  | cons byte rest ih =>
      cases count with
      | zero => simp [Leb128.open_nil]
      | succ count =>
          rw [List.take_succ_cons, Leb128.open_cons, List.length_cons, Nat.add_le_add_iff_right]
          by_cases more : 128 ≤ byte.toNat
          · have longer : undecoded (byte :: rest) = byte :: undecoded rest := by simp [undecoded, more]
            rw [longer, List.length_cons, Nat.add_le_add_iff_right, and_iff_right more]
            exact ih count
          · have stops : undecoded (byte :: rest) = [] := by simp [undecoded, more]
            simp [stops, more]

def FiveOpen (client : Client σ) : Prop := client.state = .mcsSize ∧ 5 ≤ (undecoded client.bytesReadFromServer).length

-- A loop that waits for the rest of a size prefix asks for it, unless it cannot allocate the buffer.
theorem size_open_asks (target : Target) (client : Client σ) (state : client.state = .mcsSize) (sizeOpen : SizeOpen client) :
    loopHead target client = .receives client.compute ∨ 2147483647 ≤ (undecoded client.bytesReadFromServer).length := by
  obtain ⟨tried, _, bounded, opened, atLeast, within, soFar⟩ := sizeOpen
  have need : target.toSize (calculateMinBytesNeeded client) = target.toSize (toInt (1 + tried) + 1) := by
    simp only [calculateMinBytesNeeded, state, soFar]
  rcases need_size target tried bounded with ⟨exactly, room⟩ | ⟨last, _⟩
  · left
    have most := max_size_lower target
    rw [exactly] at need
    have asked := head_asks target client (tried + 2 - client.bytesReadFromServer.length) (by omega) (by omega)
    obtain ⟨waiting, receives, _⟩ := asked.mpr (by omega)
    rw [receives, (head_receives target client waiting receives).1]
  · right
    rw [← last]
    exact (undecoded_lower _ tried).mpr ⟨atLeast, opened⟩

theorem size_bounded_iff (target : Target) (client : Client σ) (sizeOpen : client.state = .mcsSize → SizeOpen client) :
    SizeBounded target client ↔ ¬ FiveOpen client := by
  constructor
  · rintro ⟨held, reported⟩ ⟨state, five⟩
    rcases size_open_asks target client state (sizeOpen state) with receives | many
    · exact reported state (by simpa [kSizePacketLenMax] using five) _ receives
    · have few := held state
      simp only [kSizePacketLenMax] at few
      omega
  · intro fewer
    refine ⟨fun state => ?_, fun state five => ?_⟩
    · by_contra many
      simp only [kSizePacketLenMax] at many
      exact fewer ⟨state, by omega⟩
    · simp only [kSizePacketLenMax] at five
      exact absurd ⟨state, by omega⟩ fewer

theorem size_undecoded (target : Target) (handlers : Handlers σ) (client next : Client σ)
    (returned : gotMessageSize target handlers client = .returns next) (state : next.state = .mcsSize) :
    decodeVarint32 target client.bytesReadFromServer 0 = none ∧ next.bytesReadFromServer = client.bytesReadFromServer := by
  cases decoded : decodeVarint32 target client.bytesReadFromServer 0 with
  | none =>
      rw [gotMessageSize, decoded] at returned
      obtain rfl := Outcome.returns.inj returned
      exact ⟨rfl, rfl⟩
  | some found =>
      simp only [gotMessageSize, decoded] at returned
      split at returned
      · obtain rfl := Outcome.returns.inj returned
        cases state
      · have between := (bytes_returns handlers _ next returned).1
        rw [state] at between
        cases between

theorem tag_undecoded (target : Target) (handlers : Handlers σ) (client next : Client σ)
    (returned : gotMessageTag target handlers client = .returns next) (buffer : client.bytesReadFromServer.length = 2)
    (state : next.state = .mcsSize) : next.bytesReadFromServer.length = 1 := by
  obtain ⟨tag, first, isBuffer⟩ := List.length_eq_two.mp buffer
  simp only [gotMessageTag, isBuffer] at returned
  rw [(size_undecoded target handlers _ next returned state).2]
  rfl

-- What an iteration leaves in the size state is what was there and the chunk, or the first byte of a prefix.
theorem iteration_size (target : Target) (handlers : Handlers σ) (client next : Client σ) (chunk : Bytes)
    (iteration : Iteration target handlers client chunk next) (state : next.state = .mcsSize) :
    (client.state = .mcsSize ∧ next.bytesReadFromServer = client.bytesReadFromServer ++ chunk) ∨
      next.bytesReadFromServer.length = 1 := by
  cases iteration_case target handlers client next chunk iteration with
  | idle _ nothing same =>
      rw [same] at state ⊢
      rw [nothing]
      exact .inl ⟨state, (List.append_nil _).symm⟩
  | short _ _ kept =>
      rw [kept] at state ⊢
      exact .inl ⟨state, rfl⟩
  | full positive whole fits returned =>
      have total : (client.compute.append chunk).bytesReadFromServer.length = target.toSize (calculateMinBytesNeeded client) := by
        simp only [requestLength, Client.compute] at whole
        simp only [Client.append, Client.compute, List.length_append]
        omega
      have sameState : (client.compute.append chunk).state = client.state := rfl
      unfold processData at returned
      rw [sameState] at returned
      cases before : client.state with
      | mcsVersionTagAndSize =>
          rw [need_version target client before] at total
          obtain ⟨version, tag, first, buffer⟩ := List.length_eq_three.mp total
          simp only [before, gotVersion, buffer] at returned
          split at returned
          · cases returned
          · exact .inr (tag_undecoded target handlers _ next returned rfl state)
      | mcsTagAndSize =>
          rw [need_tag target client before] at total
          simp only [before] at returned
          exact .inr (tag_undecoded target handlers _ next returned total state)
      | mcsSize =>
          simp only [before] at returned
          exact .inl ⟨rfl, (size_undecoded target handlers _ next returned state).2⟩
      | mcsProtoBytes =>
          simp only [before] at returned
          have between := (bytes_returns handlers _ next returned).1
          rw [state] at between
          cases between

-- Either the loop asks for a byte, or it goes round outside of the size state for good.
def SizeInvariant (target : Target) (client : Client σ) : Prop :=
  HeadInvariant target client ∨ (¬ Progresses target client ∧ client.state ≠ .mcsSize)

theorem size_invariant_open (target : Target) (client : Client σ) (invariant : SizeInvariant target client)
    (state : client.state = .mcsSize) : SizeOpen client := by
  rcases invariant with kept | ⟨_, elsewhere⟩
  · simpa only [HeadInvariant, state] using kept
  · exact absurd state elsewhere

theorem stalled_elsewhere (target : Target) (handlers : Handlers σ) (client next : Client σ) (chunk : Bytes)
    (invariant : HeadInvariant target client) (iteration : Iteration target handlers client chunk next)
    (stalls : StallsOn target client chunk) : next.state ≠ .mcsSize := by
  intro state
  cases iteration_case target handlers client next chunk iteration with
  | idle stuck => exact stuck (invariant_progresses target client invariant)
  | short allocated less => exact (short_keeps target client chunk invariant allocated less).2 stalls
  | full _ _ _ returned =>
      obtain ⟨before, varintLen, decoded, _⟩ := stalls
      have sameState : (client.compute.append chunk).state = .mcsSize := before
      rw [processData, sameState] at returned
      have failed := (size_undecoded target handlers _ next returned state).1
      have whole : (client.compute.append chunk).bytesReadFromServer = client.bytesReadFromServer ++ chunk := rfl
      rw [whole, decoded] at failed
      cases failed

theorem size_invariant_step (target : Target) (handlers : Handlers σ) (client : Client σ) (chunk : Bytes) (next : Client σ)
    (invariant : SizeInvariant target client) (iteration : Iteration target handlers client chunk next) :
    SizeInvariant target next := by
  rcases invariant with kept | ⟨stuck, elsewhere⟩
  · rcases iteration_keeps target handlers client next chunk kept iteration with ⟨still, _⟩ | ⟨stuck, stalls⟩
    · exact .inl still
    · exact .inr ⟨stuck, stalled_elsewhere target handlers client next chunk kept iteration stalls⟩
  · refine .inr ⟨stuck_iteration target handlers client next chunk stuck iteration, ?_⟩
    rw [stuck_idle target handlers client next chunk stuck iteration]
    exact elsewhere

-- Fewer than five bytes have been tried, an odd number of them, so the chunk makes them five at most.
theorem five_undecoded (target : Target) (handlers : Handlers σ) (client next : Client σ) (chunk : Bytes)
    (invariant : SizeInvariant target client) (fewer : ¬ FiveOpen client)
    (iteration : Iteration target handlers client chunk next) (fifth : FifthContinues client chunk) : FiveOpen next := by
  obtain ⟨state, five⟩ := fifth
  have sizeOpen := size_invariant_open target client invariant state
  cases iteration_case target handlers client next chunk iteration with
  | idle _ nothing =>
      rw [nothing, List.append_nil] at five
      exact absurd ⟨state, five⟩ fewer
  | short _ _ kept =>
      rw [kept]
      exact ⟨state, five⟩
  | full positive whole fits returned =>
      have sameState : (client.compute.append chunk).state = .mcsSize := state
      rw [processData, sameState] at returned
      obtain ⟨tried, odd, bounded, opened, atLeast, _, soFar⟩ := sizeOpen
      have few : tried < 5 := by
        by_contra many
        refine fewer ⟨state, (undecoded_lower _ 5).mpr ⟨by omega, ?_⟩⟩
        have front := Leb128.open_take _ opened 5
        rwa [List.take_take, Nat.min_eq_left (Nat.le_of_not_lt many)] at front
      have total : client.bytesReadFromServer.length + chunk.length ≤ 5 := by
        simp only [requestLength, Client.compute, calculateMinBytesNeeded, state, soFar] at whole
        rcases need_size target tried bounded with ⟨exactly, _⟩ | ⟨last, _⟩
        · omega
        · omega
      have allOpen : Leb128.Open (client.compute.append chunk).bytesReadFromServer := by
        have front := ((undecoded_lower _ 5).mp five).2
        rwa [List.take_of_length_le (by rwa [List.length_append])] at front
      rw [gotMessageSize, decode_open target _ allOpen] at returned
      obtain rfl := Outcome.returns.inj returned
      exact ⟨state, five⟩

theorem five_open_step (target : Target) (handlers : Handlers σ) (client : Client σ) (chunk : Bytes) (next : Client σ)
    (invariant : SizeInvariant target client) (fewer : ¬ FiveOpen client)
    (iteration : Iteration target handlers client chunk next) : ¬ FiveOpen next ↔ ¬ FifthContinues client chunk := by
  rw [not_iff_not]
  constructor
  · rintro ⟨state, five⟩
    rcases iteration_size target handlers client next chunk iteration state with ⟨before, buffer⟩ | single
    · rw [buffer] at five
      exact ⟨before, five⟩
    · have within := ((undecoded_lower _ 5).mp five).1
      omega
  · exact five_undecoded target handlers client next chunk invariant fewer iteration

theorem size_bounded_run (target : Target) (handlers : Handlers σ) (trace : List (Client σ × Bytes)) (client : Client σ)
    (run : Transition.Run (heads target handlers) trace client) :
    ((∀ taken ∈ trace, SizeBounded target taken.1) ∧ SizeBounded target client) ↔
      ∀ taken ∈ trace, ¬ FifthContinues taken.1 taken.2 := by
  have bounded := fun client invariant =>
    size_bounded_iff target client (size_invariant_open (σ := σ) target client invariant)
  apply Transition.run_good_iff (heads target handlers) (SizeInvariant target) (SizeBounded target)
    (fun client chunk => ¬ FifthContinues client chunk) _ (size_invariant_step target handlers) _ trace client run
  · rintro _ ⟨app, rfl⟩
    have invariant : SizeInvariant target (Client.fresh app) := .inl (invariant_fresh target app)
    exact ⟨invariant, (bounded _ invariant).mpr fun five => nomatch five.1⟩
  · intro client chunk next invariant good iteration
    rw [bounded next (size_invariant_step target handlers client chunk next invariant iteration)]
    exact five_open_step target handlers client chunk next invariant ((bounded client invariant).mp good) iteration

theorem size_bounded_in_prefix :
    (∀ taken ∈ [((Client.fresh () : Client Unit), ([41, 7, 0x81] : Bytes))], SizeBounded .win32 taken.1) ∧
      SizeBounded .win32 oneGroupRead :=
  (size_bounded_run .win32 silentHandlers [(Client.fresh (), [41, 7, 0x81])] oneGroupRead one_group_run).mpr (by
    intro taken member
    rw [List.mem_singleton.mp member]
    exact fun fifth => nomatch fifth.1)

def threeGroupsRead : Client Unit :=
  { oneGroupRead with sizePacketSoFar := 4, minBytesNeeded := 3, bytesReadFromServer := [0x81, 0x80, 0x80] }

def fiveGroupsRead : Client Unit :=
  { oneGroupRead with sizePacketSoFar := 6, minBytesNeeded := 5, bytesReadFromServer := [0x81, 0x80, 0x80, 0x80, 0x80] }

-- After five size bytes the loop asks for two more.
theorem size_phase_goes_on :
    ∃ trace, Transition.Run (heads .win32 silentHandlers) trace fiveGroupsRead ∧
      loopHead .win32 fiveGroupsRead = .receives fiveGroupsRead.compute ∧
      requestLength .win32 fiveGroupsRead.compute = 2 ∧ ¬ SizeBounded .win32 fiveGroupsRead := by
  have three : Transition.Run (heads .win32 silentHandlers) _ threeGroupsRead :=
    .step _ oneGroupRead [0x80, 0x80] threeGroupsRead one_group_run
      (.reads (show loopHead .win32 oneGroupRead = .receives oneGroupRead.compute by decide) (by decide) (by decide) (by decide))
  have five : Transition.Run (heads .win32 silentHandlers) _ fiveGroupsRead :=
    .step _ threeGroupsRead [0x80, 0x80] fiveGroupsRead three
      (.reads (show loopHead .win32 threeGroupsRead = .receives threeGroupsRead.compute by decide) (by decide) (by decide)
        (by decide))
  have asks : loopHead .win32 fiveGroupsRead = .receives fiveGroupsRead.compute := by decide
  exact ⟨_, five, asks, by decide, fun bounded => bounded.reported rfl (by decide) _ asks⟩

end PushReceiver
