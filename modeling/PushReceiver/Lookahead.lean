import PushReceiver.Entries
import PushReceiver.RoundTrip

set_option autoImplicit false

namespace PushReceiver

variable {σ : Type}

-- Redundant prefixes: the byte read with the prefix belongs to the next frame, or is the whole body.
def Frame.Swallows (frame : Frame) : Prop := frame.ReadsAhead ∧ frame.body.length = 0

def Frame.Stalls (frame : Frame) : Prop := frame.ReadsAhead ∧ frame.body.length = 1

def InStep (frames : List Frame) : Prop :=
  ∀ before frame after, frames = before ++ frame :: after → frame.Swallows →
    after = [] ∨ ∃ earlier ∈ before, earlier.Stalls

-- Every entry of GotMessageBytes so far was made with the declared body of its frame.
def ExactEntries (frames : List Frame) (state : LoopState σ) : Prop :=
  (∀ entry ∈ state.client.dispatched, entry.bytes.length = entry.messageSize.toNat) ∧
    state.client.dispatched <+: frames.map Frame.dispatch

def Dispatch.frame (entry : Dispatch) : UInt8 × Bytes := (entry.messageTag, entry.bytes)

-- The handlers return on every entry that the whole stream makes.
def HandlersReturn (target : Target) (handlers : Handlers σ) (app : σ) (stream : Bytes) : Prop :=
  ∃ final, handlers.handleFrames
    ((fed target handlers (loopHead target (Client.fresh app)) stream).client.dispatched.map Dispatch.frame) app =
      .returns final

theorem in_step_nil : InStep [] := by
  intro before frame after split
  simp at split

theorem in_step_last (frame : Frame) : InStep [frame] := by
  intro before swallowing after split swallows
  cases before with
  | nil => exact .inl (List.cons.inj split).2.symm
  | cons first rest => simp at split

theorem in_step_stalled (frame : Frame) (rest : List Frame) (stalls : frame.Stalls) : InStep (frame :: rest) := by
  intro before swallowing after split swallows
  cases before with
  | nil =>
      obtain ⟨rfl, _⟩ := List.cons.inj split
      have empty := swallows.2
      rw [stalls.2] at empty
      cases empty
  | cons first others =>
      obtain ⟨rfl, _⟩ := List.cons.inj split
      exact .inr ⟨frame, List.mem_cons_self, stalls⟩

theorem in_step_cons (frame : Frame) (rest : List Frame) (passes : ¬ frame.Swallows) (goes : ¬ frame.Stalls) :
    InStep (frame :: rest) ↔ InStep rest := by
  constructor
  · intro inStep before swallowing after split swallows
    rcases inStep (frame :: before) swallowing after (by rw [split]; rfl) swallows with last | ⟨earlier, member, stalls⟩
    · exact .inl last
    · rcases List.mem_cons.mp member with rfl | inside
      · exact absurd stalls goes
      · exact .inr ⟨earlier, inside, stalls⟩
  · intro inStep before swallowing after split swallows
    cases before with
    | nil =>
        obtain ⟨rfl, _⟩ := List.cons.inj split
        exact absurd swallows passes
    | cons first others =>
        obtain ⟨rfl, restSplit⟩ := List.cons.inj split
        rcases inStep others swallowing after restSplit swallows with last | ⟨earlier, member, stalls⟩
        · exact .inl last
        · exact .inr ⟨earlier, List.mem_cons_of_mem frame member, stalls⟩

theorem frame_inside (frame : Frame) (passes : ¬ frame.Swallows) (goes : ¬ frame.Stalls) (readsAhead : frame.ReadsAhead) :
    2 ≤ frame.body.length := by
  have notEmpty : frame.body.length ≠ 0 := fun empty => passes ⟨readsAhead, empty⟩
  have notSingle : frame.body.length ≠ 1 := fun single => goes ⟨readsAhead, single⟩
  omega

theorem fed_grows (target : Target) (handlers : Handlers σ) (state : LoopState σ) (bytes : Bytes) :
    state.client.dispatched <+: (fed target handlers state bytes).client.dispatched := by
  induction bytes generalizing state with
  | nil => exact List.prefix_refl _
  | cons byte rest ih =>
      have step := resume_grows target handlers state (.bytes [byte])
      exact step.trans (ih (state.resume target handlers (.bytes [byte])))

theorem opening_waits (target : Target) (handlers : Handlers σ) (client : Client σ) (lead : Bytes)
    (entries : List Dispatch) (app : σ) (opening : Opening client lead entries app) :
    (fed target handlers (loopHead target client) lead).client.dispatched = entries := by
  rcases opening.expects with ⟨_, rfl⟩ | ⟨state, version, _, rfl⟩
  · exact (head_dispatched target client).trans opening.dispatched
  · have need := need_version target client state
    have allocated : 3 ≤ target.maxSize := Nat.le_trans (by decide) (max_size_lower target)
    rw [fed_short target handlers client [version] (by rwa [need]) (by rw [need, opening.buffer]; exact Nat.lt_of_sub_eq_succ rfl)]
    exact opening.dispatched

theorem fed_overread (target : Target) (handlers : Handlers σ) (client : Client σ)
    (lead : Bytes) (entries : List Dispatch) (app : σ) (opening : Opening client lead entries app) (frame : Frame)
    (swallows : frame.Swallows) (next : UInt8) :
    (fed target handlers (loopHead target client) (lead ++ frame.wire ++ [next])).client.dispatched =
      entries ++ [⟨frame.tag, 0, [next]⟩] := by
  obtain ⟨readsAhead, empty⟩ := swallows
  have noBody : frame.body = [] := List.eq_nil_of_length_eq_zero empty
  have odd : (frame.sizePrefix ++ [next]).length % 2 = 1 := by
    unfold Frame.ReadsAhead at readsAhead
    rw [List.length_append, List.length_singleton]
    omega
  obtain ⟨sizing, atSize, fedPrefix⟩ := fed_prefix target handlers client lead entries app opening frame [next] odd
    (Nat.le_refl 1)
  obtain ⟨entering, returned, atEntry⟩ := size_decoded_empty target handlers sizing frame.tag frame.sizePrefix
    [next] entries app atSize frame.terminated frame.short (by rw [frame.declared, empty])
  have wire : lead ++ frame.wire ++ [next] = lead ++ frame.tag :: (frame.sizePrefix ++ [next]) := by
    simp [Frame.wire, noBody]
  rw [wire, fedPrefix, returned, proceed_dispatched, bytes_entry, atEntry.dispatched, atEntry.messageTag,
    atEntry.messageSize, atEntry.bytes]

-- Without a next frame the size stays undecoded: whatever byte came, it would make the entry differ.
theorem fed_unfinished (target : Target) (handlers : Handlers σ) (client : Client σ)
    (lead : Bytes) (entries : List Dispatch) (app : σ) (opening : Opening client lead entries app) (frame : Frame)
    (swallows : frame.Swallows) :
    (fed target handlers (loopHead target client) (lead ++ frame.wire)).client.dispatched <+: entries := by
  have followed : ∀ next : UInt8, (fed target handlers (loopHead target client) (lead ++ frame.wire)).client.dispatched <+:
      entries ++ [⟨frame.tag, 0, [next]⟩] := by
    intro next
    rw [← fed_overread target handlers client lead entries app opening frame swallows next,
      fed_append target handlers _ (lead ++ frame.wire)]
    exact fed_grows target handlers _ [next]
  rcases List.prefix_concat_iff.mp (followed 0) with zero | within
  · rcases List.prefix_concat_iff.mp (followed 1) with one | within
    · rw [zero] at one
      simp at one
    · exact within
  · exact within

theorem fed_stalled (target : Target) (handlers : Handlers σ) (client : Client σ) (lead : Bytes)
    (entries : List Dispatch) (app : σ) (opening : Opening client lead entries app) (frame : Frame) (stalls : frame.Stalls) :
    ∃ stuck, fed target handlers (loopHead target client) (lead ++ frame.wire) = .spins stuck ∧
      stuck.dispatched = entries := by
  obtain ⟨readsAhead, single⟩ := stalls
  obtain ⟨byte, body⟩ := List.length_eq_one_iff.mp single
  have odd : (frame.sizePrefix ++ [byte]).length % 2 = 1 := by
    unfold Frame.ReadsAhead at readsAhead
    rw [List.length_append, List.length_singleton]
    omega
  obtain ⟨sizing, atSize, fedPrefix⟩ := fed_prefix target handlers client lead entries app opening frame [byte] odd
    (Nat.le_refl 1)
  obtain ⟨loaded, returned, atBody⟩ := size_decoded target handlers sizing frame.tag frame.sizePrefix [byte] entries app
    atSize frame.terminated frame.short (frame_size_positive frame (by omega))
  have size : toInt (UInt32.ofNat 1).toNat = 1 := by decide
  have need : target.toSize loaded.compute.minBytesNeeded = 1 := by
    simp only [Client.compute, calculateMinBytesNeeded, atBody.state, atBody.messageSize, frame.declared, single]
    rw [size]
    exact to_size_small target 1 (by decide) (by decide)
  have wire : lead ++ frame.wire = lead ++ frame.tag :: (frame.sizePrefix ++ [byte]) := by rw [Frame.wire, body]
  refine ⟨loaded.compute, ?_, atBody.dispatched⟩
  rw [wire, fedPrefix, returned, proceed, loopHead, need, atBody.buffer, List.length_singleton,
    if_neg (Nat.lt_irrefl 1)]

theorem fed_exact (target : Target) (handlers : Handlers σ) (client : Client σ)
    (lead : Bytes) (entries : List Dispatch) (app : σ) (opening : Opening client lead entries app) (frames : List Frame)
    (inStep : InStep frames) :
    (fed target handlers (loopHead target client) (lead ++ frames.flatMap Frame.wire)).client.dispatched <+:
      entries ++ frames.map Frame.dispatch := by
  induction frames generalizing client lead entries app with
  | nil =>
      rw [List.flatMap_nil, List.append_nil]
      rw [opening_waits target handlers client lead entries app opening]
      exact List.prefix_append _ _
  | cons frame rest ih =>
      by_cases stalls : frame.Stalls
      · obtain ⟨stuck, fedStalled, kept⟩ := fed_stalled target handlers client lead entries app opening frame stalls
        rw [List.flatMap_cons, ← List.append_assoc, fed_append, fedStalled, fed_spins]
        rw [← kept]
        exact List.prefix_append _ _
      · by_cases swallows : frame.Swallows
        · rcases inStep [] frame rest rfl swallows with rfl | ⟨earlier, member, _⟩
          · have unfinished := fed_unfinished target handlers client lead entries app opening frame swallows
            simpa using unfinished.trans (List.prefix_append _ _)
          · cases member
        · have inside := frame_inside frame swallows stalls
          rw [List.flatMap_cons, ← List.append_assoc]
          cases handled : handlers.handle frame.tag frame.body app with
          | returns next =>
              obtain ⟨between, fedFrame, opened⟩ := fed_frame target handlers client lead entries app next opening frame
                inside handled
              have restExact := ih between [] _ next opened ((in_step_cons frame rest swallows stalls).mp inStep)
              rw [fed_append, fedFrame]
              simpa using restExact
          | throws exception next =>
              rw [fed_frame_throws target handlers client lead entries app next exception opening frame inside handled]
              simp

theorem fed_inexact (target : Target) (handlers : Handlers σ) (client : Client σ) (lead : Bytes)
    (entries : List Dispatch) (start app : σ) (opening : Opening client lead entries app) (frames : List Frame)
    (outOfStep : ¬ InStep frames) (before : handlers.handleFrames (entries.map Dispatch.frame) start = .returns app)
    (returns : ∃ final, handlers.handleFrames
      ((fed target handlers (loopHead target client) (lead ++ frames.flatMap Frame.wire)).client.dispatched.map
        Dispatch.frame) start = .returns final) :
    ∃ entry ∈ (fed target handlers (loopHead target client) (lead ++ frames.flatMap Frame.wire)).client.dispatched,
      entry.bytes.length ≠ entry.messageSize.toNat := by
  induction frames generalizing client lead entries app with
  | nil => exact absurd in_step_nil outOfStep
  | cons frame rest ih =>
      have goes : ¬ frame.Stalls := fun stalls => outOfStep (in_step_stalled frame rest stalls)
      rw [List.flatMap_cons, ← List.append_assoc] at returns ⊢
      by_cases swallows : frame.Swallows
      · cases rest with
        | nil => exact absurd (in_step_last frame) outOfStep
        | cons next others =>
            have overread := fed_overread target handlers client lead entries app opening frame swallows next.tag
            have grows := fed_grows target handlers
              (fed target handlers (loopHead target client) (lead ++ frame.wire ++ [next.tag]))
              (next.sizePrefix ++ next.body ++ others.flatMap Frame.wire)
            rw [overread, fed_append target handlers (loopHead target client) (lead ++ frame.wire), ← fed_append] at grows
            rw [fed_append]
            refine ⟨⟨frame.tag, 0, [next.tag]⟩, grows.subset (by simp), by simp⟩
      · have inside := frame_inside frame swallows goes
        have entered : handlers.handleFrames ((entries ++ [frame.dispatch]).map Dispatch.frame) start =
            handlers.handleFrames [(frame.tag, frame.body)] app := by
          rw [List.map_append, handle_frames_append, before]
          rfl
        cases handled : handlers.handle frame.tag frame.body app with
        | returns next =>
            obtain ⟨between, fedFrame, opened⟩ := fed_frame target handlers client lead entries app next opening frame
              inside handled
            rw [fed_append, fedFrame] at returns ⊢
            refine ih between [] _ next opened (fun inStep => outOfStep ((in_step_cons frame rest swallows goes).mpr inStep))
              ?_ returns
            rw [entered, Handlers.handleFrames, handled]
            rfl
        | throws exception next =>
            obtain ⟨final, finished⟩ := returns
            rw [fed_frame_throws target handlers client lead entries app next exception opening frame inside handled, entered,
              Handlers.handleFrames, handled] at finished
            cases finished

theorem exact_dispatch (frames : List Frame) (entries : List Dispatch) (within : entries <+: frames.map Frame.dispatch) :
    ∀ entry ∈ entries, entry.bytes.length = entry.messageSize.toNat := by
  intro entry member
  obtain ⟨frame, _, rfl⟩ := List.mem_map.mp (within.subset member)
  exact (frame_size frame).symm

-- Holds in every run on every part of the stream exactly when no redundant prefix swallows a byte.
theorem entries_exact_iff (target : Target) (handlers : Handlers σ) (app : σ) (version : UInt8)
    (accepted : Accepted version) (frames : List Frame)
    (returns : HandlersReturn target handlers app (version :: frames.flatMap Frame.wire)) :
    (∀ chunks, Reader.Respects (receiver target handlers) (loopHead target (Client.fresh app)) chunks →
      chunks.flatten <+: version :: frames.flatMap Frame.wire →
      ExactEntries frames (receiveLoop target handlers (Client.fresh app) (chunks.map .bytes))) ↔
    InStep frames := by
  have opening := opening_fresh app version accepted
  constructor
  · intro exactRuns
    by_contra outOfStep
    obtain ⟨entry, member, wrong⟩ := fed_inexact target handlers (Client.fresh app) [version] [] app app opening frames
      outOfStep rfl returns
    have run := exactRuns (Reader.singles (version :: frames.flatMap Frame.wire)) (Reader.singles_respects _ _ _)
      ((Reader.singles_flatten _).symm ▸ List.prefix_refl _)
    rw [receive_loop_deliver] at run
    exact wrong (run.1 entry member)
  · intro inStep chunks respects within
    obtain ⟨rest, whole⟩ := within
    have exactStream := fed_exact target handlers (Client.fresh app) [version] [] app opening frames inStep
    rw [List.singleton_append, ← whole, fed_append, List.nil_append] at exactStream
    rw [receive_loop_fed target handlers (Client.fresh app) chunks respects]
    have exactRun := (fed_grows target handlers _ rest).trans exactStream
    exact ⟨exact_dispatch frames _ exactRun, exactRun⟩

def emptyRedundant : Frame := ⟨7, [0x80, 0x00], [], by decide, by decide, by decide, by decide⟩

def emptyShortest : Frame := ⟨7, [0x00], [], by decide, by decide, by decide, by decide⟩

theorem login_bounded : loginBytes.length < 2147483648 := by decide

def loginShortest : Frame := ⟨3, [0x03], loginBytes, by decide, by decide, by decide, login_bounded⟩

theorem stanza_bounded : stanzaBytesA.length < 2147483648 := by decide

-- The stanza "a" behind a two-byte prefix of its nine bytes.
def stanzaRedundant : Frame := ⟨8, [0x89, 0x00], stanzaBytesA, by decide, by decide, by decide, stanza_bounded⟩

def redundantFrames : List Frame := [loginShortest, stanzaRedundant, emptyRedundant]

theorem last_redundant_in_step : InStep redundantFrames := by
  have login : ¬ loginShortest.ReadsAhead := by decide
  refine (in_step_cons _ _ (fun swallows => login swallows.1) (fun stalls => login stalls.1)).mpr ?_
  refine (in_step_cons _ _ (fun swallows => ?_) (fun stalls => ?_)).mpr (in_step_last emptyRedundant)
  · exact absurd swallows.2 (by decide)
  · exact absurd stalls.2 (by decide)

theorem entries_exact_last_redundant :
    InStep redundantFrames ∧
      ∀ chunks, Reader.Respects (receiver .win32 sampleEnvironment.handlers)
          (loopHead .win32 (Client.fresh (App.loaded []))) chunks →
        chunks.flatten <+: 41 :: redundantFrames.flatMap Frame.wire →
        ExactEntries redundantFrames
          (receiveLoop .win32 sampleEnvironment.handlers (Client.fresh (App.loaded [])) (chunks.map .bytes)) :=
  ⟨last_redundant_in_step,
    (entries_exact_iff .win32 sampleEnvironment.handlers (App.loaded []) 41 (.inl (Nat.le_refl 41)) redundantFrames
      ⟨⟨[ascii "a"], [⟨"persistent_id", ascii "a"⟩], [0], []⟩, by decide +kernel⟩).mpr last_redundant_in_step⟩

-- The tag of the second frame is handed to the handler of the first one and cleared with it.
theorem redundant_empty_swallows :
    ∃ chunks, Reader.Respects (receiver .win32 silentHandlers) (loopHead .win32 (Client.fresh ())) chunks ∧
      chunks.flatten = 41 :: [emptyRedundant, emptyShortest].flatMap Frame.wire ∧
      ∃ entry ∈ (receiveLoop .win32 silentHandlers (Client.fresh ()) (chunks.map .bytes)).client.dispatched,
        entry.bytes.length ≠ entry.messageSize.toNat :=
  ⟨[[41, 7, 0x80], [0x00, 7], [0x00]], by decide, by decide, ⟨7, 0, [7]⟩, by decide, by decide⟩

end PushReceiver
