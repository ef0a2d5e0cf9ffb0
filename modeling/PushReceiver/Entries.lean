import Mathlib.Data.List.Induction
import PushReceiver.Receiver

set_option autoImplicit false

namespace PushReceiver

variable {σ : Type}

structure Untouched (client : Client σ) (outcome : Outcome (Client σ)) : Prop where
  dispatched : outcome.state.dispatched = client.dispatched
  app : outcome.state.app = client.app

-- What one call of the receiver's functions does to the entries: nothing, or it ends in
-- GotMessageBytes, which makes one more.
def EntersOnce (handlers : Handlers σ) (client : Client σ) (outcome : Outcome (Client σ)) : Prop :=
  Untouched client outcome ∨
    ∃ entering : Client σ, entering.dispatched = client.dispatched ∧ entering.app = client.app ∧
      outcome = gotMessageBytes handlers entering

theorem bytes_entry (handlers : Handlers σ) (client : Client σ) :
    (gotMessageBytes handlers client).state.dispatched =
      client.dispatched ++ [⟨client.messageTag, client.messageSize, client.bytesReadFromServer⟩] := by
  unfold gotMessageBytes
  cases handlers.handle client.messageTag client.bytesReadFromServer client.app with
  | returns app => rfl
  | throws exception app => rfl

theorem size_enters (target : Target) (handlers : Handlers σ) (client : Client σ) :
    EntersOnce handlers client (gotMessageSize target handlers client) := by
  cases decoded : decodeVarint32 target client.bytesReadFromServer 0 with
  | none =>
      refine .inl ⟨?_, ?_⟩
      · simp only [gotMessageSize, decoded, Outcome.state]
      · simp only [gotMessageSize, decoded, Outcome.state]
  | some found =>
      simp only [gotMessageSize, decoded]
      split
      · exact .inl ⟨rfl, rfl⟩
      · exact .inr ⟨{ client with
          messageSize := found.1, bytesReadFromServer := client.bytesReadFromServer.drop found.2, sizePacketSoFar := 0,
          state := .mcsProtoBytes }, rfl, rfl, rfl⟩

theorem tag_enters (target : Target) (handlers : Handlers σ) (client : Client σ) :
    EntersOnce handlers client (gotMessageTag target handlers client) := by
  unfold gotMessageTag
  cases client.bytesReadFromServer with
  | nil => exact .inl ⟨rfl, rfl⟩
  | cons tag rest =>
      have size := size_enters target handlers { client with messageTag := tag, bytesReadFromServer := rest, state := .mcsSize }
      exact size.imp (fun untouched => ⟨untouched.dispatched, untouched.app⟩) id

theorem version_enters (target : Target) (handlers : Handlers σ) (client : Client σ) :
    EntersOnce handlers client (gotVersion target handlers client) := by
  unfold gotVersion
  dsimp only
  cases client.bytesReadFromServer with
  | nil => exact .inl ⟨rfl, rfl⟩
  | cons version rest =>
      dsimp only
      split
      · exact .inl ⟨rfl, rfl⟩
      · have tag := tag_enters target handlers { client with bytesReadFromServer := rest, state := .mcsTagAndSize }
        exact tag.imp (fun untouched => ⟨untouched.dispatched, untouched.app⟩) id

theorem data_enters (target : Target) (handlers : Handlers σ) (client : Client σ) :
    EntersOnce handlers client (processData target handlers client) := by
  unfold processData
  cases client.state with
  | mcsVersionTagAndSize => exact version_enters target handlers client
  | mcsTagAndSize => exact tag_enters target handlers client
  | mcsSize => exact size_enters target handlers client
  | mcsProtoBytes => exact .inr ⟨client, rfl, rfl, rfl⟩

theorem received_enters (target : Target) (handlers : Handlers σ) (client : Client σ) (chunk : Bytes) :
    EntersOnce handlers client (received target handlers client chunk) := by
  unfold received
  split
  · dsimp only
    split
    · have data := data_enters target handlers (client.append chunk)
      exact data.imp (fun untouched => ⟨untouched.dispatched, untouched.app⟩) id
    · exact .inl ⟨rfl, rfl⟩
  · exact .inl ⟨rfl, rfl⟩

theorem head_dispatched (target : Target) (client : Client σ) :
    (loopHead target client).client.dispatched = client.dispatched := by
  unfold loopHead
  split
  · split <;> rfl
  · rfl

theorem proceed_dispatched (target : Target) (outcome : Outcome (Client σ)) :
    (proceed target outcome).client.dispatched = outcome.state.dispatched := by
  cases outcome with
  | returns client => exact head_dispatched target client
  | throws exception client => rfl

theorem proceed_app (target : Target) (outcome : Outcome (Client σ)) :
    (proceed target outcome).client.app = outcome.state.app := by
  cases outcome with
  | returns client =>
      dsimp only [proceed, loopHead]
      split
      · split <;> rfl
      · rfl
  | throws exception client => rfl

-- Only an answer of Receive can add an entry, and it adds one at most.
theorem resume_touches (target : Target) (handlers : Handlers σ) (state : LoopState σ) (result : Received) :
    ((state.resume target handlers result).client.dispatched = state.client.dispatched ∧
        (state.resume target handlers result).client.app = state.client.app) ∨
      ∃ waiting chunk entering, state = .receives waiting ∧ result = .bytes chunk ∧
        entering.dispatched = waiting.dispatched ∧ entering.app = waiting.app ∧
        state.resume target handlers result = proceed target (gotMessageBytes handlers entering) := by
  cases state with
  | receives client =>
      cases result with
      | socketError => exact .inl ⟨rfl, rfl⟩
      | bytes chunk =>
          rcases received_enters target handlers client chunk with quiet | ⟨entering, entries, app, enters⟩
          · left
            rw [LoopState.resume, proceed_dispatched, proceed_app, quiet.dispatched, quiet.app]
            exact ⟨rfl, rfl⟩
          · refine .inr ⟨client, chunk, entering, rfl, rfl, entries, app, ?_⟩
            rw [LoopState.resume, enters]
  | spins client => exact .inl ⟨rfl, rfl⟩
  | breaks client => exact .inl ⟨rfl, rfl⟩
  | throws exception client => exact .inl ⟨rfl, rfl⟩

theorem resume_entries (target : Target) (handlers : Handlers σ) (state : LoopState σ) (result : Received) :
    (state.resume target handlers result).client.dispatched = state.client.dispatched ∨
      ∃ waiting chunk entering, state = .receives waiting ∧ result = .bytes chunk ∧
        entering.dispatched = waiting.dispatched ∧ entering.app = waiting.app ∧
        state.resume target handlers result = proceed target (gotMessageBytes handlers entering) :=
  (resume_touches target handlers state result).imp And.left id

theorem resume_grows (target : Target) (handlers : Handlers σ) (state : LoopState σ) (result : Received) :
    state.client.dispatched <+: (state.resume target handlers result).client.dispatched := by
  rcases resume_entries target handlers state result with same | ⟨waiting, chunk, entering, rfl, rfl, entries, _, enters⟩
  · exact same.symm ▸ List.prefix_refl _
  · rw [enters, proceed_dispatched, bytes_entry, entries]
    exact List.prefix_append _ _

theorem receive_loop_snoc (target : Target) (handlers : Handlers σ) (client : Client σ) (results : List Received)
    (result : Received) :
    receiveLoop target handlers client (results ++ [result]) =
      (receiveLoop target handlers client results).resume target handlers result := by
  simp [receiveLoop]

-- The loop waits in Receive after the `earlier` results, and the next chunk makes it enter GotMessageBytes.
def EntersAt (target : Target) (handlers : Handlers σ) (client : Client σ) (earlier : List Received) (chunk : Bytes)
    (waiting : Client σ) (entry : Dispatch) : Prop :=
  receiveLoop target handlers client earlier = .receives waiting ∧
    (receiveLoop target handlers client (earlier ++ [.bytes chunk])).client.dispatched = waiting.dispatched ++ [entry]

theorem enters_at (target : Target) (handlers : Handlers σ) (client : Client σ) (earlier : List Received) (chunk : Bytes)
    (waiting : Client σ) (entry : Dispatch) (enters : EntersAt target handlers client earlier chunk waiting entry) :
    ∃ entering : Client σ, entering.app = waiting.app ∧
      entry = ⟨entering.messageTag, entering.messageSize, entering.bytesReadFromServer⟩ ∧
      receiveLoop target handlers client (earlier ++ [.bytes chunk]) = proceed target (gotMessageBytes handlers entering) := by
  obtain ⟨waits, made⟩ := enters
  rw [receive_loop_snoc, waits] at made ⊢
  rcases resume_entries target handlers (.receives waiting) (.bytes chunk) with
    same | ⟨other, _, entering, isWaiting, _, entries, app, step⟩
  · rw [same] at made
    exact absurd made.symm (by simp [LoopState.client])
  · obtain rfl := LoopState.receives.inj isWaiting
    rw [step, proceed_dispatched, bytes_entry, entries] at made
    have last := List.append_cancel_left made
    exact ⟨entering, app, (List.cons.inj last).1.symm, step⟩

theorem entry_made (target : Target) (handlers : Handlers σ) (client : Client σ) (fresh : client.dispatched = [])
    (results : List Received) (entry : Dispatch)
    (member : entry ∈ (receiveLoop target handlers client results).client.dispatched) :
    ∃ earlier chunk waiting, earlier ++ [.bytes chunk] <+: results ∧
      EntersAt target handlers client earlier chunk waiting entry := by
  induction results using List.reverseRecOn with
  | nil =>
      rw [receiveLoop, List.foldl_nil, head_dispatched, fresh] at member
      cases member
  | append_singleton results result ih =>
      have inherited : entry ∈ (receiveLoop target handlers client results).client.dispatched →
          ∃ earlier chunk waiting, earlier ++ [.bytes chunk] <+: results ++ [result] ∧
            EntersAt target handlers client earlier chunk waiting entry := by
        intro before
        obtain ⟨earlier, chunk, waiting, within, enters⟩ := ih before
        exact ⟨earlier, chunk, waiting, within.trans (List.prefix_append _ _), enters⟩
      rw [receive_loop_snoc] at member
      rcases resume_entries target handlers (receiveLoop target handlers client results) result with
        same | ⟨waiting, chunk, entering, waits, isChunk, entries, _, step⟩
      · rw [same] at member
        exact inherited member
      · subst isChunk
        have made : (receiveLoop target handlers client (results ++ [.bytes chunk])).client.dispatched =
            waiting.dispatched ++ [⟨entering.messageTag, entering.messageSize, entering.bytesReadFromServer⟩] := by
          rw [receive_loop_snoc, step, proceed_dispatched, bytes_entry, entries]
        rw [← receive_loop_snoc, made] at member
        rcases List.mem_append.mp member with before | last
        · rw [waits] at inherited
          exact inherited before
        · rw [← List.mem_singleton.mp last] at made
          exact ⟨results, chunk, waiting, List.prefix_refl _, waits, made⟩

theorem run_grows (target : Target) (handlers : Handlers σ) (client : Client σ) (earlier results : List Received)
    (within : earlier <+: results) :
    (receiveLoop target handlers client earlier).client.dispatched <+:
      (receiveLoop target handlers client results).client.dispatched := by
  obtain ⟨later, rfl⟩ := within
  induction later using List.reverseRecOn with
  | nil => simp
  | append_singleton later result ih =>
      rw [← List.append_assoc, receive_loop_snoc]
      exact ih.trans (resume_grows target handlers _ result)

-- What holds whenever GotMessageBytes is entered holds of the entries, and the other way round.
theorem entered_iff (target : Target) (handlers : Handlers σ) (client : Client σ) (fresh : client.dispatched = [])
    (results : List Received) (property : Dispatch → Prop) :
    (∀ earlier chunk waiting entry, earlier ++ [.bytes chunk] <+: results →
      EntersAt target handlers client earlier chunk waiting entry → property entry) ↔
      ∀ entry ∈ (receiveLoop target handlers client results).client.dispatched, property entry := by
  constructor
  · intro holds entry member
    obtain ⟨earlier, chunk, waiting, within, enters⟩ := entry_made target handlers client fresh results entry member
    exact holds earlier chunk waiting entry within enters
  · intro holds earlier chunk waiting entry within enters
    exact holds entry ((run_grows target handlers client _ results within).subset
      (enters.2 ▸ List.mem_append_right waiting.dispatched List.mem_cons_self))

end PushReceiver
