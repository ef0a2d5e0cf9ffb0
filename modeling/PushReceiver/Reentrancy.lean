import Mathlib.Data.List.InsertIdx
import Mathlib.Logic.Relation
import PushReceiver.Emitter
import PushReceiver.Library.Transition

set_option autoImplicit false

namespace PushReceiver.Events

variable {κ : Type}

-- An entry of a vector, with the number of the registration that made it.
structure Slot (κ : Type) where
  id : Nat
  info : CallbackInfo κ
deriving DecidableEq, Repr

-- A std::vector<CallbackInfo>. storage counts the reallocations, each of which moves all entries.
structure Entries (κ : Type) where
  slots : List (Slot κ)
  capacity : Nat
  storage : Nat
deriving DecidableEq, Repr

-- An Emit that has not returned. callbackIt and callbackInfo are the entry at one place of one storage;
-- running is the entry whose callback it has called.
structure Frame (κ : Type) where
  event : Bytes
  message : Bytes
  storage : Nat
  callbackIt : Nat
  running : Slot κ
deriving DecidableEq, Repr

-- The emitter in the middle of any nesting of calls, the innermost Emit first. An event without an
-- entry in m_callbacks has an empty vector.
structure Machine (κ : Type) where
  entries : Bytes → Entries κ
  stack : List (Frame κ)
  nextId : Nat
  invoked : List (Slot κ)
  strayRead : Bool

-- What running code can do next: callbacks may call the emitter in any way before they return.
inductive Action (κ : Type) where
  | on (event : Bytes) (callback : κ)
  | once (event : Bytes) (callback : κ)
  | emit (event message : Bytes)
  | returns
deriving DecidableEq, Repr

def Machine.fresh : Machine κ := ⟨fun _ => ⟨[], 0, 0⟩, [], 0, [], false⟩

-- C++ leaves open by how much a full vector grows.
def Entries.pushBack (grow : Nat → Nat) (entries : Entries κ) (slot : Slot κ) : Entries κ :=
  if entries.slots.length < entries.capacity then { entries with slots := entries.slots ++ [slot] }
  else ⟨entries.slots ++ [slot], grow entries.capacity, entries.storage + 1⟩

def Entries.erase (entries : Entries κ) (callbackIt : Nat) : Entries κ := { entries with slots := entries.slots.eraseIdx callbackIt }

def Machine.register (grow : Nat → Nat) (machine : Machine κ) (event : Bytes) (info : CallbackInfo κ) : Machine κ :=
  { machine with
    entries := Function.update machine.entries event ((machine.entries event).pushBack grow ⟨machine.nextId, info⟩)
    nextId := machine.nextId + 1 }

def Machine.erase (machine : Machine κ) (event : Bytes) (callbackIt : Nat) : Machine κ :=
  { machine with entries := Function.update machine.entries event ((machine.entries event).erase callbackIt) }

-- The test of the loop, and the call of the callback if it holds.
def Machine.proceed (machine : Machine κ) (event message : Bytes) (callbackIt : Nat) : Machine κ :=
  match (machine.entries event).slots[callbackIt]? with
  | none => machine
  | some slot =>
      { machine with
        stack := ⟨event, message, (machine.entries event).storage, callbackIt, slot⟩ :: machine.stack
        invoked := machine.invoked ++ [slot] }

-- callbackInfo, if the entry it was made to is still where it was.
def Machine.read (machine : Machine κ) (frame : Frame κ) : Option (Slot κ) :=
  if (machine.entries frame.event).storage = frame.storage then
    (machine.entries frame.event).slots[frame.callbackIt]?.filter fun slot => slot.id = frame.running.id
  else none

-- The callback of the innermost Emit returns, and the round is finished. A stray read has no defined outcome.
def Machine.returns (machine : Machine κ) : Option (Machine κ) :=
  match machine.stack with
  | [] => none
  | frame :: outer =>
      match machine.read frame with
      | none => some { machine with strayRead := true }
      | some callbackInfo =>
          let left := { machine with stack := outer }
          if callbackInfo.info.isOnce then
            some ((left.erase frame.event frame.callbackIt).proceed frame.event frame.message frame.callbackIt)
          else some (left.proceed frame.event frame.message (frame.callbackIt + 1))

def Machine.step (grow : Nat → Nat) (machine : Machine κ) (action : Action κ) : Option (Machine κ) :=
  if machine.strayRead then none
  else
    match action with
    | .on event callback => some (machine.register grow event ⟨callback, false⟩)
    | .once event callback => some (machine.register grow event ⟨callback, true⟩)
    | .emit event message => some (machine.proceed event message 0)
    | .returns => machine.returns

def emitting (grow : Nat → Nat) : Transition.System (Machine κ) (Action κ) where
  initial machine := machine = .fresh
  step machine action next := machine.step grow action = some next

-- No registration of Once has been invoked twice, and no Emit has read an entry that was erased or moved.
structure Safe (machine : Machine κ) : Prop where
  once : ((machine.invoked.filter fun slot => slot.info.isOnce).map Slot.id).Nodup
  read : machine.strayRead = false

-- While Emit is at an event, registering for it must not move its entries; while it runs a callback of
-- Once, the event must not be emitted again.
def Calm (machine : Machine κ) : Action κ → Prop
  | .on event _ => (∃ frame ∈ machine.stack, frame.event = event) →
      (machine.entries event).slots.length < (machine.entries event).capacity
  | .once event _ => (∃ frame ∈ machine.stack, frame.event = event) →
      (machine.entries event).slots.length < (machine.entries event).capacity
  | .emit event _ => ∀ frame ∈ machine.stack, frame.event = event → frame.running.info.isOnce = false
  | .returns => True

-- Every registration stands at one place at most.
structure Numbered (machine : Machine κ) : Prop where
  distinct : ∀ event, ((machine.entries event).slots.map Slot.id).Nodup
  apart : ∀ first second, first ≠ second → ∀ a ∈ (machine.entries first).slots, ∀ b ∈ (machine.entries second).slots, a.id ≠ b.id
  bounded : ∀ event, ∀ slot ∈ (machine.entries event).slots, slot.id < machine.nextId
  invoked : ∀ slot ∈ machine.invoked, slot.id < machine.nextId

-- The entry of a frame is where the frame has left it, behind persistent entries only.
structure Placed (machine : Machine κ) (frame : Frame κ) : Prop where
  storage : (machine.entries frame.event).storage = frame.storage
  slot : (machine.entries frame.event).slots[frame.callbackIt]? = some frame.running
  before : ∀ i < frame.callbackIt, ∀ slot, (machine.entries frame.event).slots[i]? = some slot → slot.info.isOnce = false

structure Invariant (machine : Machine κ) : Prop where
  numbered : Numbered machine
  placed : ∀ frame ∈ machine.stack, Placed machine frame
  nested : machine.stack.Pairwise fun inner outer => outer.event = inner.event → outer.running.info.isOnce = false
  pending : ∀ event, ∀ slot ∈ (machine.entries event).slots, slot.info.isOnce = true → slot.id ∈ machine.invoked.map Slot.id →
    ∃ frame ∈ machine.stack, frame.event = event ∧ frame.running.id = slot.id
  safe : Safe machine

theorem same_slot (machine : Machine κ) (numbered : Numbered machine) (event : Bytes) (first second : Slot κ)
    (firstMember : first ∈ (machine.entries event).slots) (secondMember : second ∈ (machine.entries event).slots)
    (same : first.id = second.id) : first = second :=
  List.inj_on_of_nodup_map (numbered.distinct event) firstMember secondMember same

theorem running_member (machine : Machine κ) (frame : Frame κ) (placed : Placed machine frame) :
    frame.running ∈ (machine.entries frame.event).slots := List.mem_of_getElem? placed.slot

-- A callback of Once that stands in the vector and has been invoked is running in a frame, as that same entry.
theorem pending_runs (machine : Machine κ) (invariant : Invariant machine) (event : Bytes) (slot : Slot κ)
    (member : slot ∈ (machine.entries event).slots) (isOnce : slot.info.isOnce = true)
    (invoked : slot.id ∈ machine.invoked.map Slot.id) :
    ∃ frame ∈ machine.stack, frame.event = event ∧ frame.running = slot := by
  obtain ⟨frame, inside, rfl, same⟩ := invariant.pending event slot member isOnce invoked
  have running := running_member machine frame (invariant.placed frame inside)
  exact ⟨frame, inside, rfl, same_slot machine invariant.numbered _ _ _ running member same⟩

theorem invariant_fresh : Invariant (Machine.fresh : Machine κ) where
  numbered := ⟨fun _ => List.nodup_nil, by simp [Machine.fresh], by simp [Machine.fresh], by simp [Machine.fresh]⟩
  placed := by simp [Machine.fresh]
  nested := .nil
  pending := by simp [Machine.fresh]
  safe := ⟨List.nodup_nil, rfl⟩

theorem push_slots (grow : Nat → Nat) (entries : Entries κ) (slot : Slot κ) :
    (entries.pushBack grow slot).slots = entries.slots ++ [slot] := by
  unfold Entries.pushBack
  split
  · rfl
  · rfl

theorem register_slots (grow : Nat → Nat) (machine : Machine κ) (event other : Bytes) (info : CallbackInfo κ) :
    ((machine.register grow event info).entries other).slots =
      (machine.entries other).slots ++ if other = event then [⟨machine.nextId, info⟩] else [] := by
  rw [Machine.register]
  dsimp only
  rw [Function.update_apply]
  by_cases same : other = event
  · rw [if_pos same, if_pos same, same, push_slots]
  · rw [if_neg same, if_neg same, List.append_nil]

theorem register_member (grow : Nat → Nat) (machine : Machine κ) (event other : Bytes) (info : CallbackInfo κ) (slot : Slot κ)
    (member : slot ∈ ((machine.register grow event info).entries other).slots) :
    slot ∈ (machine.entries other).slots ∨ (other = event ∧ slot = ⟨machine.nextId, info⟩) := by
  rw [register_slots] at member
  rcases List.mem_append.mp member with before | new
  · exact .inl before
  · by_cases same : other = event
    · rw [if_pos same, List.mem_singleton] at new
      exact .inr ⟨same, new⟩
    · rw [if_neg same] at new
      cases new

theorem register_numbered (grow : Nat → Nat) (machine : Machine κ) (numbered : Numbered machine) (event : Bytes) (info : CallbackInfo κ) :
    Numbered (machine.register grow event info) where
  distinct other := by
    rw [register_slots, List.map_append]
    by_cases same : other = event
    · rw [if_pos same]
      refine List.nodup_append.mpr ⟨numbered.distinct other, List.nodup_singleton _, ?_⟩
      intro id before new isNew equal
      obtain ⟨slot, member, rfl⟩ := List.mem_map.mp before
      have small := numbered.bounded other slot member
      rw [List.map_singleton, List.mem_singleton] at isNew
      exact absurd (equal.trans isNew) (Nat.ne_of_lt small)
    · rw [if_neg same, List.map_nil, List.append_nil]
      exact numbered.distinct other
  apart first second differ a inFirst b inSecond := by
    rcases register_member grow machine event first info a inFirst with old | ⟨isEvent, new⟩
    · rcases register_member grow machine event second info b inSecond with also | ⟨_, new⟩
      · exact numbered.apart first second differ a old b also
      · have small := numbered.bounded first a old
        rw [new]
        exact Nat.ne_of_lt small
    · rcases register_member grow machine event second info b inSecond with also | ⟨alsoEvent, _⟩
      · have small := numbered.bounded second b also
        rw [new]
        exact Nat.ne_of_gt small
      · exact absurd (isEvent.trans alsoEvent.symm) differ
  bounded other slot member := by
    rcases register_member grow machine event other info slot member with old | ⟨_, new⟩
    · exact Nat.lt_succ_of_lt (numbered.bounded other slot old)
    · rw [new]
      exact Nat.lt_succ_self _
  invoked slot member := Nat.lt_succ_of_lt (numbered.invoked slot member)

-- Without a reallocation the entries keep their places.
theorem register_placed (grow : Nat → Nat) (machine : Machine κ) (event : Bytes) (info : CallbackInfo κ) (frame : Frame κ)
    (placed : Placed machine frame)
    (room : frame.event = event → (machine.entries event).slots.length < (machine.entries event).capacity) :
    Placed (machine.register grow event info) frame where
  storage := by
    rw [← placed.storage, Machine.register]
    dsimp only
    rw [Function.update_apply]
    by_cases same : frame.event = event
    · rw [if_pos same, same, Entries.pushBack, if_pos (room same)]
    · rw [if_neg same]
  slot := by
    have bound := (List.getElem?_eq_some_iff.mp placed.slot).1
    rw [register_slots, List.getElem?_append_left bound]
    exact placed.slot
  before i small slot at_i := by
    have bound := (List.getElem?_eq_some_iff.mp placed.slot).1
    rw [register_slots, List.getElem?_append_left (Nat.lt_trans small bound)] at at_i
    exact placed.before i small slot at_i

theorem register_invariant (grow : Nat → Nat) (machine : Machine κ) (invariant : Invariant machine) (event : Bytes) (info : CallbackInfo κ)
    (room : (∃ frame ∈ machine.stack, frame.event = event) →
      (machine.entries event).slots.length < (machine.entries event).capacity) :
    Invariant (machine.register grow event info) where
  numbered := register_numbered grow machine invariant.numbered event info
  placed frame member :=
    register_placed grow machine event info frame (invariant.placed frame member) fun same => room ⟨frame, member, same⟩
  nested := invariant.nested
  pending other slot member isOnce invoked := by
    rcases register_member grow machine event other info slot member with old | ⟨_, new⟩
    · exact invariant.pending other slot old isOnce invoked
    · obtain ⟨earlier, inside, same⟩ := List.mem_map.mp invoked
      have small := invariant.numbered.invoked earlier inside
      rw [same, new] at small
      exact absurd small (Nat.lt_irrefl _)
  safe := ⟨invariant.safe.once, invariant.safe.read⟩

-- The next callback of the loop is one of On, or one of Once that was never invoked.
theorem proceed_invariant (machine : Machine κ) (invariant : Invariant machine) (event message : Bytes) (callbackIt : Nat)
    (alone : ∀ frame ∈ machine.stack, frame.event = event → frame.running.info.isOnce = false)
    (before : ∀ i < callbackIt, ∀ slot, (machine.entries event).slots[i]? = some slot → slot.info.isOnce = false) :
    Invariant (machine.proceed event message callbackIt) := by
  unfold Machine.proceed
  cases next : (machine.entries event).slots[callbackIt]? with
  | none => exact invariant
  | some slot =>
      have member := List.mem_of_getElem? next
      have uninvoked : slot.info.isOnce = true → slot.id ∉ machine.invoked.map Slot.id := by
        intro isOnce invoked
        obtain ⟨frame, inside, isEvent, rfl⟩ := pending_runs machine invariant event slot member isOnce invoked
        rw [alone frame inside isEvent] at isOnce
        cases isOnce
      dsimp only
      refine ⟨?_, ?_, ?_, ?_, ?_⟩
      · refine ⟨invariant.numbered.distinct, invariant.numbered.apart, invariant.numbered.bounded, ?_⟩
        rw [List.forall_mem_append, List.forall_mem_singleton]
        exact ⟨invariant.numbered.invoked, invariant.numbered.bounded event slot member⟩
      · rw [List.forall_mem_cons]
        refine ⟨⟨rfl, next, before⟩, ?_⟩
        intro frame inside
        obtain ⟨storage, isSlot, earlier⟩ := invariant.placed frame inside
        exact ⟨storage, isSlot, earlier⟩
      · exact List.pairwise_cons.mpr ⟨fun frame inside isEvent => alone frame inside isEvent, invariant.nested⟩
      · intro other waiting isWaiting isOnce invoked
        rw [List.map_append, List.mem_append] at invoked
        rcases invoked with earlier | now
        · obtain ⟨frame, inside, isEvent, same⟩ := invariant.pending other waiting isWaiting isOnce earlier
          exact ⟨frame, List.mem_cons_of_mem _ inside, isEvent, same⟩
        · rw [List.map_singleton, List.mem_singleton] at now
          refine ⟨_, List.mem_cons_self, ?_, now.symm⟩
          by_contra differ
          exact invariant.numbered.apart event other differ slot member waiting isWaiting now.symm
      · refine ⟨?_, invariant.safe.read⟩
        rw [List.filter_append, List.map_append, List.filter_singleton]
        cases isOnce : slot.info.isOnce with
        | false => simpa using invariant.safe.once
        | true =>
            refine List.nodup_append.mpr ⟨invariant.safe.once, List.nodup_singleton _, ?_⟩
            intro id earlier now isNow same
            rw [cond_true, List.map_singleton, List.mem_singleton] at isNow
            rw [same, isNow] at earlier
            exact uninvoked isOnce ((List.filter_sublist.map Slot.id).subset earlier)

theorem erase_slots (machine : Machine κ) (event other : Bytes) (callbackIt : Nat) :
    ((machine.erase event callbackIt).entries other).slots =
      if other = event then (machine.entries event).slots.eraseIdx callbackIt else (machine.entries other).slots := by
  rw [Machine.erase]
  dsimp only
  rw [Function.update_apply]
  split
  · rfl
  · rfl

theorem erase_sublist (machine : Machine κ) (event other : Bytes) (callbackIt : Nat) :
    ((machine.erase event callbackIt).entries other).slots.Sublist (machine.entries other).slots := by
  rw [erase_slots]
  by_cases same : other = event
  · rw [if_pos same, same]
    exact List.eraseIdx_sublist _ _
  · rw [if_neg same]

theorem erase_numbered (machine : Machine κ) (numbered : Numbered machine) (event : Bytes) (callbackIt : Nat) :
    Numbered (machine.erase event callbackIt) where
  distinct other := (numbered.distinct other).sublist ((erase_sublist machine event other callbackIt).map Slot.id)
  apart first second differ a inFirst b inSecond :=
    numbered.apart first second differ a ((erase_sublist machine event first callbackIt).subset inFirst) b
      ((erase_sublist machine event second callbackIt).subset inSecond)
  bounded other slot member := numbered.bounded other slot ((erase_sublist machine event other callbackIt).subset member)
  invoked := numbered.invoked

-- The entry behind a persistent frame of the same event stands before the one that is erased.
theorem erase_placed (machine : Machine κ) (frame outer : Frame κ) (inner : Placed machine frame)
    (isOnce : frame.running.info.isOnce = true) (placed : Placed machine outer)
    (persistent : outer.event = frame.event → outer.running.info.isOnce = false) :
    Placed (machine.erase frame.event frame.callbackIt) outer := by
  by_cases same : outer.event = frame.event
  · have earlier : outer.callbackIt < frame.callbackIt := by
      rcases Nat.lt_trichotomy outer.callbackIt frame.callbackIt with less | equal | greater
      · exact less
      · have slot := placed.slot
        rw [equal, same, inner.slot, Option.some.injEq] at slot
        rw [slot, persistent same] at isOnce
        cases isOnce
      · have noOnce := placed.before _ greater frame.running (same ▸ inner.slot)
        rw [noOnce] at isOnce
        cases isOnce
    have unmoved : ∀ i ≤ outer.callbackIt, ((machine.erase frame.event frame.callbackIt).entries outer.event).slots[i]? =
        (machine.entries outer.event).slots[i]? := by
      intro i small
      rw [erase_slots, if_pos same, List.getElem?_eraseIdx_of_lt (Nat.lt_of_le_of_lt small earlier), same]
    refine ⟨?_, ?_, ?_⟩
    · rw [← placed.storage, Machine.erase]
      dsimp only
      rw [Function.update_apply, if_pos same, same]
      rfl
    · rw [unmoved _ (Nat.le_refl _)]
      exact placed.slot
    · intro i small slot at_i
      rw [unmoved i (Nat.le_of_lt small)] at at_i
      exact placed.before i small slot at_i
  · have entries : (machine.erase frame.event frame.callbackIt).entries outer.event = machine.entries outer.event :=
      Function.update_of_ne same _ _
    refine ⟨?_, ?_, ?_⟩
    · rw [entries]
      exact placed.storage
    · rw [entries]
      exact placed.slot
    · rw [entries]
      exact placed.before

theorem erased_absent (machine : Machine κ) (numbered : Numbered machine) (frame : Frame κ) (placed : Placed machine frame)
    (slot : Slot κ) (member : slot ∈ (machine.entries frame.event).slots.eraseIdx frame.callbackIt) :
    slot.id ≠ frame.running.id := by
  intro same
  obtain ⟨i, differs, isSlot⟩ := List.mem_eraseIdx_iff_getElem?.mp member
  have inside : slot ∈ (machine.entries frame.event).slots := List.mem_of_mem_eraseIdx member
  have isRunning := same_slot machine numbered _ _ _ inside (running_member machine frame placed) same
  have nodup : (machine.entries frame.event).slots.Nodup := (numbered.distinct frame.event).of_map
  have bound := (List.getElem?_eq_some_iff.mp isSlot).1
  exact differs ((List.getElem?_inj bound nodup).mp (by rw [isSlot, isRunning, placed.slot]))

def Machine.popped (machine : Machine κ) (outer : List (Frame κ)) : Machine κ := { machine with stack := outer }

theorem popped_placed (machine : Machine κ) (outer : List (Frame κ)) (frame : Frame κ) (placed : Placed machine frame) :
    Placed (machine.popped outer) frame := ⟨placed.storage, placed.slot, placed.before⟩

theorem pop_persistent (machine : Machine κ) (invariant : Invariant machine) (frame : Frame κ) (outer : List (Frame κ))
    (stack : machine.stack = frame :: outer) (noOnce : frame.running.info.isOnce = false) : Invariant (machine.popped outer) where
  numbered := ⟨invariant.numbered.distinct, invariant.numbered.apart, invariant.numbered.bounded, invariant.numbered.invoked⟩
  placed other member := popped_placed machine outer other (invariant.placed other (stack ▸ List.mem_cons_of_mem _ member))
  nested := (List.pairwise_cons.mp (stack ▸ invariant.nested)).2
  pending event slot member isOnce invoked := by
    obtain ⟨other, inside, isEvent, isSlot⟩ := pending_runs machine invariant event slot member isOnce invoked
    rw [stack] at inside
    rcases List.mem_cons.mp inside with same | left
    · rw [← isSlot, same, noOnce] at isOnce
      cases isOnce
    · exact ⟨other, left, isEvent, congrArg Slot.id isSlot⟩
  safe := ⟨invariant.safe.once, invariant.safe.read⟩

theorem pop_once (machine : Machine κ) (invariant : Invariant machine) (frame : Frame κ) (outer : List (Frame κ))
    (stack : machine.stack = frame :: outer) (isOnce : frame.running.info.isOnce = true) :
    Invariant ((machine.popped outer).erase frame.event frame.callbackIt) where
  numbered := by
    obtain ⟨distinct, apart, bounded, invoked⟩ := erase_numbered machine invariant.numbered frame.event frame.callbackIt
    exact ⟨distinct, apart, bounded, invoked⟩
  placed other member := by
    have inner := invariant.placed frame (stack ▸ List.mem_cons_self)
    have persistent := (List.pairwise_cons.mp (stack ▸ invariant.nested)).1 other member
    obtain ⟨storage, slot, before⟩ := erase_placed machine frame other inner isOnce
      (invariant.placed other (stack ▸ List.mem_cons_of_mem _ member)) persistent
    exact ⟨storage, slot, before⟩
  nested := (List.pairwise_cons.mp (stack ▸ invariant.nested)).2
  pending event slot member waitsOnce invoked := by
    have inner := invariant.placed frame (stack ▸ List.mem_cons_self)
    have stood := (erase_sublist machine frame.event event frame.callbackIt).subset member
    obtain ⟨other, inside, isEvent, isSlot⟩ := pending_runs machine invariant event slot stood waitsOnce invoked
    rw [stack] at inside
    rcases List.mem_cons.mp inside with same | left
    · change slot ∈ ((machine.erase frame.event frame.callbackIt).entries event).slots at member
      rw [erase_slots, ← isEvent, same, if_pos rfl] at member
      exact absurd (congrArg Slot.id isSlot).symm (same ▸ erased_absent machine invariant.numbered frame inner slot member)
    · exact ⟨other, left, isEvent, congrArg Slot.id isSlot⟩
  safe := ⟨invariant.safe.once, invariant.safe.read⟩

theorem read_running (machine : Machine κ) (frame : Frame κ) (placed : Placed machine frame) :
    machine.read frame = some frame.running := by
  rw [Machine.read, if_pos placed.storage, placed.slot]
  simp

theorem returns_invariant (machine next : Machine κ) (invariant : Invariant machine) (returned : machine.returns = some next) :
    Invariant next := by
  unfold Machine.returns at returned
  cases stack : machine.stack with
  | nil =>
      rw [stack] at returned
      cases returned
  | cons frame outer =>
      have inner := invariant.placed frame (stack ▸ List.mem_cons_self)
      have persistent := (List.pairwise_cons.mp (stack ▸ invariant.nested)).1
      rw [stack] at returned
      dsimp only at returned
      rw [read_running machine frame inner] at returned
      dsimp only at returned
      cases isOnce : frame.running.info.isOnce with
      | true =>
          rw [isOnce, if_pos rfl] at returned
          cases returned
          apply proceed_invariant _ (pop_once machine invariant frame outer stack isOnce) frame.event frame.message
          · exact persistent
          · intro i small slot at_i
            change ((machine.erase frame.event frame.callbackIt).entries frame.event).slots[i]? = some slot at at_i
            rw [erase_slots, if_pos rfl, List.getElem?_eraseIdx_of_lt small] at at_i
            exact inner.before i small slot at_i
      | false =>
          rw [isOnce, if_neg (by simp)] at returned
          cases returned
          apply proceed_invariant _ (pop_persistent machine invariant frame outer stack isOnce) frame.event frame.message
          · exact persistent
          · intro i small slot at_i
            rcases Nat.lt_succ_iff_lt_or_eq.mp small with earlier | here
            · exact inner.before i earlier slot at_i
            · change (machine.entries frame.event).slots[i]? = some slot at at_i
              rw [here, inner.slot, Option.some.injEq] at at_i
              exact at_i ▸ isOnce

theorem step_invariant (grow : Nat → Nat) (machine next : Machine κ) (action : Action κ) (invariant : Invariant machine)
    (calm : Calm machine action) (taken : machine.step grow action = some next) : Invariant next := by
  unfold Machine.step at taken
  rw [invariant.safe.read, if_neg (by simp)] at taken
  cases action with
  | on event callback =>
      cases taken
      exact register_invariant grow machine invariant event _ calm
  | once event callback =>
      cases taken
      exact register_invariant grow machine invariant event _ calm
  | emit event message =>
      cases taken
      apply proceed_invariant machine invariant event message 0 calm
      intro i none
      exact absurd none (Nat.not_lt_zero i)
  | returns => exact returns_invariant machine next invariant taken

theorem once_means_once (grow : Nat → Nat) (trace : List (Machine κ × Action κ)) (machine : Machine κ)
    (run : Transition.Run (emitting grow) trace machine) (calm : ∀ taken ∈ trace, Calm taken.1 taken.2) : Safe machine := by
  have invariant := Transition.run_keeps_while (emitting grow) Invariant Calm
    (fun first isFresh => isFresh ▸ invariant_fresh)
    (fun before action after kept allowed taken => step_invariant grow before after action kept allowed taken) trace machine run calm
  exact invariant.safe

def Machine.infos (machine : Machine κ) (event : Bytes) : List (CallbackInfo κ) := (machine.entries event).slots.map Slot.info

def Machine.invocations (machine : Machine κ) : List κ := machine.invoked.map fun slot => slot.info.callback

-- A run of the loop of Emit in which the callbacks do nothing but return.
structure Undisturbed (machine last : Machine κ) (event : Bytes) (done : List (Invocation κ) × List (CallbackInfo κ)) : Prop where
  stack : last.stack = machine.stack
  read : last.strayRead = machine.strayRead
  infos : last.infos event = done.2
  others : ∀ other, other ≠ event → last.infos other = machine.infos other
  invocations : last.invocations = machine.invocations ++ done.1.map Invocation.callback

theorem undisturbed_stays (machine : Machine κ) (event : Bytes) : Undisturbed machine machine event ([], machine.infos event) :=
  ⟨rfl, rfl, rfl, fun _ _ => rfl, (List.append_nil _).symm⟩

def Machine.invokes (machine : Machine κ) (slot : Slot κ) : Machine κ := { machine with invoked := machine.invoked ++ [slot] }

theorem returns_at_once (machine : Machine κ) (event message : Bytes) (callbackIt : Nat) (slot : Slot κ)
    (next : (machine.entries event).slots[callbackIt]? = some slot) :
    (machine.proceed event message callbackIt).returns =
      some (if slot.info.isOnce then ((machine.invokes slot).erase event callbackIt).proceed event message callbackIt
        else (machine.invokes slot).proceed event message (callbackIt + 1)) := by
  have same : (some slot).filter (fun other => decide (other.id = slot.id)) = some slot := by simp
  rw [Machine.proceed, next, Machine.returns]
  dsimp only
  rw [Machine.read, if_pos rfl, next, same]
  dsimp only
  split
  · rfl
  · rfl

theorem loop_undisturbed (message : Bytes) (rounds : Nat) (machine : Machine κ) (event : Bytes) (callbackIt : Nat)
    (enough : (machine.infos event).length ≤ callbackIt + rounds) :
    ∃ last, Relation.ReflTransGen (fun before after => before.returns = some after) (machine.proceed event message callbackIt) last ∧
      Undisturbed machine last event (emitLoop message rounds callbackIt (machine.infos event)) := by
  induction rounds generalizing machine callbackIt with
  | zero =>
      have reached : (machine.entries event).slots[callbackIt]? = none := by
        simpa [Machine.infos] using enough
      refine ⟨machine, ?_, undisturbed_stays machine event⟩
      rw [Machine.proceed, reached]
  | succ rounds ih =>
      cases next : (machine.entries event).slots[callbackIt]? with
      | none =>
          have reached : (machine.infos event)[callbackIt]? = none := by rw [Machine.infos, List.getElem?_map, next]; rfl
          refine ⟨machine, ?_, ?_⟩
          · rw [Machine.proceed, next]
          · rw [emitLoop, reached]
            exact undisturbed_stays machine event
      | some slot =>
          have here : (machine.infos event)[callbackIt]? = some slot.info := by rw [Machine.infos, List.getElem?_map, next]; rfl
          have bound := (List.getElem?_eq_some_iff.mp here).1
          let counted := machine.invokes slot
          have finished := returns_at_once machine event message callbackIt slot next
          rw [emitLoop, here]
          dsimp only
          cases isOnce : slot.info.isOnce with
          | true =>
              have erased : (counted.erase event callbackIt).infos event = (machine.infos event).eraseIdx callbackIt := by
                rw [Machine.infos, erase_slots, if_pos rfl, Machine.infos, List.eraseIdx_map]
                rfl
              obtain ⟨last, steps, done⟩ := ih (counted.erase event callbackIt) callbackIt (by
                rw [erased, List.length_eraseIdx_of_lt bound]
                omega)
              rw [isOnce, if_pos rfl] at finished
              refine ⟨last, .head finished steps, done.stack, done.read, ?_, ?_, ?_⟩
              · rw [done.infos, erased, if_pos rfl]
              · intro other differs
                rw [done.others other differs, Machine.infos, erase_slots, if_neg differs]
                rfl
              · rw [done.invocations, erased, if_pos rfl, List.map_cons]
                simp [Machine.invocations, Machine.erase, counted, Machine.invokes]
          | false =>
              obtain ⟨last, steps, done⟩ := ih counted (callbackIt + 1) (by
                change (machine.infos event).length ≤ _
                omega)
              rw [isOnce, if_neg (by simp)] at finished
              refine ⟨last, .head finished steps, done.stack, done.read, ?_, done.others, ?_⟩
              · rw [done.infos, if_neg (by simp)]
                rfl
              · rw [done.invocations, if_neg (by simp), List.map_cons]
                simp [Machine.invocations, counted, Machine.invokes, Machine.infos]

-- With callbacks that only return, the machine does what emit says.
theorem emit_undisturbed (machine : Machine κ) (event message : Bytes) :
    ∃ last, Relation.ReflTransGen (fun before after => before.returns = some after) (machine.proceed event message 0) last ∧
      Undisturbed machine last event (emitLoop message (machine.infos event).length 0 (machine.infos event)) :=
  loop_undisturbed message _ machine event 0 (Nat.le_add_left _ _)

-- std::vector as the Windows targets let it grow.
def growth (capacity : Nat) : Nat := max (capacity + 1) (capacity + capacity / 2)

def registered (isOnce : Bool) : Machine Nat := Machine.fresh.register growth (ascii "message") ⟨0, isOnce⟩

def invoking (isOnce : Bool) : Machine Nat := (registered isOnce).proceed (ascii "message") [] 0

def movedAway : Machine Nat := (invoking false).register growth (ascii "message") ⟨1, false⟩

theorem run_invoking : Transition.Run (emitting growth)
    [(Machine.fresh, Action.once (ascii "message") 0), (registered true, Action.emit (ascii "message") [])] (invoking true) :=
  .step [(Machine.fresh, Action.once (ascii "message") 0)] (registered true) (.emit (ascii "message") []) _
    (.step [] Machine.fresh (Action.once (ascii "message") 0) _ (.start Machine.fresh rfl) rfl) rfl

-- A callback of Once that emits another event, whose callback registers a third one and returns.
def onceRuns : Machine Nat :=
  ((Machine.fresh.register growth (ascii "other") ⟨1, false⟩).register growth (ascii "message") ⟨0, true⟩).proceed
    (ascii "message") [] 0

def otherRuns : Machine Nat := onceRuns.proceed (ascii "other") [] 0

def laterRegistered : Machine Nat := otherRuns.register growth (ascii "later") ⟨2, true⟩

def otherReturned : Machine Nat := laterRegistered.returns.getD laterRegistered

def nestedTrace : List (Machine Nat × Action Nat) :=
  [(Machine.fresh, .on (ascii "other") 1),
    (Machine.fresh.register growth (ascii "other") ⟨1, false⟩, .once (ascii "message") 0),
    ((Machine.fresh.register growth (ascii "other") ⟨1, false⟩).register growth (ascii "message") ⟨0, true⟩,
      .emit (ascii "message") []),
    (onceRuns, .emit (ascii "other") []), (otherRuns, .once (ascii "later") 2), (laterRegistered, .returns)]

theorem run_nested : Transition.Run (emitting growth) nestedTrace otherReturned := by
  have registered : Transition.Run (emitting growth) (nestedTrace.take 2) _ :=
    .step _ _ _ _ (.step [] Machine.fresh _ _ (.start Machine.fresh rfl) rfl) rfl
  have outer : Transition.Run (emitting growth) (nestedTrace.take 3) onceRuns := .step _ _ _ _ registered rfl
  have inner : Transition.Run (emitting growth) (nestedTrace.take 4) otherRuns := .step _ _ _ _ outer rfl
  have later : Transition.Run (emitting growth) (nestedTrace.take 5) laterRegistered := .step _ _ _ _ inner rfl
  exact .step _ _ _ _ later rfl

theorem nested_calm : ∀ taken ∈ nestedTrace, Calm taken.1 taken.2 := by
  have empty : ∀ taken ∈ ([] : List (Machine Nat × Action Nat)), Calm taken.1 taken.2 := fun _ member => by cases member
  simp only [nestedTrace, List.forall_mem_cons]
  refine ⟨?_, ?_, ?_, ?_, ?_, trivial, empty⟩ <;> unfold Calm <;> decide +kernel

theorem once_means_once_nested : otherReturned.stack = onceRuns.stack ∧ Safe otherReturned :=
  ⟨rfl, once_means_once growth _ _ run_nested nested_calm⟩

-- The callback of Once emits its own event.
theorem emit_in_once_repeats :
    Transition.Run (emitting growth)
        [(Machine.fresh, Action.once (ascii "message") 0), (registered true, Action.emit (ascii "message") []),
          (invoking true, Action.emit (ascii "message") [])]
        ((invoking true).proceed (ascii "message") [] 0) ∧
      ¬ Safe ((invoking true).proceed (ascii "message") [] 0) := by
  have taken : (emitting growth).step (invoking true) (.emit (ascii "message") []) ((invoking true).proceed (ascii "message") [] 0) := rfl
  refine ⟨.step _ _ _ _ run_invoking taken, ?_⟩
  intro safe
  exact absurd safe.once (by decide +kernel)

-- The callback of On registers another one in a full vector.
example : movedAway.returns.map Machine.strayRead = some true := by decide +kernel

end PushReceiver.Events
