import Mathlib.Logic.Function.Basic
import Mathlib.Data.List.Nodup
import PushReceiver.Cpp

set_option autoImplicit false

namespace PushReceiver.Events

variable {κ : Type}

-- CallbackInfo; κ stands for the std::function.
structure CallbackInfo (κ : Type) where
  callback : κ
  isOnce : Bool
deriving DecidableEq, Repr

structure Invocation (κ : Type) where
  callback : κ
  message : Bytes
deriving DecidableEq, Repr

-- m_callbacks; find gives end() for an event nobody has registered for.
abbrev Callbacks (κ : Type) := Bytes → Option (List (CallbackInfo κ))

-- operator[] makes the vector where there is none.
def pushBack (callbacks : Callbacks κ) (event : Bytes) (info : CallbackInfo κ) : Callbacks κ :=
  Function.update callbacks event (some ((callbacks event).getD [] ++ [info]))

def on (callbacks : Callbacks κ) (event : Bytes) (callback : κ) : Callbacks κ := pushBack callbacks event ⟨callback, false⟩

def once (callbacks : Callbacks κ) (event : Bytes) (callback : κ) : Callbacks κ := pushBack callbacks event ⟨callback, true⟩

-- The loop of Emit over callbacks that return and leave the emitter alone. Every round brings the
-- iterator closer to the end, so size() rounds are enough.
def emitLoop (message : Bytes) : Nat → Nat → List (CallbackInfo κ) → List (Invocation κ) × List (CallbackInfo κ)
  | 0, _, callbacks => ([], callbacks)
  | rounds + 1, callbackIt, callbacks =>
      match callbacks[callbackIt]? with
      | none => ([], callbacks)
      | some callbackInfo =>
          let later :=
            if callbackInfo.isOnce then emitLoop message rounds callbackIt (callbacks.eraseIdx callbackIt)
            else emitLoop message rounds (callbackIt + 1) callbacks
          (⟨callbackInfo.callback, message⟩ :: later.1, later.2)

def emit (callbacks : Callbacks κ) (event message : Bytes) : List (Invocation κ) × Callbacks κ :=
  match callbacks event with
  | none => ([], callbacks)
  | some registered =>
      let done := emitLoop message registered.length 0 registered
      (done.1, Function.update callbacks event (some done.2))

inductive Call (κ : Type) where
  | on (event : Bytes) (callback : κ)
  | once (event : Bytes) (callback : κ)
  | emit (event message : Bytes)
deriving DecidableEq, Repr

-- The emitter and what it has invoked.
structure Observed (κ : Type) where
  callbacks : Callbacks κ
  trace : List (Invocation κ)

def Observed.call (observed : Observed κ) : Call κ → Observed κ
  | .on event callback => { observed with callbacks := on observed.callbacks event callback }
  | .once event callback => { observed with callbacks := once observed.callbacks event callback }
  | .emit event message =>
      let done := emit observed.callbacks event message
      ⟨done.2, observed.trace ++ done.1⟩

def observe (calls : List (Call κ)) : Observed κ := calls.foldl Observed.call ⟨fun _ => none, []⟩

-- The reference: all registrations ever made, numbered in their order, and all their invocations.
structure Registration (κ : Type) where
  id : Nat
  event : Bytes
  info : CallbackInfo κ
deriving DecidableEq, Repr

structure Invoked (κ : Type) where
  registration : Registration κ
  message : Bytes
deriving DecidableEq, Repr

def Invoked.invocation (invoked : Invoked κ) : Invocation κ := ⟨invoked.registration.info.callback, invoked.message⟩

structure Reference (κ : Type) where
  log : List (Registration κ)
  trace : List (Invoked κ)
deriving DecidableEq, Repr

def Reference.invokedIds (reference : Reference κ) : List Nat := reference.trace.map fun invoked => invoked.registration.id

-- A registration for the event that was made by On, or by Once and has not been invoked yet.
def Reference.due (reference : Reference κ) (event : Bytes) (registration : Registration κ) : Bool :=
  registration.event = event && (!registration.info.isOnce || registration.id ∉ reference.invokedIds)

def Reference.register (reference : Reference κ) (event : Bytes) (info : CallbackInfo κ) : Reference κ :=
  { reference with log := reference.log ++ [⟨reference.log.length, event, info⟩] }

def Reference.emitted (reference : Reference κ) (event message : Bytes) : Reference κ :=
  { reference with trace := reference.trace ++ (reference.log.filter (reference.due event)).map fun due => ⟨due, message⟩ }

def Reference.call (reference : Reference κ) : Call κ → Reference κ
  | .on event callback => reference.register event ⟨callback, false⟩
  | .once event callback => reference.register event ⟨callback, true⟩
  | .emit event message => reference.emitted event message

def refer (calls : List (Call κ)) : Reference κ := calls.foldl Reference.call ⟨[], []⟩

-- The loop with the callbacks before the iterator split off: those stay, and it keeps the persistent ones of the rest.
theorem emit_loop (message : Bytes) (kept rest : List (CallbackInfo κ)) :
    emitLoop message rest.length kept.length (kept ++ rest) =
      (rest.map (fun info => ⟨info.callback, message⟩), kept ++ rest.filter (fun info => !info.isOnce)) := by
  induction rest generalizing kept with
  | nil => rfl
  | cons info rest ih =>
      have here : (kept ++ info :: rest)[kept.length]? = some info := by simp
      rw [List.length_cons, emitLoop, here]
      dsimp only
      cases isOnce : info.isOnce with
      | true =>
          have erased : (kept ++ info :: rest).eraseIdx kept.length = kept ++ rest := by
            rw [List.eraseIdx_append_of_length_le (Nat.le_refl _), Nat.sub_self, List.eraseIdx_cons_zero]
          rw [if_pos rfl, erased, ih kept, List.filter_cons_of_neg (by simp [isOnce])]
          rfl
      | false =>
          have next := ih (kept ++ [info])
          rw [List.length_append, List.length_singleton, List.append_assoc, List.singleton_append] at next
          rw [if_neg (by simp), next, List.filter_cons_of_pos (by simp [isOnce]), List.append_assoc, List.singleton_append]
          rfl

theorem emit_invokes (callbacks : Callbacks κ) (event message : Bytes) :
    (emit callbacks event message).1 = ((callbacks event).getD []).map fun info => ⟨info.callback, message⟩ := by
  unfold emit
  cases callbacks event with
  | none => rfl
  | some registered =>
      have looped := emit_loop message [] registered
      rw [List.nil_append, List.length_nil] at looped
      dsimp only [Option.getD_some]
      rw [looped]

theorem emit_leaves (callbacks : Callbacks κ) (event message other : Bytes) :
    ((emit callbacks event message).2 other).getD [] =
      if other = event then ((callbacks event).getD []).filter fun info => !info.isOnce else (callbacks other).getD [] := by
  unfold emit
  by_cases same : other = event
  · rw [if_pos same, same]
    cases registered : callbacks event with
    | none =>
        dsimp only
        rw [registered]
        rfl
    | some infos =>
        have looped := emit_loop message [] infos
        rw [List.nil_append, List.length_nil] at looped
        dsimp only
        rw [looped, Function.update_self]
        rfl
  · rw [if_neg same]
    cases callbacks event with
    | none => rfl
    | some infos =>
        dsimp only
        rw [Function.update_of_ne same]

theorem push_back (callbacks : Callbacks κ) (event other : Bytes) (info : CallbackInfo κ) :
    (pushBack callbacks event info other).getD [] =
      (callbacks other).getD [] ++ if other = event then [info] else [] := by
  rw [pushBack, Function.update_apply]
  by_cases same : other = event
  · rw [if_pos same, if_pos same, same, Option.getD_some]
  · rw [if_neg same, if_neg same, List.append_nil]

structure Represents (observed : Observed κ) (reference : Reference κ) : Prop where
  callbacks : ∀ event, (observed.callbacks event).getD [] = (reference.log.filter (reference.due event)).map Registration.info
  trace : observed.trace = reference.trace.map Invoked.invocation
  ids : reference.log.map Registration.id = List.range reference.log.length
  known : ∀ invoked ∈ reference.trace, invoked.registration ∈ reference.log
  once : ((reference.trace.filter fun invoked => invoked.registration.info.isOnce).map fun invoked => invoked.registration.id).Nodup

theorem id_lt (reference : Reference κ) (ids : reference.log.map Registration.id = List.range reference.log.length)
    (registration : Registration κ) (member : registration ∈ reference.log) : registration.id < reference.log.length := by
  rw [← List.mem_range, ← ids]
  exact List.mem_map_of_mem member

theorem id_unique (reference : Reference κ) (ids : reference.log.map Registration.id = List.range reference.log.length)
    (first second : Registration κ) (firstMember : first ∈ reference.log) (secondMember : second ∈ reference.log)
    (same : first.id = second.id) : first = second :=
  List.inj_on_of_nodup_map (ids ▸ List.nodup_range) firstMember secondMember same

-- A new registration has an id that nothing was invoked under.
theorem due_fresh (reference : Reference κ) (ids : reference.log.map Registration.id = List.range reference.log.length)
    (known : ∀ invoked ∈ reference.trace, invoked.registration ∈ reference.log) (event other : Bytes) (info : CallbackInfo κ) :
    reference.due other ⟨reference.log.length, event, info⟩ = decide (other = event) := by
  have fresh : reference.log.length ∉ reference.invokedIds := by
    intro inside
    obtain ⟨invoked, member, same⟩ := List.mem_map.mp inside
    have small := id_lt reference ids _ (known invoked member)
    omega
  simp [Reference.due, fresh, eq_comm]

theorem register_represents (observed : Observed κ) (reference : Reference κ) (represents : Represents observed reference)
    (event : Bytes) (info : CallbackInfo κ) :
    Represents { observed with callbacks := pushBack observed.callbacks event info } (reference.register event info) where
  callbacks other := by
    rw [push_back, represents.callbacks]
    change _ = ((reference.log ++ [_]).filter (reference.due other)).map Registration.info
    rw [List.filter_append, List.map_append, List.filter_singleton, due_fresh reference represents.ids represents.known]
    by_cases same : other = event
    · simp [same]
    · simp [same]
  trace := represents.trace
  ids := by
    rw [Reference.register, List.map_append, represents.ids, List.length_append, List.length_singleton, List.range_succ]
    rfl
  known invoked member := List.mem_append_left _ (represents.known invoked member)
  once := represents.once

-- Of the registrations that were due, Emit leaves those of On; those of other events stay.
theorem due_emitted (reference : Reference κ) (ids : reference.log.map Registration.id = List.range reference.log.length)
    (event message other : Bytes) (registration : Registration κ) (member : registration ∈ reference.log) :
    (reference.emitted event message).due other registration =
      (reference.due other registration && !(decide (other = event) && registration.info.isOnce)) := by
  have invoked : registration.id ∈ (reference.emitted event message).invokedIds ↔
      registration.id ∈ reference.invokedIds ∨ reference.due event registration = true := by
    simp only [Reference.invokedIds, Reference.emitted, List.map_append, List.mem_append, List.map_map, List.mem_map,
      List.mem_filter, Function.comp]
    constructor
    · rintro (before | ⟨due, ⟨inside, isDue⟩, same⟩)
      · exact .inl before
      · exact .inr (id_unique reference ids due registration inside member same ▸ isDue)
    · rintro (before | isDue)
      · exact .inl before
      · exact .inr ⟨registration, ⟨member, isDue⟩, rfl⟩
  simp only [Reference.due, invoked, Bool.and_eq_true, decide_eq_true_eq, Bool.or_eq_true]
  cases isOnce : registration.info.isOnce with
  | false => simp
  | true =>
      by_cases isEvent : registration.event = other
      · by_cases same : other = event
        · simp [isEvent, same]
        · simp [isEvent, same]
      · simp [isEvent]

theorem emit_represents (observed : Observed κ) (reference : Reference κ) (represents : Represents observed reference)
    (event message : Bytes) :
    Represents ⟨(emit observed.callbacks event message).2, observed.trace ++ (emit observed.callbacks event message).1⟩
      (reference.emitted event message) where
  callbacks other := by
    have due : reference.log.filter ((reference.emitted event message).due other) =
        (reference.log.filter (reference.due other)).filter fun registration =>
          !(decide (other = event) && registration.info.isOnce) := by
      rw [List.filter_filter]
      apply List.filter_congr
      intro registration member
      rw [due_emitted reference represents.ids event message other registration member, Bool.and_comm]
    rw [emit_leaves]
    change _ = (reference.log.filter ((reference.emitted event message).due other)).map Registration.info
    rw [due]
    by_cases same : other = event
    · rw [if_pos same, represents.callbacks, List.filter_map, same]
      simp [Function.comp_def]
    · rw [if_neg same, represents.callbacks]
      simp [same]
  trace := by
    rw [emit_invokes, represents.callbacks, represents.trace, Reference.emitted, List.map_append, List.map_map, List.map_map]
    rfl
  ids := represents.ids
  known invoked member := by
    rcases List.mem_append.mp member with before | now
    · exact represents.known invoked before
    · obtain ⟨due, inside, rfl⟩ := List.mem_map.mp now
      exact List.mem_of_mem_filter inside
  once := by
    change (((reference.trace ++ _).filter _).map _).Nodup
    rw [List.filter_append, List.map_append, List.filter_map, List.map_map]
    refine List.nodup_append.mpr ⟨represents.once, ?_, ?_⟩
    · have all : (reference.log.map Registration.id).Nodup := represents.ids ▸ List.nodup_range
      exact all.sublist ((List.filter_sublist.trans List.filter_sublist).map Registration.id)
    · intro before inside now fresh same
      obtain ⟨invoked, member, rfl⟩ := List.mem_map.mp inside
      obtain ⟨due, isNow, rfl⟩ := List.mem_map.mp fresh
      obtain ⟨isDue, isOnce⟩ := List.mem_filter.mp isNow
      have invokedBefore : due.id ∈ reference.invokedIds := by
        change invoked.registration.id = due.id at same
        exact List.mem_map.mpr ⟨invoked, List.mem_of_mem_filter member, same⟩
      have notDue := (List.mem_filter.mp isDue).2
      simp only [Function.comp_apply] at isOnce
      simp [Reference.due, isOnce, invokedBefore] at notDue

theorem call_represents (observed : Observed κ) (reference : Reference κ) (represents : Represents observed reference) (call : Call κ) :
    Represents (observed.call call) (reference.call call) := by
  cases call with
  | on event callback => exact register_represents observed reference represents event ⟨callback, false⟩
  | once event callback => exact register_represents observed reference represents event ⟨callback, true⟩
  | emit event message => exact emit_represents observed reference represents event message

theorem calls_represent (calls : List (Call κ)) (observed : Observed κ) (reference : Reference κ)
    (represents : Represents observed reference) :
    Represents (calls.foldl Observed.call observed) (calls.foldl Reference.call reference) := by
  induction calls generalizing observed reference with
  | nil => exact represents
  | cons call rest ih => exact ih _ _ (call_represents observed reference represents call)

theorem observe_represents (calls : List (Call κ)) : Represents (observe calls) (refer calls) :=
  calls_represent calls _ _ ⟨fun _ => rfl, rfl, rfl, by simp, List.nodup_nil⟩

-- kept: the callbacks of On are all still there; once: no callback of Once has been invoked twice.
structure TraceLaw (calls : List (Call κ)) : Prop where
  trace : (observe calls).trace = (refer calls).trace.map Invoked.invocation
  kept : ∀ event, (((observe calls).callbacks event).getD []).filter (fun info => !info.isOnce) =
    ((refer calls).log.filter fun registration => registration.event = event && !registration.info.isOnce).map Registration.info
  once : (((refer calls).trace.filter fun invoked => invoked.registration.info.isOnce).map fun invoked => invoked.registration.id).Nodup

theorem emitter_trace (calls : List (Call κ)) : TraceLaw calls := by
  have represents := observe_represents calls
  refine ⟨represents.trace, ?_, represents.once⟩
  intro event
  rw [represents.callbacks, List.filter_map, List.filter_filter]
  congr 1
  apply List.filter_congr
  intro registration _
  simp only [Reference.due, Function.comp_apply]
  cases registration.info.isOnce with
  | false => simp
  | true => simp

end PushReceiver.Events
