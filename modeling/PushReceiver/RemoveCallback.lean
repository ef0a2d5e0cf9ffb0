import PushReceiver.Emitter

set_option autoImplicit false

namespace PushReceiver.Events

variable {κ : Type}

-- Types as typeid tells them apart: closure is the type of one lambda expression, functor a class
-- with an operator(), and void(A, B) is takes A (takes B (returns void)).
inductive CppType where
  | void
  | string
  | constReference (type : CppType)
  | pointer (type : CppType)
  | closure (id : Nat)
  | functor (id : Nat)
  | returns (result : CppType)
  | takes (parameter function : CppType)
deriving DecidableEq, Repr

def CppType.function (result : CppType) (parameters : List CppType) : CppType := parameters.foldr .takes (.returns result)

def CppType.isObject : CppType → Bool
  | .void => false
  | .constReference _ => false
  | .returns _ => false
  | .takes _ _ => false
  | _ => true

-- What is stored in a std::function. It decays what it is given, so that a function is stored as a
-- pointer to it; κ tells the callables of one type apart, and a copy is the same callable.
structure Callable (κ : Type) where
  type : CppType
  object : type.isObject = true
  callable : κ
deriving DecidableEq

-- Callback, empty or not.
abbrev StdFunction (κ : Type) := Option (Callable κ)

-- The std::functions a call of RemoveCallback looks into, each with its own copy of its callable.
inductive Place where
  | argument
  | entry (index : Nat)
deriving DecidableEq, Repr

-- target<T>(): where the callable is, or null.
def target (type : CppType) (place : Place) (function : StdFunction κ) : Option Place :=
  match function with
  | none => none
  | some callable => if callable.type = type then some place else none

-- void(const std::string&, const std::string&)
def comparedType : CppType := .function .void [.constReference .string, .constReference .string]

-- The predicate of RemoveCallback on the entry at an index.
def sameTarget (callback : StdFunction κ) (index : Nat) (info : CallbackInfo (StdFunction κ)) : Bool :=
  target comparedType (.entry index) info.callback = target comparedType .argument callback

-- erase of what std::remove_if leaves behind: the predicate is asked about every item where it
-- stands, and the others keep their order.
def eraseRemoved {α : Type} (pred : Nat → α → Bool) (items : List α) : List α :=
  (items.zipIdx.filter fun item => !pred item.2 item.1).map Prod.fst

def removeCallback (callbacks : Callbacks (StdFunction κ)) (event : Bytes) (callback : StdFunction κ) : Callbacks (StdFunction κ) :=
  match callbacks event with
  | none => callbacks
  | some registered => Function.update callbacks event (some (eraseRemoved (sameTarget callback) registered))

theorem target_function (type : CppType) (function : type.isObject = false) (place : Place) (callback : StdFunction κ) :
    target type place callback = none := by
  cases callback with
  | none => rfl
  | some callable =>
      apply if_neg
      rintro rfl
      rw [callable.object] at function
      cases function

-- The type that is compared is a function type, so both pointers are null.
theorem same_target (callback : StdFunction κ) (index : Nat) (info : CallbackInfo (StdFunction κ)) :
    sameTarget callback index info = true := by
  rw [sameTarget, target_function comparedType rfl, target_function comparedType rfl]
  rfl

theorem erase_removed_all {α : Type} (pred : Nat → α → Bool) (always : ∀ index item, pred index item = true) (items : List α) :
    eraseRemoved pred items = [] := by
  rw [eraseRemoved, List.map_eq_nil_iff, List.filter_eq_nil_iff]
  intro item _
  rw [always]
  decide

theorem remove_callback (callbacks : Callbacks (StdFunction κ)) (event other : Bytes) (callback : StdFunction κ) :
    removeCallback callbacks event callback other =
      if other = event then (callbacks event).map (fun _ => []) else callbacks other := by
  unfold removeCallback
  cases registered : callbacks event with
  | none =>
      by_cases same : other = event
      · rw [if_pos same, same]
        exact registered
      · rw [if_neg same]
  | some infos =>
      dsimp only
      rw [Function.update_apply, erase_removed_all _ (same_target callback)]
      rfl

-- Every callback of the event is unsubscribed.
theorem remove_silences (callbacks : Callbacks (StdFunction κ)) (event message : Bytes) (callback : StdFunction κ) :
    (emit (removeCallback callbacks event callback) event message).1 = [] := by
  rw [emit_invokes, remove_callback, if_pos rfl]
  cases callbacks event with
  | none => rfl
  | some registered => rfl

variable [DecidableEq κ]

def holdsCallable (callback : StdFunction κ) (info : CallbackInfo (StdFunction κ)) : Bool :=
  callback.isSome && info.callback = callback

-- The entries of the event that hold the callable are gone, and nothing else has changed.
structure RemovesOnly (callbacks : Callbacks (StdFunction κ)) (event : Bytes) (callback : StdFunction κ) : Prop where
  removed : removeCallback callbacks event callback event =
    (callbacks event).map fun registered => registered.filter fun info => !holdsCallable callback info
  frame : ∀ other, other ≠ event → removeCallback callbacks event callback other = callbacks other

theorem removes_only_iff (callbacks : Callbacks (StdFunction κ)) (event : Bytes) (callback : StdFunction κ) :
    RemovesOnly callbacks event callback ↔ ∀ info ∈ (callbacks event).getD [], holdsCallable callback info = true := by
  constructor
  · intro only info member
    have removed := only.removed
    rw [remove_callback, if_pos rfl] at removed
    cases registered : callbacks event with
    | none =>
        rw [registered] at member
        cases member
    | some infos =>
        rw [registered] at removed member
        have none_left := List.filter_eq_nil_iff.mp (Option.some.inj removed).symm info member
        simpa using none_left
  · intro held
    refine ⟨?_, ?_⟩
    · rw [remove_callback, if_pos rfl]
      cases registered : callbacks event with
      | none => rfl
      | some infos =>
          rw [registered] at held
          have none_left : (infos.filter fun info => !holdsCallable callback info) = [] := by
            rw [List.filter_eq_nil_iff]
            intro info member
            rw [held info member]
            decide
          rw [Option.map_some, Option.map_some, none_left]
    · intro other differs
      rw [remove_callback, if_neg differs]

-- Two lambdas that listen to one event.
def firstListener : StdFunction Nat := some ⟨.closure 0, rfl, 0⟩

def secondListener : StdFunction Nat := some ⟨.closure 1, rfl, 0⟩

def listening : Callbacks (StdFunction Nat) :=
  on (on (fun _ => none) (ascii "message") firstListener) (ascii "message") secondListener

theorem other_listener_removed : ¬ RemovesOnly listening (ascii "message") firstListener := by
  intro only
  exact absurd only.removed (by decide)

end PushReceiver.Events
