import Mathlib.Data.List.Nodup
import PushReceiver.Library.Transition

set_option autoImplicit false

namespace Receipts

variable {A : Type}

-- A sender holds messages until they are confirmed by a receiver that may stop at any point: the
-- receipts outlive it, and are written anew from what the current session has taken.
structure Mailbox (A : Type) where
  posted : List A
  held : List A
  unsent : List A
  session : List A
  receipts : List A
  taken : List A

def Mailbox.unconfirmed [DecidableEq A] (box : Mailbox A) : List A := box.held.filter (· ∉ box.receipts)

inductive Event where
  | posts
  | opens
  | takes
  | skips
deriving DecidableEq, Repr

-- The receipts are confirmed when a session opens.
inductive Step [DecidableEq A] : Mailbox A → Event → Mailbox A → Prop where
  | posts (box : Mailbox A) (message : A) (fresh : message ∉ box.posted) :
      Step box .posts { box with
        posted := box.posted ++ [message], held := box.held ++ [message], unsent := box.unsent ++ [message] }
  | opens (box : Mailbox A) :
      Step box .opens { box with held := box.unconfirmed, unsent := box.unconfirmed, session := [] }
  | takes (box : Mailbox A) (message : A) (later : List A) (first : box.unsent = message :: later) :
      Step box .takes { box with
        unsent := later, session := box.session ++ [message], receipts := box.session ++ [message]
        taken := box.taken ++ [message] }
  | skips (box : Mailbox A) (message : A) (later : List A) (first : box.unsent = message :: later) :
      Step box .skips { box with unsent := later }

def empty : Mailbox A := ⟨[], [], [], [], [], []⟩

def mailbox [DecidableEq A] : Transition.System (Mailbox A) Event where
  initial := fun box => box = empty
  step := Step

structure Consistent (box : Mailbox A) : Prop where
  fresh : box.posted.Nodup
  distinct : box.held.Nodup ∧ box.unsent.Nodup
  once : box.taken.Nodup
  sending : ∀ message ∈ box.unsent, message ∈ box.held ∧ message ∉ box.taken
  known : ∀ message, message ∈ box.held ∨ message ∈ box.taken → message ∈ box.posted
  dropped : ∀ message ∈ box.posted, message ∈ box.held ∨ message ∈ box.taken
  unconfirmed : ∀ message ∈ box.taken, message ∈ box.held → message ∈ box.session
  written : ∀ message ∈ box.session, message ∈ box.receipts
  received : ∀ message ∈ box.receipts, message ∈ box.taken

theorem nodup_snoc (messages : List A) (message : A) (distinct : messages.Nodup) (fresh : message ∉ messages) :
    (messages ++ [message]).Nodup := by
  refine List.nodup_append.mpr ⟨distinct, List.nodup_cons.mpr ⟨List.not_mem_nil, List.nodup_nil⟩, ?_⟩
  rintro other member last single rfl
  rw [List.mem_singleton] at single
  exact fresh (single ▸ member)

theorem posts_consistent [DecidableEq A] (box : Mailbox A) (message : A) (unposted : message ∉ box.posted)
    (consistent : Consistent box) :
    Consistent { box with
      posted := box.posted ++ [message], held := box.held ++ [message], unsent := box.unsent ++ [message] } := by
  obtain ⟨fresh, distinct, once, sending, known, dropped, unconfirmed, written, received⟩ := consistent
  have unheld : message ∉ box.held := fun member => unposted (known message (.inl member))
  have untaken : message ∉ box.taken := fun member => unposted (known message (.inr member))
  constructor
  · exact nodup_snoc _ _ fresh unposted
  · exact ⟨nodup_snoc _ _ distinct.1 unheld,
      nodup_snoc _ _ distinct.2 fun member => unheld (sending message member).1⟩
  · exact once
  · simp only [List.mem_append, List.mem_singleton]
    rintro other (member | rfl)
    · exact ⟨.inl (sending other member).1, (sending other member).2⟩
    · exact ⟨.inr rfl, untaken⟩
  · simp only [List.mem_append, List.mem_singleton]
    rintro other ((member | rfl) | member)
    · exact .inl (known other (.inl member))
    · exact .inr rfl
    · exact .inl (known other (.inr member))
  · simp only [List.mem_append, List.mem_singleton]
    rintro other (member | rfl)
    · exact (dropped other member).imp .inl id
    · exact .inl (.inr rfl)
  · simp only [List.mem_append, List.mem_singleton]
    rintro other member (still | rfl)
    · exact unconfirmed other member still
    · exact absurd member untaken
  · exact written
  · exact received

-- What is taken and still held is among the receipts, so nothing taken is left after they are confirmed.
theorem opens_consistent [DecidableEq A] (box : Mailbox A) (consistent : Consistent box) :
    Consistent { box with held := box.unconfirmed, unsent := box.unconfirmed, session := [] } := by
  obtain ⟨fresh, distinct, once, sending, known, dropped, unconfirmed, written, received⟩ := consistent
  have left : ∀ message, message ∈ box.unconfirmed ↔ message ∈ box.held ∧ message ∉ box.receipts := by
    simp [Mailbox.unconfirmed]
  have untaken : ∀ message ∈ box.unconfirmed, message ∉ box.taken := by
    intro message member taken
    obtain ⟨held, unreceipted⟩ := (left message).mp member
    exact unreceipted (written message (unconfirmed message taken held))
  constructor
  · exact fresh
  · exact ⟨distinct.1.filter _, distinct.1.filter _⟩
  · exact once
  · exact fun message member => ⟨member, untaken message member⟩
  · rintro message (member | member)
    · exact known message (.inl ((left message).mp member).1)
    · exact known message (.inr member)
  · intro message member
    by_cases receipted : message ∈ box.receipts
    · exact .inr (received message receipted)
    · exact (dropped message member).imp (fun held => (left message).mpr ⟨held, receipted⟩) id
  · exact fun message taken member => absurd taken (untaken message member)
  · exact fun message member => absurd member List.not_mem_nil
  · exact received

theorem takes_consistent [DecidableEq A] (box : Mailbox A) (message : A) (later : List A)
    (first : box.unsent = message :: later) (consistent : Consistent box) :
    Consistent { box with
      unsent := later, session := box.session ++ [message], receipts := box.session ++ [message]
      taken := box.taken ++ [message] } := by
  obtain ⟨fresh, distinct, once, sending, known, dropped, unconfirmed, written, received⟩ := consistent
  rw [first] at distinct sending
  obtain ⟨absent, rest⟩ := List.nodup_cons.mp distinct.2
  obtain ⟨here, others⟩ := List.forall_mem_cons.mp sending
  constructor
  · exact fresh
  · exact ⟨distinct.1, rest⟩
  · exact nodup_snoc _ _ once here.2
  · intro other member
    refine ⟨(others other member).1, ?_⟩
    rw [List.mem_append, List.mem_singleton]
    rintro (taken | rfl)
    · exact (others other member).2 taken
    · exact absent member
  · simp only [List.mem_append, List.mem_singleton]
    rintro other (member | (member | rfl))
    · exact known other (.inl member)
    · exact known other (.inr member)
    · exact known other (.inl here.1)
  · intro other member
    exact (dropped other member).imp id fun taken => List.mem_append_left _ taken
  · simp only [List.mem_append, List.mem_singleton]
    rintro other (taken | rfl) held
    · exact .inl (unconfirmed other taken held)
    · exact .inr rfl
  · exact fun other member => member
  · simp only [List.mem_append, List.mem_singleton]
    rintro other (member | rfl)
    · exact .inl (received other (written other member))
    · exact .inr rfl

theorem skips_consistent [DecidableEq A] (box : Mailbox A) (message : A) (later : List A)
    (first : box.unsent = message :: later) (consistent : Consistent box) : Consistent { box with unsent := later } := by
  obtain ⟨fresh, distinct, once, sending, known, dropped, unconfirmed, written, received⟩ := consistent
  rw [first] at distinct sending
  exact ⟨fresh, ⟨distinct.1, (List.nodup_cons.mp distinct.2).2⟩, once,
    fun other member => sending other (List.mem_cons_of_mem message member), known, dropped, unconfirmed, written, received⟩

theorem run_consistent [DecidableEq A] (trace : List (Mailbox A × Event)) (box : Mailbox A)
    (run : Transition.Run mailbox trace box) : Consistent box := by
  refine Transition.run_keeps mailbox Consistent ?_ ?_ trace box run
  · rintro box rfl
    constructor <;> simp [empty]
  · intro box event next consistent step
    cases step with
    | posts message fresh => exact posts_consistent box message fresh consistent
    | opens => exact opens_consistent box consistent
    | takes message later first => exact takes_consistent box message later first consistent
    | skips message later first => exact skips_consistent box message later first consistent

end Receipts
