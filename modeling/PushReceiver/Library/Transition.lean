import Mathlib.Data.List.Basic

set_option autoImplicit false

namespace Transition

variable {S L : Type}

structure System (S L : Type) where
  initial : S → Prop
  step : S → L → S → Prop

-- A run keeps every step it took: the state it started from and its label.
inductive Run (system : System S L) : List (S × L) → S → Prop where
  | start (s : S) (initial : system.initial s) : Run system [] s
  | step (trace : List (S × L)) (s : S) (label : L) (t : S) (run : Run system trace s) (taken : system.step s label t) :
      Run system (trace ++ [(s, label)]) t

theorem run_keeps_while (system : System S L) (invariant : S → Prop) (allowed : S → L → Prop)
    (initial : ∀ s, system.initial s → invariant s)
    (preserved : ∀ s label t, invariant s → allowed s label → system.step s label t → invariant t) (trace : List (S × L)) (s : S)
    (run : Run system trace s) (meets : ∀ taken ∈ trace, allowed taken.1 taken.2) : invariant s := by
  induction run with
  | start s first => exact initial s first
  | step trace s label t run taken ih =>
      have before := ih fun earlier member => meets earlier (List.mem_append_left _ member)
      exact preserved s label t before (meets (s, label) (by simp)) taken

theorem run_keeps (system : System S L) (invariant : S → Prop) (initial : ∀ s, system.initial s → invariant s)
    (preserved : ∀ s label t, invariant s → system.step s label t → invariant t) (trace : List (S × L)) (s : S)
    (run : Run system trace s) : invariant s :=
  run_keeps_while system invariant (fun _ _ => True) initial (fun s label t kept _ => preserved s label t kept) trace s run
    (fun _ _ => trivial)

-- A step of the concrete system is one of the abstract system, or none.
theorem run_simulates_while {A M : Type} (concrete : System S L) (abstract : System A M) (related : S → A → Prop)
    (allowed : S → L → Prop) (initial : ∀ s, concrete.initial s → ∃ a, abstract.initial a ∧ related s a)
    (simulated : ∀ s label t a, related s a → allowed s label → concrete.step s label t →
      related t a ∨ ∃ event b, abstract.step a event b ∧ related t b)
    (trace : List (S × L)) (s : S) (run : Run concrete trace s) (meets : ∀ taken ∈ trace, allowed taken.1 taken.2) :
    ∃ events a, Run abstract events a ∧ related s a := by
  induction run with
  | start s first =>
      obtain ⟨a, opened, represents⟩ := initial s first
      exact ⟨[], a, .start a opened, represents⟩
  | step trace s label t run taken ih =>
      obtain ⟨events, a, before, represents⟩ := ih fun earlier member => meets earlier (List.mem_append_left _ member)
      rcases simulated s label t a represents (meets (s, label) (by simp)) taken with stutters | ⟨event, b, moves, after⟩
      · exact ⟨events, a, before, stutters⟩
      · exact ⟨events ++ [(a, event)], b, .step events a event b before moves, after⟩

theorem run_simulates {A M : Type} (concrete : System S L) (abstract : System A M) (related : S → A → Prop)
    (initial : ∀ s, concrete.initial s → ∃ a, abstract.initial a ∧ related s a)
    (simulated : ∀ s label t a, related s a → concrete.step s label t →
      related t a ∨ ∃ event b, abstract.step a event b ∧ related t b)
    (trace : List (S × L)) (s : S) (run : Run concrete trace s) :
    ∃ events a, Run abstract events a ∧ related s a :=
  run_simulates_while concrete abstract related (fun _ _ => True) initial
    (fun s label t a represents _ => simulated s label t a represents) trace s run fun _ _ => trivial

-- A step outside `allowed` ends the invariant for good, so the final state tells whether one was taken.
theorem run_decides (system : System S L) (invariant broken : S → Prop) (allowed : S → L → Prop)
    (initial : ∀ s, system.initial s → invariant s)
    (preserved : ∀ s label t, invariant s → allowed s label → system.step s label t → invariant t)
    (breaks : ∀ s label t, invariant s → ¬ allowed s label → system.step s label t → broken t)
    (stuck : ∀ s label t, broken s → system.step s label t → broken t)
    (trace : List (S × L)) (s : S) (run : Run system trace s) :
    (invariant s ∧ ∀ taken ∈ trace, allowed taken.1 taken.2) ∨
      (broken s ∧ ∃ taken ∈ trace, ¬ allowed taken.1 taken.2) := by
  induction run with
  | start s first => exact .inl ⟨initial s first, by simp⟩
  | step trace s label t run taken ih =>
      rcases ih with ⟨kept, meets⟩ | ⟨lost, earlier, member, outside⟩
      · by_cases inside : allowed s label
        · refine .inl ⟨preserved s label t kept inside taken, ?_⟩
          intro earlier member
          rcases List.mem_append.mp member with before | last
          · exact meets earlier before
          · rw [List.mem_singleton.mp last]
            exact inside
        · exact .inr ⟨breaks s label t kept inside taken, (s, label), by simp, inside⟩
      · exact .inr ⟨stuck s label t lost taken, earlier, List.mem_append_left _ member, outside⟩

-- Where every step tells whether its target is good, all states of a run are good together with its steps.
theorem run_good_iff (system : System S L) (invariant good : S → Prop) (allowed : S → L → Prop)
    (initial : ∀ s, system.initial s → invariant s ∧ good s)
    (preserved : ∀ s label t, invariant s → system.step s label t → invariant t)
    (decides : ∀ s label t, invariant s → good s → system.step s label t → (good t ↔ allowed s label))
    (trace : List (S × L)) (s : S) (run : Run system trace s) :
    ((∀ taken ∈ trace, good taken.1) ∧ good s) ↔ ∀ taken ∈ trace, allowed taken.1 taken.2 := by
  have kept := run_keeps system invariant (fun s first => (initial s first).1) preserved
  induction run with
  | start s first => exact iff_of_true ⟨by simp, (initial s first).2⟩ (by simp)
  | step trace s label t run taken ih =>
      have before := kept trace s run
      constructor
      · rintro ⟨along, last⟩
        obtain ⟨earlier, here⟩ := List.forall_mem_append.mp along
        have good := List.forall_mem_singleton.mp here
        have meets := (decides s label t before good taken).mp last
        exact List.forall_mem_append.mpr ⟨ih.mp ⟨earlier, good⟩, List.forall_mem_singleton.mpr meets⟩
      · intro meets
        obtain ⟨earlier, here⟩ := List.forall_mem_append.mp meets
        obtain ⟨along, good⟩ := ih.mpr earlier
        have last := (decides s label t before good taken).mpr (here (s, label) (List.mem_singleton_self _))
        exact ⟨List.forall_mem_append.mpr ⟨along, List.forall_mem_singleton.mpr good⟩, last⟩

end Transition
