import Mathlib.Data.List.Infix

set_option autoImplicit false

namespace Delimited

variable {A : Type}

-- The first delimiter in `before ++ delim` is the one at its end.
def Leftmost (delim before : List A) : Prop := ¬ delim <:+: (before ++ delim).dropLast

-- The parts of a text: what stands in front of each delimiter, read from the left, and the rest.
inductive Parts (delim : List A) : List A → List (List A) → Prop where
  | last (text : List A) (absent : ¬ delim <:+: text) : Parts delim text [text]
  | first (before after : List A) (tokens : List (List A)) (leftmost : Leftmost delim before) (rest : Parts delim after tokens) :
      Parts delim (before ++ delim ++ after) (before :: tokens)

def search [DecidableEq A] (target : List A) : List A → Option Nat
  | [] => if target = [] then some 0 else none
  | a :: rest => if target <+: a :: rest then some 0 else (search target rest).map (· + 1)

theorem search_none [DecidableEq A] (target text : List A) : search target text = none ↔ ¬ target <:+: text := by
  induction text with
  | nil => simp [search]
  | cons a rest ih =>
      rw [search, List.infix_cons_iff, not_or]
      by_cases here : target <+: a :: rest
      · simp [here]
      · rw [if_neg here, Option.map_eq_none_iff, ih]
        exact ⟨fun later => ⟨here, later⟩, fun both => both.2⟩

theorem search_some [DecidableEq A] (target text : List A) (present : target ≠ []) (position : Nat)
    (found : search target text = some position) :
    ∃ before after, text = before ++ target ++ after ∧ before.length = position ∧ Leftmost target before := by
  induction text generalizing position with
  | nil =>
      rw [search, if_neg present] at found
      cases found
  | cons a rest ih =>
      rw [search] at found
      by_cases here : target <+: a :: rest
      · rw [if_pos here] at found
        obtain ⟨after, whole⟩ := here
        refine ⟨[], after, whole.symm, Option.some.inj found, fun within => ?_⟩
        have shorter := within.length_le
        rw [List.nil_append, List.length_dropLast] at shorter
        have positive := List.length_pos_iff.mpr present
        omega
      · rw [if_neg here] at found
        obtain ⟨earlier, later, rfl⟩ := Option.map_eq_some_iff.mp found
        obtain ⟨before, after, rfl, rfl, leftmost⟩ := ih earlier later
        refine ⟨a :: before, after, rfl, rfl, fun within => ?_⟩
        have nonempty : before ++ target ≠ [] := fun none => present (List.append_eq_nil_iff.mp none).2
        rw [List.cons_append, List.dropLast_cons_of_ne_nil nonempty, List.infix_cons_iff] at within
        rcases within with start | inside
        · refine here (start.trans ?_)
          rw [List.append_assoc] at here ⊢
          exact (List.cons_prefix_cons.mpr ⟨rfl, (List.dropLast_prefix _).trans ⟨after, List.append_assoc _ _ _⟩⟩)
        · exact leftmost inside

theorem leftmost_shorter (delim before after other rest : List A) (leftmost : Leftmost delim other)
    (same : before ++ delim ++ after = other ++ delim ++ rest) : other.length ≤ before.length := by
  by_contra longer
  refine leftmost (List.IsInfix.trans ⟨before, [], List.append_nil _⟩ (List.IsPrefix.isInfix ?_))
  refine List.prefix_of_prefix_length_le ⟨after, same⟩ ((List.dropLast_prefix _).trans ⟨rest, rfl⟩) ?_
  simp only [List.length_append, List.length_dropLast]
  omega

theorem parts_unique (delim text : List A) (tokens others : List (List A)) (parts : Parts delim text tokens)
    (also : Parts delim text others) : tokens = others := by
  induction parts generalizing others with
  | last text absent =>
      cases also with
      | last _ _ => rfl
      | first before after tokens leftmost rest => exact absurd ⟨before, after, rfl⟩ absent
  | first before after tokens leftmost rest ih =>
      generalize whole : before ++ delim ++ after = text at also
      cases also with
      | last _ absent => exact absurd ⟨before, after, whole⟩ absent
      | first before' after' tokens' leftmost' rest' =>
          have lengths : before.length = before'.length := Nat.le_antisymm
            (leftmost_shorter delim before' after' before after leftmost whole.symm)
            (leftmost_shorter delim before after before' after' leftmost' whole)
          rw [List.append_assoc, List.append_assoc] at whole
          obtain ⟨rfl, behind⟩ := List.append_inj whole lengths
          obtain rfl := List.append_cancel_left behind
          rw [ih tokens' rest']

theorem parts_join (delim text : List A) (tokens : List (List A)) (parts : Parts delim text tokens) :
    tokens ≠ [] ∧ delim.intercalate tokens = text := by
  induction parts with
  | last text absent => exact ⟨List.cons_ne_nil _ _, by simp⟩
  | first before after tokens leftmost rest ih =>
      obtain ⟨nonempty, joined⟩ := ih
      obtain ⟨token, later, rfl⟩ := List.exists_cons_of_ne_nil nonempty
      exact ⟨List.cons_ne_nil _ _, by rw [List.intercalate_cons_cons, joined]⟩

theorem parts_iff (delim text : List A) (tokens : List (List A)) :
    Parts delim text tokens ↔ tokens ≠ [] ∧ delim.intercalate tokens = text ∧ (∀ token ∈ tokens.dropLast, Leftmost delim token) ∧
      ∀ token, tokens.getLast? = some token → ¬ delim <:+: token := by
  constructor
  · intro parts
    obtain ⟨nonempty, joined⟩ := parts_join delim text tokens parts
    refine ⟨nonempty, joined, ?_⟩
    clear joined nonempty
    induction parts with
    | last text absent => exact ⟨by simp, fun token last => by rw [← Option.some.inj last]; exact absent⟩
    | first before after tokens leftmost rest ih =>
        obtain ⟨token, later, rfl⟩ := List.exists_cons_of_ne_nil (parts_join delim after tokens rest).1
        refine ⟨?_, fun token last => ih.2 token (by rwa [List.getLast?_cons_cons] at last)⟩
        rw [List.dropLast_cons_cons]
        exact List.forall_mem_cons.mpr ⟨leftmost, ih.1⟩
  · rintro ⟨nonempty, joined, leftmost, absent⟩
    induction tokens generalizing text with
    | nil => exact absurd rfl nonempty
    | cons token rest ih =>
        cases rest with
        | nil =>
            have whole : token = text := by simpa using joined
            rw [← whole]
            exact .last token (absent token rfl)
        | cons next later =>
            rw [List.intercalate_cons_cons] at joined
            rw [List.dropLast_cons_cons] at leftmost
            obtain ⟨here, others⟩ := List.forall_mem_cons.mp leftmost
            rw [← joined]
            exact .first token _ _ here (ih _ (List.cons_ne_nil _ _) rfl others fun last isLast =>
              absent last (by rwa [List.getLast?_cons_cons]))

end Delimited
