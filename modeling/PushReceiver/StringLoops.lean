import PushReceiver.Library.Delimited
import PushReceiver.StringUtil

set_option autoImplicit false

namespace PushReceiver

-- std::string::find
def find (str target : Bytes) (pos : Nat) : Option Nat :=
  if str.length < pos then none else (Delimited.search target (str.drop pos)).map (pos + ·)

-- The while loop of StringUtil::split with a string. It gives none when `fuel` rounds do not end it.
def splitLoop (str delim : Bytes) : Nat → Nat → List Bytes → Option (List Bytes)
  | 0, _, _ => none
  | fuel + 1, posStart, tokens =>
      match find str delim posStart with
      | none => some (tokens ++ [str.drop posStart])
      | some posEnd =>
          splitLoop str delim fuel (posEnd + delim.length) (tokens ++ [(str.drop posStart).take (posEnd - posStart)])

def splitString (fuel : Nat) (str delim : Bytes) : Option (List Bytes) := splitLoop str delim fuel 0 []

-- The while loop of StringUtil::replace_all, which works on the string it searches.
def replaceAllLoop (target replacement : Bytes) : Nat → Bytes → Nat → Option Bytes
  | 0, _, _ => none
  | fuel + 1, str, startPos =>
      match find str target startPos with
      | none => some str
      | some pos =>
          replaceAllLoop target replacement fuel (str.take pos ++ replacement ++ str.drop (pos + target.length))
            (pos + replacement.length)

def replaceAllString (fuel : Nat) (str target replacement : Bytes) : Option (Bool × Bytes) :=
  if target = [] then some (false, str)
  else (replaceAllLoop target replacement fuel str 0).map ((find str target 0).isSome, ·)

theorem find_at (done rest target : Bytes) :
    find (done ++ rest) target done.length = (Delimited.search target rest).map (done.length + ·) := by
  rw [find, if_neg (by simp), List.drop_left]

theorem find_none (done rest target : Bytes) : find (done ++ rest) target done.length = none ↔ ¬ target <:+: rest := by
  rw [find_at, Option.map_eq_none_iff, Delimited.search_none]

theorem find_some (done rest target : Bytes) (present : target ≠ []) (pos : Nat)
    (found : find (done ++ rest) target done.length = some pos) :
    ∃ before after, rest = before ++ target ++ after ∧ pos = done.length + before.length ∧ Delimited.Leftmost target before := by
  rw [find_at] at found
  obtain ⟨position, searched, rfl⟩ := Option.map_eq_some_iff.mp found
  obtain ⟨before, after, whole, rfl, leftmost⟩ := Delimited.search_some target rest present position searched
  exact ⟨before, after, whole, rfl, leftmost⟩

-- Whatever the loop gives are the parts of what is left to read.
theorem split_loop_parts (delim : Bytes) (present : delim ≠ []) (fuel : Nat) (done rest : Bytes) (tokens result : List Bytes)
    (returned : splitLoop (done ++ rest) delim fuel done.length tokens = some result) :
    ∃ more, result = tokens ++ more ∧ Delimited.Parts delim rest more := by
  induction fuel generalizing done rest tokens with
  | zero => cases returned
  | succ fuel ih =>
      rw [splitLoop] at returned
      cases found : find (done ++ rest) delim done.length with
      | none =>
          rw [found] at returned
          refine ⟨[rest], ?_, .last rest ((find_none done rest delim).mp found)⟩
          rw [← Option.some.inj returned, List.drop_left]
      | some pos =>
          rw [found] at returned
          obtain ⟨before, after, rfl, rfl, leftmost⟩ := find_some done rest delim present pos found
          have token : ((done ++ (before ++ delim ++ after)).drop done.length).take (done.length + before.length - done.length) =
              before := by
            rw [List.drop_left, Nat.add_sub_cancel_left, List.append_assoc, List.take_left]
          have position : done.length + before.length + delim.length = (done ++ before ++ delim).length := by simp [Nat.add_assoc]
          have whole : done ++ (before ++ delim ++ after) = done ++ before ++ delim ++ after := by simp
          dsimp only at returned
          rw [token, position, whole] at returned
          obtain ⟨more, rfl, parts⟩ := ih _ _ _ returned
          exact ⟨before :: more, by simp, .first before after more leftmost parts⟩

theorem split_loop_ends (delim : Bytes) (present : delim ≠ []) (fuel : Nat) (done rest : Bytes) (tokens : List Bytes)
    (enough : rest.length < fuel) : ∃ result, splitLoop (done ++ rest) delim fuel done.length tokens = some result := by
  induction fuel generalizing done rest tokens with
  | zero => exact absurd enough (Nat.not_lt_zero _)
  | succ fuel ih =>
      rw [splitLoop]
      cases found : find (done ++ rest) delim done.length with
      | none => exact ⟨_, rfl⟩
      | some pos =>
          obtain ⟨before, after, rfl, rfl, _⟩ := find_some done rest delim present pos found
          have position : done.length + before.length + delim.length = (done ++ before ++ delim).length := by simp [Nat.add_assoc]
          have whole : done ++ (before ++ delim ++ after) = done ++ before ++ delim ++ after := by simp
          have positive := List.length_pos_iff.mpr present
          dsimp only
          rw [position, whole]
          apply ih
          simp only [List.length_append] at enough
          omega

-- An empty delimiter is found where the search starts, and again, for ever.
theorem split_loop_empty (fuel : Nat) (str : Bytes) (pos : Nat) (tokens : List Bytes) (inside : pos ≤ str.length) :
    splitLoop str [] fuel pos tokens = none := by
  induction fuel generalizing tokens with
  | zero => rfl
  | succ fuel ih =>
      have found : find str [] pos = some pos := by
        rw [find, if_neg (Nat.not_lt.mpr inside)]
        cases str.drop pos <;> simp [Delimited.search]
      rw [splitLoop, found]
      exact ih _

theorem split_returns (str delim : Bytes) (present : delim ≠ []) : ∃ fuel tokens, splitString fuel str delim = some tokens ∧
    Delimited.Parts delim str tokens := by
  obtain ⟨result, returned⟩ := split_loop_ends delim present (str.length + 1) [] str [] (Nat.lt_succ_self _)
  obtain ⟨more, same, parts⟩ := split_loop_parts delim present (str.length + 1) [] str [] result returned
  exact ⟨str.length + 1, more, returned.trans (congrArg some same), parts⟩

theorem split_parts (str delim : Bytes) (tokens : List Bytes) :
    (∃ fuel, splitString fuel str delim = some tokens) ↔ delim ≠ [] ∧ Delimited.Parts delim str tokens := by
  constructor
  · rintro ⟨fuel, returned⟩
    have present : delim ≠ [] := by
      rintro rfl
      rw [splitString, split_loop_empty fuel str 0 [] (Nat.zero_le _)] at returned
      cases returned
    obtain ⟨more, rfl, parts⟩ := split_loop_parts delim present fuel [] str [] tokens returned
    exact ⟨present, parts⟩
  · rintro ⟨present, parts⟩
    obtain ⟨fuel, result, returned, others⟩ := split_returns str delim present
    rw [Delimited.parts_unique delim str tokens result parts others]
    exact ⟨fuel, returned⟩

-- split returns for every delimiter but the empty one, and what it returns is the only list of
-- tokens that joins to the text with no delimiter read too late.
theorem split_string_iff (str delim : Bytes) :
    (∀ tokens, (∃ fuel, splitString fuel str delim = some tokens) ↔
      delim ≠ [] ∧ tokens ≠ [] ∧ join tokens delim = str ∧
        (∀ token ∈ tokens.dropLast, ¬ delim <:+: (token ++ delim).dropLast) ∧
        ∀ token, tokens.getLast? = some token → ¬ delim <:+: token) ∧
      (delim ≠ [] ↔ ∃! tokens, ∃ fuel, splitString fuel str delim = some tokens) := by
  refine ⟨fun tokens => (split_parts str delim tokens).trans (and_congr_right fun _ => Delimited.parts_iff delim str tokens), ?_⟩
  constructor
  · intro present
    obtain ⟨fuel, tokens, returned, parts⟩ := split_returns str delim present
    refine ⟨tokens, ⟨fuel, returned⟩, fun others found => ?_⟩
    exact Delimited.parts_unique delim str others tokens ((split_parts str delim others).mp found).2 parts
  · rintro ⟨tokens, found, _⟩
    exact ((split_parts str delim tokens).mp found).1

theorem replaced_around (done before target after replacement : Bytes) :
    (done ++ (before ++ target ++ after)).take (done.length + before.length) = done ++ before ∧
      (done ++ (before ++ target ++ after)).drop (done.length + before.length + target.length) = after ∧
      done.length + before.length + replacement.length = (done ++ before ++ replacement).length := by
  refine ⟨?_, ?_, by simp [Nat.add_assoc]⟩
  · rw [← List.length_append, List.append_assoc, ← List.append_assoc, List.take_left]
  · rw [← List.length_append, ← List.length_append, ← List.append_assoc, ← List.append_assoc, List.drop_left]

-- What stands in front of startPos is done, and each target behind it is replaced in turn.
theorem replace_loop_parts (target replacement : Bytes) (present : target ≠ []) (fuel : Nat) (done rest : Bytes)
    (tokens : List Bytes) (parts : Delimited.Parts target rest tokens) (result : Bytes)
    (returned : replaceAllLoop target replacement fuel (done ++ rest) done.length = some result) :
    result = done ++ join tokens replacement := by
  induction fuel generalizing done rest tokens with
  | zero => cases returned
  | succ fuel ih =>
      rw [replaceAllLoop] at returned
      cases found : find (done ++ rest) target done.length with
      | none =>
          rw [found] at returned
          have alone := Delimited.Parts.last rest ((find_none done rest target).mp found)
          rw [Delimited.parts_unique target rest tokens [rest] parts alone, ← Option.some.inj returned]
          simp [join]
      | some pos =>
          rw [found] at returned
          obtain ⟨before, after, rfl, rfl, leftmost⟩ := find_some done rest target present pos found
          obtain ⟨_, more, _, others⟩ := split_returns after target present
          have whole := Delimited.Parts.first before after more leftmost others
          obtain ⟨nonempty, _⟩ := Delimited.parts_join target after more others
          obtain ⟨token, later, rfl⟩ := List.exists_cons_of_ne_nil nonempty
          rw [Delimited.parts_unique target _ tokens _ parts whole]
          obtain ⟨kept, left, position⟩ := replaced_around done before target after replacement
          dsimp only at returned
          rw [kept, left, position] at returned
          rw [ih (done ++ before ++ replacement) after (token :: later) others returned, join, join, List.intercalate_cons_cons]
          simp

theorem replace_loop_ends (target replacement : Bytes) (present : target ≠ []) (fuel : Nat) (done rest : Bytes)
    (enough : rest.length < fuel) : ∃ result, replaceAllLoop target replacement fuel (done ++ rest) done.length = some result := by
  induction fuel generalizing done rest with
  | zero => exact absurd enough (Nat.not_lt_zero _)
  | succ fuel ih =>
      rw [replaceAllLoop]
      cases found : find (done ++ rest) target done.length with
      | none => exact ⟨_, rfl⟩
      | some pos =>
          obtain ⟨before, after, rfl, rfl, _⟩ := find_some done rest target present pos found
          obtain ⟨kept, left, position⟩ := replaced_around done before target after replacement
          have positive := List.length_pos_iff.mpr present
          dsimp only
          rw [kept, left, position]
          apply ih
          simp only [List.length_append] at enough
          omega

theorem parts_many (delim str : Bytes) (tokens : List Bytes) (parts : Delimited.Parts delim str tokens) :
    1 < tokens.length ↔ delim <:+: str := by
  cases parts with
  | last _ absent => exact iff_of_false (Nat.lt_irrefl 1) absent
  | first before after rest leftmost others =>
      have positive := List.length_pos_iff.mpr (Delimited.parts_join delim after rest others).1
      refine iff_of_true ?_ ⟨before, after, rfl⟩
      rw [List.length_cons]
      omega

theorem replace_returns (str target replacement : Bytes) (present : target ≠ []) (tokens : List Bytes)
    (parts : Delimited.Parts target str tokens) :
    ∃ fuel, replaceAllString fuel str target replacement = some ((find str target 0).isSome, join tokens replacement) := by
  obtain ⟨result, looped⟩ := replace_loop_ends target replacement present (str.length + 1) [] str (Nat.lt_succ_self _)
  have joined := replace_loop_parts target replacement present (str.length + 1) [] str tokens parts result looped
  refine ⟨str.length + 1, ?_⟩
  rw [replaceAllString, if_neg present]
  exact (congrArg (Option.map _) looped).trans (congrArg (fun text => some ((find str target 0).isSome, text)) joined)

theorem found_iff (str target : Bytes) : (find str target 0).isSome = true ↔ target <:+: str := by
  rw [← not_iff_not, ← find_none [] str target]
  simp

-- replace_all is join after split. It too needs a target: without one it leaves the text alone.
theorem replace_all_iff (str target replacement replaced : Bytes) (found : Bool) :
    (∃ fuel, replaceAllString fuel str target replacement = some (found, replaced)) ↔
      (target = [] ∧ found = false ∧ replaced = str) ∨
        ∃ fuel tokens, splitString fuel str target = some tokens ∧ replaced = join tokens replacement ∧
          (found = true ↔ 1 < tokens.length) := by
  by_cases absent : target = []
  · have unsplit : ¬ ∃ fuel tokens, splitString fuel str target = some tokens ∧ replaced = join tokens replacement ∧
        (found = true ↔ 1 < tokens.length) := by
      rintro ⟨fuel, tokens, returned, _⟩
      exact ((split_parts str target tokens).mp ⟨fuel, returned⟩).1 absent
    rw [or_iff_left unsplit]
    simp [replaceAllString, absent, eq_comm]
  · obtain ⟨fuel, tokens, split, parts⟩ := split_returns str target absent
    have isFound : (find str target 0).isSome = true ↔ 1 < tokens.length :=
      (found_iff str target).trans (parts_many target str tokens parts).symm
    have unique : ∀ others, (∃ fuel, splitString fuel str target = some others) → others = tokens := fun others returned =>
      Delimited.parts_unique target str others tokens ((split_parts str target others).mp returned).2 parts
    constructor
    · rintro ⟨fuel', returned⟩
      rw [replaceAllString, if_neg absent] at returned
      obtain ⟨result, looped, same⟩ := Option.map_eq_some_iff.mp returned
      obtain ⟨rfl, rfl⟩ := Prod.mk.inj same
      exact .inr ⟨fuel, tokens, split, replace_loop_parts target replacement absent fuel' [] str tokens parts result looped, isFound⟩
    · rintro (⟨none, _⟩ | ⟨fuel', others, returned, rfl, counted⟩)
      · exact absurd none absent
      · obtain rfl := unique others ⟨fuel', returned⟩
        rw [← (Bool.eq_iff_iff.mpr (isFound.trans counted.symm) : (find str target 0).isSome = found)]
        exact replace_returns str target replacement absent others parts

theorem parts_single (str : Bytes) (delim : UInt8) : Delimited.Parts [delim] str (split str delim) := by
  induction str using delimited_induction delim with
  | alone str absent =>
      rw [split_alone str delim absent]
      exact .last str (by rwa [List.singleton_infix_iff])
  | first before after absent ih =>
      rw [split_first before after delim absent]
      have parts := Delimited.Parts.first before after _ (by
        rw [Delimited.Leftmost, List.dropLast_concat, List.singleton_infix_iff]
        exact absent) ih
      rwa [List.append_assoc] at parts

theorem join_replaced (str : Bytes) (target : UInt8) (replacement : Bytes) :
    join (split str target) replacement = replaceAll str target replacement := by
  induction str using delimited_induction target with
  | alone str absent =>
      rw [split_alone str target absent, replace_all_absent str target replacement absent]
      simp [join]
  | first before after absent ih =>
      obtain ⟨token, later, tokens⟩ := List.exists_cons_of_ne_nil (Delimited.parts_join _ _ _ (parts_single after target)).1
      rw [split_first before after target absent, tokens, join, List.intercalate_cons_cons, ← join, ← tokens, ih,
        replace_all_append, replace_all_absent before target replacement absent]
      simp [replaceAll]

-- For a delimiter of one character the loops compute what the rest of the development uses.
theorem loops_refine (str : Bytes) (target : UInt8) (replacement : Bytes) :
    (∃ fuel, splitString fuel str [target] = some (split str target)) ∧
      ∃ fuel, replaceAllString fuel str [target] replacement = some (decide (target ∈ str), replaceAll str target replacement) := by
  have parts := parts_single str target
  have present : [target] ≠ [] := List.cons_ne_nil _ _
  obtain ⟨fuel, returned⟩ := replace_returns str [target] replacement present _ parts
  have isFound : (find str [target] 0).isSome = decide (target ∈ str) := by
    rw [Bool.eq_iff_iff, found_iff, List.singleton_infix_iff, decide_eq_true_iff]
  rw [isFound, join_replaced] at returned
  exact ⟨(split_parts str [target] _).mpr ⟨present, parts⟩, fuel, returned⟩

end PushReceiver
