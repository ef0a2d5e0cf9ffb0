import Mathlib.Data.List.Basic

set_option autoImplicit false

namespace Reader

variable {S A : Type}

-- A consumer of a stream: in state `s` it asks for at most `request s` further items and
-- absorbs whatever part of them it is handed. A request of zero means it has stopped reading.
structure Consumer (S A : Type) where
  request : S → Nat
  absorb : S → List A → S

def deliver (consumer : Consumer S A) (start : S) (chunks : List (List A)) : S := chunks.foldl consumer.absorb start

-- No answer is longer than the request it answers; a stopped consumer takes no more answers.
def Respects (consumer : Consumer S A) : S → List (List A) → Prop
  | _, [] => True
  | s, chunk :: rest =>
      (consumer.request s = 0 ∨ chunk.length ≤ consumer.request s) ∧ Respects consumer (consumer.absorb s chunk) rest

instance decidableRespects (consumer : Consumer S A) :
    (s : S) → (chunks : List (List A)) → Decidable (Respects consumer s chunks)
  | _, [] => inferInstanceAs (Decidable True)
  | s, chunk :: rest =>
      have := decidableRespects consumer (consumer.absorb s chunk) rest
      inferInstanceAs (Decidable
        ((consumer.request s = 0 ∨ chunk.length ≤ consumer.request s) ∧ Respects consumer (consumer.absorb s chunk) rest))

def delivered (consumer : Consumer S A) : S → List (List A) → List A
  | _, [] => []
  | s, chunk :: rest =>
      if consumer.request s = 0 then [] else chunk ++ delivered consumer (consumer.absorb s chunk) rest

-- Taking a part of a request leaves exactly the rest of that request open.
structure Incremental (consumer : Consumer S A) (ready : S → Prop) : Prop where
  stopped : ∀ s chunk, ready s → consumer.request s = 0 → consumer.absorb s chunk = s
  idle : ∀ s, ready s → consumer.absorb s [] = s
  joined : ∀ s xs ys, ready s → xs ≠ [] → ys ≠ [] → (xs ++ ys).length ≤ consumer.request s →
    consumer.absorb s (xs ++ ys) = consumer.absorb (consumer.absorb s xs) ys
  remaining : ∀ s xs, ready s → xs.length < consumer.request s →
    consumer.request (consumer.absorb s xs) = consumer.request s - xs.length
  stays : ∀ s xs, ready s → xs.length ≤ consumer.request s → ready (consumer.absorb s xs)

def singles (items : List A) : List (List A) := items.map fun item => [item]

theorem singles_append (xs ys : List A) : singles (xs ++ ys) = singles xs ++ singles ys := by
  simp [singles]

theorem singles_flatten (items : List A) : (singles items).flatten = items := by
  induction items with
  | nil => rfl
  | cons item rest ih => exact congrArg (item :: ·) ih

theorem deliver_append (consumer : Consumer S A) (s : S) (xs ys : List (List A)) :
    deliver consumer s (xs ++ ys) = deliver consumer (deliver consumer s xs) ys := by
  simp [deliver]

theorem respects_append (consumer : Consumer S A) (s : S) (xs ys : List (List A)) :
    Respects consumer s (xs ++ ys) ↔ Respects consumer s xs ∧ Respects consumer (deliver consumer s xs) ys := by
  induction xs generalizing s with
  | nil => simp [Respects, deliver]
  | cons chunk rest ih =>
      simp only [List.cons_append, Respects, ih, and_assoc]
      rfl

theorem deliver_stopped (consumer : Consumer S A) (ready : S → Prop) (law : Incremental consumer ready) (s : S)
    (isReady : ready s) (stopped : consumer.request s = 0) (chunks : List (List A)) : deliver consumer s chunks = s := by
  induction chunks with
  | nil => rfl
  | cons chunk rest ih =>
      have kept := law.stopped s chunk isReady stopped
      simpa only [deliver, List.foldl_cons, kept] using ih

theorem absorb_singles (consumer : Consumer S A) (ready : S → Prop) (law : Incremental consumer ready) (s : S)
    (chunk : List A) (isReady : ready s) (within : chunk.length ≤ consumer.request s) :
    consumer.absorb s chunk = deliver consumer s (singles chunk) := by
  induction chunk generalizing s with
  | nil => exact law.idle s isReady
  | cons item rest ih =>
      cases rest with
      | nil => rfl
      | cons next tail =>
          have short : [item].length < consumer.request s := by
            simp only [List.length_cons, List.length_nil] at within ⊢
            omega
          have left := law.remaining s [item] isReady short
          have nextReady := law.stays s [item] isReady (Nat.le_of_lt short)
          have joined := law.joined s [item] (next :: tail) isReady (by simp) (by simp) within
          have fits : (next :: tail).length ≤ consumer.request (consumer.absorb s [item]) := by
            rw [left]
            simp only [List.length_cons, List.length_nil] at within ⊢
            omega
          calc consumer.absorb s (item :: next :: tail)
              = consumer.absorb (consumer.absorb s [item]) (next :: tail) := joined
            _ = deliver consumer (consumer.absorb s [item]) (singles (next :: tail)) := ih _ nextReady fits
            _ = deliver consumer s (singles (item :: next :: tail)) := rfl

-- However a stream is cut into answers, the consumer ends where one item at a time takes it.
theorem deliver_one_by_one (consumer : Consumer S A) (ready : S → Prop) (law : Incremental consumer ready) (s : S)
    (chunks : List (List A)) (isReady : ready s) (respects : Respects consumer s chunks) :
    deliver consumer s chunks = deliver consumer s (singles chunks.flatten) := by
  induction chunks generalizing s with
  | nil => rfl
  | cons chunk rest ih =>
      by_cases stopped : consumer.request s = 0
      · rw [deliver_stopped consumer ready law s isReady stopped, deliver_stopped consumer ready law s isReady stopped]
      · have within : chunk.length ≤ consumer.request s := respects.1.resolve_left stopped
        rw [List.flatten_cons, singles_append, deliver_append, ← absorb_singles consumer ready law s chunk isReady within]
        exact ih (consumer.absorb s chunk) (law.stays s chunk isReady within) respects.2

theorem deliver_delivered (consumer : Consumer S A) (ready : S → Prop) (law : Incremental consumer ready) (s : S)
    (chunks : List (List A)) (isReady : ready s) (respects : Respects consumer s chunks) :
    deliver consumer s chunks = deliver consumer s (singles (delivered consumer s chunks)) := by
  induction chunks generalizing s with
  | nil => rfl
  | cons chunk rest ih =>
      by_cases stopped : consumer.request s = 0
      · rw [deliver_stopped consumer ready law s isReady stopped, deliver_stopped consumer ready law s isReady stopped]
      · have within : chunk.length ≤ consumer.request s := respects.1.resolve_left stopped
        rw [delivered, if_neg stopped, singles_append, deliver_append,
          ← absorb_singles consumer ready law s chunk isReady within]
        exact ih (consumer.absorb s chunk) (law.stays s chunk isReady within) respects.2

theorem segmentation_independent (consumer : Consumer S A) (ready : S → Prop) (law : Incremental consumer ready)
    (s : S) (left right : List (List A)) (stream : List A) (isReady : ready s)
    (leftRespects : Respects consumer s left) (rightRespects : Respects consumer s right)
    (leftPrefix : delivered consumer s left <+: stream) (rightPrefix : delivered consumer s right <+: stream)
    (total : (delivered consumer s left).length = (delivered consumer s right).length) :
    deliver consumer s left = deliver consumer s right := by
  have same : delivered consumer s left = delivered consumer s right :=
    (List.prefix_of_prefix_length_le leftPrefix rightPrefix (Nat.le_of_eq total)).eq_of_length total
  rw [deliver_delivered consumer ready law s left isReady leftRespects,
    deliver_delivered consumer ready law s right isReady rightRespects, same]

theorem singles_respects (consumer : Consumer S A) (s : S) (items : List A) :
    Respects consumer s (singles items) := by
  induction items generalizing s with
  | nil => trivial
  | cons item rest ih =>
      refine ⟨?_, ih _⟩
      rcases Nat.eq_zero_or_pos (consumer.request s) with stopped | open_
      · exact .inl stopped
      · exact .inr open_

end Reader
