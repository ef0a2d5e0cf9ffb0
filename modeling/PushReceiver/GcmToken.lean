import PushReceiver.RegisterOutcome

set_option autoImplicit false

namespace PushReceiver

def IsToken (body token : Bytes) : Prop := token ≠ [] ∧ body = ascii "token=" ++ token

-- What an answer to the GCM registration is meant to be read as: a token, or a failure.
structure TakesToken (body : Bytes) (result : Except Exception Bytes) : Prop where
  whole : ∀ token, IsToken body token → result = .ok token
  failure : (∀ token, ¬ IsToken body token) → result = .ok []

-- The token has no equal sign in it, or the body is no token and nothing stands between its first
-- equal sign and the next one or the end.
inductive TokenReadable (body : Bytes) : Prop where
  | token (token : Bytes) (isToken : IsToken body token) (single : equalSign ∉ token)
  | failure (noToken : ∀ token, ¬ IsToken body token) (before after : Bytes) (split : body = before ++ equalSign :: after)
      (first : equalSign ∉ before) (empty : after = [] ∨ after.head? = some equalSign)

theorem second_field_split (before after : Bytes) (first : equalSign ∉ before) :
    secondField (before ++ equalSign :: after) = after.takeWhile (· ≠ equalSign) := by
  rw [secondField, List.dropWhile_append_of_pos (each_differs before equalSign first)]
  simp

theorem first_unique (before after other rest : Bytes) (same : before ++ equalSign :: after = other ++ equalSign :: rest)
    (first : equalSign ∉ before) (otherFirst : equalSign ∉ other) : before = other ∧ after = rest := by
  have front := congrArg (fun text => text.takeWhile fun chr => decide (chr ≠ equalSign)) same
  simp only [List.takeWhile_append_of_pos (each_differs before equalSign first),
    List.takeWhile_append_of_pos (each_differs other equalSign otherFirst)] at front
  have equal : before = other := by simpa using front
  rw [equal] at same
  exact ⟨equal, (List.cons.inj (List.append_cancel_left same)).2⟩

theorem token_key : equalSign ∉ ascii "token" := by decide

theorem token_split (token : Bytes) : ascii "token=" ++ token = ascii "token" ++ equalSign :: token := rfl

theorem take_while_empty (after : Bytes) :
    after.takeWhile (fun chr => decide (chr ≠ equalSign)) = [] ↔ after = [] ∨ after.head? = some equalSign := by
  cases after with
  | nil => simp
  | cons chr rest => by_cases same : chr = equalSign <;> simp [same]

theorem is_token_unique (body token other : Bytes) (isToken : IsToken body token) (also : IsToken body other) : token = other :=
  List.append_cancel_left (isToken.2.symm.trans also.2)

-- A token is returned up to its first equal sign.
theorem token_taken_iff (body token : Bytes) (isToken : IsToken body token) :
    TakesToken body (.ok (secondField body)) ↔ TokenReadable body := by
  have taken : secondField body = token.takeWhile (fun chr => decide (chr ≠ equalSign)) := by
    rw [isToken.2, token_split, second_field_split _ token token_key]
  rw [taken]
  constructor
  · intro takes
    exact .token token isToken ((take_while_whole token equalSign).mp (Except.ok.inj (takes.whole token isToken)))
  · intro readable
    cases readable with
    | token other also single =>
        obtain rfl := is_token_unique body token other isToken also
        rw [(take_while_whole token equalSign).mpr single]
        exact ⟨fun third again => congrArg _ (is_token_unique body token third isToken again),
          fun noToken => absurd isToken (noToken token)⟩
    | failure noToken => exact absurd isToken (noToken token)

-- Of any other answer the text behind the first equal sign is returned.
theorem failure_taken_iff (body : Bytes) (noToken : ∀ token, ¬ IsToken body token) (field : equalSign ∈ body) :
    TakesToken body (.ok (secondField body)) ↔ TokenReadable body := by
  obtain ⟨before, after, split, first⟩ := first_delimiter body equalSign field
  have taken : secondField body = after.takeWhile (fun chr => decide (chr ≠ equalSign)) := by
    rw [split, second_field_split before after first]
  rw [taken]
  constructor
  · intro takes
    exact .failure noToken before after split first ((take_while_empty after).mp (Except.ok.inj (takes.failure noToken)))
  · intro readable
    cases readable with
    | token token isToken => exact absurd isToken (noToken token)
    | failure _ other rest otherSplit otherFirst empty =>
        obtain ⟨_, rfl⟩ := first_unique before after other rest (split.symm.trans otherSplit) first otherFirst
        rw [(take_while_empty after).mpr empty]
        exact ⟨fun token isToken => absurd isToken (noToken token), fun _ => rfl⟩

theorem no_field_no_token (body : Bytes) (noField : equalSign ∉ body) (token : Bytes) : ¬ IsToken body token := by
  intro isToken
  rw [isToken.2] at noField
  exact noField (List.mem_append_left _ (by decide))

theorem readable_field (body : Bytes) (readable : TokenReadable body) : equalSign ∈ body := by
  cases readable with
  | token token isToken =>
      by_contra noField
      exact no_field_no_token body noField token isToken
  | failure _ before after split =>
      rw [split]
      exact List.mem_append_right before List.mem_cons_self

theorem takes_token_iff (http : Http) (appId : Bytes) (androidId securityToken : UInt64) (body : Bytes)
    (posted : http.post (gcmRequest appId androidId securityToken) = some body) :
    TakesToken body (doGCMRegister http appId androidId securityToken) ↔ TokenReadable body := by
  rw [gcm_exchange, posted]
  dsimp only
  by_cases field : equalSign ∈ body
  · rw [if_pos field]
    by_cases some_token : ∃ token, IsToken body token
    · obtain ⟨token, isToken⟩ := some_token
      exact token_taken_iff body token isToken
    · exact failure_taken_iff body (not_exists.mp some_token) field
  · rw [if_neg field]
    constructor
    · intro takes
      cases takes.failure (no_field_no_token body field)
    · intro readable
      exact absurd (readable_field body readable) field

-- What the GCM server answers for a sender it refuses.
def refusingGcm (body : Bytes) : Http :=
  { sampleHttp with
    post := fun request =>
      if request.url = ascii "https://android.clients.google.com/c2dm/register3" then some body else sampleHttp.post request }

theorem takes_token_sample :
    TakesToken (ascii "token=abc") (doGCMRegister (refusingGcm (ascii "token=abc")) (ascii "app") 7 8) ↔
      TokenReadable (ascii "token=abc") :=
  takes_token_iff (refusingGcm (ascii "token=abc")) (ascii "app") 7 8 (ascii "token=abc") rfl

-- The error text is taken for the token.
theorem error_taken :
    doGCMRegister (refusingGcm (ascii "Error=PHONE_REGISTRATION_ERROR")) (ascii "app") 7 8 =
        .ok (ascii "PHONE_REGISTRATION_ERROR") ∧
      ¬ TakesToken (ascii "Error=PHONE_REGISTRATION_ERROR")
        (doGCMRegister (refusingGcm (ascii "Error=PHONE_REGISTRATION_ERROR")) (ascii "app") 7 8) := by
  have taken : doGCMRegister (refusingGcm (ascii "Error=PHONE_REGISTRATION_ERROR")) (ascii "app") 7 8 =
      .ok (ascii "PHONE_REGISTRATION_ERROR") := by decide +kernel
  refine ⟨taken, fun takes => ?_⟩
  have noToken : ∀ token, ¬ IsToken (ascii "Error=PHONE_REGISTRATION_ERROR") token := by
    intro token isToken
    have first : (ascii "Error=PHONE_REGISTRATION_ERROR").head? = some 116 := congrArg List.head? isToken.2
    exact absurd first (by decide)
  have failed := takes.failure noToken
  rw [taken] at failed
  cases failed

end PushReceiver
