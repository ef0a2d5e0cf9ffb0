import PushReceiver.Login

set_option autoImplicit false

namespace PushReceiver

-- The while loop of StringUtil::split with a character: std::getline takes what stands in front of
-- the next delimiter, or all that is left, and fails at the end of the text.
def getlines (str : Bytes) (delim : UInt8) : List Bytes :=
  if str = [] then []
  else str.takeWhile (· ≠ delim) :: getlines ((str.dropWhile (· ≠ delim)).drop 1) delim
termination_by str.length
decreasing_by
  rename_i nonempty
  have dropped : (str.dropWhile (· ≠ delim)).length ≤ str.length := List.length_dropWhile_le _ str
  have positive : 0 < str.length := List.length_pos_iff.mpr nonempty
  rw [List.length_drop]
  omega

def splitChar (str : Bytes) (delim : UInt8) : List Bytes :=
  getlines str delim ++ if str = [] ∨ str.getLast? = some delim then [[]] else []

-- std::isspace in the "C" locale.
def stdIsSpace (chr : UInt8) : Bool := chr = 32 || (9 ≤ chr && chr ≤ 13)

-- operator>> into a std::string.
def extractWord (text : Bytes) : Bytes := (text.dropWhile stdIsSpace).takeWhile fun chr => !stdIsSpace chr

-- A file is what stands in it, none where there is no such file.
def writePersistentIdToFile (opens : Bool) (persistentIds : Bytes) (file : Option Bytes) : Bool × Option Bytes :=
  if opens then (true, some persistentIds) else (false, file)

def loadPersistentId (file : Option Bytes) (persistentIds : List Bytes) : Bool × List Bytes :=
  match file with
  | none => (false, persistentIds)
  | some text => (true, splitChar (extractWord text) 59)

-- An id that the file cannot hold: a semicolon or white space stands in it.
def Separates (id : Bytes) : Prop := ∃ chr ∈ id, chr = 59 ∨ stdIsSpace chr

instance (id : Bytes) : Decidable (Separates id) := inferInstanceAs (Decidable (∃ chr ∈ id, _))

structure IdsSurvive (ids : List Bytes) (request : LoginRequest) : Prop where
  kept : (∀ id ∈ ids, ¬ Separates id) → request.receivedPersistentId = ids
  changed : (∃ id ∈ ids, Separates id) → request.receivedPersistentId ≠ ids

theorem getlines_nil (delim : UInt8) : getlines [] delim = [] := by
  rw [getlines, if_pos rfl]

theorem getlines_last (str : Bytes) (delim : UInt8) (nonempty : str ≠ []) (absent : delim ∉ str) :
    getlines str delim = [str] := by
  have differ := each_differs str delim absent
  rw [getlines, if_neg nonempty, List.takeWhile_eq_self_iff.mpr differ, List.dropWhile_eq_nil_iff.mpr differ, List.drop_nil,
    getlines_nil]

theorem getlines_first (before after : Bytes) (delim : UInt8) (first : delim ∉ before) :
    getlines (before ++ delim :: after) delim = before :: getlines after delim := by
  have differ := each_differs before delim first
  rw [getlines, if_neg (by simp), List.dropWhile_append_of_pos differ, List.takeWhile_append_of_pos differ]
  simp

-- The semantics of split(str, str) that the source asks for.
theorem split_char_split (str : Bytes) (delim : UInt8) : splitChar str delim = split str delim := by
  induction str using delimited_induction delim with
  | alone str absent =>
      rw [split_alone str delim absent, splitChar]
      by_cases empty : str = []
      · rw [empty, getlines_nil, if_pos (.inl rfl)]
        rfl
      · have last : str.getLast? ≠ some delim := fun last => absent (List.mem_of_getLast? last)
        rw [getlines_last str delim empty absent, if_neg (not_or.mpr ⟨empty, last⟩)]
        rfl
  | first before after absent ih =>
      have ends : (before ++ delim :: after = [] ∨ (before ++ delim :: after).getLast? = some delim) ↔
          (after = [] ∨ after.getLast? = some delim) := by
        cases after with
        | nil => simp
        | cons chr rest => simp [List.getLast?_append, List.getLast?_cons_cons]
      rw [split_first before after delim absent, ← ih, splitChar, splitChar, getlines_first before after delim absent,
        if_congr ends rfl rfl]
      rfl

theorem split_tokens (str : Bytes) (delim : UInt8) (token : Bytes) (member : token ∈ split str delim) :
    delim ∉ token ∧ ∀ chr ∈ token, chr ∈ str := by
  induction str using delimited_induction delim with
  | alone str absent =>
      rw [split_alone str delim absent, List.mem_singleton] at member
      rw [member]
      exact ⟨absent, fun _ here => here⟩
  | first before after absent ih =>
      rw [split_first before after delim absent] at member
      rcases List.mem_cons.mp member with rfl | later
      · exact ⟨absent, fun chr within => List.mem_append_left _ within⟩
      · obtain ⟨missing, within⟩ := ih later
        exact ⟨missing, fun chr here => List.mem_append_right _ (List.mem_cons_of_mem _ (within chr here))⟩

theorem word_space (text : Bytes) (chr : UInt8) (member : chr ∈ extractWord text) : stdIsSpace chr = false := by
  have taken := List.mem_takeWhile_imp member
  simpa using taken

theorem word_whole (text : Bytes) (solid : ∀ chr ∈ text, stdIsSpace chr = false) : extractWord text = text := by
  have kept : text.dropWhile stdIsSpace = text := by
    cases text with
    | nil => rfl
    | cons chr rest => rw [List.dropWhile_cons_of_neg (by simp [solid chr List.mem_cons_self])]
  rw [extractWord, kept]
  exact List.takeWhile_eq_self_iff.mpr fun chr member => by simp [solid chr member]

theorem join_members (tokens : List Bytes) (delim : Bytes) (chr : UInt8) (member : chr ∈ join tokens delim) :
    chr ∈ delim ∨ ∃ token ∈ tokens, chr ∈ token := by
  induction tokens with
  | nil => cases member
  | cons token rest ih =>
      cases rest with
      | nil => exact .inr ⟨token, List.mem_singleton_self token, by simpa [join] using member⟩
      | cons next later =>
          rw [join, List.intercalate_cons_cons, List.append_assoc] at member
          rcases List.mem_append.mp member with here | behind
          · exact .inr ⟨token, List.mem_cons_self, here⟩
          · rcases List.mem_append.mp behind with separator | after
            · exact .inl separator
            · rcases ih after with separator | ⟨found, inside, within⟩
              · exact .inl separator
              · exact .inr ⟨found, List.mem_cons_of_mem _ inside, within⟩

-- What the client loads from the file, less the empty token of an empty file.
theorem loaded_ids (ids : List Bytes) (nonempty : ∀ id ∈ ids, id ≠ []) (solid : ∀ id ∈ ids, ¬ Separates id) :
    (splitChar (extractWord (join ids (ascii ";"))) 59).filter (· ≠ []) = ids := by
  have plain : ∀ id ∈ ids, ∀ chr ∈ id, chr ≠ 59 ∧ stdIsSpace chr = false := by
    intro id member chr inside
    obtain ⟨differs, noSpace⟩ := not_or.mp fun separates => solid id member ⟨chr, inside, separates⟩
    exact ⟨differs, Bool.not_eq_true _ ▸ noSpace⟩
  have word : extractWord (join ids (ascii ";")) = join ids (ascii ";") := by
    apply word_whole
    intro chr member
    rcases join_members ids _ chr member with separator | ⟨id, inside, within⟩
    · rw [List.mem_singleton.mp separator]
      rfl
    · exact (plain id inside chr within).2
  rw [word, split_char_split]
  by_cases none : ids = []
  · rw [none]
    rfl
  · have tokens : split (join ids (ascii ";")) 59 = ids :=
      List.splitOn_intercalate 59 (fun id member inside => (plain id member 59 inside).1 rfl) none
    rw [tokens, List.filter_eq_self.mpr]
    intro id member
    exact decide_eq_true (nonempty id member)

theorem sent_ids (client : FcmClient) (request : LoginRequest) (requested : loginRequest client = .ok request) :
    request.receivedPersistentId = (client.receiver.app.persistentIds.filter (· ≠ [])).map cStr := by
  obtain ⟨androidIdHex, _, requested⟩ := bind_ok _ _ _ requested
  rw [← Except.ok.inj requested]

theorem c_str_whole (text : Bytes) : cStr text = text ↔ 0 ∉ text := take_while_whole text 0

theorem map_c_str_whole (ids : List Bytes) : ids.map cStr = ids ↔ ∀ id ∈ ids, 0 ∉ id := by
  induction ids with
  | nil => simp
  | cons id rest ih => rw [List.map_cons, List.cons.injEq, ih, c_str_whole, List.forall_mem_cons]

theorem sent_never_separates (text id : Bytes) (sent : id ∈ ((splitChar (extractWord text) 59).filter (· ≠ [])).map cStr) :
    ¬ Separates id := by
  obtain ⟨token, member, rfl⟩ := List.mem_map.mp sent
  rw [split_char_split] at member
  obtain ⟨absent, within⟩ := split_tokens _ 59 token (List.mem_of_mem_filter member)
  rintro ⟨chr, inside, separator | space⟩
  · rw [separator] at inside
    exact absent ((List.takeWhile_subset _) inside)
  · have solid := word_space text chr (within chr ((List.takeWhile_subset _) inside))
    rw [space] at solid
    cases solid

theorem ids_survive_iff (ids : List Bytes) (nonempty : ∀ id ∈ ids, id ≠ []) (file : Option Bytes) (client : FcmClient)
    (loaded : client.receiver.app.persistentIds =
      (loadPersistentId (writePersistentIdToFile true (join ids (ascii ";")) file).2 []).2)
    (request : LoginRequest) (requested : loginRequest client = .ok request) :
    IdsSurvive ids request ↔ (∃ id ∈ ids, Separates id) ∨ ∀ id ∈ ids, 0 ∉ id := by
  have sent := sent_ids client request requested
  rw [loaded] at sent
  change request.receivedPersistentId = ((splitChar (extractWord (join ids (ascii ";"))) 59).filter (· ≠ [])).map cStr at sent
  by_cases separated : ∃ id ∈ ids, Separates id
  · refine iff_of_true ⟨?_, ?_⟩ (.inl separated)
    · intro solid
      obtain ⟨id, member, separates⟩ := separated
      exact absurd separates (solid id member)
    · intro ⟨id, member, separates⟩ same
      rw [← same, sent] at member
      exact sent_never_separates _ id member separates
  · have solid : ∀ id ∈ ids, ¬ Separates id := fun id member separates => separated ⟨id, member, separates⟩
    rw [loaded_ids ids nonempty solid] at sent
    rw [or_iff_right separated, ← map_c_str_whole, ← sent]
    exact ⟨fun survive => survive.kept solid, fun kept => ⟨fun _ => kept, fun broken => absurd broken separated⟩⟩

-- A client that is started with the file an earlier session has left.
def restarted (ids : List Bytes) : FcmClient :=
  { loginClient with
    receiver := .fresh (.loaded (loadPersistentId (writePersistentIdToFile true (join ids (ascii ";")) none).2 []).2) }

theorem restarted_requests (ids : List Bytes) : ∃ request, loginRequest (restarted ids) = .ok request := by
  have read : loginClient.loginIds = some (7, 8) := by decide +kernel
  exact login_request_made (restarted ids) (7, 8) read

theorem ids_survive_plain : ∃ request, loginRequest (restarted [ascii "a", ascii "b:c"]) = .ok request ∧
    (IdsSurvive [ascii "a", ascii "b:c"] request ↔
      (∃ id ∈ [ascii "a", ascii "b:c"], Separates id) ∨ ∀ id ∈ [ascii "a", ascii "b:c"], 0 ∉ id) := by
  obtain ⟨request, requested⟩ := restarted_requests [ascii "a", ascii "b:c"]
  exact ⟨request, requested, ids_survive_iff _ (by decide) none (restarted [ascii "a", ascii "b:c"]) rfl request requested⟩

-- What stands behind a zero byte of an id is lost on the way through c_str().
theorem zero_byte_lost : ∃ request, loginRequest (restarted [[97, 0, 98]]) = .ok request ∧
    request.receivedPersistentId = [[97]] ∧ ¬ IdsSurvive [[97, 0, 98]] request := by
  have solid : ∀ id ∈ [([97, 0, 98] : Bytes)], ¬ Separates id := by decide
  obtain ⟨request, requested⟩ := restarted_requests [[97, 0, 98]]
  have sent : request.receivedPersistentId = [[97]] := by
    rw [sent_ids (restarted [[97, 0, 98]]) request requested]
    exact congrArg (List.map cStr) (loaded_ids [[97, 0, 98]] (by decide) solid)
  refine ⟨request, requested, sent, fun survive => ?_⟩
  have kept := survive.kept solid
  rw [sent] at kept
  cases kept

end PushReceiver
